import Acceptor.Proofs.Definition.Listing

/-!
# Writing definitions

An automaton is written with one space between names, the final states in an order in which the
first is not taken for the mark, one line for each transition, and a carriage return and a line
feed after each line.  Reading this layout gives the automaton back whenever any text does, so
the layout tells which automata can be read at all.

* `isExpressible_of_read`: what is read from a text has the form that `IsExpressible` says.
* `exists_read_layout`: an automaton of this form is read from its layout.
-/

namespace Acceptor

/-! ## Names -/

theorem Text.isName_of_mem_tokens {line name : Text} (hline : '\n' ∉ line)
    (h : name ∈ Text.tokens line) : Text.IsName name where
  toIsToken := Text.isToken_of_mem_tokens h
  notMem_newline hm := hline (Text.subset_of_mem_tokens h hm)

theorem Text.isName_of_isRun {line name : Text} (hline : '\n' ∉ line)
    (h : Text.IsRun line name) : Text.IsName name :=
  Text.isName_of_mem_tokens hline (Text.mem_tokens_iff.2 h)

namespace Definition

/-! ## The layout -/

/-- The text of a definition, each line of which is ended by a carriage return and a line feed. -/
def Sections.text (s : Sections) : Text := s.lines.flatMap (· ++ ['\r', '\n'])

end Definition

namespace Automaton

open Definition

variable {d : Automaton}

/-- The final states, of which those that cannot be taken for the mark come first. -/
def finalsInOrder (d : Automaton) : List State :=
  d.finals.toList.filter (Text.trim · ≠ noFinals) ++
    d.finals.toList.filter (Text.trim · = noFinals)

/-- The transitions in the order of their keys. -/
def transitionList (d : Automaton) : List Transition :=
  d.transitions.entries.map fun e ↦ ⟨e.1.state, e.1.symbol, e.2⟩

/-- The sections in which an automaton is written. -/
def layout (d : Automaton) : Sections where
  alphabet := joined d.alphabet.toList
  states := joined d.states.toList
  initial := d.initial
  finals := if d.finalsInOrder = [] then noFinals else joined d.finalsInOrder
  transitions := d.transitionList.map (joined ·.names)

/-! ## Expressible automata -/

/-- The form of the automata that a definition can describe.  The initial state has a whole line
for itself and may hold spaces, and the final states need one that is not taken for the mark. -/
structure IsExpressible (d : Automaton) : Prop where
  alphabet_nonempty : ∃ a, a ∈ d.alphabet
  states_nonempty : ∃ q, q ∈ d.states
  alphabet : ∀ a ∈ d.alphabet, Text.IsName a
  states : ∀ q ∈ d.states, Text.IsName q
  finals : ∀ q ∈ d.finals, Text.IsName q
  transitions : ∀ q a r, d.target? q a = some r → Text.IsName q ∧ Text.IsName a ∧ Text.IsName r
  initial_ne_nil : d.initial ≠ []
  initial_newline : '\n' ∉ d.initial
  initial_trim : Text.trim d.initial = d.initial
  finals_unmarked : (∀ q, ¬ q ∈ d.finals) ∨ ∃ q ∈ d.finals, Text.trim q ≠ noFinals

theorem mem_finalsInOrder {q : State} : q ∈ d.finalsInOrder ↔ q ∈ d.finals := by
  rw [finalsInOrder, List.mem_append, List.mem_filter, List.mem_filter, ← and_or_left,
    SortedSet.mem_toList]
  simp [em']

/-- The first of the final states is not taken for the mark. -/
theorem IsExpressible.head_unmarked (h : d.IsExpressible) {first : State} {others : List State}
    (hfinals : d.finalsInOrder = first :: others) : Text.trim first ≠ noFinals := by
  rcases h.finals_unmarked with hnone | ⟨q, hq, hunmarked⟩
  · exact absurd (mem_finalsInOrder.1 (hfinals ▸ List.mem_cons_self)) (hnone first)
  · have hmem : q ∈ d.finals.toList.filter (Text.trim · ≠ noFinals) :=
      List.mem_filter.2 ⟨hq, by simpa using hunmarked⟩
    obtain ⟨head, rest, hsplit⟩ := List.exists_cons_of_ne_nil (List.ne_nil_of_mem hmem)
    rw [finalsInOrder, hsplit, List.cons_append] at hfinals
    obtain ⟨rfl, -⟩ := List.cons.inj hfinals
    have hhead : head ∈ d.finals.toList.filter (Text.trim · ≠ noFinals) :=
      hsplit ▸ List.mem_cons_self
    simpa using (List.mem_filter.1 hhead).2

/-! ## The layout as a listing -/

/-- The names of an automaton in the order of its layout. -/
def listing (d : Automaton) : Listing where
  alphabet := d.alphabet.toList
  states := d.states.toList
  initial := d.initial
  finals := d.finalsInOrder
  transitions := d.transitionList

theorem layout_eq_sections (d : Automaton) : d.layout = d.listing.sections := rfl

theorem automaton_listing (d : Automaton) : d.listing.automaton = d := by
  have hfinals : SortedSet.ofList d.finalsInOrder = d.finals :=
    SortedSet.ext fun _ ↦ SortedSet.mem_ofList.trans mem_finalsInOrder
  have htransitions : Transition.table d.transitionList = d.transitions := by
    rw [Transition.table, transitionList, List.map_map]
    exact (congrArg SortedMap.ofList (List.map_id _)).trans (SortedMap.ofList_entries d.transitions)
  rw [Listing.automaton, listing, build, SortedSet.ofList_toList, SortedSet.ofList_toList, hfinals,
    htransitions]

theorem IsExpressible.names (h : d.IsExpressible) {t : Transition} (ht : t ∈ d.transitionList) :
    ∀ n ∈ t.names, Text.IsName n := by
  obtain ⟨e, he, rfl⟩ := List.mem_map.1 ht
  obtain ⟨hq, ha, hr⟩ := h.transitions e.1.state e.1.symbol e.2 (SortedMap.get?_eq_some.2 he)
  simpa [Transition.names] using ⟨hq, ha, hr⟩

theorem IsExpressible.isWritable (h : d.IsExpressible) : d.listing.IsWritable where
  alphabet_ne_nil := h.alphabet_nonempty.elim fun _ ha ↦ List.ne_nil_of_mem ha
  states_ne_nil := h.states_nonempty.elim fun _ hq ↦ List.ne_nil_of_mem hq
  names := by
    intro n hn
    simp only [Listing.names, List.mem_append, List.mem_flatMap] at hn
    rcases hn with ((hn | hn) | hn) | ⟨t, ht, hn⟩
    · exact h.alphabet n hn
    · exact h.states n hn
    · exact h.finals n (mem_finalsInOrder.1 hn)
    · exact h.names ht n hn
  initial_ne_nil := h.initial_ne_nil
  initial_newline := h.initial_newline
  initial_trim := h.initial_trim
  first_unmarked := by
    intro first hfirst
    obtain ⟨others, hfinals⟩ := List.head?_eq_some_iff.1 hfirst
    exact h.head_unmarked hfinals

end Automaton

namespace Definition

variable {text : Text} {d : Automaton}

/-- A valid definition is not changed by its line ends. -/
theorem Sections.IsValid.lines_text {s : Sections} (h : s.IsValid)
    (hfeed : ∀ line ∈ s.lines, '\n' ∉ line) : Text.lines s.text = s.lines := by
  rw [Sections.text, Text.lines_flatMap_crlf hfeed, h.dropEndWhile_lines]

/-- An expressible automaton is read from its layout. -/
theorem exists_read_layout (h : d.IsExpressible) :
    ∃ r, read (Text.lines d.layout.text) = .ok r ∧ r.automaton = d := by
  have hwritable : d.listing.IsWritable := h.isWritable
  rw [Automaton.layout_eq_sections,
    hwritable.reads.isValid.lines_text hwritable.notMem_lines]
  simpa only [Automaton.automaton_listing] using hwritable.exists_read

/-- What a valid definition means is expressible. -/
theorem Sections.IsValid.isExpressible {s : Sections} (hvalid : s.IsValid)
    (hdenotes : s.Denotes d) (hfeed : ∀ line ∈ s.lines, '\n' ∉ line) : d.IsExpressible := by
  simp only [Sections.lines, List.mem_cons, forall_eq_or_imp] at hfeed
  obtain ⟨-, halphabet, hstates, hinitial, hfinals, htransitions⟩ := hfeed
  have hrun : ∀ {line : Text}, (∃ c ∈ line, c ≠ ' ') → ∃ name, Text.IsRun line name := by
    intro line hline
    obtain ⟨name, hname⟩ := List.exists_mem_of_ne_nil _ (Sections.tokens_ne_nil_iff.2 hline)
    exact ⟨name, Text.mem_tokens_iff.1 hname⟩
  exact {
    alphabet_nonempty := (hrun hvalid.alphabet).imp fun a ↦ (hdenotes.alphabet a).2
    states_nonempty := (hrun hvalid.states).imp fun q ↦ (hdenotes.states q).2
    alphabet := fun a ha ↦ Text.isName_of_isRun halphabet ((hdenotes.alphabet a).1 ha)
    states := fun q hq ↦ Text.isName_of_isRun hstates ((hdenotes.states q).1 hq)
    finals := fun q hq ↦ Text.isName_of_isRun hfinals ((hdenotes.finals q).1 hq).1
    transitions := by
      intro q a r hr
      obtain ⟨earlier, line, later, hsplit, hnames, -⟩ := (hdenotes.transitions q a r).1 hr
      have hline : '\n' ∉ line := htransitions line (by simp [hsplit])
      have hname : ∀ n ∈ [q, a, r], Text.IsName n :=
        fun n hn ↦ Text.isName_of_mem_tokens hline (hnames.tokens_eq ▸ hn)
      exact ⟨hname q (by simp), hname a (by simp), hname r (by simp)⟩
    initial_ne_nil := by
      rw [hdenotes.initial]
      exact Sections.trim_ne_nil_iff.2 hvalid.initial
    initial_newline := by
      rw [hdenotes.initial]
      exact fun hm ↦ hinitial (Text.mem_of_mem_trim hm)
    initial_trim := by rw [hdenotes.initial, Text.trim_trim]
    finals_unmarked := by
      by_cases hmark : s.HasNoFinals
      · exact .inl fun q hq ↦ ((hdenotes.finals q).1 hq).2 hmark
      · obtain ⟨first, others, htokens⟩ :=
          List.exists_cons_of_ne_nil (Sections.tokens_ne_nil_iff.2 hvalid.finals)
        have hfirst : Text.IsRun s.finals first := Text.mem_tokens_iff.1 (by simp [htokens])
        refine .inr ⟨first, (hdenotes.finals first).2 ⟨hfirst, hmark⟩, fun htrim ↦ ?_⟩
        exact hmark ⟨first, others, Text.tokens_eq_iff.1 htokens, htrim⟩ }

/-- What is read is expressible. -/
theorem isExpressible_of_read {r : Reading} (h : read (Text.lines text) = .ok r) :
    r.automaton.IsExpressible := by
  obtain ⟨s, hlines, hvalid, hdenotes⟩ := exists_sections_of_read h
  exact hvalid.isExpressible hdenotes fun line hline ↦ Text.notMem_of_mem_lines (hlines ▸ hline)

theorem exists_text_read_iff :
    (∃ text, ∃ r, read (Text.lines text) = .ok r ∧ r.automaton = d) ↔ d.IsExpressible := by
  constructor
  · rintro ⟨text, r, hr, rfl⟩
    exact isExpressible_of_read hr
  · intro h
    exact ⟨d.layout.text, exists_read_layout h⟩

/-- Plain reading gives the expressible automata and no others, each from its layout, and strict
reading gives those of them that pass the check. -/
theorem parse_image (config : Config) (d : Automaton) (lines : Automaton.LineNumbers) :
    ((∃ text, parse { config with strict := false } text = .ok d) ↔ d.IsExpressible) ∧
    (parse { config with strict := false } d.layout.text = .ok d ↔ d.IsExpressible) ∧
    ((∃ text, parse { config with strict := true } text = .ok d) ↔
      d.IsExpressible ∧ d.validate lines = .ok d) := by
  have hplain : ∀ text, parse { config with strict := false } text = .ok d ↔
      ∃ r, read (Text.lines text) = .ok r ∧ r.automaton = d :=
    fun _ ↦ parse_permissive_eq_ok_iff rfl
  have hstrict : ∀ text, parse { config with strict := true } text = .ok d ↔
      (∃ r, read (Text.lines text) = .ok r ∧ r.automaton = d) ∧ d.IsDeclared :=
    fun _ ↦ parse_strict_eq_ok_iff rfl
  refine ⟨?_, ?_, ?_⟩
  · simp only [hplain]
    exact exists_text_read_iff
  · rw [hplain]
    constructor
    · rintro ⟨r, hr, rfl⟩
      exact isExpressible_of_read hr
    · exact exists_read_layout
  · simp only [hstrict, exists_and_right, exists_text_read_iff, Automaton.validate_eq_ok_iff,
      and_true]

-- The mark does not stand first, and a name keeps its own carriage return.
example :
    let d := Automaton.build ["0".toList] ["q\r".toList] "p q".toList
      ["!!".toList, "q\r".toList] [⟨"q\r".toList, "0".toList, "\t".toList⟩]
    d.layout.text = "dfa\r\n0\r\nq\r\r\np q\r\nq\r !!\r\nq\r 0 \t\r\n".toList ∧
      parse {} d.layout.text = .ok d := by
  decide +kernel

end Definition

end Acceptor
