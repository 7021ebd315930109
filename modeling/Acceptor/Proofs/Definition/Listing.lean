import Acceptor.Proofs.Definition.Grammar
import Acceptor.Proofs.Automaton.Building
import Acceptor.Proofs.Text.Writing

/-!
# Listings

The plain lists that an automaton is built from can be written down as a definition: one space
between names, the mark in the place of final states when there are none, and one line for each
transition.  Whatever is listed, in any order and more than once, is read as it is built.

* `IsWritable.exists_read`: the definition that lists an automaton is read as it.
* `constructions_agree`: filling a mapping first makes no difference either.
-/

namespace Acceptor

/-- A token that fits on a line. -/
structure Text.IsName (t : Text) : Prop extends Text.IsToken t where
  notMem_newline : '\n' ∉ t

/-- The plain lists that an automaton is built from. -/
structure Listing where
  alphabet : List Symbol
  states : List State
  initial : State
  finals : List State
  transitions : List Transition

namespace Definition

/-! ## Names on lines -/

/-- Names with one space between neighbours. -/
def joined (names : List Text) : Text := [' '].intercalate names

theorem tokens_joined {names : List Text} (h : ∀ n ∈ names, Text.IsToken n) :
    Text.tokens (joined names) = names := Text.tokens_intercalate h

/-- Joining names puts nothing but spaces between them. -/
theorem notMem_joined {c : Char} (hc : c ≠ ' ') {names : List Text} (h : ∀ n ∈ names, c ∉ n) :
    c ∉ joined names := by
  induction names with
  | nil => simp [joined]
  | cons n names ih =>
      have hn : c ∉ n := h n (by simp)
      cases names with
      | nil => simpa [joined] using hn
      | cons m names =>
          have hrest : c ∉ joined (m :: names) := ih fun k hk ↦ h k (List.mem_cons_of_mem n hk)
          rw [joined, List.intercalate_cons_cons, ← joined]
          simp [hn, hrest, hc]

end Definition

namespace Definition.Sections

variable {s : Sections}

/-- The lines of a valid definition are not empty. -/
theorem IsValid.ne_nil_of_mem_lines (h : s.IsValid) : ∀ line ∈ s.lines, line ≠ [] := by
  have hne : ∀ {p : Char → Prop} {line : Text}, (∃ c ∈ line, p c) → line ≠ [] :=
    fun ⟨_, hc, _⟩ ↦ List.ne_nil_of_mem hc
  simp only [Sections.lines, List.mem_cons, forall_eq_or_imp]
  refine ⟨by decide, hne h.alphabet, hne h.states, hne h.initial, hne h.finals, ?_⟩
  rintro line hline rfl
  obtain ⟨q, a, r, hnames⟩ := h.transitions [] hline
  simpa using hnames.tokens_eq

/-- No line of a valid definition is taken for a trailing empty one. -/
theorem IsValid.dropEndWhile_lines (h : s.IsValid) :
    Text.dropEndWhile List.isEmpty s.lines = s.lines := by
  rw [Text.dropEndWhile_eq_self_iff]
  intro line hline
  simpa using h.ne_nil_of_mem_lines line (List.mem_of_getLast? hline)

end Definition.Sections

namespace Listing

open Definition

variable {l : Listing}

def automaton (l : Listing) : Automaton :=
  .build l.alphabet l.states l.initial l.finals l.transitions

/-- The names that stand between spaces.  The initial state has a line of its own. -/
def names (l : Listing) : List Text :=
  l.alphabet ++ l.states ++ l.finals ++ l.transitions.flatMap Transition.names

/-- The sections of the definition that lists the automaton. -/
def sections (l : Listing) : Sections where
  alphabet := joined l.alphabet
  states := joined l.states
  initial := l.initial
  finals := if l.finals = [] then noFinals else joined l.finals
  transitions := l.transitions.map (joined ·.names)

/-! ## Listings that can be read -/

/-- A listing that a definition can hold as it is.  The final state that is listed first must not be
taken for the mark. -/
structure IsWritable (l : Listing) : Prop where
  alphabet_ne_nil : l.alphabet ≠ []
  states_ne_nil : l.states ≠ []
  names : ∀ n ∈ l.names, Text.IsName n
  initial_ne_nil : l.initial ≠ []
  initial_newline : '\n' ∉ l.initial
  initial_trim : Text.trim l.initial = l.initial
  first_unmarked : ∀ first ∈ l.finals.head?, Text.trim first ≠ noFinals

/-! ## Names of a listing -/

theorem alphabet_subset (l : Listing) : l.alphabet ⊆ l.names := by
  intro a ha
  simp [names, ha]

theorem states_subset (l : Listing) : l.states ⊆ l.names := by
  intro q hq
  simp [names, hq]

theorem finals_subset (l : Listing) : l.finals ⊆ l.names := by
  intro q hq
  simp [names, hq]

theorem names_subset_of_mem {t : Transition} (ht : t ∈ l.transitions) : t.names ⊆ l.names := by
  intro n hn
  have hmem : n ∈ l.transitions.flatMap Transition.names := List.mem_flatMap.2 ⟨t, ht, hn⟩
  simp [names, hmem]

/-- What holds of the kind, the mark, the initial state and all names holds of all lines. -/
theorem forall_mem_lines {P : Text → Prop} (hkind : P kind) (hmark : P noFinals)
    (hinitial : P l.initial) (hjoined : ∀ names, names ⊆ l.names → P (joined names)) :
    ∀ line ∈ l.sections.lines, P line := by
  simp only [Sections.lines, sections, List.mem_cons, List.mem_map, forall_eq_or_imp]
  refine ⟨hkind, hjoined _ l.alphabet_subset, hjoined _ l.states_subset, hinitial, ?_, ?_⟩
  · split
    · exact hmark
    · exact hjoined _ l.finals_subset
  · rintro _ ⟨t, ht, rfl⟩
    exact hjoined _ (names_subset_of_mem ht)

namespace IsWritable

theorem tokens_joined (h : l.IsWritable) {names : List Text} (hnames : names ⊆ l.names) :
    Text.tokens (joined names) = names :=
  Definition.tokens_joined fun n hn ↦ (h.names n (hnames hn)).toIsToken

theorem tokens_alphabet (h : l.IsWritable) : Text.tokens l.sections.alphabet = l.alphabet :=
  h.tokens_joined l.alphabet_subset

theorem tokens_states (h : l.IsWritable) : Text.tokens l.sections.states = l.states :=
  h.tokens_joined l.states_subset

theorem readFinals_eq (h : l.IsWritable) : readFinals l.sections.finals = .ok l.finals := by
  cases hfinals : l.finals with
  | nil =>
      rw [sections, hfinals]
      rfl
  | cons first others =>
      have hunmarked : Text.trim first ≠ noFinals := h.first_unmarked first (by simp [hfinals])
      refine readFinals_eq_ok_iff.2 ⟨first, others, ?_, (if_neg hunmarked).symm⟩
      rw [sections, if_neg (by simp [hfinals]), h.tokens_joined l.finals_subset, hfinals]

theorem reads (h : l.IsWritable) : l.sections.Reads l.finals l.transitions where
  alphabet := by
    rw [h.tokens_alphabet]
    exact h.alphabet_ne_nil
  states := by
    rw [h.tokens_states]
    exact h.states_ne_nil
  initial := by
    change Text.trim l.initial ≠ []
    rw [h.initial_trim]
    exact h.initial_ne_nil
  finals := h.readFinals_eq
  transitions := by
    rw [sections, List.map_map]
    exact List.map_congr_left fun t ht ↦ h.tokens_joined (names_subset_of_mem ht)

/-- The definition that lists an automaton is read as it. -/
theorem exists_read (h : l.IsWritable) :
    ∃ r, read l.sections.lines = .ok r ∧ r.automaton = l.automaton := by
  refine ⟨_, read_eq_ok_iff.2 ⟨l.sections, _, _, rfl, h.reads, rfl⟩, ?_⟩
  change Automaton.build _ _ (Text.trim l.initial) _ _ = l.automaton
  rw [h.tokens_alphabet, h.tokens_states, h.initial_trim, automaton]

/-- No name breaks a line of the definition. -/
theorem notMem_lines (h : l.IsWritable) : ∀ line ∈ l.sections.lines, '\n' ∉ line := by
  refine forall_mem_lines (P := fun line ↦ '\n' ∉ line) (by decide) (by decide)
    h.initial_newline ?_
  intro names hnames
  apply notMem_joined (by decide)
  intro n hn
  exact (h.names n (hnames hn)).notMem_newline

/-- Without carriage returns in names no line ends in one, since the initial state has no blank at
its end. -/
theorem getLast?_ne_return (h : l.IsWritable) (hreturn : ∀ n ∈ l.names, '\r' ∉ n) :
    ∀ line ∈ l.sections.lines, line.getLast? ≠ some '\r' := by
  refine forall_mem_lines (P := fun line ↦ line.getLast? ≠ some '\r') (by decide) (by decide) ?_ ?_
  · rw [← h.initial_trim]
    intro hlast
    exact Text.not_of_getLast?_dropEndWhile hlast (by decide)
  · intro names hnames hlast
    have hnone : '\r' ∉ joined names := notMem_joined (by decide) fun n hn ↦ hreturn n (hnames hn)
    exact hnone (List.mem_of_getLast? hlast)

/-- The lines of the definition can be joined by line feeds. -/
theorem lines_intercalate (h : l.IsWritable) (hreturn : ∀ n ∈ l.names, '\r' ∉ n) :
    Text.lines (['\n'].intercalate l.sections.lines) = l.sections.lines := by
  have hends : ∀ line ∈ l.sections.lines, '\n' ∉ line ∧ line.getLast? ≠ some '\r' :=
    fun line hline ↦ ⟨h.notMem_lines line hline, h.getLast?_ne_return hreturn line hline⟩
  rw [Text.lines_intercalate hends]
  exact h.reads.isValid.dropEndWhile_lines

end IsWritable

end Listing

namespace Definition

/-- An automaton is the same whether it is built from transitions, from the mapping that is filled
with them, or read from the definition that lists them, if one can.  The last transition with a key
counts.  The components of any automaton build it again, in whatever order they are listed. -/
theorem constructions_agree (config : Config) (l : Listing) :
    Automaton.buildFrom l.alphabet l.states l.initial l.finals (.ofTransitions l.transitions) =
      l.automaton ∧
    (l.IsWritable → (∀ n ∈ l.names, '\r' ∉ n) →
      parse { config with strict := false } (['\n'].intercalate l.sections.lines) =
        .ok l.automaton) ∧
    (∀ q a, l.automaton.target? q a =
      (l.transitions.filter fun t ↦ t.key = ⟨q, a⟩).getLast?.map Transition.target) ∧
    ∀ (d : Automaton) (alphabet : List Symbol) (states finals : List State) (m : Mapping),
      alphabet.Perm d.alphabet.toList → states.Perm d.states.toList →
      finals.Perm d.finals.toList → m.entries.Perm d.transitions.entries →
      Automaton.buildFrom alphabet states d.initial finals m = d := by
  refine ⟨?_, ?_, ?_, ?_⟩
  · exact Automaton.buildFrom_ofTransitions _ _ _ _ _
  · intro h hreturn
    obtain ⟨r, hr, hautomaton⟩ := h.exists_read
    rw [← h.lines_intercalate hreturn] at hr
    exact (parse_permissive_eq_ok_iff rfl).2 ⟨r, hr, hautomaton⟩
  · intro q a
    exact Transition.get?_table l.transitions ⟨q, a⟩
  · intro d alphabet states finals m halphabet hstates hfinals htransitions
    exact Automaton.buildFrom_eq_of_perm halphabet hstates hfinals htransitions

/-- A key and a symbol are listed twice, and the mark is not the first of the final states. -/
theorem constructions_agree_repeated_key :
    let l : Listing := {
      alphabet := ["1".toList, "0".toList, "1".toList]
      states := ["q".toList, "p".toList]
      initial := "at p".toList
      finals := ["q".toList, "!!".toList]
      transitions := [⟨"q".toList, "1".toList, "q".toList⟩, ⟨"p".toList, "0".toList, "p".toList⟩,
        ⟨"q".toList, "1".toList, "p".toList⟩] }
    let text := "dfa\n1 0 1\nq p\nat p\nq !!\nq 1 q\np 0 p\nq 1 p".toList
    let m := (Mapping.empty.set ⟨"q".toList, "1".toList⟩ "p".toList).set ⟨"p".toList, "0".toList⟩
      "p".toList
    l.IsWritable ∧ parse {} text = .ok l.automaton ∧
      l.automaton.target? "q".toList "1".toList = some "p".toList ∧
      Automaton.buildFrom ["1".toList, "0".toList] ["q".toList, "p".toList] "at p".toList
        ["q".toList, "!!".toList] m = l.automaton := by
  intro l text m
  have hnames : ∀ n ∈ l.names, n ≠ [] ∧ ' ' ∉ n ∧ '\n' ∉ n ∧ '\r' ∉ n := by
    simp [l, Listing.names, Transition.names]
  have hwritable : l.IsWritable := {
    alphabet_ne_nil := List.cons_ne_nil _ _
    states_ne_nil := List.cons_ne_nil _ _
    names := by
      intro n hn
      obtain ⟨hne, hspace, hfeed, -⟩ := hnames n hn
      exact ⟨⟨hne, hspace⟩, hfeed⟩
    initial_ne_nil := List.cons_ne_nil _ _
    initial_newline := by simp [l]
    initial_trim := rfl
    first_unmarked := by
      intro first hfirst
      obtain rfl := Option.some.inj hfirst
      decide }
  obtain ⟨-, hread, hlast, hagain⟩ := constructions_agree {} l
  refine ⟨hwritable, hread hwritable fun n hn ↦ (hnames n hn).2.2.2, hlast _ _, ?_⟩
  exact hagain l.automaton _ _ _ m (by decide) (by decide) (by decide) (by decide)

end Definition

end Acceptor
