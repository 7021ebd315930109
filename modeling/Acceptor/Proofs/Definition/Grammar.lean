import Acceptor.Proofs.Automaton.Building
import Acceptor.Proofs.Definition.Strictness
import Acceptor.Proofs.Text.Tokens

/-!
# The grammar of definitions

What a definition may look like (`Sections.IsValid`) and what it means (`Sections.Denotes`) are
said by the runs of characters on its lines, without the reader.

* `Sections.Denotes.unique`: a definition means one automaton at most.
* `exists_sections_of_read` and `exists_read_of_isValid`: exactly the valid definitions are read,
  and each as the automaton that it means.
-/

namespace Acceptor

universe u v w

/-! ## Images of lists

Lines and transitions correspond by their names, so a place in the one list is carried over to
the other. -/

section Images

variable {α : Type u} {β : Type v} {γ : Type w} {f : α → γ} {l : List α}

theorem map_eq_append_cons_iff {front back : List γ} {c : γ} :
    l.map f = front ++ c :: back ↔ ∃ earlier a later, l = earlier ++ a :: later ∧
      earlier.map f = front ∧ f a = c ∧ later.map f = back := by
  constructor
  · intro h
    obtain ⟨earlier, rest, rfl, hfront, h⟩ := List.map_eq_append_iff.1 h
    obtain ⟨a, later, rfl, ha, hback⟩ := List.map_eq_cons_iff.1 h
    exact ⟨earlier, a, later, rfl, hfront, ha, hback⟩
  · rintro ⟨earlier, a, later, rfl, rfl, rfl, rfl⟩
    exact List.map_append

theorem exists_mem_of_map_eq {g : β → γ} {m : List β} (h : l.map f = m.map g) {a : α}
    (ha : a ∈ l) : ∃ b ∈ m, g b = f a :=
  List.mem_map.1 (h ▸ List.mem_map_of_mem ha)

end Images

/-! ## The last transition with a key -/

/-- A table has for each key the target of the last transition with it. -/
theorem Transition.get?_table_eq_some_iff {ts : List Transition} {k : Key} {r : State} :
    (table ts).get? k = some r ↔
      ∃ front t back, ts = front ++ t :: back ∧ t.key = k ∧ t.target = r ∧
        ∀ u ∈ back, u.key ≠ k := by
  rw [table, SortedMap.get?_ofList_eq_some_iff]
  constructor
  · rintro ⟨front, back, hsplit, hback⟩
    obtain ⟨earlier, t, later, rfl, rfl, ht, rfl⟩ := map_eq_append_cons_iff.1 hsplit
    obtain ⟨hkey, htarget⟩ := Prod.mk.inj ht
    exact ⟨earlier, t, later, rfl, hkey, htarget, fun u hu ↦ hback _ (List.mem_map_of_mem hu)⟩
  · rintro ⟨front, t, back, rfl, rfl, rfl, hback⟩
    refine ⟨_, _, List.map_append, fun e he ↦ ?_⟩
    obtain ⟨u, hu, rfl⟩ := List.mem_map.1 he
    exact hback u hu

namespace Definition.Sections

variable {s : Sections} {d e : Automaton}

/-! ## Validity -/

/-- The form of a definition: names on the lines that list names, something to see on the line of
the initial state, and three names on each line of a transition. -/
structure IsValid (s : Sections) : Prop where
  alphabet : ∃ c ∈ s.alphabet, c ≠ ' '
  states : ∃ c ∈ s.states, c ≠ ' '
  initial : ∃ c ∈ s.initial, ¬ Text.isBlank c
  finals : ∃ c ∈ s.finals, c ≠ ' '
  transitions : ∀ line ∈ s.transitions, ∃ q a r, Text.Spaced [q, a, r] line

/-- The mark for no final states stands in the place of the first one. -/
def HasNoFinals (s : Sections) : Prop :=
  ∃ first others, Text.Spaced (first :: others) s.finals ∧ Text.trim first = noFinals

/-! ## Meaning -/

/-- What a definition means.  A transition counts when no later line has its source and symbol as
the first two names. -/
structure Denotes (s : Sections) (d : Automaton) : Prop where
  alphabet : ∀ a, a ∈ d.alphabet ↔ Text.IsRun s.alphabet a
  states : ∀ q, q ∈ d.states ↔ Text.IsRun s.states q
  initial : d.initial = Text.trim s.initial
  finals : ∀ q, q ∈ d.finals ↔ Text.IsRun s.finals q ∧ ¬ s.HasNoFinals
  transitions : ∀ q a r, d.target? q a = some r ↔
    ∃ earlier line later, s.transitions = earlier ++ line :: later ∧
      Text.Spaced [q, a, r] line ∧
      ∀ other ∈ later, ∀ names, ¬ Text.Spaced (q :: a :: names) other

/-- A definition means one automaton at most. -/
theorem Denotes.unique (hd : s.Denotes d) (he : s.Denotes e) : d = e :=
  Automaton.ext (fun a ↦ (hd.alphabet a).trans (he.alphabet a).symm)
    (fun q ↦ (hd.states q).trans (he.states q).symm) (hd.initial.trans he.initial.symm)
    (fun q ↦ (hd.finals q).trans (he.finals q).symm)
    fun q a ↦ Option.ext fun r ↦ (hd.transitions q a r).trans (he.transitions q a r).symm

/-! ## Reading by the grammar -/

theorem tokens_ne_nil_iff {line : Text} : Text.tokens line ≠ [] ↔ ∃ c ∈ line, c ≠ ' ' := by
  rw [Ne, Text.tokens_eq_nil_iff]
  push Not
  rfl

theorem trim_ne_nil_iff {line : Text} : Text.trim line ≠ [] ↔ ∃ c ∈ line, ¬ Text.isBlank c := by
  rw [Ne, Text.trim_eq_nil_iff]
  push Not
  rfl

/-- Lines are those of transitions when each of them has three names. -/
theorem exists_names_iff {lines : List Text} :
    (∃ ts : List Transition, lines.map Text.tokens = ts.map Transition.names) ↔
      ∀ line ∈ lines, ∃ q a r, Text.Spaced [q, a, r] line := by
  constructor
  · rintro ⟨ts, hts⟩ line hline
    obtain ⟨t, -, ht⟩ := exists_mem_of_map_eq hts hline
    exact ⟨t.source, t.symbol, t.target, Text.tokens_eq_iff.1 ht.symm⟩
  · intro h
    induction lines with
    | nil => exact ⟨[], rfl⟩
    | cons line lines ih =>
        obtain ⟨q, a, r, hline⟩ := h line (by simp)
        obtain ⟨ts, hts⟩ := ih fun l hl ↦ h l (List.mem_cons_of_mem line hl)
        exact ⟨⟨q, a, r⟩ :: ts, by simp [hline.tokens_eq, hts, Transition.names]⟩

variable {finals : List State} {ts : List Transition}

theorem Reads.isValid (h : s.Reads finals ts) : s.IsValid where
  alphabet := tokens_ne_nil_iff.1 h.alphabet
  states := tokens_ne_nil_iff.1 h.states
  initial := trim_ne_nil_iff.1 h.initial
  finals := by
    obtain ⟨first, others, hfinals, -⟩ := readFinals_eq_ok_iff.1 h.finals
    exact tokens_ne_nil_iff.1 (by simp [hfinals])
  transitions := exists_names_iff.1 ⟨ts, h.transitions⟩

/-- A valid definition is read. -/
theorem IsValid.exists_reads (h : s.IsValid) : ∃ finals ts, s.Reads finals ts := by
  obtain ⟨first, others, hfinals⟩ :=
    List.exists_cons_of_ne_nil (tokens_ne_nil_iff.2 h.finals)
  obtain ⟨ts, hts⟩ := exists_names_iff.2 h.transitions
  exact ⟨_, ts, tokens_ne_nil_iff.2 h.alphabet, tokens_ne_nil_iff.2 h.states,
    trim_ne_nil_iff.2 h.initial, readFinals_eq_ok_iff.2 ⟨first, others, hfinals, rfl⟩, hts⟩

/-- The first of the names is the mark, if there is a first one. -/
theorem hasNoFinals_iff :
    s.HasNoFinals ↔ (Text.tokens s.finals).head?.map Text.trim = some noFinals := by
  simp only [HasNoFinals, ← Text.tokens_eq_iff, Option.map_eq_some_iff, List.head?_eq_some_iff]
  constructor
  · rintro ⟨first, others, htokens, hmark⟩
    exact ⟨first, ⟨others, htokens⟩, hmark⟩
  · rintro ⟨first, ⟨others, htokens⟩, hmark⟩
    exact ⟨first, others, htokens, hmark⟩

/-- The final states are those of the line, or none when it begins with the mark. -/
theorem mem_finals_iff (h : readFinals s.finals = .ok finals) (q : State) :
    q ∈ finals ↔ Text.IsRun s.finals q ∧ ¬ s.HasNoFinals := by
  obtain ⟨first, others, htokens, rfl⟩ := readFinals_eq_ok_iff.1 h
  have hmark : s.HasNoFinals ↔ Text.trim first = noFinals := by
    rw [hasNoFinals_iff, htokens, List.head?_cons, Option.map_some, Option.some_inj]
  rw [← Text.mem_tokens_iff, htokens, hmark]
  split
  · next hm => simp [hm]
  · next hm => simp [hm]

/-- The last transition with its key stands at the same place as the last line with its source and
symbol. -/
theorem exists_last_line {lines : List Text} {front back : List Transition} {t : Transition}
    (h : lines.map Text.tokens = (front ++ t :: back).map Transition.names)
    (hback : ∀ u ∈ back, u.key ≠ t.key) :
    ∃ earlier line later, lines = earlier ++ line :: later ∧ earlier.length = front.length ∧
      Text.tokens line = t.names ∧
      ∀ other ∈ later, ∀ names, Text.tokens other ≠ t.source :: t.symbol :: names := by
  rw [List.map_append, List.map_cons, map_eq_append_cons_iff] at h
  obtain ⟨earlier, line, later, hsplit, hearlier, hline, hlater⟩ := h
  refine ⟨earlier, line, later, hsplit, by simpa using congrArg List.length hearlier, hline, ?_⟩
  intro other hother names hnames
  obtain ⟨u, hu, hunames⟩ := exists_mem_of_map_eq hlater hother
  rw [hnames, Transition.names, List.cons.injEq, List.cons.injEq] at hunames
  exact hback u hu (by rw [Transition.key, hunames.1, hunames.2.1, Transition.key])

/-- The last transition with a key stands on the last line with its source and symbol. -/
theorem target_iff_line (h : s.transitions.map Text.tokens = ts.map Transition.names)
    (q : State) (a : Symbol) (r : State) :
    (Transition.table ts).get? ⟨q, a⟩ = some r ↔
      ∃ earlier line later, s.transitions = earlier ++ line :: later ∧
        Text.Spaced [q, a, r] line ∧
        ∀ other ∈ later, ∀ names, ¬ Text.Spaced (q :: a :: names) other := by
  rw [Transition.get?_table_eq_some_iff]
  constructor
  · rintro ⟨front, t, back, rfl, hkey, rfl, hback⟩
    rw [← hkey] at hback
    obtain ⟨earlier, line, later, hsplit, -, hline, hlater⟩ := exists_last_line h hback
    obtain ⟨rfl, rfl⟩ := Key.mk.inj hkey
    exact ⟨earlier, line, later, hsplit, Text.tokens_eq_iff.1 hline,
      fun other hother names hnames ↦ hlater other hother names hnames.tokens_eq⟩
  · rintro ⟨earlier, line, later, hsplit, hline, hlater⟩
    rw [hsplit, List.map_append, List.map_cons, eq_comm, map_eq_append_cons_iff] at h
    obtain ⟨front, t, back, rfl, -, ht, hback⟩ := h
    rw [hline.tokens_eq] at ht
    obtain rfl : t = ⟨q, a, r⟩ := Transition.names_injective ht
    refine ⟨front, _, back, rfl, rfl, rfl, fun u hu hkey ↦ ?_⟩
    obtain ⟨other, hother, hnames⟩ := exists_mem_of_map_eq hback hu
    obtain ⟨hq, ha⟩ := Key.mk.inj hkey
    rw [Transition.names, hq, ha] at hnames
    exact hlater other hother [u.target] (Text.tokens_eq_iff.1 hnames)

/-- What is read is what the definition means. -/
theorem Reads.denotes (h : s.Reads finals ts) :
    s.Denotes (.build (Text.tokens s.alphabet) (Text.tokens s.states) (Text.trim s.initial)
      finals ts) where
  alphabet _ := SortedSet.mem_ofList.trans Text.mem_tokens_iff
  states _ := SortedSet.mem_ofList.trans Text.mem_tokens_iff
  initial := rfl
  finals q := SortedSet.mem_ofList.trans (mem_finals_iff h.finals q)
  transitions := target_iff_line h.transitions

end Definition.Sections

namespace Definition

variable {text : Text} {config : Config}

/-- What is read from a text is what its lines mean, and they are valid. -/
theorem exists_sections_of_read {r : Reading} (h : read (Text.lines text) = .ok r) :
    ∃ s : Sections, Text.lines text = s.lines ∧ s.IsValid ∧ s.Denotes r.automaton := by
  obtain ⟨s, finals, ts, hlines, hreads, rfl⟩ := read_eq_ok_iff.1 h
  exact ⟨s, hlines, hreads.isValid, hreads.denotes⟩

theorem exists_read_of_isValid {s : Sections} (hlines : Text.lines text = s.lines)
    (hvalid : s.IsValid) : ∃ r, read (Text.lines text) = .ok r ∧ s.Denotes r.automaton := by
  obtain ⟨finals, ts, hreads⟩ := hvalid.exists_reads
  exact ⟨_, read_eq_ok_iff.2 ⟨s, finals, ts, hlines, hreads, rfl⟩, hreads.denotes⟩

/-- Without strictness exactly the valid definitions are read, and each as the automaton that it
means. -/
theorem parse_permissive_iff (hstrict : config.strict = false) (text : Text) :
    ((∃ d, parse config text = .ok d) ↔
      ∃ s : Sections, Text.lines text = s.lines ∧ s.IsValid) ∧
    ∀ d, parse config text = .ok d ↔
      ∃ s : Sections, Text.lines text = s.lines ∧ s.IsValid ∧ s.Denotes d := by
  have hparse : ∀ d, parse config text = .ok d ↔
      ∃ r, read (Text.lines text) = .ok r ∧ r.automaton = d :=
    fun _ ↦ parse_permissive_eq_ok_iff hstrict
  constructor
  · constructor
    · rintro ⟨d, hd⟩
      obtain ⟨r, hr, -⟩ := (hparse d).1 hd
      obtain ⟨s, hlines, hvalid, -⟩ := exists_sections_of_read hr
      exact ⟨s, hlines, hvalid⟩
    · rintro ⟨s, hlines, hvalid⟩
      obtain ⟨r, hr, -⟩ := exists_read_of_isValid hlines hvalid
      exact ⟨r.automaton, (hparse _).2 ⟨r, hr, rfl⟩⟩
  · intro d
    rw [hparse]
    constructor
    · rintro ⟨r, hr, rfl⟩
      exact exists_sections_of_read hr
    · rintro ⟨s, hlines, hvalid, hdenotes⟩
      obtain ⟨r, hr, hr'⟩ := exists_read_of_isValid hlines hvalid
      exact ⟨r, hr, hr'.unique hdenotes⟩

/-- A tab belongs to its name, an initial state may hold a space, and the later of two lines with
the same source and symbol counts. -/
theorem parse_permissive_repeated_key :
    let text := "dfa\r\n 0\t1\np  q\n\tp q\r\nq\np 0 p\r\n p 0  q\n\n".toList
    ({} : Config).strict = false ∧
    ∃ s : Sections, Text.lines text = s.lines ∧ s.IsValid ∧
      s.Denotes (.build ["0\t1".toList] ["p".toList, "q".toList] "p q".toList ["q".toList]
        [⟨"p".toList, "0".toList, "q".toList⟩]) := by
  intro text
  have hstrict : ({} : Config).strict = false := rfl
  exact ⟨hstrict, ((parse_permissive_iff hstrict text).2 _).1 (by decide +kernel)⟩

end Definition

end Acceptor
