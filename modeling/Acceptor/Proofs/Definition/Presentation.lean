import Acceptor.Proofs.Definition.Grammar

/-!
# Presentations of a definition

A definition can be written down in many ways.  Names may be listed in any order, more than once and
with any spacing.  The lines of the transitions may change places, as long as two with the same
source and symbol keep their order, and of such lines all but the last may be left out.
`presentation_irrelevant` says that all this makes no difference to what a definition is read as,
and none but the line number to the fault that it is rejected for.
-/

namespace Acceptor

namespace Definition

/-! ## Transition lines -/

/-- What a transition line is for: its source and its symbol. -/
def lineKey (line : Text) : List Text := (Text.tokens line).take 2

/-- The second lines of transitions arise from the first: by spacing tokens anew, by putting lines
in another order that keeps the order of those with the same source and symbol, and by leaving out
lines whose source and symbol a later line has again. -/
inductive Rearranges : List Text → List Text → Prop
  | respace {lines others : List Text} (tokens : others.map Text.tokens = lines.map Text.tokens) :
      Rearranges lines others
  | reorder {lines others : List Text} (perm : others.Perm lines)
      (order : ∀ key, (others.filter fun line ↦ lineKey line = key) =
        lines.filter fun line ↦ lineKey line = key) : Rearranges lines others
  | delete {front back : List Text} {line : Text}
      (again : ∃ other ∈ back, lineKey other = lineKey line) :
      Rearranges (front ++ line :: back) (front ++ back)
  | trans {lines others more : List Text} (first : Rearranges lines others)
      (second : Rearranges others more) : Rearranges lines more

variable {lines others : List Text} {ts us : List Transition}

/-- The lines for a key are those of the transitions with it. -/
theorem filter_lineKey (h : lines.map Text.tokens = ts.map Transition.names) (k : Key) :
    (lines.filter fun line ↦ lineKey line = [k.state, k.symbol]).map Text.tokens =
      (ts.filter fun t ↦ t.key = k).map Transition.names := by
  have hkey : ∀ t : Transition, t.key = k ↔ t.names.take 2 = [k.state, k.symbol] := by
    intro t
    obtain ⟨q, a⟩ := k
    simp [Transition.key, Transition.names]
  have hfilter := congrArg (List.filter fun names ↦ names.take 2 = [k.state, k.symbol]) h
  rw [List.filter_map, List.filter_map] at hfilter
  refine hfilter.trans (congrArg _ (List.filter_congr fun t _ ↦ ?_))
  exact decide_eq_decide.2 (hkey t).symm

/-- Lines with a source and a symbol of their own may be put in any order. -/
theorem Rearranges.of_perm (perm : others.Perm lines)
    (distinct : lines.Pairwise fun line other ↦ lineKey line ≠ lineKey other) :
    Rearranges lines others := .reorder perm (filter_key_eq_of_perm perm distinct)

/-- However transition lines are rearranged, they stay transition lines with the same table. -/
theorem Rearranges.exists_names (h : Rearranges lines others)
    (hlines : lines.map Text.tokens = ts.map Transition.names) :
    ∃ us : List Transition, others.map Text.tokens = us.map Transition.names ∧
      Transition.table us = Transition.table ts := by
  induction h generalizing ts with
  | respace tokens => exact ⟨ts, tokens.trans hlines, rfl⟩
  | @reorder lines others perm order =>
      have hnames := Sections.exists_names_iff.1 ⟨ts, hlines⟩
      obtain ⟨us, hus⟩ :=
        Sections.exists_names_iff.2 fun line hline ↦ hnames line (perm.mem_iff.1 hline)
      -- not only the last transition with a key is the same, all of them are and in the same order
      refine ⟨us, hus, Transition.table_congr fun k ↦ congrArg List.getLast? ?_⟩
      apply Transition.names_injective.list_map
      rw [← filter_lineKey hus k, order, filter_lineKey hlines k]
  | @delete front back line again =>
      rw [List.map_append, List.map_cons, eq_comm, map_eq_append_cons_iff] at hlines
      obtain ⟨earlier, t, later, rfl, hfront, ht, hback⟩ := hlines
      refine ⟨earlier ++ later, by rw [List.map_append, List.map_append, hfront, hback], ?_⟩
      obtain ⟨other, hother, hkey⟩ := again
      obtain ⟨u, hu, hnames⟩ := exists_mem_of_map_eq hback.symm hother
      refine Transition.table_delete ⟨u, hu, ?_⟩
      rw [lineKey, lineKey, ← hnames, ← ht] at hkey
      obtain ⟨hsource, hsymbol⟩ : u.source = t.source ∧ u.symbol = t.symbol := by
        simpa [Transition.names] using hkey
      rw [Transition.key, Transition.key, hsource, hsymbol]
  | trans _ _ ihFirst ihSecond =>
      obtain ⟨us, hus, htable⟩ := ihFirst hlines
      obtain ⟨vs, hvs, htable'⟩ := ihSecond hus
      exact ⟨vs, hvs, htable'.trans htable⟩

/-! ## Presentations -/

/-- The second sections say the same as the first, presented in another way. -/
structure Sections.Presents (s s' : Sections) : Prop where
  alphabet : ∀ a, a ∈ Text.tokens s'.alphabet ↔ a ∈ Text.tokens s.alphabet
  states : ∀ q, q ∈ Text.tokens s'.states ↔ q ∈ Text.tokens s.states
  initial : Text.trim s'.initial = Text.trim s.initial
  finals : ∀ q, q ∈ Text.tokens s'.finals ↔ q ∈ Text.tokens s.finals
  mark : s'.HasNoFinals ↔ s.HasNoFinals
  transitions : Rearranges s.transitions s'.transitions

namespace Sections

variable {s s' : Sections} {d : Automaton}

theorem lines_injective : Function.Injective Sections.lines := by
  rintro ⟨alphabet, states, initial, finals, transitions⟩ t h
  obtain ⟨rfl, rfl, rfl, rfl, rfl⟩ : alphabet = t.alphabet ∧ states = t.states ∧
      initial = t.initial ∧ finals = t.finals ∧ transitions = t.transitions := by
    simpa [lines] using h
  rfl

/-- Lines with the same names both have a name or both have none. -/
theorem exists_ne_space_congr {line other : Text}
    (h : ∀ a, a ∈ Text.tokens other ↔ a ∈ Text.tokens line) :
    (∃ c ∈ other, c ≠ ' ') ↔ ∃ c ∈ line, c ≠ ' ' := by
  rw [← tokens_ne_nil_iff, ← tokens_ne_nil_iff, Ne, Ne, List.eq_nil_iff_forall_not_mem,
    List.eq_nil_iff_forall_not_mem]
  exact not_congr (forall_congr' fun a ↦ not_congr (h a))

/-- Another presentation of a valid definition is valid. -/
theorem Presents.isValid (h : s.Presents s') (hs : s.IsValid) : s'.IsValid where
  alphabet := (exists_ne_space_congr h.alphabet).2 hs.alphabet
  states := (exists_ne_space_congr h.states).2 hs.states
  initial := trim_ne_nil_iff.1 (h.initial ▸ trim_ne_nil_iff.2 hs.initial)
  finals := (exists_ne_space_congr h.finals).2 hs.finals
  transitions := by
    obtain ⟨ts, hts⟩ := exists_names_iff.2 hs.transitions
    obtain ⟨us, hus, -⟩ := h.transitions.exists_names hts
    exact exists_names_iff.1 ⟨us, hus⟩

/-- Another presentation of a valid definition means the same. -/
theorem Presents.denotes (h : s.Presents s') (hs : s.IsValid) (hd : s.Denotes d) :
    s'.Denotes d where
  alphabet a := by rw [hd.alphabet, ← Text.mem_tokens_iff, ← Text.mem_tokens_iff, h.alphabet]
  states q := by rw [hd.states, ← Text.mem_tokens_iff, ← Text.mem_tokens_iff, h.states]
  initial := hd.initial.trans h.initial.symm
  finals q := by
    rw [hd.finals, ← Text.mem_tokens_iff, ← Text.mem_tokens_iff, h.finals, h.mark]
  transitions q a r := by
    obtain ⟨ts, hts⟩ := exists_names_iff.2 hs.transitions
    obtain ⟨us, hus, htable⟩ := h.transitions.exists_names hts
    rw [hd.transitions, ← target_iff_line hts, ← target_iff_line hus, htable]

/-- Another presentation is read as the same automaton, except for the lines of the transitions. -/
theorem Presents.exists_read (h : s.Presents s') {r : Reading} (hr : read s.lines = .ok r) :
    ∃ r', read s'.lines = .ok r' ∧ r'.automaton = r.automaton := by
  obtain ⟨t, finals, ts, hlines, hreads, rfl⟩ := read_eq_ok_iff.1 hr
  obtain rfl := lines_injective hlines
  obtain ⟨finals', us, hreads'⟩ := (h.isValid hreads.isValid).exists_reads
  refine ⟨_, read_eq_ok_iff.2 ⟨s', finals', us, rfl, hreads', rfl⟩, ?_⟩
  exact hreads'.denotes.unique (h.denotes hreads.isValid hreads.denotes)

end Sections

variable {s s' : Sections}

/-- A definition is read in the same way however it is presented.  Strict reading gives the same
automaton too, or rejects both presentations for the same undeclared use, of which only the line may
differ. -/
theorem presentation_irrelevant (config : Config) {t t' : Text} {d : Automaton}
    (hread : parse { config with strict := false } t = .ok d) (hlines : Text.lines t = s.lines)
    (hlines' : Text.lines t' = s'.lines) (h : s.Presents s') :
    parse { config with strict := false } t' = .ok d ∧
    ((parse { config with strict := true } t = .ok d ∧
        parse { config with strict := true } t' = .ok d) ∨
      ∃ e e', parse { config with strict := true } t = .error e ∧
        parse { config with strict := true } t' = .error e' ∧
        e.SameUse e' ∧ e.summary = e'.summary) := by
  obtain ⟨r, hr, rfl⟩ := (parse_permissive_eq_ok_iff rfl).1 hread
  obtain ⟨r', hr', hautomaton⟩ := h.exists_read (hlines ▸ hr)
  rw [← hlines'] at hr'
  refine ⟨(parse_permissive_eq_ok_iff rfl).2 ⟨r', hr', hautomaton⟩, ?_⟩
  have hstrict : parse { config with strict := true } t = r.automaton.validate r.lines := by
    rw [parse_strict_eq_bind, hr]
    rfl
  have hstrict' : parse { config with strict := true } t' = r.automaton.validate r'.lines := by
    rw [parse_strict_eq_bind, hr', ← hautomaton]
    rfl
  rw [hstrict, hstrict']
  obtain hok | ⟨e, e', he, he', hsame⟩ := r.automaton.validate_sameUse r.lines r'.lines
  · exact .inl hok
  · exact .inr ⟨e, e', he, he', hsame, hsame.summary_eq⟩

/-- A name repeated, the transitions in another order and the overwritten one left out.  The fault
is the same, one line further up. -/
theorem presentation_irrelevant_undeclared_target :
    let s : Sections := ⟨"0 1".toList, "p q".toList, "p".toList, "q".toList,
      ["p 0 q".toList, "q 1 p".toList, "p 0 r".toList, "p 1 q".toList]⟩
    let s' : Sections := ⟨"1  0 1".toList, " q p".toList, " p ".toList, "q q".toList,
      ["p 1  q".toList, " p 0 r".toList, "q 1 p ".toList]⟩
    let t := "dfa\n0 1\np q\np\nq\np 0 q\nq 1 p\np 0 r\np 1 q\n".toList
    let t' := "dfa\r\n1  0 1\r\n q p\r\n p \r\nq q\r\np 1  q\r\n p 0 r\r\nq 1 p \r\n".toList
    let d : Automaton := .build ["0".toList, "1".toList] ["p".toList, "q".toList] "p".toList
      ["q".toList] [⟨"p".toList, "0".toList, "r".toList⟩, ⟨"p".toList, "1".toList, "q".toList⟩,
        ⟨"q".toList, "1".toList, "p".toList⟩]
    parse {} t = .ok d ∧ Text.lines t = s.lines ∧ Text.lines t' = s'.lines ∧ s.Presents s' ∧
      parse {} t' = .ok d ∧
      ∃ e e', parse { strict := true } t = .error e ∧ parse { strict := true } t' = .error e' ∧
        e.SameUse e' ∧ e.line = 8 ∧ e'.line = 7 := by
  intro s s' t t' d
  have hread : parse {} t = .ok d := by decide +kernel
  have hlines : Text.lines t = s.lines := by decide +kernel
  have hlines' : Text.lines t' = s'.lines := by decide +kernel
  have hnames {line other : Text} (h : (∀ a ∈ Text.tokens other, a ∈ Text.tokens line) ∧
      ∀ a ∈ Text.tokens line, a ∈ Text.tokens other) (a : Text) :
      a ∈ Text.tokens other ↔ a ∈ Text.tokens line := ⟨h.1 a, h.2 a⟩
  have hdelete : Rearranges s.transitions ["q 1 p".toList, "p 0 r".toList, "p 1 q".toList] :=
    @Rearranges.delete [] _ _ ⟨"p 0 r".toList, by decide +kernel⟩
  have hreorder : Rearranges ["q 1 p".toList, "p 0 r".toList, "p 1 q".toList]
      ["p 1 q".toList, "p 0 r".toList, "q 1 p".toList] :=
    .of_perm (by decide +kernel) (by decide +kernel)
  have hrespace : Rearranges ["p 1 q".toList, "p 0 r".toList, "q 1 p".toList] s'.transitions :=
    .respace (by decide +kernel)
  have hpresents : s.Presents s' := {
    alphabet := hnames (by decide +kernel)
    states := hnames (by decide +kernel)
    initial := by decide +kernel
    finals := hnames (by decide +kernel)
    mark := by
      rw [Sections.hasNoFinals_iff, Sections.hasNoFinals_iff]
      decide +kernel
    transitions := hdelete.trans (hreorder.trans hrespace) }
  obtain ⟨hread', hok | ⟨e, e', he, he', hsame, -⟩⟩ :=
    presentation_irrelevant {} hread hlines hlines' hpresents
  · exact absurd hok.1 (by decide +kernel)
  · have hfault : parse { strict := true } t = .error (.unknownState "r".toList .transition 8) := by
      decide +kernel
    have hfault' :
        parse { strict := true } t' = .error (.unknownState "r".toList .transition 7) := by
      decide +kernel
    obtain rfl := Except.error.inj (he.symm.trans hfault)
    obtain rfl := Except.error.inj (he'.symm.trans hfault')
    exact ⟨hread, hlines, hlines', hpresents, hread', _, _, he, he', hsame, rfl, rfl⟩

end Definition

end Acceptor
