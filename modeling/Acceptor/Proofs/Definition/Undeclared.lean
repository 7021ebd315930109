import Acceptor.Proofs.Automaton.Building
import Acceptor.Proofs.Definition.Strictness

/-!
# The first undeclared use

An automaton may use undeclared names in many places, and its check reports one of them.
`IsLeastUse` says which one without going through lists: the initial state, else the smallest final
state, else the first name of the transition with the smallest key.  Names are compared character
by character by their code points, and keys by state before symbol.

`validate_eq_error_iff` says that a check reports this use and nothing else, and
`validate_reports_least` adds when it finds none and what does not matter to it: the order in which
the automaton and the line numbers were put together, and for all but the line the numbers too.
-/

namespace Acceptor

/-! ## Orders -/

/-- Texts are ordered as in a dictionary, by the code points of their characters. -/
theorem Text.precedes_iff_lt {s t : Text} : Precedes s t ↔ s < t := by
  induction s generalizing t with
  | nil => cases t <;> simp [Precedes]
  | cons a s ih =>
      cases t with
      | nil => simp [Precedes]
      | cons c t =>
          have hchar : compare a c = .lt ↔ a < c := compareOfLessAndEq_eq_lt
          rw [List.cons_lt_cons_iff, ← ih, ← hchar, Precedes, List.compare_cons_cons,
            Ordering.then_eq_lt, Std.LawfulEqOrd.compare_eq_iff_eq]

theorem Key.precedes_iff {j k : Key} :
    Precedes j k ↔ j.state < k.state ∨ j.state = k.state ∧ j.symbol < k.symbol := by
  rw [← Text.precedes_iff_lt, ← Text.precedes_iff_lt, ← Std.LawfulEqOrd.compare_eq_iff_eq]
  exact Ordering.then_eq_lt

/-! ## One transition -/

/-- What is wrong with a transition on some line: the first of its source, its symbol and its target
that is not declared. -/
inductive Transition.FirstUndeclared (IsSymbol : Symbol → Prop) (IsState : State → Prop)
    (t : Transition) (line : Int) : DefinitionError → Prop
  | source (undeclared : ¬ IsState t.source) :
      FirstUndeclared IsSymbol IsState t line (.unknownState t.source .transition line)
  | symbol (source : IsState t.source) (undeclared : ¬ IsSymbol t.symbol) :
      FirstUndeclared IsSymbol IsState t line (.unknownSymbol t.symbol line)
  | target (source : IsState t.source) (symbol : IsSymbol t.symbol)
      (undeclared : ¬ IsState t.target) :
      FirstUndeclared IsSymbol IsState t line (.unknownState t.target .transition line)

namespace Automaton

variable {d : Automaton} {lines : LineNumbers} {e : DefinitionError}

theorem head?_undeclaredIn_eq_some_iff {k : Key} {r : State} {line : Int} :
    (d.undeclaredIn k r line).head? = some e ↔
      Transition.FirstUndeclared (· ∈ d.alphabet) (· ∈ d.states) ⟨k.state, k.symbol, r⟩ line e := by
  rw [undeclaredIn]
  constructor
  · intro h
    by_cases hsource : k.state ∈ d.states
    · by_cases hsymbol : k.symbol ∈ d.alphabet
      · by_cases htarget : r ∈ d.states
        · simp [hsource, hsymbol, htarget] at h
        · obtain rfl : _ = e := by simpa [hsource, hsymbol, htarget] using h
          exact .target hsource hsymbol htarget
      · obtain rfl : _ = e := by simpa [hsource, hsymbol] using h
        exact .symbol hsource hsymbol
    · obtain rfl : _ = e := by simpa [hsource] using h
      exact .source hsource
  · intro h
    cases h with
    | source hsource => simp [hsource]
    | symbol hsource hsymbol => simp [hsource, hsymbol]
    | target hsource hsymbol htarget => simp [hsource, hsymbol, htarget]

/-! ## The least use -/

/-- The undeclared use that comes before all others of an automaton.  Its line is that of the
initial state, that of the final states, or the one that is known for the transition. -/
inductive IsLeastUse (d : Automaton) (lines : LineNumbers) : DefinitionError → Prop
  | initial (undeclared : d.initial ∉ d.states) :
      IsLeastUse d lines (.unknownState d.initial .initial 4)
  | final (q : State) (initial : d.initial ∈ d.states) (isFinal : q ∈ d.finals)
      (undeclared : q ∉ d.states) (least : ∀ p ∈ d.finals, p < q → p ∈ d.states) :
      IsLeastUse d lines (.unknownState q .final 5)
  | transition (t : Transition) (e : DefinitionError) (initial : d.initial ∈ d.states)
      (finals : ∀ q ∈ d.finals, q ∈ d.states)
      (there : d.target? t.source t.symbol = some t.target)
      (first : t.FirstUndeclared (· ∈ d.alphabet) (· ∈ d.states)
        ((lines.get? t.key).getD (-1)) e)
      (least : ∀ u : Transition, d.target? u.source u.symbol = some u.target →
        u.source < t.source ∨ u.source = t.source ∧ u.symbol < t.symbol →
        u.source ∈ d.states ∧ u.symbol ∈ d.alphabet ∧ u.target ∈ d.states) :
      IsLeastUse d lines e

theorem head?_undeclaredInitial_eq_some_iff :
    d.undeclaredInitial.head? = some e ↔
      d.initial ∉ d.states ∧ e = .unknownState d.initial .initial 4 := by
  rw [undeclaredInitial]
  split
  · next h => simp [h]
  · next h => simp [h, eq_comm]

theorem head?_undeclaredFinals_eq_some_iff :
    d.undeclaredFinals.head? = some e ↔
      ∃ q ∈ d.finals, (q ∉ d.states ∧ ∀ p ∈ d.finals, p < q → p ∈ d.states) ∧
        e = .unknownState q .final 5 := by
  rw [undeclaredFinals, List.head?_map, List.head?_filter, ← List.findSome?_guard,
    Option.map_eq_some_iff]
  simp only [SortedSet.findSome?_toList_eq_some_iff, Option.guard_eq_some_iff,
    Option.guard_eq_none_iff, Text.precedes_iff_lt]
  constructor
  · rintro ⟨_, ⟨q, hq, ⟨rfl, hundeclared⟩, hleast⟩, rfl⟩
    exact ⟨q, hq, ⟨by simpa using hundeclared, fun p hp hlt ↦ by simpa using hleast p hp hlt⟩, rfl⟩
  · rintro ⟨q, hq, ⟨hundeclared, hleast⟩, rfl⟩
    exact ⟨q, ⟨q, hq, ⟨rfl, by simpa using hundeclared⟩, fun p hp hlt ↦ by
      simpa using hleast p hp hlt⟩, rfl⟩

theorem head?_undeclaredTransitions_eq_some_iff :
    (d.undeclaredTransitions lines).head? = some e ↔
      ∃ t : Transition, d.target? t.source t.symbol = some t.target ∧
        t.FirstUndeclared (· ∈ d.alphabet) (· ∈ d.states) (lineOf lines t.key) e ∧
        ∀ u : Transition, d.target? u.source u.symbol = some u.target →
          u.source < t.source ∨ u.source = t.source ∧ u.symbol < t.symbol →
          u.source ∈ d.states ∧ u.symbol ∈ d.alphabet ∧ u.target ∈ d.states := by
  rw [undeclaredTransitions, List.head?_flatMap, SortedMap.findSome?_entries_eq_some_iff]
  simp only [head?_undeclaredIn_eq_some_iff, List.head?_eq_none_iff, undeclaredIn_eq_nil_iff,
    Key.precedes_iff]
  constructor
  · rintro ⟨k, r, hr, hfirst, hleast⟩
    exact ⟨⟨k.state, k.symbol, r⟩, hr, hfirst, fun u hu ↦ hleast u.key u.target hu⟩
  · rintro ⟨t, ht, hfirst, hleast⟩
    exact ⟨t.key, t.target, ht, hfirst, fun k r hr ↦ hleast ⟨k.state, k.symbol, r⟩ hr⟩

theorem validate_eq_error_iff_head? :
    d.validate lines = .error e ↔ (d.undeclared lines).head? = some e := by
  rw [validate]
  cases d.undeclared lines <;> simp

/-- A check reports the least undeclared use. -/
theorem validate_eq_error_iff : d.validate lines = .error e ↔ d.IsLeastUse lines e := by
  simp only [validate_eq_error_iff_head?, undeclared, List.head?_append, Option.or_eq_some_iff,
    Option.or_eq_none_iff, List.head?_eq_none_iff, undeclaredInitial_eq_nil_iff,
    undeclaredFinals_eq_nil_iff, head?_undeclaredInitial_eq_some_iff,
    head?_undeclaredFinals_eq_some_iff, head?_undeclaredTransitions_eq_some_iff]
  constructor
  · rintro ((⟨hinitial, rfl⟩ | ⟨hinitial, q, hq, ⟨hundeclared, hleast⟩, rfl⟩) |
      ⟨⟨hinitial, hfinals⟩, t, ht, hfirst, hleast⟩)
    · exact .initial hinitial
    · exact .final q hinitial hq hundeclared hleast
    · exact .transition t e hinitial hfinals ht hfirst hleast
  · intro h
    cases h with
    | initial hinitial => exact .inl (.inl ⟨hinitial, rfl⟩)
    | final q hinitial hq hundeclared hleast =>
        exact .inl (.inr ⟨hinitial, q, hq, ⟨hundeclared, hleast⟩, rfl⟩)
    | transition t e hinitial hfinals ht hfirst hleast =>
        exact .inr ⟨⟨hinitial, hfinals⟩, t, ht, hfirst, hleast⟩

/-- A check gives the automaton back exactly when it uses declared names only, and otherwise reports
its least undeclared use.  On other line numbers it ends in the same way, and in the same use but
for the line.  And it does not depend on the order in which the sets and the maps were filled: all
lists that fill them, repetitions and overwritten entries included, lead to the same result. -/
theorem validate_reports_least (d : Automaton) (lines : LineNumbers) :
    (∀ e, d.validate lines = .ok e ↔ d.IsDeclared ∧ e = d) ∧
    (∀ e, d.validate lines = .error e ↔ d.IsLeastUse lines e) ∧
    (∀ others : LineNumbers, (d.validate lines = .ok d ∧ d.validate others = .ok d) ∨
      ∃ e e', d.validate lines = .error e ∧ d.validate others = .error e' ∧ e.SameUse e') ∧
    ∀ (alphabet : List Symbol) (states finals : List State) (ts : List Transition)
      (numbers : List (Key × Int)),
      (∀ a, a ∈ alphabet ↔ a ∈ d.alphabet) → (∀ q, q ∈ states ↔ q ∈ d.states) →
      (∀ q, q ∈ finals ↔ q ∈ d.finals) →
      (∀ k : Key, (ts.filter fun t ↦ t.key = k).getLast?.map Transition.target =
        d.target? k.state k.symbol) →
      (∀ k : Key, (numbers.filter fun n ↦ n.1 = k).getLast?.map Prod.snd = lines.get? k) →
      (build alphabet states d.initial finals ts).validate (.ofList numbers) =
        d.validate lines := by
  refine ⟨fun _ ↦ validate_eq_ok_iff, fun _ ↦ validate_eq_error_iff, d.validate_sameUse lines, ?_⟩
  intro alphabet states finals ts numbers halphabet hstates hfinals htarget hnumbers
  have hlines : SortedMap.ofList numbers = lines :=
    SortedMap.ext fun k ↦ (SortedMap.get?_ofList_eq_getLast? numbers k).trans (hnumbers k)
  rw [build_eq halphabet hstates hfinals htarget, hlines]

/-- The first transition by its key is declared, the second has an undeclared symbol and target, and
the third, which stands on an earlier line, an undeclared source. -/
theorem validate_reports_least_symbol :
    let ts : List Transition := [⟨"q".toList, "0".toList, "p".toList⟩,
      ⟨"p".toList, "0".toList, "p".toList⟩, ⟨"p".toList, "1".toList, "r".toList⟩]
    let numbers : List (Key × Int) :=
      [(⟨"q".toList, "0".toList⟩, 6), (⟨"p".toList, "1".toList⟩, 8)]
    let d := build ["0".toList] ["p".toList] "p".toList ["p".toList] ts
    let lines : LineNumbers := .ofList numbers
    let e := DefinitionError.unknownSymbol "1".toList 8
    d.validate lines = .error e ∧ d.IsLeastUse lines e ∧
      (∃ e', d.validate .empty = .error e' ∧ e.SameUse e') ∧
      (build ["0".toList, "0".toList] ["p".toList] "p".toList ["p".toList] ts.reverse).validate
        (.ofList numbers.reverse) = .error e := by
  intro ts numbers d lines e
  have herror : d.validate lines = .error e := by decide +kernel
  obtain ⟨-, hleast, hothers, hfilled⟩ := validate_reports_least d lines
  refine ⟨herror, (hleast e).1 herror, ?_, ?_⟩
  · obtain ⟨hok, -⟩ | ⟨e₁, e', herror₁, herror', hsame⟩ := hothers .empty
    · cases herror.symm.trans hok
    · obtain rfl := Except.error.inj (herror.symm.trans herror₁)
      exact ⟨e', herror', hsame⟩
  · have htarget (k : Key) : (ts.reverse.filter fun t ↦ t.key = k).getLast?.map Transition.target =
        d.target? k.state k.symbol := by
      rw [filter_key_eq_of_perm ts.reverse_perm (by decide +kernel), ← Transition.get?_table]
      rfl
    have hnumbers (k : Key) : (numbers.reverse.filter fun n ↦ n.1 = k).getLast?.map Prod.snd =
        lines.get? k := by
      rw [filter_key_eq_of_perm numbers.reverse_perm (by decide +kernel),
        ← SortedMap.get?_ofList_eq_getLast?]
    rw [← herror]
    refine hfilled _ _ _ _ _ (fun a ↦ ?_) (fun q ↦ ?_) (fun q ↦ ?_) htarget hnumbers
    · exact Iff.trans (by simp) SortedSet.mem_ofList.symm
    · exact SortedSet.mem_ofList.symm
    · exact SortedSet.mem_ofList.symm

end Automaton

end Acceptor
