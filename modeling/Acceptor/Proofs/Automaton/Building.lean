import Acceptor.Automaton.Mapping
import Acceptor.Proofs.Sorted.Lists
import Mathlib.Data.List.Basic

/-!
# Laws of building automata

An automaton is determined by the members of its sets and by its transition function.  What it is
built from may therefore be listed in any order and more than once, as long as the last transition
with each key stays the same.
-/

namespace Acceptor

/-! ## Tables

What a table has for a key is said by the last of the transitions with that key. -/

theorem Transition.get?_table (ts : List Transition) (k : Key) :
    (table ts).get? k = (ts.filter fun t ↦ t.key = k).getLast?.map Transition.target := by
  rw [table, SortedMap.get?_ofList_eq_getLast?, List.filter_map, List.getLast?_map, Option.map_map]
  rfl

/-- Two tables agree when the transitions with each key agree in the last one. -/
theorem Transition.table_congr {ts us : List Transition}
    (h : ∀ k : Key, (us.filter fun t ↦ t.key = k).getLast? =
      (ts.filter fun t ↦ t.key = k).getLast?) :
    table us = table ts :=
  SortedMap.ext fun k ↦ by rw [get?_table, get?_table, h]

/-- A transition does not matter when a later one has its key. -/
theorem Transition.table_delete {front back : List Transition} {t : Transition}
    (h : ∃ u ∈ back, u.key = t.key) : table (front ++ back) = table (front ++ t :: back) := by
  refine table_congr fun k ↦ ?_
  rw [List.filter_append, List.filter_append, List.filter_cons]
  by_cases hk : t.key = k
  · obtain ⟨u, hu, hkey⟩ := h
    have hback : (back.filter fun t ↦ t.key = k) ≠ [] :=
      List.ne_nil_of_mem (List.mem_filter.2 ⟨hu, by simp [hkey, hk]⟩)
    rw [if_pos (by simpa using hk), List.append_cons, List.getLast?_append_of_ne_nil _ hback,
      List.getLast?_append_of_ne_nil _ hback]
  · rw [if_neg (by simpa using hk)]

theorem Transition.table_concat (ts : List Transition) (t : Transition) :
    table (ts ++ [t]) = (table ts).insert t.key t.target := by
  rw [table, SortedMap.ofList, List.map_append, List.foldl_append]
  rfl

/-! ## Mappings

A mapping has at most one entry with a key, so its order does not matter.  It has the entries of the
table of the transitions that it is filled with, and the transitions that it stands for have them
again. -/

namespace Mapping

variable {k : Key} {r : State} {ts : List Transition}

theorem mem_entries_ofTransitions :
    (k, r) ∈ (ofTransitions ts).entries ↔ (Transition.table ts).get? k = some r := by
  induction ts using List.reverseRecOn with
  | nil => simp [ofTransitions, empty, Transition.table, SortedMap.ofList]
  | append_singleton ts t ih =>
      rw [ofTransitions_concat, mem_entries_set, Transition.table_concat, SortedMap.get?_insert, ih]
      by_cases hk : k = t.key
      · simp [hk, eq_comm]
      · simp [hk]

theorem get?_table_transitions (m : Mapping) :
    (Transition.table m.transitions).get? k = some r ↔ (k, r) ∈ m.entries := by
  have hentries : m.transitions.map (fun t ↦ (t.key, t.target)) = m.entries := by
    rw [transitions, List.map_map]
    exact List.map_id _
  rw [Transition.table, hentries]
  exact SortedMap.get?_ofList_eq_some_iff_mem m.distinct

theorem table_ofTransitions (ts : List Transition) :
    Transition.table (ofTransitions ts).transitions = Transition.table ts := by
  refine SortedMap.ext fun k ↦ Option.ext fun r ↦ ?_
  rw [get?_table_transitions, mem_entries_ofTransitions]

end Mapping

/-! ## Automata -/

namespace Automaton

variable {d e : Automaton}

/-- Automata with the same names in the same places are the same. -/
theorem ext (halphabet : ∀ a, a ∈ d.alphabet ↔ a ∈ e.alphabet)
    (hstates : ∀ q, q ∈ d.states ↔ q ∈ e.states) (hinitial : d.initial = e.initial)
    (hfinals : ∀ q, q ∈ d.finals ↔ q ∈ e.finals)
    (htarget : ∀ q a, d.target? q a = e.target? q a) : d = e := by
  have halphabet : d.alphabet = e.alphabet := SortedSet.ext halphabet
  have hstates : d.states = e.states := SortedSet.ext hstates
  have hfinals : d.finals = e.finals := SortedSet.ext hfinals
  have htransitions : d.transitions = e.transitions :=
    SortedMap.ext fun k ↦ htarget k.state k.symbol
  cases d
  cases e
  congr

/-- Lists with the names and the last transitions of an automaton build it. -/
theorem build_eq {alphabet : List Symbol} {states finals : List State} {ts : List Transition}
    (halphabet : ∀ a, a ∈ alphabet ↔ a ∈ d.alphabet) (hstates : ∀ q, q ∈ states ↔ q ∈ d.states)
    (hfinals : ∀ q, q ∈ finals ↔ q ∈ d.finals)
    (htarget : ∀ k : Key, (ts.filter fun t ↦ t.key = k).getLast?.map Transition.target =
      d.target? k.state k.symbol) :
    build alphabet states d.initial finals ts = d :=
  ext (fun a ↦ SortedSet.mem_ofList.trans (halphabet a))
    (fun q ↦ SortedSet.mem_ofList.trans (hstates q)) rfl
    (fun q ↦ SortedSet.mem_ofList.trans (hfinals q))
    fun q a ↦ (Transition.get?_table ts ⟨q, a⟩).trans (htarget ⟨q, a⟩)

theorem buildFrom_ofTransitions (alphabet : List Symbol) (states : List State) (initial : State)
    (finals : List State) (ts : List Transition) :
    buildFrom alphabet states initial finals (.ofTransitions ts) =
      build alphabet states initial finals ts := by
  rw [buildFrom, build, build, Mapping.table_ofTransitions]

/-- The components of an automaton, listed in any order, build it again. -/
theorem buildFrom_eq_of_perm {alphabet : List Symbol} {states finals : List State} {m : Mapping}
    (halphabet : alphabet.Perm d.alphabet.toList) (hstates : states.Perm d.states.toList)
    (hfinals : finals.Perm d.finals.toList) (htransitions : m.entries.Perm d.transitions.entries) :
    buildFrom alphabet states d.initial finals m = d := by
  have htable : ∀ k, (Transition.table m.transitions).get? k = d.transitions.get? k := by
    intro k
    refine Option.ext fun r ↦ ?_
    rw [Mapping.get?_table_transitions, htransitions.mem_iff, SortedMap.get?_eq_some]
  refine build_eq (fun _ ↦ halphabet.mem_iff) (fun _ ↦ hstates.mem_iff)
    (fun _ ↦ hfinals.mem_iff) ?_
  intro k
  rw [← Transition.get?_table]
  exact htable k

end Automaton

end Acceptor
