import Acceptor.Automaton.Basic

/-!
# Mappings

Transitions can also be given by a mapping from keys to targets.  A mapping has one entry for each
of its keys, and its entries stand in the order in which their keys came.
-/

namespace Acceptor

/-- A target for each of some keys. -/
structure Mapping where
  entries : List (Key × State)
  distinct : entries.Pairwise fun e f ↦ e.1 ≠ f.1

namespace Mapping

def empty : Mapping := ⟨[], .nil⟩

/-! ## Setting targets -/

/-- The entry of the key gets the new target where it stands.  A new key comes last. -/
def setList (k : Key) (r : State) : List (Key × State) → List (Key × State)
  | [] => [(k, r)]
  | (key, target) :: rest =>
      if key = k then (k, r) :: rest else (key, target) :: setList k r rest

variable {k : Key} {r : State} {e : Key × State} {l : List (Key × State)}

theorem mem_setList (hl : l.Pairwise fun e f ↦ e.1 ≠ f.1) :
    e ∈ setList k r l ↔ e = (k, r) ∨ e.1 ≠ k ∧ e ∈ l := by
  induction l with
  | nil => simp [setList]
  | cons entry rest ih =>
      obtain ⟨key, target⟩ := entry
      rw [List.pairwise_cons] at hl
      rw [setList]
      split
      · next hk =>
          have hrest : e ∈ rest → e.1 ≠ k := by
            intro he hek
            exact hl.1 e he (hk.trans hek.symm)
          grind
      · next hk => grind

theorem setList_distinct (k : Key) (r : State) (hl : l.Pairwise fun e f ↦ e.1 ≠ f.1) :
    (setList k r l).Pairwise fun e f ↦ e.1 ≠ f.1 := by
  induction l with
  | nil => simp [setList]
  | cons entry rest ih =>
      obtain ⟨key, target⟩ := entry
      rw [List.pairwise_cons] at hl
      rw [setList]
      split
      · next hk =>
          subst hk
          exact List.pairwise_cons.2 hl
      · next hk =>
          refine List.pairwise_cons.2 ⟨?_, ih hl.2⟩
          intro e he
          rcases (mem_setList hl.2).1 he with rfl | ⟨-, he⟩
          · exact hk
          · exact hl.1 e he

def set (m : Mapping) (k : Key) (r : State) : Mapping :=
  ⟨setList k r m.entries, setList_distinct k r m.distinct⟩

theorem mem_entries_set {m : Mapping} :
    e ∈ (m.set k r).entries ↔ e = (k, r) ∨ e.1 ≠ k ∧ e ∈ m.entries := mem_setList m.distinct

/-! ## Transitions and mappings -/

/-- The mapping that is filled with transitions one after the other. -/
def ofTransitions (ts : List Transition) : Mapping :=
  ts.foldl (fun m t ↦ m.set t.key t.target) empty

theorem ofTransitions_concat (ts : List Transition) (t : Transition) :
    ofTransitions (ts ++ [t]) = (ofTransitions ts).set t.key t.target := by
  rw [ofTransitions, List.foldl_append]
  rfl

/-- The transitions that a mapping stands for, in its order. -/
def transitions (m : Mapping) : List Transition :=
  m.entries.map fun e ↦ ⟨e.1.state, e.1.symbol, e.2⟩

end Mapping

/-- The automaton of plain lists and a mapping. -/
def Automaton.buildFrom (alphabet : List Symbol) (states : List State) (initial : State)
    (finals : List State) (m : Mapping) : Automaton :=
  build alphabet states initial finals m.transitions

end Acceptor
