import Acceptor.Proofs.Automaton.Paths

/-!
# Removing a transition

A run depends on the transitions of the keys that it meets and on no others (`visited_congr`).  When
one transition is removed, the runs that meet its key get stuck there, at the first time that they
do, and all others stay as they are (`removal_felt_by_users`).
-/

namespace Acceptor.Automaton

variable {d e : Automaton} {q : State} {a : Symbol} {k : Key} {w : Word}

/-! ## Runs of two automata -/

/-- Automata that agree on the keys which a run of the one meets pass through the same states. -/
theorem visited_congr (h : ∀ k, d.Meets q w k →
    e.target? k.state k.symbol = d.target? k.state k.symbol) : e.visited q w = d.visited q w := by
  induction w generalizing q with
  | nil => rfl
  | cons a w ih =>
      have htarget : e.target? q a = d.target? q a := h ⟨q, a⟩ (meets_cons_iff.2 (.inl rfl))
      cases hd : d.target? q a with
      | none => rw [visited_cons_of_none hd, visited_cons_of_none (htarget.trans hd)]
      | some r =>
          have hrest : e.visited r w = d.visited r w := by
            apply ih
            intro k hk
            exact h k (meets_cons_iff.2 (.inr ⟨r, hd, hk⟩))
          rw [visited_cons_of_some hd, visited_cons_of_some (htarget.trans hd), hrest]

theorem run_congr (h : ∀ k, d.Meets q w k →
    e.target? k.state k.symbol = d.target? k.state k.symbol) : e.run q w = d.run q w := by
  rw [run_eq_map_visited, run_eq_map_visited, visited_congr h]

/-! ## Automata without a transition -/

/-- The automaton without the transition of the key, if it has one. -/
def remove (d : Automaton) (k : Key) : Automaton :=
  { d with transitions := d.transitions.erase k }

theorem target?_remove (d : Automaton) (k : Key) (q : State) (a : Symbol) :
    (d.remove k).target? q a = if ⟨q, a⟩ = k then none else d.target? q a :=
  SortedMap.get?_erase d.transitions k ⟨q, a⟩

theorem target?_remove_self (d : Automaton) (k : Key) :
    (d.remove k).target? k.state k.symbol = none := by
  rw [target?_remove, if_pos rfl]

theorem target?_remove_of_ne {j : Key} (h : j ≠ k) :
    (d.remove k).target? j.state j.symbol = d.target? j.state j.symbol := by
  rw [target?_remove, if_neg h]

/-- A run that meets the key gets stuck there, and it does so the first time. -/
theorem run_remove_of_meets (h : d.Meets q w k) :
    (d.remove k).run q w = .error ⟨k.state, k.symbol⟩ := by
  induction w generalizing q with
  | nil => exact absurd h not_meets_nil
  | cons a w ih =>
      by_cases hk : k = ⟨q, a⟩
      · subst hk
        exact run_cons_of_none (d.target?_remove_self ⟨q, a⟩) w
      · rcases meets_cons_iff.1 h with hk' | ⟨r, htarget, hrest⟩
        · exact absurd hk' hk
        · have hkept : (d.remove k).target? q a = some r :=
            (target?_remove_of_ne (Ne.symm hk)).trans htarget
          rw [run_cons_of_some hkept]
          exact ih hrest

/-- A run that does not meet the key finds all its transitions. -/
theorem target?_remove_of_not_meets (h : ¬ d.Meets q w k) :
    ∀ j, d.Meets q w j → (d.remove k).target? j.state j.symbol = d.target? j.state j.symbol := by
  intro j hj
  apply target?_remove_of_ne
  rintro rfl
  exact h hj

/-- Without a transition the runs that take it get stuck at its key, whatever they do afterwards,
and all other runs have the same outcome.  Acceptance and traces, which run from the initial state,
do too. -/
theorem removal_felt_by_users (d : Automaton) (k : Key) (q : State) (w : Word) :
    (d.Meets q w k → (d.remove k).run q w = .error ⟨k.state, k.symbol⟩) ∧
    (¬ d.Meets q w k → (d.remove k).run q w = d.run q w) ∧
    (d.Meets d.initial w k →
      (d.remove k).accepts w = .error ⟨k.state, k.symbol⟩ ∧
      (d.remove k).trace w = .error ⟨k.state, k.symbol⟩) ∧
    (¬ d.Meets d.initial w k →
      (d.remove k).accepts w = d.accepts w ∧ (d.remove k).trace w = d.trace w) := by
  refine ⟨run_remove_of_meets, ?_, ?_, ?_⟩
  · intro h
    exact run_congr (target?_remove_of_not_meets h)
  · intro h
    have hstuck : (d.remove k).run d.initial w = .error ⟨k.state, k.symbol⟩ :=
      run_remove_of_meets h
    exact ⟨accepts_eq_error_iff.2 hstuck, visited_eq_error_iff.2 hstuck⟩
  · intro h
    have hsame := target?_remove_of_not_meets h
    constructor
    · have hrun : (d.remove k).run d.initial w = d.run d.initial w := run_congr hsame
      rw [accepts_eq_map, accepts_eq_map]
      exact congrArg _ hrun
    · exact visited_congr hsame

/-- A loop is taken twice and then left.  Without it the word gets stuck at once, and a word that
goes around it is accepted as before. -/
theorem removal_felt_by_users_loop :
    let d := build ["0".toList, "1".toList] ["p".toList, "q".toList] "p".toList ["q".toList]
      [⟨"p".toList, "0".toList, "p".toList⟩, ⟨"p".toList, "1".toList, "q".toList⟩,
        ⟨"q".toList, "1".toList, "q".toList⟩]
    let k : Key := ⟨"p".toList, "0".toList⟩
    let w := ["0".toList, "0".toList, "1".toList]
    let v := ["1".toList, "1".toList]
    d.Meets d.initial w k ∧ d.accepts w = .ok true ∧
      (d.remove k).accepts w = .error ⟨"p".toList, "0".toList⟩ ∧
      ¬ d.Meets d.initial v k ∧ (d.remove k).accepts v = .ok true := by
  intro d k w v
  have hmeets : d.Meets d.initial w k := ⟨1, rfl, rfl⟩
  have havoids : ¬ d.Meets d.initial v k := by
    rintro ⟨i, -, hsymbol⟩
    have hmem : k.symbol ∈ v := List.mem_of_getElem? hsymbol
    exact absurd hmem (by decide)
  obtain ⟨-, -, huse, -⟩ := removal_felt_by_users d k d.initial w
  obtain ⟨-, -, -, hother⟩ := removal_felt_by_users d k d.initial v
  exact ⟨hmeets, rfl, (huse hmeets).1, havoids, (hother havoids).1.trans rfl⟩

end Acceptor.Automaton
