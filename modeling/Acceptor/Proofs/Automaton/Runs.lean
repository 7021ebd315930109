import Acceptor.Automaton.Run

/-!
# Laws of runs

A run on a word is a run on any front of it and then one on the rest, as long as the first one
ends in a state.  It gets stuck exactly when some front of the word leads to a state that has no
transition on the next symbol (`run_eq_error_iff`), and acceptance gets stuck where the run does.
-/

namespace Acceptor.Automaton

variable {d : Automaton} {p q r : State} {a : Symbol} {u v w : Word} {s : UndefinedTransition}

/-! ## Steps -/

theorem step_eq_ok_iff : d.step q a = .ok r ↔ d.target? q a = some r := by
  rw [step]
  split
  · next h => simp [h]
  · next h => simp [h]

theorem step_of_none (h : d.target? q a = none) : d.step q a = .error ⟨q, a⟩ := by
  rw [step, h]

theorem run_cons_of_some (h : d.target? q a = some r) (w : Word) :
    d.run q (a :: w) = d.run r w := by
  rw [run_cons, step_eq_ok_iff.2 h]
  rfl

theorem run_cons_of_none (h : d.target? q a = none) (w : Word) :
    d.run q (a :: w) = .error ⟨q, a⟩ := by
  rw [run_cons, step_of_none h]
  rfl

theorem run_cons_eq_ok_iff :
    d.run q (a :: w) = .ok r ↔ ∃ p, d.target? q a = some p ∧ d.run p w = .ok r := by
  cases h : d.target? q a with
  | none => simp [run_cons_of_none h]
  | some p => simp [run_cons_of_some h]

/-! ## Runs -/

theorem run_append (d : Automaton) (q : State) (u v : Word) :
    d.run q (u ++ v) = d.run q u >>= fun r ↦ d.run r v := List.foldlM_append

/-- A run goes on from the state that its front ends in. -/
theorem run_append_of_ok (h : d.run q u = .ok r) (v : Word) :
    d.run q (u ++ v) = d.run r v := by
  rw [run_append, h]
  rfl

/-- A run that gets stuck does so on some symbol of the word, in the state that the symbols before
it lead to. -/
theorem run_eq_error_iff :
    d.run q w = .error s ↔ ∃ u v, w = u ++ s.symbol :: v ∧ d.run q u = .ok s.state ∧
      d.target? s.state s.symbol = none := by
  constructor
  · intro h
    induction w generalizing q with
    | nil => simp at h
    | cons a w ih =>
        cases ha : d.target? q a with
        | none =>
            rw [run_cons_of_none ha] at h
            obtain rfl := Except.error.inj h
            exact ⟨[], w, rfl, run_nil d q, ha⟩
        | some p =>
            rw [run_cons_of_some ha] at h
            obtain ⟨u, v, rfl, hu, hs⟩ := ih h
            exact ⟨a :: u, v, rfl, (run_cons_of_some ha u).trans hu, hs⟩
  · rintro ⟨u, v, rfl, hu, hs⟩
    rw [run_append_of_ok hu, run_cons_of_none hs]

/-! ## Acceptance -/

theorem accepts_eq_map (d : Automaton) (w : Word) :
    d.accepts w = (d.run d.initial w).map fun q ↦ decide (d.IsFinal q) := by
  rw [accepts]
  cases d.run d.initial w <;> rfl

theorem accepts_eq_error_iff : d.accepts w = .error s ↔ d.run d.initial w = .error s := by
  rw [accepts_eq_map]
  cases d.run d.initial w <;> simp [Except.map]

theorem exists_accepts_iff :
    (∃ b, d.accepts w = .ok b) ↔ ∃ r, d.run d.initial w = .ok r := by
  rw [accepts_eq_map]
  cases d.run d.initial w <;> simp [Except.map]

/-! ## Traces -/

theorem visited_cons_of_none (h : d.target? q a = none) (w : Word) :
    d.visited q (a :: w) = .error ⟨q, a⟩ := by
  rw [visited, step_of_none h]
  rfl

theorem visited_cons_of_some (h : d.target? q a = some r) (w : Word) :
    d.visited q (a :: w) = (d.visited r w).map (q :: ·) := by
  rw [visited, step_eq_ok_iff.2 h]
  cases hrest : d.visited r w <;> simp [hrest, bind, Except.bind, pure, Except.pure, Except.map]

theorem visited_cons_eq_ok_iff {states : List State} :
    d.visited q (a :: w) = .ok states ↔
      ∃ p rest, d.target? q a = some p ∧ d.visited p w = .ok rest ∧ states = q :: rest := by
  cases ha : d.target? q a with
  | none => simp [visited_cons_of_none ha]
  | some p =>
      rw [visited_cons_of_some ha]
      cases hrest : d.visited p w <;> simp [hrest, Except.map, eq_comm]

end Acceptor.Automaton
