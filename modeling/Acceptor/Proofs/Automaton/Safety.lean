import Acceptor.Proofs.Automaton.Paths
import Acceptor.Proofs.Definition.Strictness

/-!
# Safety of checked automata

Transitions of an automaton that uses declared names only lead to declared states, so a run from
a declared state never leaves them (`IsDeclared.run_mem`) and reads no symbol that is not declared.
When every declared state has a transition on every declared symbol too, a run gets stuck on the
first undeclared symbol of its word and nowhere else.  Each half needs the other: a complete
automaton may lead out of its states, where nothing is promised, and a checked one may be partial.
-/

namespace Acceptor.Automaton

variable {d : Automaton} {q r : State} {a : Symbol} {w : Word} {s : UndefinedTransition}

namespace IsDeclared

/-! ## Declared states -/

theorem target_mem (h : d.IsDeclared) (hr : d.target? q a = some r) : r ∈ d.states :=
  (h.transitions q a r hr).2.2

/-- The run stays inside the declared states: every step ends in one. -/
theorem run_mem (h : d.IsDeclared) (hq : q ∈ d.states) (hrun : d.run q w = .ok r) :
    r ∈ d.states := by
  induction w generalizing q with
  | nil =>
      obtain rfl := Except.ok.inj hrun
      exact hq
  | cons a w ih =>
      obtain ⟨p, hp, hrun⟩ := run_cons_eq_ok_iff.1 hrun
      exact ih (h.target_mem hp) hrun

theorem mem_of_run_initial (h : d.IsDeclared) (hrun : d.run d.initial w = .ok r) :
    r ∈ d.states := h.run_mem h.initial hrun

theorem mem_of_mem_trace (h : d.IsDeclared) {states : List State} (htrace : d.trace w = .ok states)
    (hr : r ∈ states) : r ∈ d.states := by
  obtain ⟨hpath, hhead⟩ := visited_eq_ok_iff.1 htrace
  obtain ⟨i, hi⟩ := List.mem_iff_getElem?.1 hr
  exact h.mem_of_run_initial (hpath.run_take hhead hi)

/-- A run gets stuck in a declared state, and on a symbol of its word. -/
theorem mem_of_accepts_eq_error (h : d.IsDeclared) (haccepts : d.accepts w = .error s) :
    s.state ∈ d.states ∧ s.symbol ∈ w := by
  obtain ⟨u, v, rfl, hrun, -⟩ := run_eq_error_iff.1 (accepts_eq_error_iff.1 haccepts)
  exact ⟨h.mem_of_run_initial hrun, by simp⟩

/-! ## Declared symbols -/

/-- A run that ends has read declared symbols only. -/
theorem symbol_mem_of_run (h : d.IsDeclared) (hrun : d.run q w = .ok r) :
    ∀ a ∈ w, a ∈ d.alphabet := by
  induction w generalizing q with
  | nil => simp
  | cons a w ih =>
      obtain ⟨p, hp, hrun⟩ := run_cons_eq_ok_iff.1 hrun
      exact List.forall_mem_cons.2 ⟨(h.transitions q a p hp).2.1, ih hrun⟩

theorem target_eq_none (h : d.IsDeclared) (q : State) (ha : a ∉ d.alphabet) :
    d.target? q a = none := by
  cases htarget : d.target? q a with
  | none => rfl
  | some r => exact absurd (h.transitions q a r htarget).2.1 ha

end IsDeclared

/-! ## Complete automata -/

theorem IsComplete.exists_target (h : d.IsComplete) (hq : q ∈ d.states) (ha : a ∈ d.alphabet) :
    ∃ r, d.target? q a = some r := Option.isSome_iff_exists.1 (h q hq a ha)

/-- On declared symbols a complete automaton always has somewhere to go. -/
theorem IsDeclared.exists_run (h : d.IsDeclared) (hcomplete : d.IsComplete) (hq : q ∈ d.states)
    (hw : ∀ a ∈ w, a ∈ d.alphabet) : ∃ r, d.run q w = .ok r := by
  induction w generalizing q with
  | nil => exact ⟨q, run_nil d q⟩
  | cons a w ih =>
      obtain ⟨ha, hw⟩ := List.forall_mem_cons.1 hw
      obtain ⟨p, hp⟩ := hcomplete.exists_target hq ha
      obtain ⟨r, hrun⟩ := ih (h.target_mem hp) hw
      exact ⟨r, run_cons_eq_ok_iff.2 ⟨p, hp, hrun⟩⟩

/-- The words of a complete automaton are those over its alphabet. -/
theorem IsDeclared.exists_accepts_iff (h : d.IsDeclared) (hcomplete : d.IsComplete) :
    (∃ b, d.accepts w = .ok b) ↔ ∀ a ∈ w, a ∈ d.alphabet := by
  rw [Automaton.exists_accepts_iff]
  constructor
  · rintro ⟨r, hrun⟩
    exact h.symbol_mem_of_run hrun
  · exact h.exists_run hcomplete h.initial

/-- Other words have a longest front over the alphabet, on which the run ends, and it gets stuck on
the symbol after that. -/
theorem IsDeclared.exists_stuck (h : d.IsDeclared) (hcomplete : d.IsComplete)
    (hw : ¬ ∀ a ∈ w, a ∈ d.alphabet) :
    ∃ u a v q, w = u ++ a :: v ∧ (∀ b ∈ u, b ∈ d.alphabet) ∧ a ∉ d.alphabet ∧
      d.run d.initial u = .ok q ∧ d.accepts w = .error ⟨q, a⟩ := by
  obtain ⟨a, hfind⟩ := Option.isSome_iff_exists.1
    (List.find?_isSome (p := fun a ↦ a ∉ d.alphabet) |>.2 (by simpa using hw))
  obtain ⟨ha, u, v, rfl, hu⟩ := List.find?_eq_some_iff_append.1 hfind
  have hu : ∀ b ∈ u, b ∈ d.alphabet := by simpa using hu
  have ha : a ∉ d.alphabet := by simpa using ha
  obtain ⟨q, hrun⟩ := h.exists_run hcomplete h.initial hu
  refine ⟨u, a, v, q, rfl, hu, ha, hrun, accepts_eq_error_iff.2 (run_eq_error_iff.2 ?_)⟩
  exact ⟨u, v, rfl, hrun, h.target_eq_none q ha⟩

/-- An automaton that passes the check is safe to run.  Runs on fronts of a word, and traces, stay
inside the declared states, and where a run gets stuck the state is declared and the symbol is one
of the word.  If the automaton is complete, exactly the words over its alphabet are evaluated, and
any other word gets stuck on its first symbol that is not declared. -/
theorem validated_runs_safe {lines : LineNumbers} {e : Automaton} (h : d.validate lines = .ok e)
    (w : Word) :
    (∀ u, u <+: w → ∀ q, d.run d.initial u = .ok q → q ∈ d.states) ∧
    (∀ states, d.trace w = .ok states → ∀ q ∈ states, q ∈ d.states) ∧
    (∀ s, d.accepts w = .error s → s.state ∈ d.states ∧ s.symbol ∈ w) ∧
    (d.IsComplete →
      ((∃ b, d.accepts w = .ok b) ↔ ∀ a ∈ w, a ∈ d.alphabet) ∧
      ((¬ ∀ a ∈ w, a ∈ d.alphabet) →
        ∃ u a v q, w = u ++ a :: v ∧ (∀ b ∈ u, b ∈ d.alphabet) ∧ a ∉ d.alphabet ∧
          d.run d.initial u = .ok q ∧ d.accepts w = .error ⟨q, a⟩)) := by
  obtain ⟨hdeclared, -⟩ := validate_eq_ok_iff.1 h
  refine ⟨fun u _ q hrun ↦ ?_, fun states htrace q hq ↦ ?_, fun s hstuck ↦ ?_, fun hcomplete ↦ ?_⟩
  · exact hdeclared.mem_of_run_initial hrun
  · exact hdeclared.mem_of_mem_trace htrace hq
  · exact hdeclared.mem_of_accepts_eq_error hstuck
  · exact ⟨hdeclared.exists_accepts_iff hcomplete, hdeclared.exists_stuck hcomplete⟩

/-- Parity of ones, asked a word with a symbol that is not declared behind two that are. -/
theorem validated_runs_safe_parity :
    let d := build ["0".toList, "1".toList] ["even".toList, "odd".toList] "even".toList
      ["odd".toList] [⟨"even".toList, "0".toList, "even".toList⟩,
        ⟨"even".toList, "1".toList, "odd".toList⟩, ⟨"odd".toList, "0".toList, "odd".toList⟩,
        ⟨"odd".toList, "1".toList, "even".toList⟩]
    let w := ["0".toList, "1".toList, "2".toList, "1".toList]
    d.validate .empty = .ok d ∧ d.IsComplete ∧ (¬ ∀ a ∈ w, a ∈ d.alphabet) ∧
      (∃ u a v q, w = u ++ a :: v ∧ (∀ b ∈ u, b ∈ d.alphabet) ∧ a ∉ d.alphabet ∧
        d.run d.initial u = .ok q ∧ d.accepts w = .error ⟨q, a⟩) ∧
      d.accepts w = .error ⟨"odd".toList, "2".toList⟩ ∧ "odd".toList ∈ d.states := by
  intro d w
  have hvalid : d.validate .empty = .ok d := rfl
  have hcomplete : d.IsComplete := by decide +kernel
  have hundeclared : ¬ ∀ a ∈ w, a ∈ d.alphabet := by decide +kernel
  have hstuck : d.accepts w = .error ⟨"odd".toList, "2".toList⟩ := rfl
  obtain ⟨-, -, hplace, hwords⟩ := validated_runs_safe hvalid w
  exact ⟨hvalid, hcomplete, hundeclared, (hwords hcomplete).2 hundeclared, hstuck,
    (hplace _ hstuck).1⟩

end Acceptor.Automaton
