import Acceptor.Proofs.Definition.Reading
import Mathlib.Data.List.Forall2

/-!
# Laws of strictness

An automaton has no undeclared uses exactly when `IsDeclared` holds, whatever is known about the
lines of its transitions.  Strict reading then gives the automata of plain reading that are
declared, and no others.  Where the two differ, the fault is an undeclared use of the automaton that
plain reading gives (`parse_strict_of_ok`), so a fault of the form is met before any of names.  It
is the same undeclared use however the lines are numbered (`validate_sameUse`).
-/

namespace Acceptor

namespace DefinitionError

/-- The same undeclared use, on whichever lines. -/
inductive SameUse : DefinitionError → DefinitionError → Prop
  | state (q : State) (role : Role) (line other : Int) :
      SameUse (.unknownState q role line) (.unknownState q role other)
  | symbol (a : Symbol) (line other : Int) :
      SameUse (.unknownSymbol a line) (.unknownSymbol a other)

/-- Faults that are the same but for their lines have the same words. -/
theorem SameUse.summary_eq {e e' : DefinitionError} (h : SameUse e e') :
    e.summary = e'.summary := by
  cases h with
  | state => rfl
  | symbol => rfl

end DefinitionError

namespace Automaton

variable {d : Automaton}

/-- Only declared states and symbols are used. -/
structure IsDeclared (d : Automaton) : Prop where
  initial : d.initial ∈ d.states
  finals : ∀ q ∈ d.finals, q ∈ d.states
  transitions : ∀ q a r, d.target? q a = some r → q ∈ d.states ∧ a ∈ d.alphabet ∧ r ∈ d.states

theorem undeclaredInitial_eq_nil_iff : d.undeclaredInitial = [] ↔ d.initial ∈ d.states := by
  simp [undeclaredInitial]

theorem undeclaredFinals_eq_nil_iff :
    d.undeclaredFinals = [] ↔ ∀ q ∈ d.finals, q ∈ d.states := by
  simp [undeclaredFinals, SortedSet.mem_toList]

theorem undeclaredIn_eq_nil_iff {k : Key} {target : State} {line : Int} :
    d.undeclaredIn k target line = [] ↔
      k.state ∈ d.states ∧ k.symbol ∈ d.alphabet ∧ target ∈ d.states := by
  simp [undeclaredIn]

theorem undeclaredTransitions_eq_nil_iff {lines : LineNumbers} :
    d.undeclaredTransitions lines = [] ↔
      ∀ q a r, d.target? q a = some r → q ∈ d.states ∧ a ∈ d.alphabet ∧ r ∈ d.states := by
  simp only [undeclaredTransitions, List.flatMap_eq_nil_iff, undeclaredIn_eq_nil_iff, target?,
    SortedMap.get?_eq_some]
  constructor
  · exact fun h q a r hr ↦ h (⟨q, a⟩, r) hr
  · exact fun h e he ↦ h e.1.state e.1.symbol e.2 he

theorem undeclared_eq_nil_iff (lines : LineNumbers) :
    d.undeclared lines = [] ↔ d.IsDeclared := by
  rw [undeclared, List.append_eq_nil_iff, List.append_eq_nil_iff, undeclaredInitial_eq_nil_iff,
    undeclaredFinals_eq_nil_iff, undeclaredTransitions_eq_nil_iff]
  exact ⟨fun ⟨⟨hi, hf⟩, ht⟩ ↦ ⟨hi, hf, ht⟩, fun h ↦ ⟨⟨h.initial, h.finals⟩, h.transitions⟩⟩

/-- A check that succeeds gives the automaton back, and it does not depend on the line numbers
whether it does. -/
theorem validate_eq_ok_iff {lines : LineNumbers} {e : Automaton} :
    d.validate lines = .ok e ↔ d.IsDeclared ∧ e = d := by
  rw [← undeclared_eq_nil_iff lines, validate]
  split
  · next h => simp [h, eq_comm]
  · next h => simp [h]

/-! ## Faults of the check -/

/-- A fault that names a state or a symbol which is not declared. -/
inductive IsUndeclaredUse (d : Automaton) : DefinitionError → Prop
  | state (q : State) (role : Role) (line : Int) (undeclared : q ∉ d.states) :
      IsUndeclaredUse d (.unknownState q role line)
  | symbol (a : Symbol) (line : Int) (undeclared : a ∉ d.alphabet) :
      IsUndeclaredUse d (.unknownSymbol a line)

theorem isUndeclaredUse_of_mem_undeclaredIn {k : Key} {target : State} {line : Int}
    {e : DefinitionError} (h : e ∈ d.undeclaredIn k target line) : d.IsUndeclaredUse e := by
  simp only [undeclaredIn, List.mem_append, List.mem_ite_nil_left, List.mem_singleton] at h
  rcases h with (⟨hsource, rfl⟩ | ⟨hsymbol, rfl⟩) | ⟨htarget, rfl⟩
  · exact .state _ _ _ hsource
  · exact .symbol _ _ hsymbol
  · exact .state _ _ _ htarget

/-- What is listed as undeclared is not declared. -/
theorem isUndeclaredUse_of_mem_undeclared {lines : LineNumbers} {e : DefinitionError}
    (h : e ∈ d.undeclared lines) : d.IsUndeclaredUse e := by
  simp only [undeclared, undeclaredInitial, undeclaredFinals, undeclaredTransitions,
    List.mem_append, List.mem_ite_nil_left, List.mem_singleton, List.mem_map, List.mem_filter,
    List.mem_flatMap, decide_eq_true_eq] at h
  rcases h with (⟨hinitial, rfl⟩ | ⟨q, ⟨-, hfinal⟩, rfl⟩) | ⟨entry, -, hentry⟩
  · exact .state _ _ _ hinitial
  · exact .state _ _ _ hfinal
  · exact isUndeclaredUse_of_mem_undeclaredIn hentry

/-- A check gives the automaton back or finds a name that is not declared. -/
theorem validate_eq_ok_or_error (d : Automaton) (lines : LineNumbers) :
    d.validate lines = .ok d ∨ ∃ e, d.IsUndeclaredUse e ∧ d.validate lines = .error e := by
  rw [validate]
  split
  · exact .inl rfl
  · next e others h =>
      exact .inr ⟨e, isUndeclaredUse_of_mem_undeclared (h ▸ List.mem_cons_self), rfl⟩

/-! ## Lines of the faults

The lines of the transitions decide where a fault is reported and nothing else. -/

theorem IsUndeclaredUse.sameUse {e : DefinitionError} (h : d.IsUndeclaredUse e) :
    e.SameUse e := by
  cases h with
  | state q role line => exact .state q role line line
  | symbol a line => exact .symbol a line line

theorem forall₂_ite {α : Type} {R : α → α → Prop} {p : Prop} [Decidable p] {a b : α} (h : R a b) :
    List.Forall₂ R (if p then [] else [a]) (if p then [] else [b]) := by
  split
  · exact .nil
  · exact .cons h .nil

/-- On other lines a transition has the same undeclared names. -/
theorem undeclaredIn_sameUse (d : Automaton) (k : Key) (target : State) (line other : Int) :
    List.Forall₂ DefinitionError.SameUse (d.undeclaredIn k target line)
      (d.undeclaredIn k target other) := by
  refine List.rel_append (List.rel_append ?_ ?_) ?_
  · exact forall₂_ite (.state k.state .transition line other)
  · exact forall₂_ite (.symbol k.symbol line other)
  · exact forall₂_ite (.state target .transition line other)

/-- However the lines of the transitions are numbered, the undeclared uses and their order are the
same. -/
theorem undeclared_sameUse (d : Automaton) (lines others : LineNumbers) :
    List.Forall₂ DefinitionError.SameUse (d.undeclared lines) (d.undeclared others) := by
  refine List.rel_append (List.forall₂_same.2 fun e he ↦ ?names) ?transitions
  case names =>
    have hmem : e ∈ d.undeclared lines := List.mem_append_left _ he
    exact (isUndeclaredUse_of_mem_undeclared hmem).sameUse
  case transitions =>
    rw [undeclaredTransitions, undeclaredTransitions]
    induction d.transitions.entries with
    | nil => exact .nil
    | cons entry entries ih =>
        exact List.rel_append (d.undeclaredIn_sameUse entry.1 entry.2 _ _) ih

/-- However the lines of the transitions are numbered, a check ends in the same way. -/
theorem validate_sameUse (d : Automaton) (lines others : LineNumbers) :
    (d.validate lines = .ok d ∧ d.validate others = .ok d) ∨
    ∃ e e', d.validate lines = .error e ∧ d.validate others = .error e' ∧ e.SameUse e' := by
  have huses := d.undeclared_sameUse lines others
  rw [validate, validate]
  cases hlines : d.undeclared lines with
  | nil =>
      rw [hlines, List.forall₂_nil_left_iff] at huses
      rw [huses]
      exact .inl ⟨rfl, rfl⟩
  | cons e more =>
      rw [hlines, List.forall₂_cons_left_iff] at huses
      obtain ⟨e', more', hsame, -, hothers⟩ := huses
      rw [hothers]
      exact .inr ⟨e, e', rfl, rfl, hsame⟩

end Automaton

namespace Definition

theorem parse_eq_ok_iff {config : Config} {text : Text} {d : Automaton} :
    parse config text = .ok d ↔ ∃ r, read (Text.lines text) = .ok r ∧ r.automaton = d ∧
      (config.strict → d.IsDeclared) := by
  simp only [parse, parseLines, bind_eq_ok_iff]
  refine exists_congr fun r ↦ and_congr_right fun _ ↦ ?_
  cases config.strict with
  | false => simp [pure, Except.pure]
  | true =>
      simp only [if_true, Automaton.validate_eq_ok_iff, true_implies]
      constructor
      · rintro ⟨h, rfl⟩
        exact ⟨rfl, h⟩
      · rintro ⟨rfl, h⟩
        exact ⟨h, rfl⟩

variable {config : Config} {text : Text} {d : Automaton}

/-- Without strictness every reading succeeds. -/
theorem parse_permissive_eq_ok_iff (hstrict : config.strict = false) :
    parse config text = .ok d ↔ ∃ r, read (Text.lines text) = .ok r ∧ r.automaton = d := by
  rw [parse_eq_ok_iff]
  simp [hstrict]

/-- With strictness the automaton has to be declared besides. -/
theorem parse_strict_eq_ok_iff (hstrict : config.strict = true) :
    parse config text = .ok d ↔
      (∃ r, read (Text.lines text) = .ok r ∧ r.automaton = d) ∧ d.IsDeclared := by
  rw [parse_eq_ok_iff]
  simp [hstrict, ← and_assoc]

/-! ## Strict and plain reading

Both read the same lines, and strictness only has a second look at what was read. -/

/-- A fault of the form is reported strictly or not. -/
theorem parse_of_read_error {e : DefinitionError} (h : read (Text.lines text) = .error e) :
    parse config text = .error e := by
  rw [parse, parseLines, h]
  rfl

theorem parse_of_read_ok {r : Reading} (h : read (Text.lines text) = .ok r) :
    parse config text =
      if config.strict then r.automaton.validate r.lines else .ok r.automaton := by
  rw [parse, parseLines, h]
  rfl

/-- A definition is rejected when it is read, or else by strictness. -/
theorem parse_eq_error_cases {e : DefinitionError} (h : parse config text = .error e) :
    read (Text.lines text) = .error e ∨
      config.strict ∧ ∃ r, read (Text.lines text) = .ok r ∧
        r.automaton.validate r.lines = .error e := by
  cases hread : read (Text.lines text) with
  | error e' =>
      obtain rfl : e' = e := Except.error.inj ((parse_of_read_error hread).symm.trans h)
      exact .inl rfl
  | ok r =>
      rw [parse_of_read_ok hread] at h
      split at h
      · next hstrict => exact .inr ⟨hstrict, r, rfl, h⟩
      · cases h

theorem parse_strict_eq_bind (config : Config) (text : Text) :
    parse { config with strict := true } text =
      read (Text.lines text) >>= fun r ↦ r.automaton.validate r.lines := by
  rw [parse, parseLines]
  rfl

/-- A fault of the form counts before all undeclared uses. -/
theorem parse_strict_of_error {e : DefinitionError}
    (h : parse { config with strict := false } text = .error e) :
    parse { config with strict := true } text = .error e := by
  rcases parse_eq_error_cases h with hread | ⟨hstrict, -⟩
  · exact parse_of_read_error hread
  · cases hstrict

/-- What plain reading gives is given by strict reading too, or rejected for an undeclared use. -/
theorem parse_strict_of_ok (h : parse { config with strict := false } text = .ok d) :
    parse { config with strict := true } text = .ok d ∨
      ∃ e, d.IsUndeclaredUse e ∧ parse { config with strict := true } text = .error e := by
  obtain ⟨r, hread, rfl⟩ := (parse_permissive_eq_ok_iff rfl).1 h
  rw [parse_strict_eq_bind, hread]
  exact r.automaton.validate_eq_ok_or_error r.lines

/-- Of what plain reading gives, strict reading keeps what uses declared names only. -/
theorem parse_strict_eq_ok_iff_of_ok (h : parse { config with strict := false } text = .ok d) :
    parse { config with strict := true } text = .ok d ↔ d.IsDeclared := by
  have hread := (parse_permissive_eq_ok_iff rfl).1 h
  rw [parse_strict_eq_ok_iff rfl, and_iff_right hread]

end Definition

end Acceptor
