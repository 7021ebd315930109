import Acceptor.Definition.Parser

/-!
# Laws of reading definitions

Reading succeeds when every part is there, and its result is then the automaton of the parts.
`read_eq_ok_iff` says so for the lines of a definition, by its sections; the lemmas before it say
it for each part.  Faults are the subject of other modules.
-/

namespace Acceptor

/-- The three names on the line of a transition. -/
def Transition.names (t : Transition) : List Text := [t.source, t.symbol, t.target]

theorem Transition.names_injective : Function.Injective Transition.names := by
  rintro ⟨q, a, r⟩ ⟨q', a', r'⟩ h
  simpa [names] using h

namespace Definition

/-! ## Sections -/

/-- The lines of a definition after its kind. -/
structure Sections where
  alphabet : Text
  states : Text
  initial : Text
  finals : Text
  transitions : List Text

/-- All lines of the definition with these sections. -/
def Sections.lines (s : Sections) : List Text :=
  kind :: s.alphabet :: s.states :: s.initial :: s.finals :: s.transitions

/-! ## Parts -/

theorem bind_eq_ok_iff {ε α β : Type} {x : Except ε α} {f : α → Except ε β} {b : β} :
    x >>= f = .ok b ↔ ∃ a, x = .ok a ∧ f a = .ok b := by
  cases x with
  | error e => simp [bind, Except.bind]
  | ok a => simp [bind, Except.bind]

theorem checkKind_eq_ok_iff {line : Text} {u : Unit} : checkKind line = .ok u ↔ line = kind := by
  simp [checkKind]

theorem readNames_eq_ok_iff {missing : DefinitionError} {line : Text} {names : List Text} :
    readNames missing line = .ok names ↔ names = Text.tokens line ∧ Text.tokens line ≠ [] := by
  rw [readNames]
  split
  · next h => simp [h]
  · next h => rw [Except.ok.injEq, eq_comm, and_iff_left h]

theorem readInitial_eq_ok_iff {line : Text} {initial : State} :
    readInitial line = .ok initial ↔ initial = Text.trim line ∧ Text.trim line ≠ [] := by
  rw [readInitial]
  split
  · next h => simp [h]
  · next h => rw [Except.ok.injEq, eq_comm, and_iff_left h]

theorem readFinals_eq_ok_iff {line : Text} {finals : List State} :
    readFinals line = .ok finals ↔ ∃ first others, Text.tokens line = first :: others ∧
      finals = if Text.trim first = noFinals then [] else first :: others := by
  rw [readFinals]
  split
  · next h => simp [h]
  · next first others h =>
      rw [Except.ok.injEq, eq_comm]
      constructor
      · rintro rfl
        exact ⟨first, others, h, rfl⟩
      · rintro ⟨first', others', h', rfl⟩
        obtain ⟨rfl, rfl⟩ := List.cons.inj (h.symm.trans h')
        rfl

theorem readTransition_eq_ok_iff {line : Text} {number : Int} {t : Transition} :
    readTransition line number = .ok t ↔ Text.tokens line = t.names := by
  obtain ⟨q, a, r⟩ := t
  rw [readTransition]
  split
  · next h => simp [h, Transition.names]
  · next h => simpa [Transition.names] using h q a r

/-- The transitions are those of the lines, numbered from the first line on. -/
theorem readTransitions_eq_ok_iff {number : Nat} {lines : List Text}
    {numbered : List (Transition × Nat)} :
    readTransitions number lines = .ok numbered ↔
      ∃ ts : List Transition, lines.map Text.tokens = ts.map Transition.names ∧
        numbered = ts.zipIdx number := by
  induction lines generalizing number numbered with
  | nil => simp [readTransitions, eq_comm]
  | cons line lines ih =>
      simp only [readTransitions, bind_eq_ok_iff, readTransition_eq_ok_iff, ih, pure, Except.pure,
        Except.ok.injEq]
      constructor
      · rintro ⟨t, ht, _, ⟨ts, hts, rfl⟩, rfl⟩
        exact ⟨t :: ts, by simp [ht, hts], rfl⟩
      · rintro ⟨ts, hts, rfl⟩
        obtain ⟨t, ts, rfl, ht, hts⟩ := List.map_eq_cons_iff.1 hts.symm
        exact ⟨t, ht.symm, _, ⟨ts, hts.symm, rfl⟩, rfl⟩

/-! ## Whole definitions -/

/-- What reading the lines of some sections gives, when it succeeds. -/
structure Sections.Reads (s : Sections) (finals : List State) (ts : List Transition) : Prop where
  alphabet : Text.tokens s.alphabet ≠ []
  states : Text.tokens s.states ≠ []
  initial : Text.trim s.initial ≠ []
  finals : readFinals s.finals = .ok finals
  transitions : s.transitions.map Text.tokens = ts.map Transition.names

theorem read_eq_ok_iff {lines : List Text} {r : Reading} :
    read lines = .ok r ↔ ∃ s finals ts, lines = Sections.lines s ∧ s.Reads finals ts ∧
      r = ⟨.build (Text.tokens s.alphabet) (Text.tokens s.states) (Text.trim s.initial) finals ts,
        lineNumbers (ts.zipIdx 6)⟩ := by
  constructor
  · intro h
    rw [read.eq_def] at h
    split at h
    · next kindLine alphabet states initial finals transitions =>
        simp only [readAlphabet, readStates, bind_eq_ok_iff, checkKind_eq_ok_iff,
          readNames_eq_ok_iff, readInitial_eq_ok_iff, readTransitions_eq_ok_iff, pure,
          Except.pure, Except.ok.injEq] at h
        obtain ⟨_, rfl, _, ⟨rfl, ha⟩, _, ⟨rfl, hs⟩, _, ⟨rfl, hi⟩, finalStates, hf, _,
          ⟨ts, hts, rfl⟩, rfl⟩ := h
        refine ⟨⟨alphabet, states, initial, finals, transitions⟩, finalStates, ts, rfl,
          ⟨ha, hs, hi, hf, hts⟩, ?_⟩
        rw [List.zipIdx_map_fst]
    · simp at h
  · rintro ⟨s, finals, ts, rfl, h, rfl⟩
    simp only [Sections.lines, read, readAlphabet, readStates, bind_eq_ok_iff,
      checkKind_eq_ok_iff, readNames_eq_ok_iff, readInitial_eq_ok_iff, readTransitions_eq_ok_iff,
      pure, Except.pure, Except.ok.injEq]
    refine ⟨(), trivial, _, ⟨rfl, h.alphabet⟩, _, ⟨rfl, h.states⟩, _, ⟨rfl, h.initial⟩, finals,
      h.finals, _, ⟨ts, h.transitions, rfl⟩, ?_⟩
    rw [List.zipIdx_map_fst]

end Definition

end Acceptor
