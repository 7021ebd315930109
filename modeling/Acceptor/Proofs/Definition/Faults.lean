import Acceptor.Proofs.Definition.Strictness

/-!
# Faults of the form

Each line of a definition has a form that its number asks for (`IsFormed`), and a fault that it is
rejected for when it has not (`formFault`).  A part of the reader looks at its own line only, and
the parts are read in the order of the lines, so the first line without its form decides.  The
lines after it are not looked at, and neither is strictness.

* `read_eq_error_iff`: reading fails on a list of lines that is too short, or else on the first
  line that has not its form.
-/

namespace Acceptor.Definition

/-! ## Lines and their faults -/

/-- What the line with a number, counted from one, has to be. -/
def IsFormed (number : Nat) (line : Text) : Prop :=
  match number with
  | 1 => line = kind
  | 2 | 3 | 5 => Text.tokens line ≠ []
  | 4 => Text.trim line ≠ []
  | _ => (Text.tokens line).length = 3

/-- The fault of the line with a number that is not what it has to be. -/
def formFault (number : Nat) (line : Text) : DefinitionError :=
  match number with
  | 1 => .wrongKind line
  | 2 => .emptyAlphabet
  | 3 => .emptyStates
  | 4 => .missingInitial
  | 5 => .missingFinals
  | _ => .malformedTransition number line

/-- The fault is the one of the first line that has not its form, where the first of the lines has
the given number. -/
inductive FirstFault : Nat → List Text → DefinitionError → Prop
  | here {number : Nat} {line : Text} {more : List Text} (unformed : ¬ IsFormed number line) :
      FirstFault number (line :: more) (formFault number line)
  | later {number : Nat} {line : Text} {more : List Text} {e : DefinitionError}
      (formed : IsFormed number line) (rest : FirstFault (number + 1) more e) :
      FirstFault number (line :: more) e

variable {number : Nat} {line : Text} {lines more : List Text} {e : DefinitionError}

theorem not_firstFault_nil : ¬ FirstFault number [] e := by
  intro h
  cases h

theorem firstFault_cons_iff :
    FirstFault number (line :: more) e ↔
      (¬ IsFormed number line ∧ e = formFault number line) ∨
        IsFormed number line ∧ FirstFault (number + 1) more e := by
  constructor
  · intro h
    cases h with
    | here unformed => exact .inl ⟨unformed, rfl⟩
    | later formed rest => exact .inr ⟨formed, rest⟩
  · rintro (⟨unformed, rfl⟩ | ⟨formed, rest⟩)
    · exact .here unformed
    · exact .later formed rest

theorem exists_firstFault {n : Nat} (hline : lines[n]? = some line)
    (unformed : ¬ IsFormed (number + n) line) : ∃ e, FirstFault number lines e := by
  induction lines generalizing number n with
  | nil => simp at hline
  | cons first more ih =>
      by_cases formed : IsFormed number first
      · cases n with
        | zero =>
            obtain rfl := Option.some.inj hline
            exact absurd formed unformed
        | succ n =>
            rw [← Nat.add_assoc, Nat.add_right_comm] at unformed
            obtain ⟨e, he⟩ := ih hline unformed
            exact ⟨e, .later formed he⟩
      · exact ⟨_, .here formed⟩

/-! ## Faults by their places -/

/-- The line at a place is the first that has not its form. -/
structure IsFirstUnformed (number : Nat) (lines : List Text) (n : Nat) (line : Text) : Prop where
  there : lines[n]? = some line
  unformed : ¬ IsFormed (number + n) line
  formed : ∀ m < n, ∀ other, lines[m]? = some other → IsFormed (number + m) other

theorem isFirstUnformed_zero_iff {first : Text} :
    IsFirstUnformed number (first :: more) 0 line ↔ line = first ∧ ¬ IsFormed number first := by
  constructor
  · intro h
    obtain rfl := Option.some.inj h.there
    exact ⟨rfl, h.unformed⟩
  · rintro ⟨rfl, unformed⟩
    exact ⟨rfl, unformed, by simp⟩

theorem isFirstUnformed_succ_iff {first : Text} {n : Nat} :
    IsFirstUnformed number (first :: more) (n + 1) line ↔
      IsFormed number first ∧ IsFirstUnformed (number + 1) more n line := by
  have hnumber : ∀ m, number + 1 + m = number + (m + 1) := fun m ↦ by omega
  constructor
  · intro h
    refine ⟨h.formed 0 (Nat.succ_pos n) first rfl, h.there, ?_, fun m hm other hother ↦ ?_⟩
    · exact hnumber n ▸ h.unformed
    · exact hnumber m ▸ h.formed (m + 1) (Nat.succ_lt_succ hm) other hother
  · rintro ⟨formed, h⟩
    refine ⟨h.there, hnumber n ▸ h.unformed, fun m hm other hother ↦ ?_⟩
    cases m with
    | zero =>
        obtain rfl := Option.some.inj hother
        exact formed
    | succ m => exact hnumber m ▸ h.formed m (Nat.lt_of_succ_lt_succ hm) other hother

theorem firstFault_iff :
    FirstFault number lines e ↔
      ∃ n line, IsFirstUnformed number lines n line ∧ e = formFault (number + n) line := by
  induction lines generalizing number with
  | nil =>
      have hnone : ∀ n line, ¬ IsFirstUnformed number [] n line := fun n line h ↦ by
        simpa using h.there
      simp [not_firstFault_nil, hnone]
  | cons first more ih =>
      have hnumber : ∀ m, number + 1 + m = number + (m + 1) := fun m ↦ by omega
      rw [firstFault_cons_iff, ih]
      constructor
      · rintro (⟨unformed, rfl⟩ | ⟨formed, n, line, h, rfl⟩)
        · exact ⟨0, first, isFirstUnformed_zero_iff.2 ⟨rfl, unformed⟩, rfl⟩
        · exact ⟨n + 1, line, isFirstUnformed_succ_iff.2 ⟨formed, h⟩, by rw [hnumber]⟩
      · rintro ⟨n, line, h, rfl⟩
        cases n with
        | zero =>
            obtain ⟨rfl, unformed⟩ := isFirstUnformed_zero_iff.1 h
            exact .inl ⟨unformed, rfl⟩
        | succ n =>
            obtain ⟨formed, h⟩ := isFirstUnformed_succ_iff.1 h
            exact .inr ⟨formed, n, line, h, by rw [hnumber]⟩

/-- What follows the first line without its form does not matter. -/
theorem IsFirstUnformed.of_take_eq {others : List Text} {n : Nat}
    (h : IsFirstUnformed number lines n line)
    (htake : others.take (n + 1) = lines.take (n + 1)) :
    IsFirstUnformed number others n line := by
  have hsame : ∀ m < n + 1, others[m]? = lines[m]? := fun m hm ↦ by
    rw [← List.getElem?_take_of_lt hm, htake, List.getElem?_take_of_lt hm]
  refine ⟨?_, h.unformed, fun m hm other hother ↦ h.formed m hm other ?_⟩
  · rw [hsame n (Nat.lt_succ_self n), h.there]
  · rw [← hsame m (Nat.lt_succ_of_lt hm), hother]

/-- A fault of the form is tied to the line that has it. -/
theorem line_formFault (number : Nat) (line : Text) :
    (formFault number line).line = number := by
  rw [formFault.eq_def]
  split <;> rfl

/-! ## Parts of the reader -/

/-- A part of the reader looks at the line with a number: it fails exactly when the line has not its
form, and with the line's fault. -/
inductive ReadsLine {α : Type} (number : Nat) (line : Text) : Except DefinitionError α → Prop
  | formed (a : α) (formed : IsFormed number line) : ReadsLine number line (.ok a)
  | unformed (unformed : ¬ IsFormed number line) :
      ReadsLine number line (.error (formFault number line))

/-- A part of the reader looks at several lines, of which the first has the number. -/
def ReadsLines {α : Type} (number : Nat) (lines : List Text) (x : Except DefinitionError α) :
    Prop :=
  ∀ e, x = .error e ↔ FirstFault number lines e

section Parts

variable {α β : Type} {x : Except DefinitionError α} {f : α → Except DefinitionError β}

/-- The lines after the first are looked at only if that has its form. -/
theorem ReadsLine.bind (h : ReadsLine number line x)
    (hf : ∀ a, ReadsLines (number + 1) more (f a)) :
    ReadsLines number (line :: more) (x >>= f) := by
  intro e
  rw [firstFault_cons_iff]
  cases h with
  | formed a formed =>
      have hmore : (Except.ok a >>= f) = .error e ↔ FirstFault (number + 1) more e := hf a e
      simpa [formed] using hmore
  | unformed unformed =>
      have hfault : (Except.error (formFault number line) >>= f) = .error e ↔
          e = formFault number line := by simp [bind, Except.bind, eq_comm]
      simpa [unformed] using hfault

/-- What is done with the result does not fail any more. -/
theorem ReadsLines.bind_ok (h : ReadsLines number lines x) (g : α → β) :
    ReadsLines number lines (x >>= fun a ↦ .ok (g a)) := by
  intro e
  rw [← h]
  cases x <;> simp [bind, Except.bind]

end Parts

theorem readsLine_kind (line : Text) : ReadsLine 1 line (checkKind line) := by
  rw [checkKind]
  split
  · next h => exact .formed () h
  · next h => exact .unformed h

/-- A line whose form is to have a token. -/
theorem readsLine_names (formed : IsFormed number line ↔ Text.tokens line ≠ []) :
    ReadsLine number line (readNames (formFault number line) line) := by
  rw [readNames]
  split
  · next h => exact .unformed fun hformed ↦ formed.1 hformed h
  · next h => exact .formed _ (formed.2 h)

theorem readsLine_initial (line : Text) : ReadsLine 4 line (readInitial line) := by
  rw [readInitial]
  split
  · next h => exact .unformed (not_not.2 h)
  · next h => exact .formed _ h

theorem readsLine_finals (line : Text) : ReadsLine 5 line (readFinals line) := by
  rw [readFinals]
  split
  · next h => exact .unformed (not_not.2 h)
  · next first others h =>
      have formed : Text.tokens line ≠ [] := by simp [h]
      exact .formed _ formed

/-- From the sixth line on all lines are those of transitions. -/
theorem readsLine_transition (n : Nat) (line : Text) :
    ReadsLine (n + 6) line (readTransition line (n + 6 : Nat)) := by
  rw [readTransition]
  split
  · next q a r h =>
      have formed : (Text.tokens line).length = 3 := by simp [h]
      exact .formed _ formed
  · next h =>
      have unformed : ¬ (Text.tokens line).length = 3 := by
        intro hthree
        obtain ⟨q, a, r, hnames⟩ := List.length_eq_three.1 hthree
        exact h q a r hnames
      exact .unformed unformed

theorem readsLines_transitions (n : Nat) (lines : List Text) :
    ReadsLines (n + 6) lines (readTransitions (n + 6) lines) := by
  induction lines generalizing n with
  | nil => exact fun e ↦ by simp [readTransitions, not_firstFault_nil]
  | cons line lines ih =>
      have hmore : ReadsLines (n + 6 + 1) lines (readTransitions (n + 6 + 1) lines) := by
        simpa only [Nat.add_right_comm] using ih (n + 1)
      exact (readsLine_transition n line).bind fun t ↦ hmore.bind_ok _

/-! ## Whole definitions -/

theorem read_of_length_lt (h : lines.length < 5) :
    read lines = .error (.tooFewLines lines.length) := by
  rw [read.eq_def]
  split
  · simp only [List.length_cons] at h
    omega
  · rfl

theorem readsLines_read (h : 5 ≤ lines.length) : ReadsLines 1 lines (read lines) := by
  rcases lines with _ | ⟨kindLine, _ | ⟨alphabet, _ | ⟨states, _ | ⟨initial, _ | ⟨finals, more⟩⟩⟩⟩⟩
  iterate 5 simp at h
  have halphabet : ReadsLine 2 alphabet (readAlphabet alphabet) := readsLine_names Iff.rfl
  have hstates : ReadsLine 3 states (readStates states) := readsLine_names Iff.rfl
  exact (readsLine_kind kindLine).bind fun _ ↦ halphabet.bind fun _ ↦ hstates.bind fun _ ↦
    (readsLine_initial initial).bind fun _ ↦ (readsLine_finals finals).bind fun _ ↦
    (readsLines_transitions 0 more).bind_ok _

/-- Too few lines are too few whatever they hold, and otherwise the first line without its form
decides. -/
theorem read_eq_error_iff :
    read lines = .error e ↔ lines.length < 5 ∧ e = .tooFewLines lines.length ∨
      5 ≤ lines.length ∧ FirstFault 1 lines e := by
  rcases Nat.lt_or_ge lines.length 5 with h | h
  · simp [read_of_length_lt h, h, Nat.not_le.2 h, eq_comm]
  · simp [readsLines_read h e, h, Nat.not_lt.2 h]

variable {config : Config} {text : Text}

/-- The first line without its form is reported, strictly or not. -/
theorem IsFirstUnformed.parse_eq {n : Nat} (h : IsFirstUnformed 1 (Text.lines text) n line)
    (hlength : 5 ≤ (Text.lines text).length) :
    parse config text = .error (formFault (1 + n) line) :=
  parse_of_read_error ((readsLines_read hlength _).2 (firstFault_iff.2 ⟨n, line, h, rfl⟩))

/-- Too few lines are reported whatever they hold.  Otherwise the first line that has not the form
which its number asks for is reported with its number, and nothing else matters: every text that
has enough lines and the same lines up to that one is rejected for the same fault, strictly or
not. -/
theorem first_unformed_line_reported (config : Config) (text : Text) :
    let lines := Text.lines text
    (lines.length < 5 → parse config text = .error (.tooFewLines lines.length)) ∧
    (5 ≤ lines.length → (∃ n line, lines[n]? = some line ∧ ¬ IsFormed (1 + n) line) →
      ∃ n line, IsFirstUnformed 1 lines n line ∧
        parse config text = .error (formFault (1 + n) line) ∧
        (formFault (1 + n) line).line = (1 + n : Nat) ∧
        ∀ (config' : Config) (text' : Text), 5 ≤ (Text.lines text').length →
          (Text.lines text').take (1 + n) = lines.take (1 + n) →
          parse config' text' = .error (formFault (1 + n) line)) := by
  intro lines
  refine ⟨fun h ↦ parse_of_read_error (read_of_length_lt h), ?_⟩
  rintro hlength ⟨n, line, hline, unformed⟩
  obtain ⟨e, hfault⟩ := exists_firstFault hline unformed
  obtain ⟨n, line, hfirst, -⟩ := firstFault_iff.1 hfault
  refine ⟨n, line, hfirst, hfirst.parse_eq hlength, line_formFault _ _, ?_⟩
  intro config' text' hlength' htake
  rw [Nat.add_comm] at htake
  exact (hfirst.of_take_eq htake).parse_eq hlength'

/-- A blank line in the middle is the seventh line, and neither the undeclared target before it nor
the short line after it is reported.  Blank lines at the end do not count. -/
theorem first_unformed_line_reported_blank :
    let short := "dfa\n0\n\n\n\n\n".toList
    let text := "dfa\n0\nq\nq\nq\nq 0 r\n\nq 0\n".toList
    let text' := "dfa\r\n0\r\nq\r\nq\r\nq\r\nq 0 r\r\n\r\nq 0 q\r\n".toList
    let e := DefinitionError.malformedTransition 7 []
    parse {} short = .error (.tooFewLines 2) ∧
      (∃ n line, (Text.lines text)[n]? = some line ∧ ¬ IsFormed (1 + n) line) ∧
      parse { strict := true } text = .error e ∧ parse {} text' = .error e := by
  intro short text text' e
  obtain ⟨hshort, -⟩ := first_unformed_line_reported {} short
  obtain ⟨-, hfirst⟩ := first_unformed_line_reported { strict := true } text
  have hunformed : ∃ n line, (Text.lines text)[n]? = some line ∧ ¬ IsFormed (1 + n) line := by
    refine ⟨7, "q 0".toList, by decide +kernel, ?_⟩
    change (Text.tokens "q 0".toList).length ≠ 3
    decide +kernel
  obtain ⟨n, line, -, herror, hnumber, hsame⟩ := hfirst (by decide +kernel) hunformed
  have hparse : parse { strict := true } text = .error e := by decide +kernel
  have he : e = formFault (1 + n) line := Except.error.inj (hparse.symm.trans herror)
  have hn : (7 : Int) = (1 + n : Nat) := by
    rw [← hnumber, ← he]
    rfl
  obtain rfl : n = 6 := by omega
  refine ⟨(hshort (by decide +kernel)).trans (by decide +kernel), hunformed, hparse, ?_⟩
  rw [he]
  exact hsame {} text' (by decide +kernel) (by decide +kernel)

end Acceptor.Definition
