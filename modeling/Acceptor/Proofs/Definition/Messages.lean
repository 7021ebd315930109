import Acceptor.Proofs.Definition.Faults
import Acceptor.Proofs.Text.Lines
import Acceptor.Proofs.Text.Quoting

/-!
# Messages of faults

A fault puts names in quotes, but a transition line that is not one stands in its message as it is.
So a message is one line when that text is (`isOneLine_message`), and the text of a fault that a
definition is rejected for is one of the definition's lines (`unquoted_of_parse_eq_error`).
-/

namespace Acceptor

namespace DefinitionError

/-- The text that the message takes over without quotes. -/
def unquoted : DefinitionError → Text
  | malformedTransition _ content => content
  | unknownState _ (.other name) _ => name
  | described message _ => message
  | _ => []

variable {e : DefinitionError}

theorem isOneLine_summary (h : Text.IsOneLine e.unquoted) : Text.IsOneLine e.summary := by
  cases e with
  | malformedTransition line content =>
      have hcontent : Text.IsOneLine content := h
      show Text.IsOneLine (_ ++ content ++ _)
      simp only [Text.isOneLine_append, hcontent]
      decide
  | unknownState state role line =>
      have hrole : Text.IsOneLine role.name := by
        cases role with
        | initial | final | transition => decide
        | other name => exact h
      show Text.IsOneLine (_ ++ role.name ++ _ ++ Text.quoted state)
      simp only [Text.isOneLine_append, Text.isOneLine_quoted, hrole]
      decide
  | described message line => exact h
  | tooFewLines count =>
      show Text.IsOneLine (_ ++ Text.ofInt count ++ _)
      simp only [Text.isOneLine_append, Text.isOneLine_ofInt]
      decide
  | wrongKind name | unknownSymbol name =>
      show Text.IsOneLine (_ ++ Text.quoted name)
      simp only [Text.isOneLine_append, Text.isOneLine_quoted]
      decide
  | emptyAlphabet | emptyStates | missingInitial | missingFinals => decide

/-- A message is one line when the text that it takes over is. -/
theorem isOneLine_message (h : Text.IsOneLine e.unquoted) : Text.IsOneLine e.message := by
  rw [message]
  split
  · simp only [Text.isOneLine_append, isOneLine_summary h, Text.isOneLine_ofInt]
    decide
  · exact isOneLine_summary h

end DefinitionError

/-! ## Faults of the check -/

/-- The undeclared names of an automaton are all in quotes. -/
theorem Automaton.unquoted_of_validate_eq_error {d : Automaton} {lines : LineNumbers}
    {e : DefinitionError} (h : d.validate lines = .error e) : e.unquoted = [] := by
  have hmem : e ∈ d.undeclared lines := by
    rw [validate] at h
    split at h
    · cases h
    · next first others hundeclared =>
        obtain rfl := Except.error.inj h
        exact hundeclared ▸ List.mem_cons_self
  simp only [undeclared, undeclaredInitial, undeclaredFinals, undeclaredTransitions, undeclaredIn,
    List.mem_append, List.mem_ite_nil_left, List.mem_singleton, List.mem_map, List.mem_flatMap]
    at hmem
  rcases hmem with (⟨-, rfl⟩ | ⟨q, -, rfl⟩) | ⟨entry, -, (⟨-, rfl⟩ | ⟨-, rfl⟩) | ⟨-, rfl⟩⟩
  all_goals rfl

namespace Definition

variable {number : Nat} {lines : List Text} {config : Config} {text : Text} {e : DefinitionError}

theorem unquoted_formFault (number : Nat) (line : Text) :
    (formFault number line).unquoted = [] ∨ (formFault number line).unquoted = line := by
  rw [formFault.eq_def]
  split
  all_goals first | exact .inl rfl | exact .inr rfl

theorem FirstFault.unquoted (h : FirstFault number lines e) :
    e.unquoted = [] ∨ e.unquoted ∈ lines := by
  induction h with
  | @here number line more _ =>
      rcases unquoted_formFault number line with h | h
      · exact .inl h
      · rw [h]
        exact .inr List.mem_cons_self
  | later _ _ ih => exact ih.imp_right (List.mem_cons_of_mem _)

/-- What the fault of a definition takes over is one of its lines. -/
theorem unquoted_of_parse_eq_error (h : parse config text = .error e) :
    e.unquoted = [] ∨ e.unquoted ∈ Text.lines text := by
  rcases parse_eq_error_cases h with hread | ⟨-, r, -, hvalidate⟩
  · rcases read_eq_error_iff.1 hread with ⟨-, rfl⟩ | ⟨-, hfault⟩
    · exact .inl rfl
    · exact hfault.unquoted
  · exact .inl (Automaton.unquoted_of_validate_eq_error hvalidate)

/-- No definition can split its own message: no line holds a line feed. -/
theorem isOneLine_message_of_parse (h : parse config text = .error e) :
    Text.IsOneLine e.message := by
  apply DefinitionError.isOneLine_message
  rcases unquoted_of_parse_eq_error h with hnone | hline
  · rw [hnone]
    exact Text.isOneLine_nil
  · exact Text.notMem_of_mem_lines hline

end Definition

end Acceptor
