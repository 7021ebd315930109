import Acceptor.Text.Encoding
import Mathlib.Data.Nat.Digits.Defs

/-!
# Quoted texts are one line

Messages are built from words of their own, from numbers and from names in quotes.  None of these
has a line feed, whatever the names hold, so a message can only be split over lines by a text that
it takes over as it is.
-/

namespace Acceptor.Text

/-- A text without line feeds, which stays one line when it is logged. -/
def IsOneLine (t : Text) : Prop := '\n' ∉ t

instance (t : Text) : Decidable (IsOneLine t) := inferInstanceAs (Decidable ('\n' ∉ t))

@[simp] theorem isOneLine_append {s t : Text} :
    IsOneLine (s ++ t) ↔ IsOneLine s ∧ IsOneLine t := by
  rw [IsOneLine, List.mem_append, not_or]
  exact Iff.rfl

theorem isOneLine_cons {c : Char} {t : Text} :
    IsOneLine (c :: t) ↔ '\n' ≠ c ∧ IsOneLine t := by
  rw [IsOneLine, List.mem_cons, not_or]
  exact Iff.rfl

@[simp] theorem isOneLine_nil : IsOneLine [] := List.not_mem_nil

/-! ## Numbers -/

theorem isOneLine_toDigits {base : Nat} (h : 1 < base) (n : Nat) :
    IsOneLine (Nat.toDigits base n) := by
  have hdigit : ∀ k, IsOneLine [Nat.digitChar k] := fun k ↦
    isOneLine_cons.2 ⟨(Nat.digitChar_ne '\n' rfl).symm, isOneLine_nil⟩
  induction n using Nat.strongRecOn with
  | ind n ih =>
      rw [Nat.toDigits_eq_if h]
      split
      · exact hdigit n
      · next hn =>
          have hless : n / base < n := Nat.div_lt_self (by omega) h
          exact isOneLine_append.2 ⟨ih _ hless, hdigit _⟩

@[simp] theorem isOneLine_ofNat (n : Nat) : IsOneLine (ofNat n) := isOneLine_toDigits (by decide) n

@[simp] theorem isOneLine_ofInt (n : Int) : IsOneLine (ofInt n) := by
  cases n with
  | ofNat n => exact isOneLine_ofNat n
  | negSucc n => exact isOneLine_cons.2 ⟨by decide, isOneLine_ofNat (n + 1)⟩

@[simp] theorem isOneLine_hex (width n : Nat) : IsOneLine (hex width n) := by
  rw [hex, List.leftpad, isOneLine_append]
  refine ⟨fun h ↦ ?_, isOneLine_toDigits (by decide) n⟩
  cases List.eq_of_mem_replicate h

/-! ## Quotes -/

theorem isOneLine_byCode (n : Nat) : IsOneLine (byCode n) := by
  have hcode : ∀ kind width, '\n' ≠ kind → IsOneLine (backslash :: kind :: hex width n) :=
    fun kind width hkind ↦ isOneLine_cons.2 ⟨by decide, isOneLine_cons.2 ⟨hkind, isOneLine_hex _ _⟩⟩
  rw [byCode]
  split
  · exact hcode 'x' 2 (by decide)
  · split
    · exact hcode 'u' 4 (by decide)
    · exact hcode 'U' 8 (by decide)

/-- Between quotes a line feed is written by its letter. -/
theorem isOneLine_quoteChar {mark : Char} (h : '\n' ≠ mark) (c : Char) :
    IsOneLine (quoteChar mark c) := by
  have hslash : '\n' ≠ backslash := by decide
  have hletter : ∀ letter, '\n' ≠ letter → IsOneLine [backslash, letter] := fun letter hne ↦
    isOneLine_cons.2 ⟨hslash, isOneLine_cons.2 ⟨hne, isOneLine_nil⟩⟩
  rw [quoteChar]
  split
  · next hc =>
      rcases hc with rfl | rfl
      · exact hletter _ h
      · exact hletter _ hslash
  split
  · exact hletter 't' (by decide)
  split
  · exact hletter 'n' (by decide)
  · next hc =>
    split
    · exact hletter 'r' (by decide)
    split
    · exact isOneLine_cons.2 ⟨Ne.symm hc, isOneLine_nil⟩
    · exact isOneLine_byCode _

/-- A quoted text is one line, whatever the text is. -/
@[simp] theorem isOneLine_quoted (t : Text) : IsOneLine (quoted t) := by
  have hmark : '\n' ≠ quoteMark t := by
    rw [quoteMark]
    split <;> decide
  rw [quoted, isOneLine_append, isOneLine_cons]
  refine ⟨⟨hmark, fun h ↦ ?_⟩, isOneLine_cons.2 ⟨hmark, isOneLine_nil⟩⟩
  obtain ⟨c, -, hc⟩ := List.mem_flatMap.1 h
  exact isOneLine_quoteChar hmark c hc

end Acceptor.Text

namespace Acceptor

/-! ## Undecodable bytes -/

@[simp] theorem BadBytes.isOneLine_reason (cause : BadBytes) : Text.IsOneLine cause.reason := by
  cases cause <;> decide

@[simp] theorem Encoding.isOneLine_name (e : Encoding) : Text.IsOneLine e.name := by
  cases e <;> decide

@[simp] theorem DecodeError.isOneLine_message (e : DecodeError) : Text.IsOneLine e.message := by
  rw [message]
  split
  · simp only [Text.isOneLine_append, Text.isOneLine_hex, Text.isOneLine_ofNat,
      Encoding.isOneLine_name, BadBytes.isOneLine_reason]
    decide
  · simp only [Text.isOneLine_append, Text.isOneLine_ofNat, Encoding.isOneLine_name,
      BadBytes.isOneLine_reason]
    decide

end Acceptor
