/-!
# Texts

A text is the list of its characters, so that every rule about lines, tokens and quoting is an
induction on a list.  Names of states and symbols, definitions, words, labels and messages are
all texts.
-/

namespace Acceptor

abbrev Text := List Char

namespace Text

universe u

variable {α : Type u} {p : α → Bool}

/-! ## Dropping from the end

Trailing blank lines, line ends and trailing blanks all go the same way: as long as the last
element satisfies a test, it is dropped. -/

def dropEndWhile (p : α → Bool) (l : List α) : List α :=
  l.foldr (fun a kept ↦ if kept.isEmpty && p a then [] else a :: kept) []

@[simp] theorem dropEndWhile_nil : dropEndWhile p [] = [] := rfl

theorem dropEndWhile_cons (a : α) (l : List α) :
    dropEndWhile p (a :: l) =
      if (dropEndWhile p l).isEmpty && p a then [] else a :: dropEndWhile p l := rfl

/-- Only the end goes: what is kept is a prefix, and all that follows it satisfies the test. -/
theorem exists_dropEndWhile_append (p : α → Bool) (l : List α) :
    ∃ dropped, l = dropEndWhile p l ++ dropped ∧ ∀ a ∈ dropped, p a := by
  induction l with
  | nil => exact ⟨[], by simp⟩
  | cons a l ih =>
      obtain ⟨dropped, h, hall⟩ := ih
      rw [dropEndWhile_cons]
      split
      · next hd =>
          simp only [Bool.and_eq_true, List.isEmpty_iff] at hd
          refine ⟨a :: dropped, ?_, ?_⟩
          · rw [hd.1, List.nil_append] at h
            rw [← h, List.nil_append]
          · simpa [hd.2] using hall
      · exact ⟨dropped, by rw [List.cons_append, ← h], hall⟩

/-- What is kept ends, if at all, in an element that fails the test. -/
theorem not_of_getLast?_dropEndWhile {l : List α} {a : α}
    (h : (dropEndWhile p l).getLast? = some a) : ¬ p a := by
  induction l with
  | nil => simp at h
  | cons b l ih =>
      rw [dropEndWhile_cons] at h
      split at h
      · simp at h
      · next hk =>
          cases hd : dropEndWhile p l with
          | nil => simp_all
          | cons c r => rw [hd] at h ih; exact ih (by simpa using h)

/-! ## Numbers -/

/-- A natural number in decimal digits, without leading zeros. -/
def ofNat (n : Nat) : Text := Nat.toDigits 10 n

/-- An integer in decimal digits, after a minus sign when it is negative. -/
def ofInt : Int → Text
  | .ofNat n => ofNat n
  | .negSucc n => '-' :: ofNat (n + 1)

end Text

end Acceptor
