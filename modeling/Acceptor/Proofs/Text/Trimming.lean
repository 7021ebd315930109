import Acceptor.Text.Blank
import Acceptor.Text.Lines
import Mathlib.Data.List.DropRight

/-!
# Laws of trimming

Trimming, chomping and dropping trailing empty lines are one operation, `dropEndWhile`, with three
tests.  Its laws come first; they say when nothing is dropped and that what is appended and
satisfies the test does not matter.  `trim` and `chomp` inherit them.
-/

namespace Acceptor.Text

universe u

variable {α : Type u} {p : α → Bool}

/-! ## Dropping from the end -/

theorem dropEndWhile_concat (l : List α) (a : α) :
    dropEndWhile p (l ++ [a]) = if p a then dropEndWhile p l else l ++ [a] := by
  induction l with
  | nil => simp [dropEndWhile_cons]
  | cons b l ih =>
      rw [List.cons_append, dropEndWhile_cons, ih]
      by_cases ha : p a
      · simp only [ha, if_true]
        exact (dropEndWhile_cons b l).symm
      · simp [ha]

/-- Dropping from the end is the operation of the list library. -/
theorem dropEndWhile_eq_rdropWhile (l : List α) : dropEndWhile p l = l.rdropWhile p := by
  induction l using List.reverseRecOn with
  | nil => simp
  | append_singleton l a ih => rw [dropEndWhile_concat, List.rdropWhile_concat, ih]

/-- Nothing is dropped exactly when the last element fails the test. -/
theorem dropEndWhile_eq_self_iff {l : List α} :
    dropEndWhile p l = l ↔ ∀ a, l.getLast? = some a → ¬ p a := by
  rw [dropEndWhile_eq_rdropWhile, List.rdropWhile_eq_self_iff]
  constructor
  · intro h a ha
    obtain ⟨front, rfl⟩ := List.getLast?_eq_some_iff.1 ha
    simpa using h (by simp)
  · intro h hne
    exact h _ (List.getLast?_eq_getLast_of_ne_nil hne)

@[simp] theorem dropEndWhile_dropEndWhile (l : List α) :
    dropEndWhile p (dropEndWhile p l) = dropEndWhile p l :=
  dropEndWhile_eq_self_iff.2 fun _ ↦ not_of_getLast?_dropEndWhile

theorem dropEndWhile_append_of_all (l : List α) {m : List α} (h : ∀ a ∈ m, p a) :
    dropEndWhile p (l ++ m) = dropEndWhile p l := by
  induction m using List.reverseRecOn with
  | nil => simp
  | append_singleton m a ih =>
      rw [← List.append_assoc, dropEndWhile_concat, if_pos (h a (by simp))]
      exact ih fun b hb ↦ h b (by simp [hb])

theorem mem_of_mem_dropEndWhile {l : List α} {a : α} (h : a ∈ dropEndWhile p l) : a ∈ l := by
  obtain ⟨dropped, hl, -⟩ := exists_dropEndWhile_append p l
  rw [hl]
  exact List.mem_append_left _ h

/-! ## Trimming

Blanks at either end of a text do not matter to `trim`, and what it keeps has none there. -/

/-- Only blanks are removed, and they stand at the two ends. -/
theorem exists_trim (t : Text) :
    ∃ front back, t = front ++ trim t ++ back ∧
      (∀ c ∈ front, isBlank c) ∧ ∀ c ∈ back, isBlank c := by
  obtain ⟨back, hback, hblank⟩ := exists_dropEndWhile_append isBlank (t.dropWhile isBlank)
  refine ⟨t.takeWhile isBlank, back, ?_, fun c hc ↦ List.mem_takeWhile_imp hc, hblank⟩
  rw [List.append_assoc, trim, ← hback, List.takeWhile_append_dropWhile]

theorem mem_of_mem_trim {t : Text} {c : Char} (h : c ∈ trim t) : c ∈ t := by
  obtain ⟨front, back, ht, -, -⟩ := exists_trim t
  rw [ht]
  exact List.mem_append_left back (List.mem_append_right front h)

theorem trim_eq_nil_iff {t : Text} : trim t = [] ↔ ∀ c ∈ t, isBlank c := by
  constructor
  · intro h c hc
    obtain ⟨front, back, ht, hfront, hback⟩ := exists_trim t
    rw [ht, h, List.append_nil] at hc
    rcases List.mem_append.1 hc with hc | hc
    · exact hfront c hc
    · exact hback c hc
  · intro h
    rw [trim, List.dropWhile_eq_nil_iff.2 h, dropEndWhile_nil]

theorem trim_append_of_blank (t : Text) {u : Text} (h : ∀ c ∈ u, isBlank c) :
    trim (t ++ u) = trim t := by
  rw [trim, List.dropWhile_append]
  split
  · next ht =>
      rw [List.dropWhile_eq_nil_iff.2 h, dropEndWhile_nil, trim, List.isEmpty_iff.1 ht,
        dropEndWhile_nil]
  · exact dropEndWhile_append_of_all _ h

@[simp] theorem trim_append_newline (t : Text) : trim (t ++ ['\n']) = trim t :=
  trim_append_of_blank t fun c hc ↦ by
    rw [List.mem_singleton.1 hc]
    decide

@[simp] theorem trim_trim (t : Text) : trim (trim t) = trim t := by
  have hhead : (trim t).dropWhile isBlank = trim t := by
    cases ht : trim t with
    | nil => rfl
    | cons c rest =>
        -- the first character that is kept is the one at which dropping from the front stopped
        obtain ⟨dropped, hd, -⟩ := exists_dropEndWhile_append isBlank (t.dropWhile isBlank)
        have hc : t.dropWhile isBlank = c :: (rest ++ dropped) := by
          rw [hd, ← trim, ht, List.cons_append]
        have hnot : isBlank c = false := by
          have := List.head?_dropWhile_not isBlank t
          simpa [hc] using this
        simp [hnot]
  rw [trim, hhead, trim, dropEndWhile_dropEndWhile]

/-! ## Chomping -/

theorem chomp_append_of_ends (line : Text) {ends : Text} (h : ∀ c ∈ ends, isLineEnd c) :
    chomp (line ++ ends) = chomp line := dropEndWhile_append_of_all line h

@[simp] theorem chomp_append_newline (line : Text) : chomp (line ++ ['\n']) = chomp line :=
  chomp_append_of_ends line (by simp [isLineEnd])

theorem isBlank_of_isLineEnd {c : Char} (h : isLineEnd c) : isBlank c := by
  simp only [isLineEnd, Bool.or_eq_true, beq_iff_eq] at h
  rcases h with rfl | rfl <;> decide

/-- A line end hides nothing from `trim`, so a terminator is found before or after chomping. -/
theorem trim_chomp (line : Text) : trim (chomp line) = trim line := by
  obtain ⟨ends, hl, hends⟩ := exists_dropEndWhile_append isLineEnd line
  have := trim_append_of_blank (chomp line) fun c hc ↦ isBlank_of_isLineEnd (hends c hc)
  rw [← this, chomp, ← hl]

end Acceptor.Text
