import Acceptor.Text.Lines

/-!
# Laws of line ends

Files know three line ends and definitions know two.  A file has no carriage return left once its
line ends are made line feeds, so a definition reads it as it is; and where every carriage
return stands before a line feed, this changes nothing about the lines of a definition.
-/

namespace Acceptor.Text

variable {t : Text}

/-- Every carriage return stands before a line feed. -/
def ReturnsEndLines (t : Text) : Prop :=
  ∀ front back, t = front ++ '\r' :: back → back.head? = some '\n'

theorem returnsEndLines_nil : ReturnsEndLines [] := fun front back h ↦ by simp at h

theorem returnsEndLines_cons_iff {c : Char} :
    ReturnsEndLines (c :: t) ↔ (c = '\r' → t.head? = some '\n') ∧ ReturnsEndLines t := by
  constructor
  · intro h
    refine ⟨?_, fun front back ht ↦ h (c :: front) back (congrArg (c :: ·) ht)⟩
    rintro rfl
    exact h [] t rfl
  · rintro ⟨hc, h⟩ front back ht
    cases front with
    | nil =>
        obtain ⟨rfl, rfl⟩ := List.cons.inj ht
        exact hc rfl
    | cons d front => exact h front back (List.cons.inj ht).2

instance : (t : Text) → Decidable (ReturnsEndLines t)
  | [] => .isTrue returnsEndLines_nil
  | _ :: t =>
      have := instDecidableReturnsEndLines t
      decidable_of_iff _ returnsEndLines_cons_iff.symm

theorem notMem_normalizeEnds (t : Text) : '\r' ∉ normalizeEnds t := by
  induction t with
  | nil => exact List.not_mem_nil
  | cons c rest ih =>
      rw [normalizeEnds]
      split
      · split
        · exact ih
        · simpa using ih
      · next hc =>
          intro hm
          rcases List.mem_cons.1 hm with hreturn | hm
          · exact hc hreturn.symm
          · exact ih hm

theorem unifyEnds_of_notMem_return (h : '\r' ∉ t) : unifyEnds t = t := by
  induction t with
  | nil => rfl
  | cons c rest ih =>
      have hc : ¬ (c = '\r' ∧ rest.head? = some '\n') := by
        rintro ⟨rfl, -⟩
        exact h List.mem_cons_self
      rw [unifyEnds, if_neg hc, ih fun hm ↦ h (List.mem_cons_of_mem c hm)]

/-- A file and a definition differ in their line ends on lone carriage returns only. -/
theorem ReturnsEndLines.normalizeEnds_eq (h : ReturnsEndLines t) :
    normalizeEnds t = unifyEnds t := by
  induction t with
  | nil => rfl
  | cons c rest ih =>
      obtain ⟨hfeed, hrest⟩ := returnsEndLines_cons_iff.1 h
      rw [normalizeEnds, unifyEnds, ih hrest]
      by_cases hc : c = '\r'
      · simp [hc, hfeed hc]
      · simp [hc]

theorem ReturnsEndLines.lines_normalizeEnds (h : ReturnsEndLines t) :
    lines (normalizeEnds t) = lines t := by
  rw [lines, lines, unifyEnds_of_notMem_return (notMem_normalizeEnds t), h.normalizeEnds_eq]

end Acceptor.Text
