/-!
# Finite sets in increasing order

A set is the list of its members, each once and in increasing order.  The order is part of the
type, so two sets with the same members are the same set, and showing a set needs no sorting.
-/

namespace Acceptor

universe u v

variable {α : Type u} [Ord α]

abbrev Precedes (a b : α) : Prop := compare a b = .lt

theorem not_precedes_of_precedes [Std.OrientedOrd α] {a b : α} (h : Precedes a b) :
    ¬ Precedes b a := by
  rw [Precedes, Std.OrientedCmp.gt_of_lt h]
  simp

/-- A list that an asymmetric relation orders is determined by its members. -/
theorem eq_of_pairwise {β : Type v} {R : β → β → Prop} (asymm : ∀ a b, R a b → ¬ R b a)
    {l m : List β} (hl : l.Pairwise R) (hm : m.Pairwise R) (h : ∀ a, a ∈ l ↔ a ∈ m) : l = m := by
  induction l generalizing m with
  | nil =>
      cases m with
      | nil => rfl
      | cons b _ => exact absurd ((h b).2 (by simp)) (by simp)
  | cons a l ih =>
      cases m with
      | nil => exact absurd ((h a).1 (by simp)) (by simp)
      | cons b m =>
          rw [List.pairwise_cons] at hl hm
          have irrefl : ∀ c, ¬ R c c := fun c hc ↦ asymm c c hc hc
          have hab : a = b := by
            rcases List.mem_cons.1 ((h a).1 (by simp)) with hab | ham
            · exact hab
            · rcases List.mem_cons.1 ((h b).2 (by simp)) with hba | hbl
              · exact hba.symm
              · exact absurd (hm.1 a ham) (asymm a b (hl.1 b hbl))
          subst hab
          refine congrArg (a :: ·) (ih hl.2 hm.2 fun c ↦ ?_)
          have hc := h c
          simp only [List.mem_cons] at hc
          constructor
          · intro hcl
            rcases hc.1 (.inr hcl) with rfl | hcm
            · exact absurd (hl.1 c hcl) (irrefl c)
            · exact hcm
          · intro hcm
            rcases hc.2 (.inr hcm) with rfl | hcl
            · exact absurd (hm.1 c hcm) (irrefl c)
            · exact hcl

structure SortedSet (α : Type u) [Ord α] where
  toList : List α
  increasing : toList.Pairwise Precedes

namespace SortedSet

instance : Membership α (SortedSet α) := ⟨fun s a ↦ a ∈ s.toList⟩

theorem mem_toList {s : SortedSet α} {a : α} : a ∈ s.toList ↔ a ∈ s := Iff.rfl

instance [DecidableEq α] (s : SortedSet α) (a : α) : Decidable (a ∈ s) :=
  inferInstanceAs (Decidable (a ∈ s.toList))

theorem toList_injective {s t : SortedSet α} (h : s.toList = t.toList) : s = t := by
  cases s; cases t; cases h; rfl

instance [DecidableEq α] : DecidableEq (SortedSet α) := fun s t ↦
  decidable_of_iff (s.toList = t.toList) ⟨toList_injective, fun h ↦ h ▸ rfl⟩

def empty : SortedSet α := ⟨[], .nil⟩

def size (s : SortedSet α) : Nat := s.toList.length

/-! ## Insertion -/

/-- The members that precede the new one, the new one, and the others. -/
def insertList (a : α) : List α → List α
  | [] => [a]
  | b :: rest =>
      match compare a b with
      | .lt => a :: b :: rest
      | .eq => b :: rest
      | .gt => b :: insertList a rest

theorem mem_insertList [Std.LawfulEqOrd α] {a b : α} {l : List α} :
    b ∈ insertList a l ↔ b = a ∨ b ∈ l := by
  induction l with
  | nil => simp [insertList]
  | cons c rest ih =>
      rw [insertList]
      split
      · simp
      · next h =>
          have : a = c := Std.LawfulEqOrd.eq_of_compare h
          subst this
          simp
      · simp only [List.mem_cons, ih]
        grind

variable [Std.TransOrd α] [Std.LawfulEqOrd α]

theorem insertList_increasing (a : α) {l : List α} (h : l.Pairwise Precedes) :
    (insertList a l).Pairwise Precedes := by
  induction l with
  | nil => simp [insertList]
  | cons b rest ih =>
      rw [List.pairwise_cons] at h
      rw [insertList]
      split
      · next hab =>
          refine List.pairwise_cons.2 ⟨fun c hc ↦ ?_, List.pairwise_cons.2 h⟩
          rcases List.mem_cons.1 hc with rfl | hc
          · exact hab
          · exact Std.TransCmp.lt_trans hab (h.1 c hc)
      · exact List.pairwise_cons.2 h
      · next hab =>
          refine List.pairwise_cons.2 ⟨fun c hc ↦ ?_, ih h.2⟩
          rcases mem_insertList.1 hc with rfl | hc
          · exact Std.OrientedCmp.lt_of_gt hab
          · exact h.1 c hc

def insert (s : SortedSet α) (a : α) : SortedSet α :=
  ⟨insertList a s.toList, insertList_increasing a s.increasing⟩

def ofList (l : List α) : SortedSet α := l.foldl insert empty

@[simp] theorem mem_insert {s : SortedSet α} {a b : α} : b ∈ s.insert a ↔ b = a ∨ b ∈ s :=
  mem_insertList

omit [Std.TransOrd α] [Std.LawfulEqOrd α] in
@[simp] theorem mem_empty {a : α} : ¬ a ∈ (empty : SortedSet α) := by
  change ¬ a ∈ []
  simp

theorem mem_foldl_insert {s : SortedSet α} {l : List α} {a : α} :
    a ∈ l.foldl insert s ↔ a ∈ s ∨ a ∈ l := by
  induction l generalizing s with
  | nil => simp
  | cons b l ih =>
      simp only [List.foldl_cons, ih, mem_insert, List.mem_cons]
      grind

@[simp] theorem mem_ofList {l : List α} {a : α} : a ∈ ofList l ↔ a ∈ l := by
  simp [ofList, mem_foldl_insert]

/-! ## Extensionality -/

omit [Std.LawfulEqOrd α] in
theorem ext {s t : SortedSet α} (h : ∀ a, a ∈ s ↔ a ∈ t) : s = t :=
  toList_injective
    (eq_of_pairwise (fun _ _ ↦ not_precedes_of_precedes) s.increasing t.increasing h)

end SortedSet

end Acceptor
