import Acceptor.Sorted.Set

/-!
# Finite maps in increasing order of their keys

A map is the list of its entries, one for each key and in increasing order of the keys.  Maps that
answer every look-up alike are the same map.
-/

namespace Acceptor

universe u v

variable {κ : Type u} {ν : Type v} [Ord κ]

abbrev KeyPrecedes (a b : κ × ν) : Prop := Precedes a.1 b.1

structure SortedMap (κ : Type u) (ν : Type v) [Ord κ] where
  entries : List (κ × ν)
  increasing : entries.Pairwise KeyPrecedes

namespace SortedMap

theorem entries_injective {m n : SortedMap κ ν} (h : m.entries = n.entries) : m = n := by
  cases m; cases n; cases h; rfl

instance [DecidableEq κ] [DecidableEq ν] : DecidableEq (SortedMap κ ν) := fun m n ↦
  decidable_of_iff (m.entries = n.entries) ⟨entries_injective, fun h ↦ h ▸ rfl⟩

def empty : SortedMap κ ν := ⟨[], .nil⟩

def size (m : SortedMap κ ν) : Nat := m.entries.length

/-! ## Look-up -/

/-- The value of the first entry with the key. -/
def find? [DecidableEq κ] (k : κ) : List (κ × ν) → Option ν
  | [] => none
  | (key, value) :: rest => if key = k then some value else find? k rest

def get? [DecidableEq κ] (m : SortedMap κ ν) (k : κ) : Option ν := find? k m.entries

/-! ## Insertion -/

/-- The entries with smaller keys, the new entry, and the entries with greater keys. -/
def insertList (k : κ) (x : ν) : List (κ × ν) → List (κ × ν)
  | [] => [(k, x)]
  | (key, value) :: rest =>
      match compare k key with
      | .lt => (k, x) :: (key, value) :: rest
      | .eq => (k, x) :: rest
      | .gt => (key, value) :: insertList k x rest

theorem mem_insertList {k : κ} {x : ν} {e : κ × ν} {l : List (κ × ν)}
    (h : e ∈ insertList k x l) : e = (k, x) ∨ e ∈ l := by
  induction l with
  | nil => simpa [insertList] using h
  | cons entry rest ih =>
      obtain ⟨key, value⟩ := entry
      rw [insertList] at h
      split at h <;> grind

variable [Std.TransOrd κ] [Std.LawfulEqOrd κ]

theorem insertList_increasing (k : κ) (x : ν) {l : List (κ × ν)} (h : l.Pairwise KeyPrecedes) :
    (insertList k x l).Pairwise KeyPrecedes := by
  induction l with
  | nil => simp [insertList]
  | cons entry rest ih =>
      obtain ⟨key, value⟩ := entry
      rw [List.pairwise_cons] at h
      rw [insertList]
      split
      · next hk =>
          refine List.pairwise_cons.2 ⟨fun e he ↦ ?_, List.pairwise_cons.2 h⟩
          rcases List.mem_cons.1 he with rfl | he
          · exact hk
          · exact Std.TransCmp.lt_trans hk (h.1 e he)
      · next hk =>
          have : k = key := Std.LawfulEqOrd.eq_of_compare hk
          subst this
          exact List.pairwise_cons.2 h
      · next hk =>
          refine List.pairwise_cons.2 ⟨fun e he ↦ ?_, ih h.2⟩
          rcases mem_insertList he with rfl | he
          · exact Std.OrientedCmp.lt_of_gt hk
          · exact h.1 e he

/-- A new entry takes the place of an old one with the same key. -/
def insert (m : SortedMap κ ν) (k : κ) (x : ν) : SortedMap κ ν :=
  ⟨insertList k x m.entries, insertList_increasing k x m.increasing⟩

/-- Of two entries with the same key the later one stays. -/
def ofList (l : List (κ × ν)) : SortedMap κ ν := l.foldl (fun m e ↦ m.insert e.1 e.2) empty

/-- The map without the key. -/
def erase [DecidableEq κ] (m : SortedMap κ ν) (k : κ) : SortedMap κ ν :=
  ⟨m.entries.filter fun e ↦ e.1 ≠ k, m.increasing.filter _⟩

/-! ## Laws of look-up -/

variable [DecidableEq κ]

omit [Std.TransOrd κ] [Std.LawfulEqOrd κ] in
@[simp] theorem get?_empty (k : κ) : (empty : SortedMap κ ν).get? k = none := rfl

omit [Std.TransOrd κ] in
theorem find?_insertList (k j : κ) (x : ν) (l : List (κ × ν)) :
    find? j (insertList k x l) = if j = k then some x else find? j l := by
  induction l with
  | nil => simp [insertList, find?, eq_comm]
  | cons entry rest ih =>
      obtain ⟨key, value⟩ := entry
      rw [insertList]
      split
      · by_cases h : j = k
        · simp [find?, h]
        · simp [find?, h, Ne.symm h]
      · next hk =>
          have : k = key := Std.LawfulEqOrd.eq_of_compare hk
          subst this
          by_cases h : j = k
          · simp [find?, h]
          · simp [find?, h, Ne.symm h]
      · next hk =>
          have hne : key ≠ k := by
            rintro rfl
            simp at hk
          by_cases h : j = k
          · subst h
            simp [find?, hne, ih]
          · simp [find?, ih, h]

@[simp] theorem get?_insert (m : SortedMap κ ν) (k j : κ) (x : ν) :
    (m.insert k x).get? j = if j = k then some x else m.get? j :=
  find?_insertList k j x m.entries

omit [Std.LawfulEqOrd κ] in
theorem find?_eq_some {k : κ} {x : ν} {l : List (κ × ν)} (hl : l.Pairwise KeyPrecedes) :
    find? k l = some x ↔ (k, x) ∈ l := by
  induction l with
  | nil => simp [find?]
  | cons entry rest ih =>
      obtain ⟨key, value⟩ := entry
      rw [List.pairwise_cons] at hl
      by_cases h : key = k
      · subst h
        have hout : (key, x) ∉ rest := fun he ↦ by
          have h : Precedes key key := hl.1 _ he
          exact not_precedes_of_precedes h h
        simp [find?, hout, eq_comm]
      · simp [find?, h, Ne.symm h, ih hl.2]

omit [Std.LawfulEqOrd κ] in
theorem get?_eq_some {m : SortedMap κ ν} {k : κ} {x : ν} :
    m.get? k = some x ↔ (k, x) ∈ m.entries := find?_eq_some m.increasing

theorem get?_foldl_insert (m : SortedMap κ ν) (l : List (κ × ν)) (k : κ) :
    (l.foldl (fun m e ↦ m.insert e.1 e.2) m).get? k = (find? k l.reverse).or (m.get? k) := by
  induction l generalizing m with
  | nil => rfl
  | cons e l ih =>
      rw [List.foldl_cons, ih, List.reverse_cons]
      have happ : ∀ l' : List (κ × ν), find? k (l' ++ [e]) = (find? k l').or (find? k [e]) := by
        intro l'
        induction l' with
        | nil => rfl
        | cons a l' ihl =>
            obtain ⟨key, value⟩ := a
            by_cases h : key = k <;> simp [find?, h, ihl]
      rw [happ, get?_insert, Option.or_assoc]
      congr 1
      obtain ⟨key, value⟩ := e
      by_cases h : k = key
      · simp [find?, h]
      · simp [find?, h, Ne.symm h]

/-- The last entry of a list decides. -/
theorem get?_ofList (l : List (κ × ν)) (k : κ) : (ofList l).get? k = find? k l.reverse := by
  rw [ofList, get?_foldl_insert, get?_empty, Option.or_none]

omit [Ord κ] [Std.TransOrd κ] [Std.LawfulEqOrd κ] in
theorem find?_filter_ne (k j : κ) (l : List (κ × ν)) :
    find? j (l.filter fun e ↦ e.1 ≠ k) = if j = k then none else find? j l := by
  induction l with
  | nil => simp [find?]
  | cons entry rest ih =>
      obtain ⟨key, value⟩ := entry
      by_cases hk : key = k
      · subst hk
        by_cases hj : j = key
        · subst hj
          simpa [List.filter_cons] using ih
        · simpa [List.filter_cons, find?, hj, Ne.symm hj] using ih
      · by_cases hkj : key = j
        · subst hkj
          simp [hk, find?]
        · simpa [List.filter_cons, hk, find?, hkj] using ih

omit [Std.TransOrd κ] [Std.LawfulEqOrd κ] in
@[simp] theorem get?_erase (m : SortedMap κ ν) (k j : κ) :
    (m.erase k).get? j = if j = k then none else m.get? j := find?_filter_ne k j m.entries

/-! ## Extensionality -/

omit [Std.LawfulEqOrd κ] in
theorem ext {m n : SortedMap κ ν} (h : ∀ k, m.get? k = n.get? k) : m = n :=
  entries_injective (eq_of_pairwise (fun _ _ ↦ not_precedes_of_precedes) m.increasing n.increasing
    fun _ ↦ by rw [← get?_eq_some, ← get?_eq_some, h])

end SortedMap

end Acceptor
