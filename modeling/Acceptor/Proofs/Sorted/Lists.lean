import Acceptor.Sorted.Map
import Mathlib.Data.List.Induction

/-!
# Sets and maps of lists

A set that is filled from a list has the members of the list, and a map has for each key the value
of the last entry with it.  The order of the list does not matter beyond that, and filling a set or
a map from its own list gives it back.  A search through a set or a map finds what comes first in
the order of the members or keys.
-/

namespace Acceptor

universe u v w

/-! ## Searches -/

section Searches

variable {α : Type u} {β : Type v} {f : α → Option β} {b : β}

/-- In a list that an asymmetric relation orders, the first element that gives something is the one
of which no element before it in the order does. -/
theorem findSome?_eq_some_iff_of_pairwise {R : α → α → Prop} (asymm : ∀ a c, R a c → ¬ R c a)
    {l : List α} (hl : l.Pairwise R) :
    l.findSome? f = some b ↔ ∃ a ∈ l, f a = some b ∧ ∀ c ∈ l, R c a → f c = none := by
  rw [List.findSome?_eq_some_iff]
  constructor
  · rintro ⟨front, a, back, rfl, ha, hfront⟩
    rw [List.pairwise_append, List.pairwise_cons] at hl
    refine ⟨a, by simp, ha, fun c hc hca ↦ ?_⟩
    rcases List.mem_append.1 hc with hc | hc
    · exact hfront c hc
    · rcases List.mem_cons.1 hc with rfl | hc
      · exact absurd hca (asymm c c hca)
      · exact absurd hca (asymm a c (hl.2.1.1 c hc))
  · rintro ⟨a, hmem, ha, hbefore⟩
    obtain ⟨front, back, rfl⟩ := List.append_of_mem hmem
    refine ⟨front, a, back, rfl, ha, fun c hc ↦ hbefore c (by simp [hc]) ?_⟩
    exact (List.pairwise_append.1 hl).2.2 c hc a (by simp)

end Searches

/-! ## Keys in lists -/

/-- Elements with keys of their own may be put in any order: there is at most one for a key. -/
theorem filter_key_eq_of_perm {α : Type u} {κ : Type v} [DecidableEq κ] {key : α → κ}
    {l m : List α} (perm : m.Perm l) (distinct : l.Pairwise fun a c ↦ key a ≠ key c) (k : κ) :
    (m.filter fun a ↦ key a = k) = l.filter fun a ↦ key a = k := by
  have hperm := perm.filter fun a ↦ key a = k
  have hdistinct := distinct.filter fun a ↦ key a = k
  have hkey : ∀ a ∈ l.filter fun a ↦ key a = k, key a = k :=
    fun a ha ↦ by simpa using (List.mem_filter.1 ha).2
  cases hsplit : l.filter fun a ↦ key a = k with
  | nil => exact (hsplit ▸ hperm).eq_nil
  | cons a more =>
      cases more with
      | nil => exact List.perm_singleton.1 (hsplit ▸ hperm)
      | cons c more =>
          rw [hsplit] at hkey hdistinct
          refine absurd ?_ (List.rel_of_pairwise_cons hdistinct List.mem_cons_self)
          rw [hkey a (by simp), hkey c (by simp)]

/-! ## Sets -/

namespace SortedSet

variable {α : Type u} [Ord α] [Std.TransOrd α]

theorem findSome?_toList_eq_some_iff {β : Type v} {s : SortedSet α} {f : α → Option β} {b : β} :
    s.toList.findSome? f = some b ↔
      ∃ a ∈ s, f a = some b ∧ ∀ c ∈ s, Precedes c a → f c = none :=
  findSome?_eq_some_iff_of_pairwise (fun _ _ ↦ not_precedes_of_precedes) s.increasing

variable [Std.LawfulEqOrd α]

theorem ofList_toList (s : SortedSet α) : ofList s.toList = s := ext fun _ ↦ mem_ofList

/-- A set holds the elements of a list without repetition, in another order. -/
theorem perm_toList_ofList {l : List α} (nodup : l.Nodup) : l.Perm (ofList l).toList := by
  have hset : (ofList l).toList.Nodup := (ofList l).increasing.imp fun {a b} h heq ↦ by
    subst heq
    exact not_precedes_of_precedes h h
  exact (List.perm_ext_iff_of_nodup nodup hset).2 fun _ ↦ mem_ofList.symm

end SortedSet

/-! ## Maps -/

namespace SortedMap

variable {κ : Type u} {ν : Type v} [DecidableEq κ]

/-- From the end of a list the last entry with a key is met first. -/
theorem find?_reverse_eq_some_iff {k : κ} {x : ν} {l : List (κ × ν)} :
    find? k l.reverse = some x ↔
      ∃ front back, l = front ++ (k, x) :: back ∧ ∀ e ∈ back, e.1 ≠ k := by
  induction l using List.reverseRecOn with
  | nil => simp [find?]
  | append_singleton l e ih =>
      rw [List.reverse_append, List.reverse_singleton, List.singleton_append, find?]
      constructor
      · intro h
        split at h
        · next he =>
            obtain rfl : e = (k, x) := by rw [← he, ← Option.some.inj h]
            exact ⟨l, [], rfl, by simp⟩
        · next he =>
            obtain ⟨front, back, rfl, hback⟩ := ih.1 h
            refine ⟨front, back ++ [e], by simp, fun e' he' ↦ ?_⟩
            rcases List.mem_append.1 he' with he' | he'
            · exact hback e' he'
            · exact List.mem_singleton.1 he' ▸ he
      · rintro ⟨front, back, hsplit, hback⟩
        rcases List.eq_nil_or_concat back with rfl | ⟨back, last, rfl⟩
        · obtain ⟨-, rfl⟩ := List.append_singleton_inj.1 hsplit
          simp
        · rw [List.concat_eq_append] at hsplit hback
          rw [← List.cons_append, ← List.append_assoc, List.append_singleton_inj] at hsplit
          obtain ⟨rfl, rfl⟩ := hsplit
          rw [if_neg (hback e (by simp)), ih]
          exact ⟨front, back, rfl, fun e' he' ↦ hback e' (by simp [he'])⟩

variable [Ord κ] [Std.TransOrd κ]

theorem findSome?_entries_eq_some_iff {β : Type w} {m : SortedMap κ ν} {f : κ × ν → Option β}
    {b : β} :
    m.entries.findSome? f = some b ↔ ∃ k x, m.get? k = some x ∧ f (k, x) = some b ∧
      ∀ j y, m.get? j = some y → Precedes j k → f (j, y) = none := by
  rw [findSome?_eq_some_iff_of_pairwise (fun _ _ ↦ not_precedes_of_precedes) m.increasing]
  simp only [get?_eq_some, Prod.exists, Prod.forall]

omit [DecidableEq κ] in
theorem entries_distinct (m : SortedMap κ ν) : m.entries.Pairwise fun e f ↦ e.1 ≠ f.1 := by
  refine m.increasing.imp ?_
  intro e f hlt hkey
  rw [KeyPrecedes, hkey] at hlt
  exact not_precedes_of_precedes hlt hlt

variable [Std.LawfulEqOrd κ]

/-- A map that is filled from a list has for each key the value of its last entry. -/
theorem get?_ofList_eq_some_iff {k : κ} {x : ν} {l : List (κ × ν)} :
    (ofList l).get? k = some x ↔
      ∃ front back, l = front ++ (k, x) :: back ∧ ∀ e ∈ back, e.1 ≠ k := by
  rw [get?_ofList, find?_reverse_eq_some_iff]

theorem get?_ofList_eq_getLast? (l : List (κ × ν)) (k : κ) :
    (ofList l).get? k = (l.filter fun e ↦ e.1 = k).getLast?.map Prod.snd := by
  rw [get?_ofList]
  induction l using List.reverseRecOn with
  | nil => rfl
  | append_singleton l e ih =>
      rw [List.reverse_append, List.reverse_singleton, List.singleton_append, find?,
        List.filter_append]
      by_cases h : e.1 = k
      · simp [h]
      · simp [h, ih]

/-- When keys do not repeat, every entry is the last with its key. -/
theorem get?_ofList_eq_some_iff_mem {k : κ} {x : ν} {l : List (κ × ν)}
    (distinct : l.Pairwise fun e f ↦ e.1 ≠ f.1) :
    (ofList l).get? k = some x ↔ (k, x) ∈ l := by
  rw [get?_ofList_eq_some_iff]
  constructor
  · rintro ⟨front, back, rfl, -⟩
    simp
  · intro hmem
    obtain ⟨front, back, rfl⟩ := List.append_of_mem hmem
    rw [List.pairwise_append, List.pairwise_cons] at distinct
    refine ⟨front, back, rfl, ?_⟩
    intro e he hkey
    exact distinct.2.1.1 e he hkey.symm

/-- When keys do not repeat, the first entry with a key is the only one. -/
theorem find?_eq_some_iff_mem {k : κ} {x : ν} {l : List (κ × ν)}
    (distinct : l.Pairwise fun e f ↦ e.1 ≠ f.1) : find? k l = some x ↔ (k, x) ∈ l := by
  have hreverse : l.reverse.Pairwise fun e f ↦ e.1 ≠ f.1 :=
    List.pairwise_reverse.2 (distinct.imp Ne.symm)
  rw [← l.reverse_reverse, ← get?_ofList, get?_ofList_eq_some_iff_mem hreverse, l.reverse_reverse,
    List.mem_reverse]

theorem ofList_entries (m : SortedMap κ ν) : ofList m.entries = m := by
  refine ext fun k ↦ Option.ext fun x ↦ ?_
  rw [get?_ofList_eq_some_iff_mem m.entries_distinct, get?_eq_some]

end SortedMap

end Acceptor
