import Mathlib.Data.List.Dedup
import Mathlib.Data.List.Sort
import Mathlib.Order.Basic

/-!
# Sorted lists without repetitions

A list stands for the set of its elements; sorted by a key and without repetitions it is
determined by them.
-/

namespace SortedSets

variable {α κ : Type} [LinearOrder κ] {key : α → κ} {xs ys : List α}

def Ascending (key : α → κ) (xs : List α) : Prop := xs.Pairwise fun a b => key a < key b

theorem Ascending.nodup (h : Ascending key xs) : xs.Nodup :=
  h.imp fun hab => fun heq => lt_irrefl _ (heq ▸ hab)

theorem Ascending.nodup_map (h : Ascending key xs) : (xs.map key).Nodup :=
  List.pairwise_map.mpr (h.imp ne_of_lt)

/-- An ascending list is determined by its elements. -/
theorem Ascending.eq_of_same_elements (hx : Ascending key xs) (hy : Ascending key ys)
    (same : ∀ a, a ∈ xs ↔ a ∈ ys) : xs = ys := by
  have hperm : xs.Perm ys := (List.perm_ext_iff_of_nodup hx.nodup hy.nodup).mpr same
  exact hperm.eq_of_pairwise (fun _ _ _ _ hab hba => absurd hba (lt_asymm hab)) hx hy

def sortBy (key : α → κ) (xs : List α) : List α := xs.insertionSort fun a b => key a ≤ key b

theorem perm_sortBy : (sortBy key xs).Perm xs := List.perm_insertionSort _ _

theorem ascending_sortBy (distinct : (xs.map key).Nodup) : Ascending key (sortBy key xs) := by
  have hsorted : (sortBy key xs).Pairwise fun a b => key a ≤ key b := by
    have htotal : ∀ a b : α, key a ≤ key b ∨ key b ≤ key a := fun a b => le_total _ _
    have htrans : ∀ a b c : α, key a ≤ key b → key b ≤ key c → key a ≤ key c :=
      fun a b c => le_trans
    exact @List.pairwise_insertionSort α (fun a b => key a ≤ key b) _ ⟨htotal⟩ ⟨htrans⟩ xs
  have hdistinct : ((sortBy key xs).map key).Nodup := (perm_sortBy.map key).nodup_iff.mpr distinct
  have hne : (sortBy key xs).Pairwise fun a b => key a ≠ key b := List.pairwise_map.mp hdistinct
  exact (hsorted.and hne).imp fun h => lt_of_le_of_ne h.1 h.2

theorem sortBy_congr (distinct : (xs.map key).Nodup) (perm : xs.Perm ys) :
    sortBy key xs = sortBy key ys := by
  have hys : (ys.map key).Nodup := (perm.map key).nodup_iff.mp distinct
  exact (ascending_sortBy distinct).eq_of_same_elements (ascending_sortBy hys) fun a => by
    rw [perm_sortBy.mem_iff, perm_sortBy.mem_iff, perm.mem_iff]

theorem sortBy_of_ascending (h : Ascending key xs) : sortBy key xs = xs :=
  (ascending_sortBy h.nodup_map).eq_of_same_elements h fun _ => perm_sortBy.mem_iff

variable [DecidableEq α]

def sortedSet (key : α → κ) (xs : List α) : List α := sortBy key xs.dedup

@[simp] theorem mem_sortedSet {a : α} : a ∈ sortedSet key xs ↔ a ∈ xs := by
  rw [sortedSet, perm_sortBy.mem_iff, List.mem_dedup]

theorem ascending_sortedSet (injective : Function.Injective key) : Ascending key (sortedSet key xs) :=
  ascending_sortBy ((List.nodup_dedup xs).map injective)

/-- The order and the repetitions of the elements do not matter. -/
theorem sortedSet_congr (injective : Function.Injective key) (same : ∀ a, a ∈ xs ↔ a ∈ ys) :
    sortedSet key xs = sortedSet key ys :=
  (ascending_sortedSet injective).eq_of_same_elements (ascending_sortedSet injective) fun a => by
    rw [mem_sortedSet, mem_sortedSet, same]

theorem sortedSet_of_ascending (h : Ascending key xs) : sortedSet key xs = xs := by
  rw [sortedSet, h.nodup.dedup, sortBy_of_ascending h]

theorem sortedSet_eq_nil : sortedSet key xs = [] ↔ xs = [] := by
  simp only [List.eq_nil_iff_forall_not_mem, mem_sortedSet]

end SortedSets
