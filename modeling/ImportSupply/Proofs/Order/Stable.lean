import Mathlib.Data.List.Pairwise
import Mathlib.Data.List.Sort

/-!
# Stable order

Items in increasing order of a numeric key. Such a list is determined by its items with each key and
their order (`eq_of_pairwise_of_filter_key`). Sorting leaves the items with one key in their order
(`filter_key_mergeSort`), so it can change places with a filter (`filter_mergeSort`).
-/

namespace ImportSupply

variable {α : Type} (key : α → Nat)

/-- Sorted by a key, items are in increasing order of it. -/
theorem pairwise_mergeSort_key (items : List α) :
    (items.mergeSort fun a b => decide (key a ≤ key b)).Pairwise fun a b => key a ≤ key b := by
  have pairs := @List.pairwise_mergeSort α (fun a b => decide (key a ≤ key b))
    (by intro a b c; simp only [decide_eq_true_eq]; omega)
    (by intro a b; simp only [Bool.or_eq_true, decide_eq_true_eq]; omega) items
  simpa using pairs

/-- Sorting leaves the items with one key in their order. -/
theorem filter_key_mergeSort (items : List α) (k : Nat) :
    (items.mergeSort fun a b => decide (key a ≤ key b)).filter (fun a => key a == k) =
      items.filter fun a => key a == k := by
  have equal : (items.filter fun a => key a == k).Pairwise fun a b =>
      decide (key a ≤ key b) = true := by
    refine List.pairwise_of_forall_mem_list fun a first b second => ?_
    have first := (List.mem_filter.mp first).2
    have second := (List.mem_filter.mp second).2
    rw [beq_iff_eq] at first second
    rw [decide_eq_true_eq]
    omega
  have inside := List.sublist_mergeSort
    (by intro a b c; simp only [decide_eq_true_eq]; omega)
    (by intro a b; simp only [Bool.or_eq_true, decide_eq_true_eq]; omega)
    equal List.filter_sublist
  have inside := inside.filter fun a => key a == k
  rw [List.filter_filter] at inside
  simp only [Bool.and_self] at inside
  exact (inside.eq_of_length ((List.mergeSort_perm items _).filter _).length_eq.symm).symm

/-- Two sorted lists are equal if they have the same items with each key, in the same order. -/
theorem eq_of_pairwise_of_filter_key {items others : List α}
    (sorted : items.Pairwise fun a b => key a ≤ key b)
    (sorted' : others.Pairwise fun a b => key a ≤ key b)
    (same : ∀ k, (items.filter fun a => key a == k) = others.filter fun a => key a == k) :
    items = others := by
  have mem_iff {items others : List α} (a : α)
      (same : (items.filter fun b => key b == key a) = others.filter fun b => key b == key a) :
      a ∈ items ↔ a ∈ others := by
    simpa using congrArg (a ∈ ·) same
  induction items generalizing others with
  | nil =>
    symm
    rw [List.eq_nil_iff_forall_not_mem]
    intro a member
    cases (mem_iff a (same (key a))).mpr member
  | cons first items ih =>
    cases others with
    | nil => cases (mem_iff first (same (key first))).mp List.mem_cons_self
    | cons second others =>
      obtain ⟨least, behind⟩ := List.pairwise_cons.mp sorted
      obtain ⟨least', behind'⟩ := List.pairwise_cons.mp sorted'
      -- both lists start with the smallest key, and of its items with the same
      have below : key first ≤ key second := by
        have member := (mem_iff second (same (key second))).mpr List.mem_cons_self
        rcases List.mem_cons.mp member with rfl | member
        · exact Nat.le_refl _
        · exact least second member
      have above : key second ≤ key first := by
        have member := (mem_iff first (same (key first))).mp List.mem_cons_self
        rcases List.mem_cons.mp member with rfl | member
        · exact Nat.le_refl _
        · exact least' first member
      have keys : key second = key first := Nat.le_antisymm above below
      obtain ⟨rfl, -⟩ : first = second ∧ _ := by
        have here := same (key first)
        rw [List.filter_cons_of_pos (by simp), List.filter_cons_of_pos (by simp [keys])] at here
        exact List.cons.inj here
      refine congrArg (first :: ·) (ih behind behind' fun k => ?_)
      have here := same k
      by_cases own : key first = k
      · rw [List.filter_cons_of_pos (by simp [own]), List.filter_cons_of_pos (by simp [own])]
          at here
        exact (List.cons.inj here).2
      · rwa [List.filter_cons_of_neg (by simp [own]), List.filter_cons_of_neg (by simp [own])]
          at here

/-- What is kept of sorted items is what is kept of the items, sorted. -/
theorem filter_mergeSort (keep : α → Bool) (items : List α) :
    (items.mergeSort fun a b => decide (key a ≤ key b)).filter keep =
      (items.filter keep).mergeSort fun a b => decide (key a ≤ key b) := by
  apply eq_of_pairwise_of_filter_key key
  · exact (pairwise_mergeSort_key key items).filter keep
  · exact pairwise_mergeSort_key key (items.filter keep)
  · intro k
    rw [filter_key_mergeSort, List.filter_comm, filter_key_mergeSort, List.filter_comm]

/-- Sorting the images of items by a key sorts the items by the keys of their images. -/
theorem mergeSort_map_key {β : Type} (key : β → Nat) (image : α → β) (items : List α) :
    ((items.map image).mergeSort fun a b => decide (key a ≤ key b)) =
      (items.mergeSort fun a b => decide (key (image a) ≤ key (image b))).map image := by
  symm
  apply List.map_mergeSort
  intro a _ b _
  rfl

end ImportSupply
