import Mappf.Lib.BinarySearch
import Mathlib.Data.List.Destutter
import Mathlib.Data.List.Sort

/-! # Sorted vectors without duplicates

`sort_unstable` followed by `dedup` gives the strictly ascending enumeration of a list's elements, and
a binary search by the order of the elements finds exactly the members of such an enumeration. -/
namespace Mappf
open List

variable {α : Type} [LinearOrder α]

/-- `sort_unstable` and then `dedup`, which drops an element equal to its left neighbour. -/
def sortDedup (l : List α) : List α := (l.insertionSort (· ≤ ·)).destutter (· ≠ ·)

variable {l : List α}

theorem mem_destutter_ne {x : α} : x ∈ l.destutter (· ≠ ·) ↔ x ∈ l := by
  -- the induction runs over the tail with the element kept last as a parameter
  have htail : ∀ (l : List α) (a : α), x ∈ l.destutter' (· ≠ ·) a ↔ x = a ∨ x ∈ l := by
    intro l
    induction l with
    | nil => simp
    | cons b l ih =>
      intro a
      by_cases hab : a = b
      · subst hab
        rw [destutter'_cons_neg _ (by simp), ih]
        simp
      · rw [destutter'_cons_pos _ hab, mem_cons, ih, mem_cons]
  cases l with
  | nil => rfl
  | cons a l => rw [destutter_cons', htail, mem_cons]

theorem mem_sortDedup {x : α} : x ∈ sortDedup l ↔ x ∈ l := by
  rw [sortDedup, mem_destutter_ne, mem_insertionSort]

theorem sortDedup_ascending (l : List α) : (sortDedup l).Pairwise (· < ·) := by
  have hle : (sortDedup l).Pairwise (· ≤ ·) :=
    (pairwise_insertionSort (· ≤ ·) l).sublist (destutter_sublist _ _)
  have hne : (sortDedup l).IsChain (· ≠ ·) := isChain_destutter _ _
  apply isChain_iff_pairwise.mp
  apply isChain_iff_getElem.mpr
  intro i hi
  have hstep := pairwise_iff_getElem.mp hle i (i + 1) (by omega) hi (by omega)
  exact lt_of_le_of_ne hstep (isChain_iff_getElem.mp hne i hi)

theorem length_sortDedup_le (l : List α) : (sortDedup l).length ≤ l.length := by
  have hsub := (destutter_sublist (· ≠ ·) (l.insertionSort (· ≤ ·))).length_le
  rwa [length_insertionSort] at hsub

/-- Ascending enumerations are determined by their members. -/
theorem ascending_ext {l' : List α} (hl : l.Pairwise (· < ·)) (hl' : l'.Pairwise (· < ·)) (hmem : ∀ x, x ∈ l ↔ x ∈ l') :
    l = l' := by
  have hperm : l.Perm l' := by
    apply (perm_ext_iff_of_nodup (hl.imp ne_of_lt) (hl'.imp ne_of_lt)).mpr
    exact hmem
  exact hperm.eq_of_pairwise (fun a b _ _ hab hba => absurd hba (lt_asymm hab)) hl hl'

theorem sortDedup_eq_self (hl : l.Pairwise (· < ·)) : sortDedup l = l :=
  ascending_ext (sortDedup_ascending l) hl (fun _ => mem_sortDedup)

/-- `windows(2)` with no pair out of order. -/
theorem windows_ascending_iff : (l.zip l.tail).any (fun pair => pair.2 ≤ pair.1) = false ↔ l.Pairwise (· < ·) := by
  rw [← isChain_iff_pairwise]
  induction l with
  | nil => simp
  | cons a l ih =>
    cases l with
    | nil => simp
    | cons b l =>
      rw [isChain_cons_cons, ← ih]
      simp

/-! ## Searching -/

def found {ε β : Type} : Except ε β → Bool
  | .ok _ => true
  | .error _ => false

theorem orderedBy_compare (hl : l.Pairwise (· < ·)) (x : α) : OrderedBy (fun y => compare y x) l := by
  refine hl.imp ?_
  intro a b hab
  rw [compare_gt_iff_gt, compare_gt_iff_gt, compare_lt_iff_lt, compare_lt_iff_lt]
  exact ⟨fun h => lt_trans h hab, fun h => lt_trans hab h⟩

theorem binarySearch_found_iff (hl : l.Pairwise (· < ·)) (x : α) :
    found (binarySearchBy l (fun y => compare y x)) = true ↔ x ∈ l := by
  cases hsearch : binarySearchBy l (fun y => compare y x) with
  | ok i =>
    obtain ⟨y, hy, heq⟩ := binarySearchBy_ok hsearch
    rw [compare_eq_iff_eq] at heq
    subst heq
    simp only [found, true_iff]
    exact mem_of_getElem? hy
  | error i =>
    simp only [found, Bool.false_eq_true, false_iff]
    intro hmem
    obtain ⟨j, hj⟩ := mem_iff_getElem?.mp hmem
    -- `x` itself would have to compare as less or greater than `x`
    obtain ⟨hbef, hafter⟩ := binarySearchBy_error (orderedBy_compare hl x) hsearch j x hj
    have hself : compare x x = .eq := compare_eq_iff_eq.mpr rfl
    cases Nat.lt_or_ge j i with
    | inl hlt => rw [hself] at hbef; exact nomatch hbef hlt
    | inr hge => rw [hself] at hafter; exact nomatch hafter hge

end Mappf
