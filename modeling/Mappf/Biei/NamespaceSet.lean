import Mappf.Lib.SortedVec
import Mappf.Lib.Text
import Mathlib.Data.Finset.Card

/-! # Namespace sets

`types.rs`: the delivery namespaces a caller may read. A set is stored as its ascending enumeration, and
a set with the wildcard is stored as the wildcard alone, so the invariant makes equal sets equal values.
`denoted` says which labels a set stands for; `allows` is inclusion of what is denoted. -/
namespace Mappf.Biei

def maxAuthorizationNamespaces : ℕ := 1024
def maxAuthorizationNamespaceBytes : ℕ := 256

/-- A label that passes the checks of `try_new` and `try_from_shared`. -/
def validNamespace (label : String) : Bool := boundedLabel maxAuthorizationNamespaceBytes label

@[ext] structure NamespaceSet where
  labels : List String
  nonempty : labels ≠ []
  bounded : labels.length ≤ maxAuthorizationNamespaces
  valid : ∀ label ∈ labels, validNamespace label = true
  ascending : labels.Pairwise (· < ·)
  canonical : "*" ∈ labels → labels = ["*"]

namespace NamespaceSet

instance : DecidableEq NamespaceSet := fun a b =>
  decidable_of_iff (a.labels = b.labels) NamespaceSet.ext_iff.symm

def wildcard : NamespaceSet where
  labels := ["*"]
  nonempty := by decide
  bounded := by decide
  valid := by decide +kernel
  ascending := List.pairwise_singleton _ _
  canonical := fun _ => rfl

def tryNew (namespaces : List String) : Except String NamespaceSet :=
  if hsize : namespaces.isEmpty || maxAuthorizationNamespaces < namespaces.length then
    .error "namespace set must be non-empty and bounded"
  else if hvalid : namespaces.any (fun label => !validNamespace label) then
    .error "namespace must be non-empty, bounded, and contain no control characters"
  else if hwild : found (binarySearchBy (sortDedup namespaces) (fun value => compare value "*")) then
    .ok wildcard
  else
    .ok {
      labels := sortDedup namespaces
      nonempty := by
        intro hnil
        obtain ⟨label, hlabel⟩ := List.exists_mem_of_ne_nil namespaces (by rintro rfl; simp at hsize)
        rw [← mem_sortDedup, hnil] at hlabel
        exact List.not_mem_nil hlabel
      bounded := le_trans (length_sortDedup_le namespaces) (by simp at hsize; exact hsize.2)
      valid := by
        intro label hlabel
        simp only [List.any_eq_true, Bool.not_eq_true', not_exists, not_and, Bool.not_eq_false] at hvalid
        exact hvalid label (mem_sortDedup.mp hlabel)
      ascending := sortDedup_ascending namespaces
      canonical := fun hmem => absurd ((binarySearch_found_iff (sortDedup_ascending namespaces) "*").mpr hmem) hwild
    }

/-- Already normalised storage, taken as it is after the checks. -/
def tryFromShared (namespaces : List String) : Except String NamespaceSet :=
  if hsize : namespaces.isEmpty || maxAuthorizationNamespaces < namespaces.length then
    .error "namespace set must be non-empty and bounded"
  else if hvalid : namespaces.any (fun label => !validNamespace label) then
    .error "namespace must be non-empty, bounded, and contain no control characters"
  else if hcanonical : (namespaces.zip namespaces.tail).any (fun pair => pair.2 ≤ pair.1) ||
      (namespaces.any (· == "*") && !(namespaces.length == 1 && namespaces.head? == some "*")) then
    .error "shared namespace set must be sorted, unique, and canonical"
  else
    .ok {
      labels := namespaces
      nonempty := by rintro rfl; simp at hsize
      bounded := by simp at hsize; exact hsize.2
      valid := by
        intro label hlabel
        simp only [List.any_eq_true, Bool.not_eq_true', not_exists, not_and, Bool.not_eq_false] at hvalid
        exact hvalid label hlabel
      ascending := by
        simp only [Bool.or_eq_true, not_or, Bool.not_eq_true] at hcanonical
        exact windows_ascending_iff.mp hcanonical.1
      canonical := by
        intro hmem
        have hany : namespaces.any (· == "*") = true := List.any_eq_true.mpr ⟨"*", hmem, by simp⟩
        rw [hany] at hcanonical
        match namespaces, hmem with
        | [label], hmem => rw [List.mem_singleton.mp hmem]
        | _ :: _ :: _, _ => simp at hcanonical
    }

def allows (self required : NamespaceSet) : Bool :=
  if self.labels.head? = some "*" then true
  else required.labels.all (fun label =>
    label != "*" && found (binarySearchBy self.labels (fun value => compare value label)))

/-! ## What a set stands for -/

/-- The labels a set stands for; the wildcard stands for every label. -/
def denoted (s : NamespaceSet) : Set String :=
  { label | validNamespace label = true ∧ ("*" ∈ s.labels ∨ label ∈ s.labels) }

theorem head_wildcard_iff (s : NamespaceSet) : s.labels.head? = some "*" ↔ "*" ∈ s.labels := by
  constructor
  · exact List.mem_of_mem_head?
  · intro hmem
    rw [s.canonical hmem]
    rfl

theorem allows_iff (a b : NamespaceSet) :
    a.allows b = true ↔ "*" ∈ a.labels ∨ ∀ label ∈ b.labels, label ∈ a.labels := by
  unfold allows
  by_cases hwild : "*" ∈ a.labels
  · rw [if_pos (a.head_wildcard_iff.mpr hwild)]
    simp [hwild]
  · rw [if_neg (fun h => hwild (a.head_wildcard_iff.mp h))]
    simp only [hwild, false_or, List.all_eq_true, Bool.and_eq_true, bne_iff_ne, binarySearch_found_iff a.ascending]
    constructor
    · intro h label hlabel
      exact (h label hlabel).2
    · intro h label hlabel
      refine ⟨?_, h label hlabel⟩
      rintro rfl
      exact hwild (h "*" hlabel)

/-! ## Labels outside a set -/

def spareLabel (n : ℕ) : String := String.singleton (Char.ofNat (0x4e00 + n))

theorem spareLabel_toNat {n : ℕ} (hn : n ≤ maxAuthorizationNamespaces) :
    (Char.ofNat (0x4e00 + n)).toNat = 0x4e00 + n := by
  unfold maxAuthorizationNamespaces at hn
  have hscalar : (0x4e00 + n).isValidChar := .inl (by omega)
  rw [Char.ofNat, dif_pos hscalar]
  rfl

theorem spareLabel_valid {n : ℕ} (hn : n ≤ maxAuthorizationNamespaces) : validNamespace (spareLabel n) = true := by
  have hcode := spareLabel_toNat hn
  have hsize : (Char.ofNat (0x4e00 + n)).utf8Size ≤ 4 := Char.utf8Size_le_four _
  simp only [validNamespace, boundedLabel, spareLabel, isControl, maxAuthorizationNamespaceBytes, String.toList_singleton,
    List.any_cons, List.any_nil, hcode]
  simp
  omega

theorem spareLabel_injective {m n : ℕ} (hm : m ≤ maxAuthorizationNamespaces) (hn : n ≤ maxAuthorizationNamespaces)
    (h : spareLabel m = spareLabel n) : m = n := by
  have hchar : Char.ofNat (0x4e00 + m) = Char.ofNat (0x4e00 + n) := by
    simpa [spareLabel] using congrArg String.toList h
  have hcode := congrArg Char.toNat hchar
  rw [spareLabel_toNat hm, spareLabel_toNat hn] at hcode
  omega

/-- A set has fewer labels than there are valid ones, so a finite set never stands for all of them. -/
theorem exists_valid_not_mem (s : NamespaceSet) : ∃ label, validNamespace label = true ∧ label ∉ s.labels := by
  have hcard : s.labels.toFinset.card < ((Finset.range (maxAuthorizationNamespaces + 1)).image spareLabel).card := by
    rw [Finset.card_image_of_injOn, Finset.card_range]
    · exact lt_of_le_of_lt (List.toFinset_card_le _) (Nat.lt_succ_of_le s.bounded)
    · intro m hm n hn h
      rw [Finset.coe_range, Set.mem_Iio, Nat.lt_succ_iff] at hm hn
      exact spareLabel_injective hm hn h
  obtain ⟨label, hspare, hfree⟩ := Finset.exists_mem_notMem_of_card_lt_card hcard
  obtain ⟨n, hn, rfl⟩ := Finset.mem_image.mp hspare
  refine ⟨spareLabel n, spareLabel_valid (Nat.lt_succ_iff.mp (Finset.mem_range.mp hn)), ?_⟩
  simpa using hfree

theorem allows_iff_subset (a b : NamespaceSet) : a.allows b = true ↔ b.denoted ⊆ a.denoted := by
  rw [allows_iff]
  constructor
  · rintro (hwild | hsub) label ⟨hvalid, hlabel⟩
    · exact ⟨hvalid, .inl hwild⟩
    · exact ⟨hvalid, hlabel.imp (hsub "*") (hsub label)⟩
  · intro hsub
    by_cases hwild : "*" ∈ a.labels
    · exact .inl hwild
    · right
      intro label hlabel
      -- without the wildcard on the left there is none on the right, or all labels would be listed
      obtain ⟨spare, hvalid, hspare⟩ := a.exists_valid_not_mem
      have hfinite : "*" ∉ b.labels := by
        intro hall
        cases (hsub ⟨hvalid, .inl hall⟩).2 with
        | inl h => exact hwild h
        | inr h => exact hspare h
      cases (hsub ⟨b.valid label hlabel, .inr hlabel⟩).2 with
      | inl h => exact absurd h hwild
      | inr h => exact h

/-- Sets that stand for the same labels are equal: a grant has one canonical form. -/
theorem denoted_injective {a b : NamespaceSet} (h : a.denoted = b.denoted) : a = b := by
  have hab := (allows_iff a b).mp ((allows_iff_subset a b).mpr h.ge)
  have hba := (allows_iff b a).mp ((allows_iff_subset b a).mpr h.le)
  apply NamespaceSet.ext
  by_cases hwild : "*" ∈ a.labels
  · have hwild' : "*" ∈ b.labels := by
      cases hba with
      | inl h => exact h
      | inr h => exact h "*" hwild
    rw [a.canonical hwild, b.canonical hwild']
  · have hwild' : "*" ∉ b.labels := by
      intro hb
      cases hab with
      | inl h => exact hwild h
      | inr h => exact hwild (h "*" hb)
    exact ascending_ext a.ascending b.ascending
      (fun label => ⟨hba.resolve_left hwild' label, hab.resolve_left hwild label⟩)

end NamespaceSet
end Mappf.Biei
