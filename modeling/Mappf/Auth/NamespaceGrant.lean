import Mappf.Auth.Policy
import Mappf.Biei.NamespaceSet

/-! # A namespace grant on both sides of the wire

The registry normalises a grant's labels and checks namespaces against them; the renderer takes the
normalised labels as a `NamespaceSet` and compares sets. Both read the same set of labels. -/
namespace Mappf.Biei.NamespaceSet

theorem tryNew_eq_ok {namespaces : List String} (hne : namespaces ≠ [])
    (hbdd : namespaces.length ≤ maxAuthorizationNamespaces)
    (hvalid : ∀ label ∈ namespaces, validNamespace label = true) : ∃ set, tryNew namespaces = .ok set ∧
      set.labels = if "*" ∈ namespaces then ["*"] else sortDedup namespaces := by
  have hsize : (namespaces.isEmpty || maxAuthorizationNamespaces < namespaces.length) = false := by
    simp [hne, hbdd]
  have hlabels : namespaces.any (fun label => !validNamespace label) = false := by
    simpa using hvalid
  have hfound : found (binarySearchBy (sortDedup namespaces) (fun value => compare value "*")) = true ↔
      "*" ∈ namespaces := by
    rw [binarySearch_found_iff (sortDedup_ascending namespaces), mem_sortDedup]
  unfold tryNew
  rw [dif_neg (by rw [hsize]; decide), dif_neg (by rw [hlabels]; decide)]
  by_cases hwild : "*" ∈ namespaces
  · rw [dif_pos (hfound.mpr hwild), if_pos hwild]
    exact ⟨wildcard, rfl, rfl⟩
  · rw [dif_neg (fun h => hwild (hfound.mp h)), if_neg hwild]
    exact ⟨_, rfl, rfl⟩

theorem tryFromShared_labels (set : NamespaceSet) : tryFromShared set.labels = .ok set := by
  have hsize : (set.labels.isEmpty || maxAuthorizationNamespaces < set.labels.length) = false := by
    simp [set.nonempty, set.bounded]
  have hlabels : set.labels.any (fun label => !validNamespace label) = false := by
    simpa using set.valid
  have hwild : (set.labels.any (· == "*") && !(set.labels.length == 1 && set.labels.head? == some "*")) = false := by
    by_cases hmem : "*" ∈ set.labels
    · rw [set.canonical hmem]
      decide
    · simp [hmem]
  unfold tryFromShared
  rw [dif_neg (by rw [hsize]; decide), dif_neg (by rw [hlabels]; decide),
    dif_neg (by rw [windows_ascending_iff.mpr set.ascending, hwild]; decide)]

theorem tryNew_singleton {label : String} (hvalid : validNamespace label = true) :
    ∃ single, tryNew [label] = .ok single ∧ single.labels = [label] := by
  have hvalid' : ∀ l ∈ [label], validNamespace l = true := by simpa using hvalid
  obtain ⟨single, hone, hlabels⟩ := tryNew_eq_ok (List.cons_ne_nil label []) (by rw [List.length_singleton]; decide) hvalid'
  refine ⟨single, hone, ?_⟩
  rw [hlabels, sortDedup_eq_self (List.pairwise_singleton _ _)]
  by_cases hwild : "*" = label
  · rw [if_pos (by rw [hwild]; exact List.mem_singleton_self label), hwild]
  · rw [if_neg (by simpa using hwild)]

theorem allows_refl (a : NamespaceSet) : a.allows a = true := (allows_iff_subset a a).mpr (Set.Subset.refl _)

theorem allows_trans {a b c : NamespaceSet} (hab : a.allows b = true) (hbc : b.allows c = true) : a.allows c = true :=
  (allows_iff_subset a c).mpr (((allows_iff_subset b c).mp hbc).trans ((allows_iff_subset a b).mp hab))

theorem allows_antisymm {a b : NamespaceSet} (hab : a.allows b = true) (hba : b.allows a = true) : a = b :=
  denoted_injective (((allows_iff_subset b a).mp hba).antisymm ((allows_iff_subset a b).mp hab))

end Mappf.Biei.NamespaceSet

namespace Mappf.Auth

open Biei (NamespaceSet validNamespace maxAuthorizationNamespaceBytes maxAuthorizationNamespaces)

/-- The labels of an accepted grant pass the renderer's checks, the wildcard included. -/
theorem Normalized.valid_namespaces {parseUrl : String → Option Url} {principalId : String} {grant : GrantWire}
    {normalized : AuthorizationGrant} (h : Normalized parseUrl principalId grant normalized) :
    ∀ label ∈ grant.namespaces, validNamespace label = true := by
  intro label hlabel
  cases h.valid label hlabel with
  | inl hwild =>
    rw [hwild]
    decide +kernel
  | inr hbdd => exact hbdd

/-- An accepted grant is the same set on both sides: its normalised labels are accepted as they stand, as
the set built from the labels in the document, and one namespace passes the registry's check exactly when
that set allows it alone. A set allows another exactly when it stands for all its labels, which makes
`allows` a partial order. -/
theorem namespace_grant_same_meaning (parseUrl : String → Option Url) (principalId : String) (grant : GrantWire)
    (normalized : AuthorizationGrant) (h : normalizeGrant parseUrl principalId grant = .ok normalized) :
    (∃ set, NamespaceSet.tryFromShared normalized.namespaces = .ok set ∧
      NamespaceSet.tryNew grant.namespaces = .ok set ∧
      ∀ label, validNamespace label = true → ∃ single, NamespaceSet.tryNew [label] = .ok single ∧
        single.labels = [label] ∧ (namespaceAllowed normalized label = true ↔ set.allows single = true)) ∧
    (∀ a b : NamespaceSet, a.allows b = true ↔ b.denoted ⊆ a.denoted) ∧
    (∀ a : NamespaceSet, a.allows a = true) ∧
    (∀ a b c : NamespaceSet, a.allows b = true → b.allows c = true → a.allows c = true) ∧
    ∀ a b : NamespaceSet, a.allows b = true → b.allows a = true → a = b := by
  have hnormalized := normalizeGrant_normalized h
  refine ⟨?_, NamespaceSet.allows_iff_subset, NamespaceSet.allows_refl, fun a b c => NamespaceSet.allows_trans,
    fun a b => NamespaceSet.allows_antisymm⟩
  obtain ⟨set, hset, hlabels⟩ := NamespaceSet.tryNew_eq_ok hnormalized.bounded.1 hnormalized.bounded.2
    hnormalized.valid_namespaces
  have hsame : normalized.namespaces = set.labels := by
    rw [hnormalized.namespaces, normalizeNamespaces_eq, hlabels]
  refine ⟨set, by rw [hsame]; exact set.tryFromShared_labels, hset, ?_⟩
  intro label hvalid
  obtain ⟨single, hsingle, hone⟩ := NamespaceSet.tryNew_singleton hvalid
  refine ⟨single, hsingle, hone, ?_⟩
  rw [namespaceAllowed_iff hnormalized.namespaces, set.allows_iff, hone, hlabels]
  by_cases hwild : "*" ∈ grant.namespaces
  · simp [hwild]
  · simp [hwild, mem_sortDedup]

def twoNamespaces : GrantWire := ⟨true, ["b", "a", "b"], [.read], [], true⟩

theorem twoNamespaces_same_meaning :
    ∃ set, NamespaceSet.tryFromShared ["a", "b"] = .ok set ∧ NamespaceSet.tryNew ["b", "a", "b"] = .ok set := by
  obtain ⟨set, hshared, hnew, -⟩ := (namespace_grant_same_meaning (fun _ => none) "principal" twoNamespaces
    ⟨"principal", true, ["a", "b"], [.read], [], true⟩ (by decide +kernel)).1
  exact ⟨set, hshared, hnew⟩

end Mappf.Auth
