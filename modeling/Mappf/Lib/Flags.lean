import Mathlib.Data.List.Nodup
import Mathlib.Data.List.Perm.Basic

/-! # A list of flags as a set of indices -/
namespace Mappf
open List

def flagged (flags : List Bool) : List ℕ := (List.range flags.length).filter (fun i => flags.getD i false)

theorem mem_flagged {flags : List Bool} {i : ℕ} : i ∈ flagged flags ↔ flags.getD i false = true := by
  rw [flagged, mem_filter, mem_range]
  refine ⟨fun h => h.2, fun h => ⟨?_, h⟩⟩
  by_contra hlt
  simp [getD_eq_getElem?_getD, getElem?_eq_none (Nat.not_lt.mp hlt)] at h

variable (flags : List Bool)

theorem flagged_nodup : (flagged flags).Nodup := nodup_range.filter _

theorem flagged_length_le : (flagged flags).length ≤ flags.length := by
  have h := length_filter_le (fun i => flags.getD i false) (range flags.length)
  rwa [length_range] at h

theorem getD_set_false (i j : ℕ) : (flags.set i false).getD j false = (flags.getD j false && i ≠ j) := by
  by_cases hij : i = j
  · simp [hij, getD_eq_getElem?_getD, getElem?_set]
    split_ifs <;> rfl
  · simp [hij, getD_eq_getElem?_getD, getElem?_set_ne]

theorem flagged_set {flags : List Bool} {i : ℕ} (h : flags.getD i false = true) :
    (flagged flags).Perm (i :: flagged (flags.set i false)) := by
  have hout : i ∉ flagged (flags.set i false) := by
    rw [mem_flagged, getD_set_false]
    simp
  apply (perm_ext_iff_of_nodup (flagged_nodup flags) ((flagged_nodup _).cons hout)).mpr
  intro j
  rw [mem_cons, mem_flagged, mem_flagged, getD_set_false, Bool.and_eq_true, decide_eq_true_eq]
  by_cases hij : i = j
  · rw [← hij]
    simp only [h, true_or]
  · simp [hij, Ne.symm hij]

end Mappf
