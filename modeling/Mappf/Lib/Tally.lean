import Mathlib.Algebra.BigOperators.Fin
import Mathlib.Algebra.BigOperators.Group.List.Basic
import Mathlib.Algebra.Order.BigOperators.Group.Finset

/-! # Tallies

A quantity kept by parties, added up over all of them. When one party changes, the sum changes by its
share; the share that goes and the share that comes are kept on opposite sides, so nothing is subtracted. -/
namespace Mappf

variable {α : Type} {ps : List α}

def tally (f : α → ℕ) (parties : List α) : ℕ := (parties.map f).sum

variable (f : α → ℕ)

@[simp] theorem tally_nil : tally f [] = 0 := rfl

@[simp] theorem tally_cons (a : α) (ps : List α) : tally f (a :: ps) = f a + tally f ps := by
  simp [tally]

@[simp] theorem tally_append (xs ys : List α) : tally f (xs ++ ys) = tally f xs + tally f ys := by
  simp [tally]

theorem tally_set {i : ℕ} {old : α} (h : ps[i]? = some old) (new : α) :
    tally f (ps.set i new) + f old = tally f ps + f new := by
  induction ps generalizing i with
  | nil => simp at h
  | cons a ps ih =>
    cases i with
    | zero =>
      obtain rfl : a = old := by simpa using h
      rw [List.set_cons_zero, tally_cons, tally_cons]
      omega
    | succ i =>
      rw [List.set_cons_succ, tally_cons, tally_cons]
      have := ih h
      omega

theorem le_tally {a : α} (h : a ∈ ps) : f a ≤ tally f ps := by
  induction ps with
  | nil => cases h
  | cons b ps ih =>
    rw [tally_cons]
    cases List.mem_cons.mp h with
    | inl heq =>
      rw [heq]
      omega
    | inr hrest =>
      have := ih hrest
      omega

theorem exists_pos_of_tally {f : α → ℕ} (h : 0 < tally f ps) : ∃ a ∈ ps, 0 < f a := by
  induction ps with
  | nil => cases h
  | cons b ps ih =>
    rw [tally_cons] at h
    by_cases hb : 0 < f b
    · exact ⟨b, List.mem_cons_self, hb⟩
    · obtain ⟨a, hmem, ha⟩ := ih (by omega)
      exact ⟨a, List.mem_cons_of_mem b hmem, ha⟩

theorem sum_update {n : ℕ} (ps : Fin n → α) (i : Fin n) (new : α) :
    ∑ j, f (Function.update ps i new j) + f (ps i) = ∑ j, f (ps j) + f new := by
  rw [← Finset.add_sum_erase Finset.univ (fun j => f (Function.update ps i new j)) (Finset.mem_univ i),
    ← Finset.add_sum_erase Finset.univ (fun j => f (ps j)) (Finset.mem_univ i)]
  have hrest : ∑ j ∈ Finset.univ.erase i, f (Function.update ps i new j) = ∑ j ∈ Finset.univ.erase i, f (ps j) := by
    apply Finset.sum_congr rfl
    intro j hj
    rw [Function.update_of_ne (Finset.ne_of_mem_erase hj)]
  rw [hrest, Function.update_self]
  omega

end Mappf
