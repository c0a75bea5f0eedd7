import Mathlib.Data.List.Basic
import Mathlib.Data.List.Count

/-! # Logged runs

A log lists the steps taken so far, oldest first, each with the state it started from; the number of
a step is its place in the log. `since p k` counts the steps with property `p` from step `k` on. -/
namespace Mappf
open List

variable {σ ε : Type} {α : Type} {x : α} {k : ℕ} {y : α} {i j : ℕ} {log : List (σ × ε)}

def since (p : ε → Bool) (k : ℕ) (log : List (σ × ε)) : ℕ := (log.drop k).countP (fun entry => p entry.2)

theorem lt_length {log : List α} (h : log[k]? = some y) : k < log.length := (List.getElem?_eq_some_iff.mp h).1

theorem getElem?_log {log : List α} : (log ++ [x])[k]? = some y ↔ log[k]? = some y ∨ (k = log.length ∧ x = y) := by
  by_cases hk : k < log.length
  · rw [getElem?_append_left hk]
    constructor
    · exact Or.inl
    · intro h
      cases h with
      | inl h => exact h
      | inr h => omega
  · have hnone : log[k]? = none := getElem?_eq_none (by omega)
    rw [getElem?_append_right (by omega), hnone, getElem?_singleton]
    by_cases he : k = log.length
    · simp [he]
    · have hpos : k - log.length ≠ 0 := by omega
      simp [hpos, he]

theorem getElem?_set_cases {xs : List α} (h : (xs.set i x)[j]? = some y) :
    (j = i ∧ y = x) ∨ (j ≠ i ∧ xs[j]? = some y) := by
  by_cases hij : i = j
  · subst hij
    rw [getElem?_set_self'] at h
    cases hx : xs[i]? with
    | none => rw [hx] at h; cases h
    | some _ => rw [hx] at h; exact .inl ⟨rfl, (Option.some.inj h).symm⟩
  · rw [getElem?_set_ne hij] at h
    exact .inr ⟨fun hji => hij hji.symm, h⟩

/-- What holds of the entry written holds of every entry that was not there before. -/
theorem mem_set_or {p : α → Prop} {xs : List α} (hx : p x) : ∀ y ∈ xs.set i x, y ∈ xs ∨ p y := by
  intro y hy
  obtain hold | rfl := mem_or_eq_of_mem_set hy
  · exact .inl hold
  · exact .inr hx

theorem since_log (p : ε → Bool) (hk : k ≤ log.length) (before : σ) (e : ε) :
    since p k (log ++ [(before, e)]) = since p k log + if p e = true then 1 else 0 := by
  unfold since
  rw [drop_append_of_le_length hk, countP_append]
  by_cases he : p e = true <;> simp [he]

theorem since_length (p : ε → Bool) (log : List (σ × ε)) : since p log.length log = 0 := by
  simp [since]

theorem since_eq_zero {p : ε → Bool} :
    since p k log = 0 ↔ ∀ i entry, k ≤ i → log[i]? = some entry → p entry.2 = false := by
  unfold since
  rw [countP_eq_zero]
  constructor
  · intro h i entry hi hentry
    have hmem : entry ∈ log.drop k := by
      apply mem_iff_getElem?.mpr
      refine ⟨i - k, ?_⟩
      rw [getElem?_drop, show k + (i - k) = i by omega]
      exact hentry
    simpa using h entry hmem
  · intro h entry hmem
    obtain ⟨j, hj⟩ := mem_iff_getElem?.mp hmem
    rw [getElem?_drop] at hj
    simp [h (k + j) entry (by omega) hj]

/-- Two prefixes with the same count have nothing to count between them. -/
theorem countP_take_eq {p : α → Bool} {log : List α} (hij : i ≤ j)
    (heq : (log.take i).countP p = (log.take j).countP p) {m : ℕ} (him : i ≤ m) (hmj : m < j)
    (hx : log[m]? = some x) : p x = false := by
  have hsplit : log.take j = log.take i ++ (log.take j).drop i := by
    conv_lhs => rw [← take_append_drop i (log.take j), take_take, Nat.min_eq_left hij]
  rw [hsplit, countP_append] at heq
  have hzero : ((log.take j).drop i).countP p = 0 := by omega
  have hmem : x ∈ (log.take j).drop i := by
    apply mem_iff_getElem?.mpr
    refine ⟨m - i, ?_⟩
    rw [getElem?_drop, show i + (m - i) = m by omega, getElem?_take_of_lt hmj]
    exact hx
  simpa using countP_eq_zero.mp hzero x hmem

end Mappf
