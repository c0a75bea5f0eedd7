import Mathlib.Data.List.Induction
import Mathlib.Logic.Function.Basic

/-! # Transition systems

One start state and one step relation. `Reachable.invariant` is the only induction over runs
the development needs; `Reachable.simulate` carries reachability along a projection, and
`keyed` runs one independent copy of a machine per key behind a single interleaving. -/
namespace Mappf

structure Machine (σ : Type) where
  init : σ
  step : σ → σ → Prop

/-- States reached from the start by finitely many steps, in any order the steps allow. -/
inductive Reachable {σ : Type} (M : Machine σ) : σ → Prop
  | init : Reachable M M.init
  | step {s t : σ} : Reachable M s → M.step s t → Reachable M t

variable {σ : Type} {M : Machine σ} {s : σ}

theorem Reachable.invariant {I : σ → Prop} (hinit : I M.init) (hstep : ∀ s t, I s → M.step s t → I t)
    (h : Reachable M s) : I s := by
  induction h with
  | init => exact hinit
  | step _ hst ih => exact hstep _ _ ih hst

/-- A projection that maps each step to a step or to no move at all maps runs to runs. -/
theorem Reachable.simulate {τ : Type} {N : Machine τ} (f : σ → τ) (hinit : f M.init = N.init)
    (hstep : ∀ s t, M.step s t → f t = f s ∨ N.step (f s) (f t)) (h : Reachable M s) : Reachable N (f s) := by
  induction h with
  | init => rw [hinit]; exact Reachable.init
  | step _ hst ih =>
    rcases hstep _ _ hst with he | hs
    · rw [he]; exact ih
    · exact ih.step hs

/-- Where a list of actions leads is reachable, for a machine that takes one action in a step. -/
theorem reachable_foldl {α : Type} (step : σ → α → σ) (init : σ) (actions : List α) :
    Reachable { init, step := fun s t => ∃ action, t = step s action } (actions.foldl step init) := by
  induction actions using List.reverseRecOn with
  | nil => exact Reachable.init
  | append_singleton actions action ih =>
    rw [List.foldl_append]
    exact ih.step ⟨action, rfl⟩

/-- Every action of the list passes `check` in the state it is taken in. -/
def checked {σ α : Type} (step : σ → α → σ) (check : σ → α → Bool) : σ → List α → Bool
  | _, [] => true
  | s, action :: actions => check s action && checked step check (step s action) actions

/-- The same for a machine that takes only some actions, where a check finds each one among them. -/
theorem Reachable.foldl_checked {α : Type} {step : σ → α → σ} (check : σ → α → Bool)
    (hstep : ∀ s action, check s action = true → M.step s (step s action)) {actions : List α} (h : Reachable M s)
    (hchk : checked step check s actions = true) : Reachable M (actions.foldl step s) := by
  induction actions generalizing s with
  | nil => exact h
  | cons action actions ih =>
    rw [checked, Bool.and_eq_true] at hchk
    exact ih (h.step (hstep s action hchk.1)) hchk.2

/-! ## One machine per key -/

/-- The family of machines behind one interleaving: a step moves one key and keeps the rest. -/
def keyed {κ σ : Type} [DecidableEq κ] (M : κ → Machine σ) : Machine (κ → σ) where
  init := fun k => (M k).init
  step := fun f g => ∃ k t, (M k).step (f k) t ∧ g = Function.update f k t

theorem keyed_reachable {κ : Type} [DecidableEq κ] {M : κ → Machine σ} {f : κ → σ} (h : Reachable (keyed M) f) (k : κ) :
    Reachable (M k) (f k) := by
  refine h.simulate (fun f => f k) rfl ?_
  rintro f g ⟨k', t, hs, rfl⟩
  by_cases hk : k = k'
  · subst hk
    right
    simpa using hs
  · left
    simp [Function.update_of_ne hk]

/-- With one key, the family reaches what its only machine reaches. -/
theorem keyed_unit_reachable {M : Unit → Machine σ} (h : Reachable (M ()) s) : Reachable (keyed M) (fun _ => s) := by
  induction h with
  | init => exact Reachable.init
  | step _ hst ih =>
    refine ih.step ⟨(), _, hst, ?_⟩
    funext k
    simp

end Mappf
