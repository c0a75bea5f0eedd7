import Mathlib.Algebra.GroupWithZero.Nat
import Mathlib.Algebra.Order.Group.Nat
import Mathlib.Data.List.Basic
import Mathlib.Data.List.InsertIdx
import Mathlib.Algebra.BigOperators.Group.List.Basic

/-! # Selecting from a list by weight

A lottery walks a list until a ticket falls into an element's share of the total weight. A ranking of
bounded length inserts each element before the first lighter one. -/
namespace Mappf
open List

variable {α β : Type}

/-! ## Lotteries -/

def pickWeighted (weight : α → ℕ) : ℕ → List α → Option α
  | _, [] => none
  | ticket, a :: l => if ticket < weight a then some a else pickWeighted weight (ticket - weight a) l

theorem mem_of_pickWeighted {weight : α → ℕ} {l : List α} {a : α} :
    ∀ {ticket : ℕ}, pickWeighted weight ticket l = some a → a ∈ l := by
  induction l with
  | nil => intro ticket h; cases h
  | cons b l ih =>
    intro ticket h
    rw [pickWeighted] at h
    split_ifs at h with htick
    · cases h
      exact mem_cons_self
    · exact mem_cons_of_mem b (ih h)

/-! ## Rankings -/

section Ranking

variable [LT β] [DecidableLT β]

/-- Equal weights keep the order of arrival. -/
def insertTop (limit : ℕ) (weight : α → β) (top : List (β × α)) (a : α) : List (β × α) :=
  let insertAt := top.findIdx (fun existing => decide (existing.1 < weight a))
  if insertAt < limit then (top.insertIdx insertAt (weight a, a)).take limit else top

def topBy (limit : ℕ) (weight : α → β) (l : List α) : List α :=
  (l.foldl (insertTop limit weight) []).map Prod.snd

variable {limit : ℕ} {weight : α → β} {top : List (β × α)} {a : α} {l : List α}

theorem mem_insertTop {entry : β × α} (h : entry ∈ insertTop limit weight top a) :
    entry = (weight a, a) ∨ entry ∈ top := by
  unfold insertTop at h
  dsimp only at h
  split_ifs at h
  · exact (mem_insertIdx findIdx_le_length).mp (mem_of_mem_take h)
  · exact .inr h

theorem insertTop_ne_nil (hlimit : 0 < limit) : insertTop limit weight top a ≠ [] := by
  unfold insertTop
  dsimp only
  split_ifs with hinsert
  · intro hnil
    have hlen := congrArg length hnil
    rw [length_take, length_insertIdx_of_le_length findIdx_le_length, length_nil] at hlen
    omega
  · rintro rfl
    exact hinsert hlimit

theorem mem_of_foldl_insertTop {entry : β × α} (l : List α) (top : List (β × α)) :
    entry ∈ l.foldl (insertTop limit weight) top → entry.2 ∈ l ∨ entry ∈ top := by
  induction l generalizing top with
  | nil => exact .inr
  | cons b l ih =>
    intro h
    obtain hl | htop := ih _ h
    · exact .inl (mem_cons_of_mem b hl)
    · obtain rfl | htop := mem_insertTop htop
      · exact .inl mem_cons_self
      · exact .inr htop

theorem mem_of_topBy (h : a ∈ topBy limit weight l) : a ∈ l := by
  obtain ⟨entry, hentry, rfl⟩ := mem_map.mp h
  exact (mem_of_foldl_insertTop l [] hentry).resolve_right not_mem_nil

theorem foldl_insertTop_ne_nil (hlimit : 0 < limit) (l : List α) (htop : top ≠ []) :
    l.foldl (insertTop limit weight) top ≠ [] := by
  induction l generalizing top with
  | nil => exact htop
  | cons b l ih => exact ih (insertTop_ne_nil hlimit)

/-- Nothing eligible is ranked away for nothing: the ranking of a list is empty only when the list is. -/
theorem topBy_eq_nil (hlimit : 0 < limit) (h : topBy limit weight l = []) : l = [] := by
  cases l with
  | nil => rfl
  | cons b l =>
    have hne : (b :: l).foldl (insertTop limit weight) [] ≠ [] :=
      foldl_insertTop_ne_nil hlimit l (insertTop_ne_nil hlimit)
    exact absurd (map_eq_nil_iff.mp h) hne

end Ranking

end Mappf
