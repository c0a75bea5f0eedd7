import Mathlib.Order.Lattice
import Mathlib.Data.List.Basic

/-! # Finite sets kept as strictly ascending lists

The value of an ordered set is its ascending enumeration, so two equal sets are the same
value and iteration order is a field, not a choice. The invariant travels with the list. -/
namespace Mappf
open List

/-- A finite set over a linear order, stored as its strictly ascending enumeration. -/
@[ext] structure OrderedSet (α : Type) [LinearOrder α] where
  toList : List α
  ascending : toList.Pairwise (· < ·)

namespace OrderedSet
variable {α : Type} [LinearOrder α]

instance : DecidableEq (OrderedSet α) := fun s t =>
  decidable_of_iff (s.toList = t.toList) OrderedSet.ext_iff.symm

instance : Membership α (OrderedSet α) := ⟨fun s x => x ∈ s.toList⟩

instance (x : α) (s : OrderedSet α) : Decidable (x ∈ s) := inferInstanceAs (Decidable (x ∈ s.toList))

instance : EmptyCollection (OrderedSet α) := ⟨⟨[], List.Pairwise.nil⟩⟩

variable {x : α} {s : OrderedSet α} {z : α}

theorem mem_toList : x ∈ s.toList ↔ x ∈ s := Iff.rfl

@[simp] theorem not_mem_empty (x : α) : x ∉ (∅ : OrderedSet α) := not_mem_nil

/-! ## Insertion -/

/-- Insertion into an ascending list; an element already present is left alone. -/
def insertList (x : α) : List α → List α
  | [] => [x]
  | y :: ys => if x < y then x :: y :: ys else if x = y then y :: ys else y :: insertList x ys

theorem mem_insertList (x z : α) (l : List α) : z ∈ insertList x l ↔ z = x ∨ z ∈ l := by
  induction l with
  | nil => simp [insertList]
  | cons y ys ih =>
    simp only [insertList]
    split_ifs with hlt heq
    · simp
    · subst heq; simp
    · simp only [mem_cons, ih]
      constructor
      · rintro (h | h | h)
        · exact .inr (.inl h)
        · exact .inl h
        · exact .inr (.inr h)
      · rintro (h | h | h)
        · exact .inr (.inl h)
        · exact .inl h
        · exact .inr (.inr h)

theorem insertList_ascending (x : α) (l : List α) (hl : l.Pairwise (· < ·)) : (insertList x l).Pairwise (· < ·) := by
  induction l with
  | nil => simp [insertList]
  | cons y ys ih =>
    obtain ⟨hy, hys⟩ := pairwise_cons.mp hl
    simp only [insertList]
    split_ifs with hlt heq
    · refine pairwise_cons.mpr ⟨?_, hl⟩
      intro z hz
      rcases mem_cons.mp hz with rfl | hz
      · exact hlt
      · exact lt_trans hlt (hy z hz)
    · exact hl
    · refine pairwise_cons.mpr ⟨?_, ih hys⟩
      intro z hz
      rcases (mem_insertList x z ys).mp hz with rfl | hz
      · exact lt_of_le_of_ne (not_lt.mp hlt) (Ne.symm heq)
      · exact hy z hz

def insert (x : α) (s : OrderedSet α) : OrderedSet α :=
  ⟨insertList x s.toList, insertList_ascending x s.toList s.ascending⟩

@[simp] theorem mem_insert : z ∈ s.insert x ↔ z = x ∨ z ∈ s :=
  mem_insertList x z s.toList

def extend (s : OrderedSet α) (l : List α) : OrderedSet α := l.foldl (fun t x => t.insert x) s

@[simp] theorem mem_extend {l : List α} : z ∈ s.extend l ↔ z ∈ s ∨ z ∈ l := by
  induction l generalizing s with
  | nil => simp [extend]
  | cons x xs ih =>
    have hstep : z ∈ s.extend (x :: xs) ↔ z ∈ (s.insert x).extend xs := Iff.rfl
    rw [hstep, ih, mem_insert, mem_cons]
    tauto

/-! ## Removal -/

def retain (p : α → Bool) (s : OrderedSet α) : OrderedSet α := ⟨s.toList.filter p, s.ascending.filter p⟩

@[simp] theorem mem_retain {p : α → Bool} : z ∈ s.retain p ↔ z ∈ s ∧ p z = true := mem_filter

def remove (x : α) (s : OrderedSet α) : OrderedSet α := s.retain (fun y => y ≠ x)

@[simp] theorem mem_remove : z ∈ s.remove x ↔ z ∈ s ∧ z ≠ x := by
  simp [remove]

def removeAll (s : OrderedSet α) (l : List α) : OrderedSet α := l.foldl (fun t x => t.remove x) s

@[simp] theorem mem_removeAll {l : List α} : z ∈ s.removeAll l ↔ z ∈ s ∧ z ∉ l := by
  induction l generalizing s with
  | nil => simp [removeAll]
  | cons x xs ih =>
    have hstep : z ∈ s.removeAll (x :: xs) ↔ z ∈ (s.remove x).removeAll xs := Iff.rfl
    rw [hstep, ih, mem_remove, mem_cons]
    tauto

/-! ## Size -/

def isEmpty (s : OrderedSet α) : Bool := s.toList.isEmpty

def length (s : OrderedSet α) : ℕ := s.toList.length

theorem isEmpty_iff : s.isEmpty = true ↔ ∀ x, x ∉ s := by
  rw [isEmpty, List.isEmpty_iff, List.eq_nil_iff_forall_not_mem]
  rfl

theorem isEmpty_eq_false_iff : s.isEmpty = false ↔ ∃ x, x ∈ s := by
  rw [← Bool.not_eq_true, isEmpty_iff]
  push Not
  rfl

end OrderedSet
end Mappf
