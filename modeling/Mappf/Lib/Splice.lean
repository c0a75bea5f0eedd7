import Mathlib.Data.List.Basic
import Mathlib.Data.List.TakeWhile

/-! # Inserting before an element

`insertBefore (some y) x` puts `x` directly before the first `y`, or at the end when there is none;
`insertBefore none x` puts it at the end. -/
namespace Mappf
open List

variable {α : Type} [DecidableEq α]

def insertBefore (before : Option α) (x : α) (l : List α) : List α :=
  l.takeWhile (fun y => before ≠ some y) ++ x :: l.dropWhile (fun y => before ≠ some y)

/-- All of them in order, so the last one ends up nearest. -/
def insertAllBefore (before : Option α) (xs l : List α) : List α := xs.foldl (fun l x => insertBefore before x l) l

variable {before : Option α} {x : α} {xs l : List α} {p : α → Bool}

theorem insertAllBefore_append (xs ys l : List α) :
    insertAllBefore before (xs ++ ys) l = insertAllBefore before ys (insertAllBefore before xs l) :=
  foldl_append

/-! ## Where the elements end up -/

omit [DecidableEq α] in
theorem takeWhile_append_cons_dropWhile (hx : p x = true) :
    (l.takeWhile p ++ x :: l.dropWhile p).takeWhile p = l.takeWhile p ++ [x] ∧
      (l.takeWhile p ++ x :: l.dropWhile p).dropWhile p = l.dropWhile p := by
  induction l with
  | nil => simp [hx]
  | cons y l ih =>
    by_cases hy : p y = true
    · simp [hy, ih.1, ih.2]
    · simp [hx, hy]

theorem insertAllBefore_eq (hfree : ∀ x ∈ xs, before ≠ some x) : insertAllBefore before xs l =
      l.takeWhile (fun y => before ≠ some y) ++ (xs ++ l.dropWhile (fun y => before ≠ some y)) := by
  induction xs generalizing l with
  | nil => exact takeWhile_append_dropWhile.symm
  | cons x xs ih =>
    have hx : (fun y => decide (before ≠ some y)) x = true := decide_eq_true (hfree x mem_cons_self)
    obtain ⟨htake, hdrop⟩ := takeWhile_append_cons_dropWhile (p := fun y => decide (before ≠ some y)) (l := l) hx
    have hrest := ih (l := insertBefore before x l) (fun y hy => hfree y (mem_cons_of_mem x hy))
    unfold insertBefore at hrest
    rw [htake, hdrop] at hrest
    change insertAllBefore before xs (insertBefore before x l) = _
    unfold insertBefore
    rw [hrest, append_assoc, singleton_append, cons_append]

/-- Everything from the element on comes after what is inserted before it. -/
theorem head?_dropWhile_ne {y : α} (hy : y ∈ l) : (l.dropWhile (fun z => some y ≠ some z)).head? = some y := by
  induction l with
  | nil => cases hy
  | cons z l ih =>
    by_cases hz : y = z
    · subst hz
      simp
    · have hrest := ih ((mem_cons.mp hy).resolve_left hz)
      simpa [dropWhile_cons, hz] using hrest

/-! ## Membership and filters -/

theorem perm_insertBefore : (insertBefore before x l).Perm (x :: l) := by
  have hsplit : (l.takeWhile (fun y => before ≠ some y) ++ l.dropWhile (fun y => before ≠ some y)) = l :=
    takeWhile_append_dropWhile
  have hmid : (insertBefore before x l).Perm
      (x :: (l.takeWhile (fun y => before ≠ some y) ++ l.dropWhile (fun y => before ≠ some y))) := perm_middle
  rw [hsplit] at hmid
  exact hmid

omit [DecidableEq α] in
theorem filter_takeWhile_dropWhile {q : α → Bool} (hq : ∀ y, q y = false → p y = true) :
    (l.takeWhile q).filter p = (l.filter p).takeWhile q ∧ (l.dropWhile q).filter p = (l.filter p).dropWhile q := by
  induction l with
  | nil => exact ⟨rfl, rfl⟩
  | cons y l ih =>
    by_cases hy : q y = true
    · by_cases hp : p y = true <;> simp [hy, hp, ih.1, ih.2]
    · have hp : p y = true := hq y (Bool.eq_false_iff.mpr hy)
      simp [hy, hp]

theorem filter_insertBefore_of_pos (hbef : ∀ y, before = some y → p y = true) (hx : p x = true) :
    (insertBefore before x l).filter p = insertBefore before x (l.filter p) := by
  have hq : ∀ y, decide (before ≠ some y) = false → p y = true :=
    fun y hy => hbef y (not_not.mp (of_decide_eq_false hy))
  obtain ⟨htake, hdrop⟩ := filter_takeWhile_dropWhile (l := l) hq
  unfold insertBefore
  rw [filter_append, filter_cons_of_pos hx, htake, hdrop]

theorem filter_insertBefore_of_neg (hx : p x = false) : (insertBefore before x l).filter p = l.filter p := by
  have hneg : ¬ p x = true := by rw [hx]; exact Bool.false_ne_true
  unfold insertBefore
  rw [filter_append, filter_cons_of_neg hneg, ← filter_append, takeWhile_append_dropWhile]

theorem filter_insertAllBefore_of_pos (hbef : ∀ y, before = some y → p y = true) (hxs : ∀ x ∈ xs, p x = true) :
    (insertAllBefore before xs l).filter p = insertAllBefore before xs (l.filter p) := by
  induction xs generalizing l with
  | nil => rfl
  | cons x xs ih =>
    have hrest := ih (l := insertBefore before x l) (fun y hy => hxs y (mem_cons_of_mem x hy))
    rw [filter_insertBefore_of_pos hbef (hxs x mem_cons_self)] at hrest
    exact hrest

theorem filter_insertAllBefore_of_neg (hxs : ∀ x ∈ xs, p x = false) :
    (insertAllBefore before xs l).filter p = l.filter p := by
  induction xs generalizing l with
  | nil => rfl
  | cons x xs ih =>
    have hrest := ih (l := insertBefore before x l) (fun y hy => hxs y (mem_cons_of_mem x hy))
    rw [filter_insertBefore_of_neg (hxs x mem_cons_self)] at hrest
    exact hrest

theorem perm_insertAllBefore (before : Option α) (xs l : List α) : (insertAllBefore before xs l).Perm (xs ++ l) := by
  induction xs generalizing l with
  | nil => exact List.Perm.refl l
  | cons x xs ih =>
    have hmid : (xs ++ insertBefore before x l).Perm (x :: xs ++ l) :=
      (perm_insertBefore.append_left xs).trans perm_middle
    exact (ih (insertBefore before x l)).trans hmid

end Mappf
