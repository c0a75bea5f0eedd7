import Mathlib.Data.List.Basic
import Mathlib.Order.Compare

/-! # Binary search with a comparator

The search of the Rust standard library over a slice: the loop halves a window that always holds
the last element not above the target, and one comparison after the loop decides. On a list the
comparator orders, `ok i` is some matching position and `error i` is where the target would be
inserted; with several matches nothing is said about which one is found. -/
namespace Mappf

variable {α : Type}

def searchBase (l : List α) (f : α → Ordering) : ℕ → ℕ → ℕ → ℕ
  | 0, base, _ => base
  | fuel + 1, base, size =>
    if size ≤ 1 then base
    else
      let half := size / 2
      let mid := base + half
      searchBase l f fuel (if (l[mid]?).map f = some .gt then base else mid) (size - half)

/-- The window loses at least one element per round, so the length is enough fuel. -/
def binarySearchBy (l : List α) (f : α → Ordering) : Except ℕ ℕ :=
  let base := searchBase l f l.length 0 l.length
  match l[base]? with
  | none => .error 0
  | some x =>
    match f x with
    | .eq => .ok base
    | .lt => .error (base + 1)
    | .gt => .error base

/-- The comparator is monotone along the list. -/
def OrderedBy (f : α → Ordering) (l : List α) : Prop :=
  l.Pairwise (fun x y => (f x = .gt → f y = .gt) ∧ (f y = .lt → f x = .lt))

variable {f : α → Ordering} {l : List α} {i : ℕ}

theorem OrderedBy.of_le (h : OrderedBy f l) {j : ℕ} {x y : α} (hx : l[i]? = some x) (hy : l[j]? = some y)
    (hij : i ≤ j) : (f x = .gt → f y = .gt) ∧ (f y = .lt → f x = .lt) := by
  obtain ⟨hi, rfl⟩ := List.getElem?_eq_some_iff.mp hx
  obtain ⟨hj, rfl⟩ := List.getElem?_eq_some_iff.mp hy
  cases Nat.lt_or_eq_of_le hij with
  | inl hlt => exact List.pairwise_iff_getElem.mp h i j hi hj hlt
  | inr heq => subst heq; exact ⟨id, id⟩

/-- Invariant of the loop: the window is inside the list, its first element is not above the target
unless it is the list's first, and everything behind the window is above the target. -/
theorem searchBase_spec (h : OrderedBy f l) :
    ∀ (fuel base size : ℕ), 0 < size → size ≤ fuel + 1 → base + size ≤ l.length →
      (base = 0 ∨ ∀ x, l[base]? = some x → f x ≠ .gt) →
      (∀ j x, base + size ≤ j → l[j]? = some x → f x = .gt) →
      searchBase l f fuel base size < l.length ∧
        (searchBase l f fuel base size = 0 ∨ ∀ x, l[searchBase l f fuel base size]? = some x → f x ≠ .gt) ∧
        ∀ j x, searchBase l f fuel base size < j → l[j]? = some x → f x = .gt := by
  intro fuel
  induction fuel with
  | zero =>
    intro base size hpos hfuel hlen hbase habove
    refine ⟨by simp only [searchBase]; omega, hbase, ?_⟩
    intro j x hj
    simp only [searchBase] at hj
    exact habove j x (by omega)
  | succ fuel ih =>
    intro base size hpos hfuel hlen hbase habove
    rw [searchBase]
    dsimp only
    split_ifs with hsize hmid
    · refine ⟨by omega, hbase, ?_⟩
      intro j x hj
      exact habove j x (by omega)
    · -- The middle is above the target, and so is everything behind it.
      obtain ⟨m, hm, hgt⟩ := Option.map_eq_some_iff.mp hmid
      apply ih base (size - size / 2) (by omega) (by omega) (by omega) hbase
      intro j x hj hx
      exact (h.of_le hm hx (by omega)).1 hgt
    · apply ih (base + size / 2) (size - size / 2) (by omega) (by omega) (by omega)
      · right
        intro x hx hgt
        apply hmid
        rw [hx, Option.map_some, hgt]
      · intro j x hj hx
        exact habove j x (by omega) hx

theorem binarySearchBy_ok (h : binarySearchBy l f = .ok i) : ∃ x, l[i]? = some x ∧ f x = .eq := by
  simp only [binarySearchBy] at h
  cases hx : l[searchBase l f l.length 0 l.length]? with
  | none => simp [hx] at h
  | some x =>
    simp only [hx] at h
    cases hf : f x with
    | lt | gt => simp [hf] at h
    | eq =>
      simp only [hf, Except.ok.injEq] at h
      rw [h] at hx
      exact ⟨x, hx, hf⟩

theorem binarySearchBy_error_le (h : binarySearchBy l f = .error i) : i ≤ l.length := by
  simp only [binarySearchBy] at h
  cases hx : l[searchBase l f l.length 0 l.length]? with
  | none =>
    simp only [hx, Except.error.injEq] at h
    omega
  | some x =>
    have hlt := (List.getElem?_eq_some_iff.mp hx).1
    simp only [hx] at h
    cases hf : f x with
    | eq => simp [hf] at h
    | lt | gt => simp only [hf, Except.error.injEq] at h; omega

theorem binarySearchBy_error (ho : OrderedBy f l) (h : binarySearchBy l f = .error i) :
    ∀ j x, l[j]? = some x → (j < i → f x = .lt) ∧ (i ≤ j → f x = .gt) := by
  intro j y hy
  have hj : j < l.length := (List.getElem?_eq_some_iff.mp hy).1
  obtain ⟨hlt, hfirst, habove⟩ := searchBase_spec ho l.length 0 l.length (by omega) (by omega) (by omega)
    (.inl rfl) (fun j x hj' hx => absurd (List.getElem?_eq_some_iff.mp hx).1 (by omega))
  simp only [binarySearchBy] at h
  set base := searchBase l f l.length 0 l.length
  cases hx : l[base]? with
  | none => exact absurd (List.getElem?_eq_none_iff.mp hx) (by omega)
  | some x =>
    simp only [hx] at h
    cases hf : f x with
    | eq => simp [hf] at h
    | lt =>
      simp only [hf, Except.error.injEq] at h
      exact ⟨fun hji => (ho.of_le hy hx (by omega)).2 hf, fun hij => habove j y (by omega) hy⟩
    | gt =>
      simp only [hf, Except.error.injEq] at h
      subst h
      have hzero : base = 0 := by
        cases hfirst with
        | inl h0 => exact h0
        | inr hne => exact absurd hf (hne x hx)
      exact ⟨fun hji => absurd hji (by omega), fun hij => (ho.of_le hx hy hij).1 hf⟩

example : binarySearchBy [2, 4, 4, 9] (fun x => compare x 4) = .ok 2 := by decide
example : binarySearchBy [2, 4, 4, 9] (fun x => compare x 5) = .error 3 := by decide

end Mappf
