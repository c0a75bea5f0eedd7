import Mathlib.Logic.Relation
import Mathlib.Order.WellFoundedSet

/-! # Relations without cycles

A relation is acyclic when no walk returns to its start. Fewer edges keep it so, and so does one more edge
whose end does not lead back to its start. Among finitely many points of an acyclic relation one has no
successor. -/
namespace Mappf

open Relation (TransGen ReflTransGen)

variable {α : Type} {r r' : α → α → Prop}

def Acyclic (r : α → α → Prop) : Prop :=
  ∀ a, ¬ TransGen r a a

namespace Acyclic

theorem mono (h : Acyclic r) (hsub : ∀ a b, r' a b → r a b) : Acyclic r' :=
  fun a hcycle => h a (TransGen.mono hsub a a hcycle)

/-- A walk that may use the edge from `a` to `b` avoids it, or reaches `a` and goes on from `b`. -/
theorem walk_add_edge {a b : α} (hadd : ∀ x y, r' x y → r x y ∨ (x = a ∧ y = b)) (hback : ¬ ReflTransGen r b a)
    {x y : α} (hwalk : TransGen r' x y) : TransGen r x y ∨ (ReflTransGen r x a ∧ ReflTransGen r b y) := by
  induction hwalk with
  | single hedge =>
    cases hadd _ _ hedge with
    | inl hold => exact .inl (.single hold)
    | inr hnew =>
      obtain ⟨rfl, rfl⟩ := hnew
      exact .inr ⟨.refl, .refl⟩
  | tail _ hedge ih =>
    cases hadd _ _ hedge with
    | inl hold =>
      cases ih with
      | inl hbef => exact .inl (hbef.tail hold)
      | inr hbef => exact .inr ⟨hbef.1, hbef.2.tail hold⟩
    | inr hnew =>
      obtain ⟨rfl, rfl⟩ := hnew
      cases ih with
      | inl hbef => exact .inr ⟨hbef.to_reflTransGen, .refl⟩
      | inr hbef => exact absurd hbef.2 hback

theorem add_edge {a b : α} (h : Acyclic r) (hadd : ∀ x y, r' x y → r x y ∨ (x = a ∧ y = b))
    (hback : ¬ ReflTransGen r b a) : Acyclic r' := by
  intro x hcycle
  cases walk_add_edge hadd hback hcycle with
  | inl hold => exact h x hold
  | inr hthrough => exact hback (hthrough.2.trans hthrough.1)

/-- No nonempty finite set of points in which every point has a successor. -/
theorem eq_empty_of_closed (h : Acyclic r) {s : Set α} (hfinite : s.Finite)
    (hclosed : ∀ a ∈ s, ∃ b ∈ s, r a b) : s = ∅ := by
  have : IsStrictOrder α (fun a b => TransGen r b a) :=
    { irrefl := h, trans := fun _ _ _ hab hbc => hbc.trans hab }
  have hwf : s.WellFoundedOn (fun a b => TransGen r b a) := hfinite.wellFoundedOn
  rw [Set.eq_empty_iff_forall_notMem]
  intro a ha
  refine hwf.induction (P := fun _ => False) ha ?_
  intro x hx ih
  obtain ⟨y, hy, hedge⟩ := hclosed x hx
  exact ih y hy (.single hedge)

end Acyclic
end Mappf
