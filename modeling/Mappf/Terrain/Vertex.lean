import Mappf.Terrain.EdgeGridSpec

/-! # Around a vertex

Four edges leave a vertex and four cells touch it. A unit step is a vertex and a heading; leaving by a
heading has one of the four cells on its left and the next one on its right, so a boundary that enters a
vertex with exactly two edges of its label pair leaves it with the same label on its right. -/
namespace Mappf.Terrain

inductive Heading
  | right
  | down
  | left
  | up
  deriving DecidableEq

namespace Heading

def turn : Heading → Heading
  | right => down
  | down => left
  | left => up
  | up => right

def opposite (k : Heading) : Heading := k.turn.turn

def step (p : Point) : Heading → Point
  | right => (p.1 + 1, p.2)
  | down => (p.1, p.2 + 1)
  | left => (p.1 - 1, p.2)
  | up => (p.1, p.2 - 1)

def edge (p : Point) : Heading → Point × EdgeKind
  | right => (p, .horizontal)
  | down => (p, .vertical)
  | left => ((p.1 - 1, p.2), .horizontal)
  | up => ((p.1, p.2 - 1), .vertical)

def forward : Heading → Bool
  | right => true
  | down => true
  | left => false
  | up => false

theorem edge_injective {p : Point} {j k : Heading} (h : edge p j = edge p k) : j = k := by
  cases j <;> cases k <;> simp [edge, Prod.ext_iff] at h ⊢ <;> omega

variable (p : Point) (k : Heading)

theorem step_ne : step p k ≠ p := by
  cases k <;> simp [step, Prod.ext_iff]

theorem step_opposite : step (step p k) k.opposite = p := by
  cases k <;> simp [step, opposite, turn]

theorem edge_opposite : edge (step p k) k.opposite = edge p k := by
  cases k <;> simp [step, edge, opposite, turn]

theorem forward_opposite : k.opposite.forward = !k.forward := by
  cases k <;> rfl

theorem canonical_step : EdgeGrid.canonical p (step p k) = ((edge p k).1, (edge p k).2, k.forward) := by
  have hsub (z : ℤ) : ¬z < z - 1 := by omega
  have hne (z : ℤ) : ¬z = z - 1 := by omega
  cases k <;> simp [EdgeGrid.canonical, step, edge, forward, hsub, hne]

end Heading

def unitEdge (p q : Point) : Point × EdgeKind := ((EdgeGrid.canonical p q).1, (EdgeGrid.canonical p q).2.1)

theorem unitEdge_step (p : Point) (k : Heading) : unitEdge p (k.step p) = k.edge p := by
  rw [unitEdge, Heading.canonical_step]

theorem unitEdge_step' (p : Point) (k : Heading) : unitEdge (k.step p) p = k.edge p := by
  have h := unitEdge_step (k.step p) k.opposite
  rw [Heading.step_opposite, Heading.edge_opposite] at h
  exact h

/-! ## Labels around a vertex -/

section
variable (g : LabelGrid) (origin : ℤ)

/-- The cell left of a vertex's edge with the given heading. -/
def corner (p : Point) : Heading → Label
  | .right => g.labelAt (p.1 - origin) (p.2 - origin - 1)
  | .down => g.labelAt (p.1 - origin) (p.2 - origin)
  | .left => g.labelAt (p.1 - origin - 1) (p.2 - origin)
  | .up => g.labelAt (p.1 - origin - 1) (p.2 - origin - 1)

/-- The labels right and left of the step from one vertex to an adjacent one. -/
def stepSides (p q : Point) : Label × Label :=
  let (vertex, kind, forward) := EdgeGrid.canonical p q
  if forward then edgeSides g origin vertex kind else (edgeSides g origin vertex kind).swap

theorem stepSides_step (p : Point) (k : Heading) :
    stepSides g origin p (k.step p) = (corner g origin p k.turn, corner g origin p k) := by
  have hx : p.1 - 1 - origin = p.1 - origin - 1 := by omega
  have hy : p.2 - 1 - origin = p.2 - origin - 1 := by omega
  rw [stepSides, Heading.canonical_step]
  cases k <;> simp [Heading.forward, Heading.edge, Heading.turn, edgeSides, LabelGrid.sides, corner, hx, hy]

theorem stepSides_back (p : Point) (k : Heading) :
    stepSides g origin (k.step p) p = (stepSides g origin p (k.step p)).swap := by
  have h := Heading.canonical_step (k.step p) k.opposite
  rw [Heading.step_opposite, Heading.edge_opposite, Heading.forward_opposite] at h
  rw [stepSides, stepSides, h, Heading.canonical_step]
  cases k.forward <;> simp

theorem edgeSides_edge (p : Point) (k : Heading) : edgeSides g origin (k.edge p).1 (k.edge p).2 =
      if k.forward then stepSides g origin p (k.step p) else (stepSides g origin p (k.step p)).swap := by
  rw [stepSides, Heading.canonical_step]
  cases k.forward <;> simp

/-- A step between different labels runs along an edge between different labels. -/
theorem edgeSides_ne {p : Point} {k : Heading}
    (h : (stepSides g origin p (k.step p)).1 ≠ (stepSides g origin p (k.step p)).2) :
    (edgeSides g origin (k.edge p).1 (k.edge p).2).1 ≠ (edgeSides g origin (k.edge p).1 (k.edge p).2).2 := by
  rw [edgeSides_edge]
  cases k.forward with
  | true => exact h
  | false => exact h.symm

end

theorem labelPair_comm (a b : Label) : labelPair a b = labelPair b a := by
  unfold labelPair
  split_ifs with hab hba hba
  · exact absurd hba (lt_asymm hab)
  · rfl
  · rfl
  · have heq : a = b := le_antisymm (not_lt.mp hba) (not_lt.mp hab)
    rw [heq]

theorem labelPair_eq {a b r l : Label} (h : labelPair a b = labelPair r l) : (a = r ∧ b = l) ∨ (a = l ∧ b = r) := by
  unfold labelPair at h
  split_ifs at h <;> cases h <;> simp

/-- Two edges that both turn the same way round the vertex are opposite, with a third between them. -/
theorem opposite_of_same_sides {c : Heading → Label} {j k : Heading} {r l : Label} (hjk : j ≠ k) (hrl : r ≠ l)
    (hj : c j = r) (hj' : c j.turn = l) (hk : c k = r) (hk' : c k.turn = l) : k = j.turn.turn := by
  cases j <;> cases k <;> simp_all [Heading.turn]

end Mappf.Terrain
