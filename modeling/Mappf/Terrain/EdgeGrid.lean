import Mappf.Lib.Fallible
import Mathlib.Algebra.Order.Group.Int
import Mathlib.Data.List.ProdSigma
import Mathlib.Data.List.Range
import Mathlib.Tactic.Linarith

/-! # The boundary edges of a label grid

`topology.rs`: the dense edge index over the vertex grid and `boundary_graph`, which enters every grid
edge between two labels. Coordinates are integers; that they fit an `i32` is left to the callers. The
crossing that a scalar field gives an edge is a parameter; without a field there is none. A panic is a
fault. -/
namespace Mappf.Terrain

abbrev Point := ℤ × ℤ
abbrev Label := ℤ

inductive EdgeKind
  | vertical
  | horizontal
  deriving DecidableEq

namespace EdgeKind

def index : EdgeKind → ℕ
  | vertical => 0
  | horizontal => 1

def ofId (id : ℕ) : EdgeKind := if id % 2 = vertical.index then vertical else horizontal

/-- The far end of the canonical edge at a vertex. -/
def far : EdgeKind → Point → Point
  | vertical, v => (v.1, v.2 + 1)
  | horizontal, v => (v.1 + 1, v.2)

end EdgeKind

abbrev Crossing := Point → EdgeKind → Point

structure EdgeInfo where
  labels : Label × Label
  right : Label
  left : Label
  crossing : Option Point

/-! ## Labels -/

structure LabelGrid where
  width : ℕ
  height : ℕ
  labels : List Label
  size : labels.length = width * height

namespace LabelGrid

variable (g : LabelGrid)

theorem index_lt {x y : ℤ} (h : ¬(x < 0 ∨ y < 0 ∨ (g.width : ℤ) ≤ x ∨ (g.height : ℤ) ≤ y)) :
    y.toNat * g.width + x.toNat < g.labels.length := by
  have hy : y.toNat + 1 ≤ g.height := by omega
  have hrow : (y.toNat + 1) * g.width ≤ g.height * g.width := Nat.mul_le_mul_right _ hy
  rw [g.size, Nat.mul_comm g.width]
  rw [Nat.succ_mul] at hrow
  omega

def labelAt (x y : ℤ) : Label :=
  if h : x < 0 ∨ y < 0 ∨ (g.width : ℤ) ≤ x ∨ (g.height : ℤ) ≤ y then 0
  else g.labels.get ⟨y.toNat * g.width + x.toNat, g.index_lt h⟩

/-- The labels right and left of the canonical edge at a vertex: west and east of a vertical edge,
south and north of a horizontal one. -/
def sides (x y : ℤ) : EdgeKind → Label × Label
  | .vertical => (g.labelAt (x - 1) y, g.labelAt x y)
  | .horizontal => (g.labelAt x y, g.labelAt x (y - 1))

theorem labelAt_outside {x y : ℤ} (h : x < 0 ∨ y < 0 ∨ (g.width : ℤ) ≤ x ∨ (g.height : ℤ) ≤ y) :
    g.labelAt x y = 0 := dif_pos h

end LabelGrid

/-! ## The edge index -/

structure EdgeGrid where
  origin : ℤ
  vertexWidth : ℕ
  vertexHeight : ℕ
  outputScale : ℤ
  info : List (Option EdgeInfo)
  size : info.length = vertexWidth * vertexHeight * 2

namespace EdgeGrid

variable (grid : EdgeGrid)

def vertexIndex (point : Point) : Option ℕ :=
  let x := point.1 - grid.origin
  let y := point.2 - grid.origin
  if x < 0 ∨ y < 0 ∨ (grid.vertexWidth : ℤ) ≤ x ∨ (grid.vertexHeight : ℤ) ≤ y then none
  else some (x.toNat * grid.vertexHeight + y.toNat)

def edgeId (vertex : Point) (kind : EdgeKind) : Option ℕ :=
  (grid.vertexIndex vertex).map (fun index => index * 2 + kind.index)

def endpoints (id : ℕ) : Point × Point :=
  let vertex := id / 2
  let x : ℤ := (vertex / grid.vertexHeight : ℕ) + grid.origin
  let y : ℤ := (vertex % grid.vertexHeight : ℕ) + grid.origin
  ((x, y), (EdgeKind.ofId id).far (x, y))

/-- `self.info[id]`, for the ids that `edge_id` gives. -/
def infoAt (id : ℕ) : Option EdgeInfo := grid.info.getD id none

def expectEdgeId (vertex : Point) (kind : EdgeKind) : Fallible ℕ :=
  match grid.edgeId vertex kind with
  | none => .error .fault
  | some id => .ok id

/-- The canonical edge between two adjacent points and whether `a → b` runs along it. -/
def canonical (a b : Point) : Point × EdgeKind × Bool :=
  if a.1 = b.1 then (if a.2 < b.2 then (a, .vertical, true) else (b, .vertical, false))
  else if a.1 < b.1 then (a, .horizontal, true)
  else (b, .horizontal, false)

def edgeBetween (a b : Point) : Fallible (ℕ × Bool) :=
  if a.1 ≠ b.1 ∧ a.2 ≠ b.2 then .error .fault
  else
    let (vertex, kind, forward) := canonical a b
    (grid.expectEdgeId vertex kind).map (fun id => (id, forward))

def incidentIds (point : Point) : List (Option ℕ) :=
  [grid.edgeId (point.1, point.2 - 1) .vertical, grid.edgeId point .vertical,
    grid.edgeId (point.1 - 1, point.2) .horizontal, grid.edgeId point .horizontal]

def hasPair (pair : Label × Label) (id : ℕ) : Bool :=
  match grid.infoAt id with
  | none => false
  | some info => info.labels = pair

def pairEdges (point : Point) (pair : Label × Label) : List ℕ :=
  ((grid.incidentIds point).filterMap (fun id => id)).filter (grid.hasPair pair)

end EdgeGrid

def labelPair (right left : Label) : Label × Label := if right < left then (right, left) else (left, right)

namespace EdgeGrid

def enter (grid : EdgeGrid) (id : ℕ) (info : EdgeInfo) : EdgeGrid :=
  { grid with info := grid.info.set id (some info), size := by rw [List.length_set, grid.size] }

def set (grid : EdgeGrid) (vertex : Point) (kind : EdgeKind) (right left : Label) (crossing : Option Point) :
    Fallible EdgeGrid := do
  let id ← grid.expectEdgeId vertex kind
  if (grid.infoAt id).isSome then .error .fault
  else return grid.enter id ⟨labelPair right left, right, left, crossing⟩

end EdgeGrid

/-! ## The boundary graph -/

section
variable (g : LabelGrid) (crossing : Option Crossing) (origin outputScale : ℤ)

/-- One turn of the two loops over `y` and `x`. -/
def enterEdge (kind : EdgeKind) (grid : EdgeGrid) (cell : ℕ × ℕ) : Fallible EdgeGrid :=
  let (y, x) := cell
  let (right, left) := g.sides x y kind
  let vertex : Point := (origin + x, origin + y)
  if right ≠ left then grid.set vertex kind right left (crossing.map (fun position => position vertex kind))
  else .ok grid

def cells (rows columns : ℕ) : List (ℕ × ℕ) := List.range rows ×ˢ List.range columns

def emptyGrid : EdgeGrid where
  origin := origin
  vertexWidth := g.width + 1
  vertexHeight := g.height + 1
  outputScale := outputScale
  info := List.replicate ((g.width + 1) * (g.height + 1) * 2) none
  size := List.length_replicate

def boundaryGraph : Fallible EdgeGrid := do
  let grid ← (cells g.height (g.width + 1)).foldlM (enterEdge g crossing origin .vertical)
    (emptyGrid g origin outputScale)
  (cells (g.height + 1) g.width).foldlM (enterEdge g crossing origin .horizontal) grid

end

end Mappf.Terrain
