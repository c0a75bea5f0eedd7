import Mappf.Terrain.EdgeGrid
import Mathlib.Data.List.Nodup

/-! # What the boundary graph holds

Edge ids and canonical edges are in bijection, and the boundary graph holds exactly the edges whose two
sides differ. -/
namespace Mappf.Terrain
open EdgeKind List Nat

/-! ## Ids -/

namespace EdgeGrid

variable (grid : EdgeGrid)

def Contains (v : Point) : Prop :=
  (0 ≤ v.1 - grid.origin ∧ v.1 - grid.origin < grid.vertexWidth) ∧
    (0 ≤ v.2 - grid.origin ∧ v.2 - grid.origin < grid.vertexHeight)

variable {v : Point} {kind : EdgeKind} {id : ℕ}

theorem vertexIndex_of_contains (h : grid.Contains v) : grid.vertexIndex v =
      some ((v.1 - grid.origin).toNat * grid.vertexHeight + (v.2 - grid.origin).toNat) := by
  obtain ⟨⟨hx, hx'⟩, hy, hy'⟩ := h
  exact if_neg (by omega)

theorem contains_of_edgeId (h : grid.edgeId v kind = some id) : grid.Contains v := by
  by_contra hv
  have hnone : grid.vertexIndex v = none := by
    apply if_pos
    by_contra hin
    apply hv
    constructor <;> omega
  simp [edgeId, hnone] at h

theorem edgeId_of_contains (kind : EdgeKind) (h : grid.Contains v) : ∃ id, grid.edgeId v kind = some id := by
  rw [edgeId, grid.vertexIndex_of_contains h]
  exact ⟨_, rfl⟩

theorem ofId_index (vertex : ℕ) (kind : EdgeKind) : EdgeKind.ofId (vertex * 2 + kind.index) = kind := by
  cases kind with
  | vertical => exact if_pos (by simp [index])
  | horizontal => exact if_neg (by simp [index, add_mod])

theorem index_lt_two (kind : EdgeKind) : kind.index < 2 := by
  cases kind <;> decide

/-- An id determines its canonical edge. -/
theorem edgeId_spec (h : grid.edgeId v kind = some id) :
    grid.endpoints id = (v, kind.far v) ∧ EdgeKind.ofId id = kind ∧ id < grid.info.length := by
  have hv := grid.contains_of_edgeId h
  rw [edgeId, grid.vertexIndex_of_contains hv, Option.map_some, Option.some.injEq] at h
  obtain ⟨⟨hx, hx'⟩, hy, hy'⟩ := hv
  have hkind := index_lt_two kind
  have hrow : (v.2 - grid.origin).toNat < grid.vertexHeight := by omega
  have hcol : (v.1 - grid.origin).toNat + 1 ≤ grid.vertexWidth := by omega
  have hhalf : id / 2 = (v.1 - grid.origin).toNat * grid.vertexHeight + (v.2 - grid.origin).toNat := by omega
  have hdiv : id / 2 / grid.vertexHeight = (v.1 - grid.origin).toNat := by
    rw [hhalf, add_comm, add_mul_div_right _ _ (by omega), div_eq_of_lt hrow, zero_add]
  have hmod : id / 2 % grid.vertexHeight = (v.2 - grid.origin).toNat := by
    rw [hhalf, add_comm, add_mul_mod_self_right, mod_eq_of_lt hrow]
  have hof : ofId id = kind := by rw [← h, ofId_index]
  have hstart : (((id / 2 / grid.vertexHeight : ℕ) : ℤ) + grid.origin,
      ((id / 2 % grid.vertexHeight : ℕ) : ℤ) + grid.origin) = v := by
    ext
    · omega
    · omega
  refine ⟨?_, hof, ?_⟩
  · show ((_, _), (ofId id).far (_, _)) = _
    rw [hstart, hof]
  · have hle : ((v.1 - grid.origin).toNat + 1) * grid.vertexHeight ≤ grid.vertexWidth * grid.vertexHeight :=
      mul_le_mul_right _ hcol
    rw [succ_mul] at hle
    rw [grid.size]
    omega

theorem edgeId_injective {w : Point} {kind' : EdgeKind} (h : grid.edgeId v kind = some id)
    (h' : grid.edgeId w kind' = some id) : v = w ∧ kind = kind' := by
  obtain ⟨hends, hkind, _⟩ := grid.edgeId_spec h
  obtain ⟨hends', hkind', _⟩ := grid.edgeId_spec h'
  rw [hends] at hends'
  exact ⟨congrArg Prod.fst hends', hkind.symm.trans hkind'⟩

theorem edgeId_endpoints (h : id < grid.info.length) :
    grid.edgeId (grid.endpoints id).1 (EdgeKind.ofId id) = some id := by
  rw [grid.size] at h
  have hheight : 0 < grid.vertexHeight := by
    by_contra h0
    rw [Nat.eq_zero_of_not_pos h0] at h
    simp at h
  have hrow : id / 2 % grid.vertexHeight < grid.vertexHeight := mod_lt _ hheight
  have hcol : id / 2 / grid.vertexHeight < grid.vertexWidth :=
    Nat.div_lt_of_lt_mul (by rw [Nat.mul_comm grid.vertexHeight]; omega)
  have hdiv := div_add_mod' (id / 2) grid.vertexHeight
  have hkind : id / 2 * 2 + (ofId id).index = id := by
    unfold ofId
    split_ifs with hid
    · omega
    · simp only [index] at hid ⊢
      omega
  have hx : (grid.endpoints id).1.1 - grid.origin = (id / 2 / grid.vertexHeight : ℕ) := by
    show ((id / 2 / grid.vertexHeight : ℕ) : ℤ) + grid.origin - grid.origin = _
    omega
  have hy : (grid.endpoints id).1.2 - grid.origin = (id / 2 % grid.vertexHeight : ℕ) := by
    show ((id / 2 % grid.vertexHeight : ℕ) : ℤ) + grid.origin - grid.origin = _
    omega
  have hin : grid.Contains (grid.endpoints id).1 := by
    rw [Contains, hx, hy]
    exact ⟨⟨Int.natCast_nonneg _, Int.ofNat_lt.mpr hcol⟩, Int.natCast_nonneg _, Int.ofNat_lt.mpr hrow⟩
  rw [edgeId, grid.vertexIndex_of_contains hin, hx, hy, Option.map_some, Int.toNat_natCast, Int.toNat_natCast,
    hdiv, hkind]

end EdgeGrid

/-! ## The boundary graph -/

section
variable (g : LabelGrid) (crossing : Option Crossing) (origin outputScale : ℤ)

def edgeSides (v : Point) (kind : EdgeKind) : Label × Label := g.sides (v.1 - origin) (v.2 - origin) kind

def edgeInfo (v : Point) (kind : EdgeKind) : Option EdgeInfo :=
  let (right, left) := edgeSides g origin v kind
  if right ≠ left then
    some ⟨labelPair right left, right, left, crossing.map (fun position => position v kind)⟩
  else none

theorem edgeSides_vertex (x y : ℕ) (kind : EdgeKind) :
    edgeSides g origin (origin + x, origin + y) kind = g.sides x y kind := by
  simp [edgeSides, add_sub_cancel_left]

structure Entering (grid : EdgeGrid) (todo : List (Point × EdgeKind)) : Prop where
  origin_eq : grid.origin = origin
  width_eq : grid.vertexWidth = g.width + 1
  height_eq : grid.vertexHeight = g.height + 1
  scale_eq : grid.outputScale = outputScale
  info_eq : ∀ v kind id, grid.edgeId v kind = some id →
    grid.infoAt id = if (v, kind) ∈ todo then none else edgeInfo g crossing origin v kind
  nodup : todo.Nodup
  contains : ∀ edge ∈ todo, grid.Contains edge.1

abbrev Describes (grid : EdgeGrid) : Prop := Entering g crossing origin outputScale grid []

end

section
variable {g : LabelGrid} {crossing : Option Crossing} {origin outputScale : ℤ}

variable {grid : EdgeGrid} {kind : EdgeKind} {todo : List (Point × EdgeKind)}

theorem Entering.done {v : Point} (h : Entering g crossing origin outputScale grid ((v, kind) :: todo))
    (hsides : edgeInfo g crossing origin v kind = none) : Entering g crossing origin outputScale grid todo where
  origin_eq := h.origin_eq
  width_eq := h.width_eq
  height_eq := h.height_eq
  scale_eq := h.scale_eq
  info_eq := by
    intro w kind' id hid
    rw [h.info_eq w kind' id hid]
    by_cases he : (w, kind') = (v, kind)
    · cases he
      simp [hsides]
    · simp [he]
  nodup := h.nodup.of_cons
  contains := fun edge hedge => h.contains edge (mem_cons_of_mem _ hedge)

theorem infoAt_enter (grid : EdgeGrid) {id : ℕ} (h : id < grid.info.length) (info : EdgeInfo) (id' : ℕ) :
    (grid.enter id info).infoAt id' = if id' = id then some info else grid.infoAt id' := by
  simp only [EdgeGrid.infoAt, EdgeGrid.enter, getD_eq_getElem?_getD]
  split_ifs with he
  · rw [he, getElem?_set_self h]
    rfl
  · rw [getElem?_set_ne (Ne.symm he)]

theorem Entering.set {v : Point} (h : Entering g crossing origin outputScale grid ((v, kind) :: todo))
    {right left : Label} (hsides : edgeSides g origin v kind = (right, left)) (hne : right ≠ left) :
    ∃ grid', grid.set v kind right left (crossing.map (fun pos => pos v kind)) = .ok grid' ∧
      Entering g crossing origin outputScale grid' todo := by
  obtain ⟨id, hid⟩ := grid.edgeId_of_contains kind (h.contains _ mem_cons_self)
  obtain ⟨_, _, hlt⟩ := grid.edgeId_spec hid
  have hnone : grid.infoAt id = none := by
    rw [h.info_eq v kind id hid, if_pos mem_cons_self]
  have hexpect : grid.expectEdgeId v kind = .ok id := by rw [EdgeGrid.expectEdgeId, hid]
  refine ⟨grid.enter id ⟨labelPair right left, right, left, crossing.map (fun pos => pos v kind)⟩,
    ?_, h.origin_eq, h.width_eq, h.height_eq, h.scale_eq, ?_, h.nodup.of_cons,
    fun edge hedge => h.contains edge (mem_cons_of_mem _ hedge)⟩
  · rw [EdgeGrid.set, hexpect, ok_bind, hnone]
    rfl
  intro w kind' id' hid'
  have hid'' : grid.edgeId w kind' = some id' := hid'
  rw [infoAt_enter grid hlt]
  by_cases he : id' = id
  · rw [he] at hid''
    obtain ⟨rfl, rfl⟩ := grid.edgeId_injective hid'' hid
    rw [if_pos he, if_neg (nodup_cons.mp h.nodup).1, edgeInfo, hsides]
    exact (if_pos hne).symm
  · have hne' : (w, kind') ≠ (v, kind) := by
      intro heq
      cases heq
      rw [hid] at hid''
      exact he (Option.some.inj hid'').symm
    rw [if_neg he, h.info_eq w kind' id' hid'']
    simp [hne']

theorem enterEdge_spec {y x : ℕ}
    (h : Entering g crossing origin outputScale grid (((origin + x, origin + y), kind) :: todo)) :
    ∃ grid', enterEdge g crossing origin kind grid (y, x) = .ok grid' ∧
      Entering g crossing origin outputScale grid' todo := by
  have hsides := edgeSides_vertex g origin x y kind
  by_cases hne : (g.sides x y kind).1 ≠ (g.sides x y kind).2
  · obtain ⟨grid', hset, h'⟩ := h.set hsides hne
    exact ⟨grid', (if_pos hne).trans hset, h'⟩
  · refine ⟨grid, if_neg hne, h.done ?_⟩
    rw [edgeInfo, hsides]
    exact if_neg hne

def cellEdge (origin : ℤ) (kind : EdgeKind) (cell : ℕ × ℕ) : Point × EdgeKind :=
  ((origin + cell.2, origin + cell.1), kind)

theorem enterEdges_spec {loop : List (ℕ × ℕ)}
    (h : Entering g crossing origin outputScale grid (loop.map (cellEdge origin kind) ++ todo)) :
    ∃ grid', loop.foldlM (enterEdge g crossing origin kind) grid = .ok grid' ∧
      Entering g crossing origin outputScale grid' todo :=
  foldlM_ok (fun grid loop => Entering g crossing origin outputScale grid
    (loop.map (cellEdge origin kind) ++ todo)) (fun _ _ _ h => enterEdge_spec h) h

theorem mem_cells {rows columns y x : ℕ} : (y, x) ∈ cells rows columns ↔ y < rows ∧ x < columns := by
  rw [cells, mem_product, mem_range, mem_range]

theorem cellEdge_injective (kind : EdgeKind) : Function.Injective (cellEdge origin kind) := by
  intro a b h
  have hpoint := congrArg Prod.fst h
  have hx := congrArg Prod.fst hpoint
  have hy := congrArg Prod.snd hpoint
  dsimp only [cellEdge] at hx hy
  ext
  · omega
  · omega

theorem cellEdges_nodup (kind : EdgeKind) (rows columns : ℕ) :
    ((cells rows columns).map (cellEdge origin kind)).Nodup :=
  (List.Nodup.product nodup_range nodup_range).map (cellEdge_injective kind)

end

section
variable (g : LabelGrid) (crossing : Option Crossing) (origin outputScale : ℤ)

/-- Outside the two loops both sides of an edge lie outside the grid. -/
theorem edgeInfo_rim {v : Point} {kind : EdgeKind} (hin : (emptyGrid g origin outputScale).Contains v)
    (hv : (v, kind) ∉ (cells g.height (g.width + 1)).map (cellEdge origin .vertical))
    (hh : (v, kind) ∉ (cells (g.height + 1) g.width).map (cellEdge origin .horizontal)) :
    edgeInfo g crossing origin v kind = none := by
  obtain ⟨⟨hx, hx'⟩, hy, hy'⟩ := hin
  obtain ⟨x, hxv⟩ := Int.eq_ofNat_of_zero_le hx
  obtain ⟨y, hyv⟩ := Int.eq_ofNat_of_zero_le hy
  have hcell : (v, kind) = cellEdge origin kind (y, x) := by
    ext
    · show v.1 = origin + x
      rw [← hxv]
      exact (add_sub_cancel origin v.1).symm
    · show v.2 = origin + y
      rw [← hyv]
      exact (add_sub_cancel origin v.2).symm
    · rfl
  have hxw : x < g.width + 1 := by
    dsimp only [emptyGrid] at hx hx' hxv
    omega
  have hyh : y < g.height + 1 := by
    dsimp only [emptyGrid] at hy hy' hyv
    omega
  have hsides : (edgeSides g origin v kind).1 = (edgeSides g origin v kind).2 := by
    rw [show v = (origin + x, origin + y) from congrArg Prod.fst hcell, edgeSides_vertex]
    cases kind with
    | vertical =>
      have hy0 : ¬y < g.height := fun h => hv (hcell ▸ mem_map_of_mem (mem_cells.mpr ⟨h, hxw⟩))
      rw [LabelGrid.sides, g.labelAt_outside (by omega), g.labelAt_outside (by omega)]
    | horizontal =>
      have hx0 : ¬x < g.width := fun h => hh (hcell ▸ mem_map_of_mem (mem_cells.mpr ⟨hyh, h⟩))
      rw [LabelGrid.sides, g.labelAt_outside (by omega), g.labelAt_outside (by omega)]
  exact if_neg (not_not.mpr hsides)

theorem emptyGrid_entering : Entering g crossing origin outputScale (emptyGrid g origin outputScale)
      ((cells g.height (g.width + 1)).map (cellEdge origin .vertical) ++
        (cells (g.height + 1) g.width).map (cellEdge origin .horizontal)) where
  origin_eq := rfl
  width_eq := rfl
  height_eq := rfl
  scale_eq := rfl
  info_eq := by
    intro v kind id hid
    have hnone : (emptyGrid g origin outputScale).infoAt id = none := by
      simp only [EdgeGrid.infoAt, emptyGrid, getD_eq_getElem?_getD, getElem?_replicate]
      split_ifs <;> rfl
    rw [hnone]
    split_ifs with hmem
    · rfl
    · rw [mem_append, not_or] at hmem
      exact (edgeInfo_rim g crossing origin outputScale
        ((emptyGrid g origin outputScale).contains_of_edgeId hid) hmem.1 hmem.2).symm
  nodup := by
    refine List.Nodup.append (cellEdges_nodup .vertical _ _) (cellEdges_nodup .horizontal _ _) ?_
    intro edge hv hh
    obtain ⟨_, _, rfl⟩ := mem_map.mp hv
    obtain ⟨_, _, he⟩ := mem_map.mp hh
    cases congrArg Prod.snd he
  contains := by
    intro edge hedge
    rcases mem_append.mp hedge with hv | hh
    · obtain ⟨⟨y, x⟩, hcell, rfl⟩ := mem_map.mp hv
      rw [mem_cells] at hcell
      dsimp only [EdgeGrid.Contains, emptyGrid, cellEdge]
      omega
    · obtain ⟨⟨y, x⟩, hcell, rfl⟩ := mem_map.mp hh
      rw [mem_cells] at hcell
      dsimp only [EdgeGrid.Contains, emptyGrid, cellEdge]
      omega

/-- `boundary_graph` does not panic, and its graph holds the edges between different labels. -/
theorem boundaryGraph_spec : ∃ grid, boundaryGraph g crossing origin outputScale = .ok grid ∧
      Describes g crossing origin outputScale grid := by
  obtain ⟨grid, hgrid, hmid⟩ := enterEdges_spec (emptyGrid_entering g crossing origin outputScale)
  rw [← append_nil (map (cellEdge origin .horizontal) _)] at hmid
  obtain ⟨grid', hgrid', hdone⟩ := enterEdges_spec hmid
  refine ⟨grid', ?_, hdone⟩
  rw [boundaryGraph, hgrid, ok_bind, hgrid']

end

end Mappf.Terrain
