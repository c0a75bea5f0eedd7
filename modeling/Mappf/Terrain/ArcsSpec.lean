import Mappf.Terrain.PathGrowth

/-! # What the arcs are

`build_arcs` does not panic, its arcs partition the edges between different labels, and each has the same
two labels on its sides all along. -/
namespace Mappf.Terrain
open List

section
variable {g : LabelGrid} {crossing : Option Crossing} {origin scale : ℤ} {grid : EdgeGrid}

/-! ## One arc -/

variable {p : Point} {k : Heading} {r l : Label} {points : List Point}

section

variable (h : Describes g crossing origin scale grid)
include h

theorem edgeBetween_step (hne : (stepSides g origin p (k.step p)).1 ≠ (stepSides g origin p (k.step p)).2) :
    ∃ id info, grid.edgeBetween p (k.step p) = .ok (id, k.forward) ∧ grid.infoAt id = some info ∧
      edgeInfo g crossing origin (k.edge p).1 (k.edge p).2 = some info := by
  obtain ⟨id, hid⟩ := h.edgeId_step hne
  have hsides := edgeSides_ne g origin hne
  have hadjacent : ¬(p.1 ≠ (k.step p).1 ∧ p.2 ≠ (k.step p).2) := by
    cases k <;> simp [Heading.step]
  have hinfo : edgeInfo g crossing origin (k.edge p).1 (k.edge p).2 = some _ := if_pos hsides
  refine ⟨id, _, ?_, (h.infoAt hid).trans hinfo, hinfo⟩
  rw [EdgeGrid.edgeBetween, if_neg hadjacent, Heading.canonical_step]
  dsimp only
  rw [EdgeGrid.expectEdgeId, hid]
  rfl

theorem sidesAlong_step (hsides : stepSides g origin p (k.step p) = (r, l)) (hrl : r ≠ l) :
    sidesAlong grid (p, k.step p) = .ok (r, l) := by
  obtain ⟨id, info, hbetween, hinfo, hedge⟩ := edgeBetween_step h (p := p) (k := k) (by rw [hsides]; exact hrl)
  obtain ⟨hinfosides, _, _, _⟩ := edgeInfo_some hedge
  rw [edgeSides_edge, hsides] at hinfosides
  rw [sidesAlong, hbetween, ok_bind]
  dsimp only
  rw [expectInfo, hinfo]
  show Except.ok _ = Except.ok _
  congr 1
  cases hf : k.forward with
  | true =>
    rw [hf] at hinfosides
    exact hinfosides.symm
  | false =>
    rw [hf] at hinfosides
    simp only [Bool.false_eq_true, if_false] at hinfosides ⊢
    rw [← Prod.swap_swap (r, l), hinfosides]
    rfl

theorem crossingAlong_step {pos : Crossing}
    (hcrossing : crossing = some pos) (hsides : stepSides g origin p (k.step p) = (r, l)) (hrl : r ≠ l) :
    crossingAlong grid (p, k.step p) = .ok (pos (k.edge p).1 (k.edge p).2) := by
  obtain ⟨id, info, hbetween, hinfo, hedge⟩ := edgeBetween_step h (p := p) (k := k) (by rw [hsides]; exact hrl)
  obtain ⟨_, _, _, hcross⟩ := edgeInfo_some hedge
  rw [hcrossing, Option.map_some] at hcross
  rw [crossingAlong, hbetween, ok_bind]
  simp only [hinfo, Option.bind_some, hcross]
  rfl

end

theorem ArcPath.segment (path : ArcPath g origin r l points) {segment : Point × Point}
    (hmem : segment ∈ segments points) :
    ∃ k : Heading, segment.2 = k.step segment.1 ∧ stepSides g origin segment.1 segment.2 = (r, l) := by
  have chain := path.chain
  clear path
  induction points with
  | nil => cases hmem
  | cons a points ih =>
    cases points with
    | nil => cases hmem
    | cons b points =>
      obtain ⟨⟨hstep, hsides⟩, hrest⟩ := isChain_cons_cons.mp chain
      rcases mem_cons.mp hmem with rfl | hmem
      · obtain ⟨k, hk⟩ := hstep
        exact ⟨k, hk, hsides⟩
      · exact ih hmem hrest

variable (g origin) in
structure ArcOf (t : TracedArc) : Prop where
  path : ArcPath g origin t.arc.right t.arc.left t.path
  start : t.path.head? = some t.arc.topologyStart
  stop : t.path.getLast? = some t.arc.topologyEnd

theorem ArcPath.ends (path : ArcPath g origin r l points) :
    ∃ first second beforeLast last, points.head? = some first ∧ points.tail.head? = some second ∧
      points.dropLast.getLast? = some beforeLast ∧ points.getLast? = some last := by
  have long := path.long
  obtain ⟨last, hlast⟩ := path.getLast
  match points with
  | [] => cases long
  | [_] => exact absurd long (Nat.not_succ_le_self 1)
  | first :: second :: rest =>
    have hne : (first :: second :: rest).dropLast ≠ [] := by simp
    exact ⟨first, second, _, last, rfl, rfl, getLast?_eq_some_getLast hne, hlast⟩

variable (h : Describes g crossing origin scale grid)
include h

variable (reaches : PenaltyTest)

theorem arcPoints_spec
    {interpolated : Bool} (hinterp : interpolated = true ↔ ∃ pos, crossing = some pos)
    (path : ArcPath g origin r l points) (first last : Point) :
    ∃ rendered, arcPoints grid reaches interpolated points first last r l = .ok rendered := by
  cases interpolated with
  | false => exact ⟨_, rfl⟩
  | true =>
    obtain ⟨pos, hpos⟩ := hinterp.mp rfl
    have hall : ∀ segment ∈ segments points, ∃ c, crossingAlong grid segment = .ok c ∧ True := by
      intro segment hsegment
      obtain ⟨k, hk, hsides⟩ := path.segment hsegment
      obtain ⟨p, q⟩ := segment
      dsimp only at hk hsides
      subst hk
      exact ⟨_, crossingAlong_step h hpos hsides path.sides, trivial⟩
    obtain ⟨crossings, hrun, _⟩ := mapM_ok hall
    rw [arcPoints, if_pos rfl, hrun]
    exact ⟨_, rfl⟩

theorem finishArc_spec
    {interpolated : Bool} (hinterp : interpolated = true ↔ ∃ pos, crossing = some pos)
    (path : ArcPath g origin r l points) :
    ∃ arc, finishArc grid reaches interpolated points = .ok arc ∧ ArcOf g origin ⟨points, arc⟩ := by
  obtain ⟨first, second, beforeLast, last, hfirst, hsnd, hbef, hlast⟩ := path.ends
  have hseg : (first, second) ∈ segments points := by
    match points with
    | [] => cases hfirst
    | [_] => cases hsnd
    | a :: b :: points =>
      cases hfirst
      cases hsnd
      exact mem_cons_self
  have hsides : ∀ segment ∈ segments points, ∃ s, sidesAlong grid segment = .ok s ∧ s = (r, l) := by
    intro segment hseg
    obtain ⟨k, hk, hsides⟩ := path.segment hseg
    obtain ⟨p, q⟩ := segment
    dsimp only at hk hsides
    subst hk
    exact ⟨_, sidesAlong_step h hsides path.sides, rfl⟩
  obtain ⟨sides, hrun, hall, _⟩ := mapM_ok hsides
  obtain ⟨s, hs, rfl⟩ := hsides _ hseg
  have hany : sides.any (fun side => side.1 ≠ r) = false := by
    rw [any_eq_false]
    intro side hside
    rw [hall side hside]
    simp
  obtain ⟨rendered, hpointsrun⟩ := arcPoints_spec h reaches hinterp path first last
  refine ⟨⟨rendered, first, last, !interpolated || first ≠ last, r, l, direction first second,
    direction beforeLast last⟩, ?_, path, hfirst, hlast⟩
  simp only [finishArc, hfirst, hsnd, hbef, hlast]
  rw [hs, ok_bind]
  rw [hrun, ok_bind, if_neg (by rw [hany]; decide), hpointsrun]
  rfl

omit h

/-! ## All edges -/

variable (g origin) in
def Differs (edge : Point × EdgeKind) : Prop :=
  (edgeSides g origin edge.1 edge.2).1 ≠ (edgeSides g origin edge.1 edge.2).2

variable (grid) in
def boundaryEdges : List (Point × EdgeKind) := unused grid (grid.info.map Option.isSome)

theorem initial_flag (id : ℕ) :
    (grid.info.map Option.isSome).getD id false = true ↔ ∃ info, grid.infoAt id = some info := by
  rw [EdgeGrid.infoAt, getD_eq_getElem?_getD, getD_eq_getElem?_getD, getElem?_map]
  cases grid.info[id]? with
  | none => simp
  | some info => cases info <;> simp

theorem infoAt_lt {id : ℕ} {info : EdgeInfo} (h : grid.infoAt id = some info) : id < grid.info.length := by
  by_contra hlt
  simp [EdgeGrid.infoAt, getD_eq_getElem?_getD, getElem?_eq_none (Nat.not_lt.mp hlt)] at h

theorem mem_boundaryEdges (h : Describes g crossing origin scale grid) {edge : Point × EdgeKind} :
    edge ∈ boundaryEdges grid ↔ Differs g origin edge := by
  rw [boundaryEdges, unused, mem_map]
  constructor
  · rintro ⟨id, hid, rfl⟩
    obtain ⟨info, hinfo⟩ := (initial_flag id).mp (mem_flagged.mp hid)
    rw [h.infoAt (grid.edgeId_endpoints (infoAt_lt hinfo))] at hinfo
    obtain ⟨hsides, hne, _, _⟩ := edgeInfo_some hinfo
    rw [Differs, edgeOf, hsides]
    exact hne
  · intro hdiff
    obtain ⟨id, hid⟩ := grid.edgeId_of_contains edge.2 (h.contains_of_sides hdiff)
    exact ⟨id, mem_flagged.mpr ((initial_flag id).mpr ⟨_, (h.infoAt hid).trans (if_pos hdiff)⟩), edgeOf_of_edgeId hid⟩

theorem boundaryEdges_nodup : (boundaryEdges grid).Nodup := by
  refine List.Nodup.map_on ?_ (flagged_nodup _)
  intro i hi j hj hij
  obtain ⟨_, hinfoi⟩ := (initial_flag i).mp (mem_flagged.mp hi)
  obtain ⟨_, hinfoj⟩ := (initial_flag j).mp (mem_flagged.mp hj)
  have hidi := grid.edgeId_endpoints (infoAt_lt hinfoi)
  have hidj := grid.edgeId_endpoints (infoAt_lt hinfoj)
  obtain ⟨hvertex, hkind⟩ := Prod.mk.inj hij
  rw [hvertex, hkind, hidj] at hidi
  exact (Option.some.inj hidi).symm

include h

theorem graphHasCrossings_iff {id : ℕ} {info : EdgeInfo}
    (hinfo : grid.infoAt id = some info) : graphHasCrossings grid = true ↔ ∃ pos, crossing = some pos := by
  have hcross {id : ℕ} {info : EdgeInfo} (hinfo : grid.infoAt id = some info) :
      info.crossing.isSome = crossing.isSome := by
    rw [h.infoAt (grid.edgeId_endpoints (infoAt_lt hinfo))] at hinfo
    rw [(edgeInfo_some hinfo).2.2.2, Option.isSome_map]
  rw [← Option.isSome_iff_exists, graphHasCrossings, any_eq_true]
  constructor
  · rintro ⟨found, hmem, hfound⟩
    obtain ⟨i, hi, hget⟩ := getElem_of_mem hmem
    cases found with
    | none => cases hfound
    | some info' =>
      have hinfo' : grid.infoAt i = some info' := by
        rw [EdgeGrid.infoAt, getD_eq_getElem?_getD, getElem?_eq_getElem hi, hget]
        rfl
      rw [← hcross hinfo']
      exact hfound
  · intro hsome
    refine ⟨some info, ?_, ?_⟩
    · have hlt := infoAt_lt hinfo
      rw [EdgeGrid.infoAt, getD_eq_getElem?_getD, getElem?_eq_getElem hlt] at hinfo
      rw [← show grid.info[id] = some info from hinfo]
      exact getElem_mem hlt
    · rw [Option.any_some, hcross hinfo]
      exact hsome

/-! ## The scan -/

variable (g origin grid) in
structure Scanning (s : BuildState) (seeds : List ℕ) : Prop where
  edges : (s.arcs.flatMap (fun t => pathEdges t.path) ++ unused grid s.remaining).Perm (boundaryEdges grid)
  arcs : ∀ t ∈ s.arcs, ArcOf g origin t
  remaining : ∀ id, s.remaining.getD id false = true → id ∈ seeds
  length : s.remaining.length = grid.info.length

theorem seedStep_spec (tileSize : ℤ)
    {s : BuildState} {seed : ℕ} {seeds : List ℕ} (hs : Scanning g origin grid s (seed :: seeds)) :
    ∃ s', seedStep grid reaches tileSize (graphHasCrossings grid) s seed = .ok s' ∧
      Scanning g origin grid s' seeds := by
  unfold seedStep
  cases hseed : s.remaining.getD seed false with
  | false =>
    refine ⟨s, if_pos rfl, hs.edges, hs.arcs, ?_, hs.length⟩
    intro id hid
    rcases mem_cons.mp (hs.remaining id hid) with rfl | hmem
    · rw [hseed] at hid
      cases hid
    · exact hmem
  | true =>
    have hnodup := hs.edges.nodup_iff.mpr boundaryEdges_nodup
    have hmem : edgeOf grid seed ∈ unused grid s.remaining := mem_map_of_mem (mem_flagged.mpr hseed)
    have hlt : seed < grid.info.length := by
      rw [← hs.length]
      exact mem_range.mp (mem_filter.mp (mem_flagged.mpr hseed)).1
    have hdiff := (mem_boundaryEdges h).mp (hs.edges.subset (mem_append_right _ hmem))
    obtain ⟨info, hinfo⟩ : ∃ info, grid.infoAt seed = some info :=
      ⟨_, (h.infoAt (grid.edgeId_endpoints hlt)).trans (if_pos hdiff)⟩
    obtain ⟨path, left', hgrow, harc, hedges, hfewer, hlen⟩ :=
      growArc_spec h tileSize hseed (nodup_append'.mp hnodup).2.1 hlt hinfo
    obtain ⟨arc, hfinish, hof⟩ := finishArc_spec h reaches (graphHasCrossings_iff h hinfo) harc
    refine ⟨⟨left', s.arcs ++ [⟨path, arc⟩]⟩, ?_, ?_, ?_, ?_, hlen.trans hs.length⟩
    · have hexpect : expectInfo grid seed = .ok info := by rw [expectInfo, hinfo]
      rw [if_neg (by decide), hexpect, ok_bind, hgrow, ok_bind]
      dsimp only
      rw [hfinish]
      rfl
    · rw [flatMap_append, flatMap_singleton, append_assoc]
      exact (List.Perm.append_left _ hedges).trans hs.edges
    · intro t ht
      rcases mem_append.mp ht with ht | ht
      · exact hs.arcs t ht
      · rw [mem_singleton.mp ht]
        exact hof
    · intro id hid
      obtain ⟨hold, hne⟩ := hfewer id hid
      exact mem_of_ne_of_mem hne (hs.remaining id hold)

/-- `build_arcs` does not panic and uses up the edges between different labels. -/
theorem traceArcs_spec (tileSize : ℤ) :
    ∃ traced, traceArcs grid reaches tileSize = .ok traced ∧
      (traced.flatMap (fun t => pathEdges t.path)).Perm (boundaryEdges grid) ∧
      ∀ t ∈ traced, ArcOf g origin t := by
  have hbegin : Scanning g origin grid ⟨grid.info.map Option.isSome, []⟩
      (range (grid.info.map Option.isSome).length) :=
    ⟨List.Perm.refl _, fun t ht => (nomatch ht),
      fun id hid => (mem_filter.mp (mem_flagged.mpr hid)).1, length_map _⟩
  obtain ⟨s, hrun, hend⟩ := foldlM_ok (Scanning g origin grid)
    (fun _ _ _ hs => seedStep_spec h reaches tileSize hs) hbegin
  have hnone : unused grid s.remaining = [] := by
    rw [unused, map_eq_nil_iff, eq_nil_iff_forall_not_mem]
    intro id hid
    exact not_mem_nil (hend.remaining id (mem_flagged.mp hid))
  have hedges := hend.edges
  rw [hnone, append_nil] at hedges
  refine ⟨s.arcs, ?_, hedges, hend.arcs⟩
  rw [traceArcs, hrun]
  rfl

omit h

end

end Mappf.Terrain
