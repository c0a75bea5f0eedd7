import Mappf.Terrain.ArcsSpec
import Mappf.Terrain.RingsSpec
import Mathlib.Algebra.BigOperators.Ring.Finset
import Mathlib.Algebra.Order.BigOperators.Group.List
import Mathlib.Tactic.Ring

/-! # The shared boundary is a partition

Around every vertex the edges that have a label on their right enter as often as they leave. The arcs
partition the edges, so the directed arcs of a label are balanced, and all walks close. -/
namespace Mappf.Terrain
open List

/-! ## Balance around a vertex -/

section
variable (g : LabelGrid) (origin : ℤ) (label : Label) (p : Point) {edge : Point × EdgeKind}

/-- How a step contributes to the flow of a label at a vertex, counted with the label on the right. -/
def stepSpin (a b : Point) : ℤ :=
  (mark (stepSides g origin a b).1 label - mark (stepSides g origin a b).2 label) * (mark a p - mark b p)

def spin (edge : Point × EdgeKind) : ℤ := stepSpin g origin label p edge.1 (edge.2.far edge.1)

theorem spin_edge (q : Point) (k : Heading) :
    spin g origin label p (k.edge q) = stepSpin g origin label p q (k.step q) := by
  have hback : stepSpin g origin label p (k.step q) q = stepSpin g origin label p q (k.step q) := by
    rw [stepSpin, stepSpin, stepSides_back]
    simp only [Prod.fst_swap, Prod.snd_swap]
    ring
  cases k with
  | right | down => rfl
  | left | up =>
    rw [← hback, spin, Heading.edge, EdgeKind.far, Heading.step]
    simp

theorem spin_at (k : Heading) :
    spin g origin label p (k.edge p) = mark (corner g origin p k.turn) label - mark (corner g origin p k) label := by
  rw [spin_edge, stepSpin, stepSides_step, mark_self, mark_of_ne (Heading.step_ne p k)]
  ring

theorem spin_elsewhere (h : ∀ k : Heading, edge ≠ k.edge p) : spin g origin label p edge = 0 := by
  obtain ⟨v, kind⟩ := edge
  have hstart : v ≠ p := by
    intro heq
    cases kind with
    | vertical => exact h .down (by rw [heq]; rfl)
    | horizontal => exact h .right (by rw [heq]; rfl)
  have hend : kind.far v ≠ p := by
    intro heq
    cases kind with
    | vertical => exact h .up (by rw [← heq]; simp [Heading.edge, EdgeKind.far])
    | horizontal => exact h .left (by rw [← heq]; simp [Heading.edge, EdgeKind.far])
  rw [spin, stepSpin, mark_of_ne hstart, mark_of_ne hend]
  ring

theorem spin_same_sides (h : ¬Differs g origin edge) : spin g origin label p edge = 0 := by
  rw [spin, stepSpin, stepSides_far, not_not.mp h]
  ring

def headings : List Heading := [.right, .down, .left, .up]

theorem spin_headings : ((headings.map (fun k => k.edge p)).map (spin g origin label p)).sum = 0 := by
  simp only [headings, map_cons, map_nil, sum_cons, sum_nil, spin_at, Heading.turn]
  ring

end

theorem spin_boundary {g : LabelGrid} {crossing : Option Crossing} {origin scale : ℤ} {grid : EdgeGrid}
    (h : Describes g crossing origin scale grid) (label : Label) (p : Point) :
    ((boundaryEdges grid).map (spin g origin label p)).sum = 0 := by
  have hnodup : (headings.map (fun k => k.edge p)).Nodup :=
    List.Nodup.map (fun _ _ hjk => Heading.edge_injective hjk) (by decide)
  rw [← spin_headings g origin label p, ← sum_toFinset _ boundaryEdges_nodup, ← sum_toFinset _ hnodup]
  apply Finset.sum_congr_of_eq_on_inter
  · intro edge _ hout
    apply spin_elsewhere
    intro k heq
    apply hout
    rw [mem_toFinset, heq]
    exact mem_map_of_mem (by cases k <;> decide)
  · intro edge _ hout
    apply spin_same_sides
    intro hdiff
    exact hout (mem_toFinset.mpr ((mem_boundaryEdges h).mpr hdiff))
  · intro edge _ _
    rfl

/-! ## Balance of the directed arcs -/

theorem segments_trail {points : List Point} {first last : Point} (hfirst : points.head? = some first)
    (hlast : points.getLast? = some last) : Trail Prod.fst Prod.snd first last (segments points) := by
  induction points generalizing first with
  | nil => cases hfirst
  | cons a points ih =>
    cases hfirst
    cases points with
    | nil => exact Option.some.inj hlast
    | cons b points =>
      exact ⟨rfl, ih rfl hlast⟩

def arcFlow (label : Label) (p : Point) (arc : SharedArc) : ℤ :=
  (mark arc.right label - mark arc.left label) * (mark arc.topologyStart p - mark arc.topologyEnd p)

section
variable {g : LabelGrid} {crossing : Option Crossing} {origin scale : ℤ} {grid : EdgeGrid}

/-- The edges along an arc contribute what its two ends do. -/
theorem spin_path {t : TracedArc} (h : ArcOf g origin t) (label : Label) (p : Point) :
    ((pathEdges t.path).map (spin g origin label p)).sum = arcFlow label p t.arc := by
  have hseg : ∀ segment ∈ segments t.path, spin g origin label p (unitEdge segment.1 segment.2) =
      (mark t.arc.right label - mark t.arc.left label) * (mark segment.1 p - mark segment.2 p) := by
    intro segment hseg
    obtain ⟨k, hk, hsides⟩ := h.path.segment hseg
    rw [hk] at hsides
    rw [hk, unitEdge_step, spin_edge, stepSpin, hsides]
  rw [pathEdges, map_map, arcFlow, ← flow_trail (segments_trail h.start h.stop) p, flow, ← sum_map_mul_left]
  exact congrArg sum (map_congr_left hseg)

theorem arcFlow_sum {traced : List TracedArc} (h : Describes g crossing origin scale grid)
    (hedges : (traced.flatMap (fun t => pathEdges t.path)).Perm (boundaryEdges grid))
    (harcs : ∀ t ∈ traced, ArcOf g origin t) (label : Label) (p : Point) :
    ((traced.map TracedArc.arc).map (arcFlow label p)).sum = 0 := by
  rw [← spin_boundary h label p, ← (hedges.map (spin g origin label p)).sum_eq, map_flatMap, flatMap_def,
    sum_flatten, map_map, map_map]
  apply congrArg sum
  apply map_congr_left
  intro t ht
  exact (spin_path (harcs t ht) label p).symm

end

theorem directions_flow (arc : SharedArc) (label : Label) (p : Point) : ((directions arc label).map (fun reversed =>
      mark (if reversed then arc.topologyEnd else arc.topologyStart) p -
        mark (if reversed then arc.topologyStart else arc.topologyEnd) p)).sum = arcFlow label p arc := by
  unfold directions arcFlow
  split_ifs with hright hleft hleft
  · simp [hright, hleft]
  · simp [hright, mark_of_ne hleft]
  · simp [hleft, mark_of_ne hright]
  · simp [mark_of_ne hright, mark_of_ne hleft]

theorem flow_directedArcs (arcs : List SharedArc) (label : Label) (p : Point) :
    flow directedStart directedEnd (directedArcs arcs label) p = (arcs.map (arcFlow label p)).sum := by
  have hget : arcs.map (arcFlow label p) = (finRange arcs.length).map (arcFlow label p ∘ arcs.get) := by
    rw [← map_map, map_get_finRange]
  rw [hget, flow, directedArcs, map_flatMap, flatMap_def, sum_flatten, map_map]
  apply congrArg sum
  apply map_congr_left
  intro id _
  rw [Function.comp_apply, Function.comp_apply, ← directions_flow, map_map]
  rfl

variable {arcs : List SharedArc} {d : Directed arcs} {label : Label}

theorem directedArcs_length (h : ∀ arc ∈ arcs, arc.right ≠ arc.left) (label : Label) :
    (directedArcs arcs label).length ≤ arcs.length := by
  have hone : ∀ id ∈ finRange arcs.length,
      ((directions (arcs.get id) label).map (fun reversed => (⟨id, reversed⟩ : Directed arcs))).length ≤ 1 := by
    intro id _
    have hne := h _ (get_mem arcs id)
    rw [length_map, directions]
    split_ifs with hright hleft
    · exact absurd (hright.trans hleft.symm) hne
    all_goals decide
  rw [directedArcs, length_flatMap]
  have hsum := sum_le_card_nsmul ((finRange arcs.length).map (fun id =>
    ((directions (arcs.get id) label).map (fun reversed => (⟨id, reversed⟩ : Directed arcs))).length)) 1 (by
      intro n hn
      obtain ⟨id, hid, rfl⟩ := mem_map.mp hn
      exact hone id hid)
  simpa using hsum

/-! ## Faces -/

theorem mem_directedArcs : d ∈ directedArcs arcs label ↔
      (if d.reversed then (arcs.get d.id).left else (arcs.get d.id).right) = label := by
  obtain ⟨id, reversed⟩ := d
  simp only [directedArcs, mem_flatMap, mem_map, DirectedArc.mk.injEq, directions, mem_append]
  constructor
  · rintro ⟨id', _, reversed', hmem, rfl, rfl⟩
    cases reversed' with
    | false | true => simpa using hmem
  · intro h
    refine ⟨id, mem_finRange id, reversed, ?_, rfl, rfl⟩
    cases reversed with
    | false | true => simpa using h

/-- The two faces of an arc run along it in opposite directions. -/
theorem directedPoints_reverse {label' : Label} {e : Directed arcs} (hd : d ∈ directedArcs arcs label)
    (he : e ∈ directedArcs arcs label') (hid : d.id = e.id) (hne : label ≠ label') :
    directedPoints e = (directedPoints d).reverse := by
  rw [mem_directedArcs] at hd he
  obtain ⟨id, reversed⟩ := d
  obtain ⟨id', reversed'⟩ := e
  cases hid
  cases reversed with
  | false =>
    cases reversed' with
    | false => exact absurd (hd.symm.trans he) hne
    | true => rfl
  | true =>
    cases reversed' with
    | false =>
      show (arcs.get id).points = (arcs.get id).points.reverse.reverse
      rw [reverse_reverse]
    | true => exact absurd (hd.symm.trans he) hne

theorem mem_labels (hlabel : label ≠ 0) (hd : d ∈ directedArcs arcs label) : label ∈ labels arcs := by
  rw [mem_directedArcs] at hd
  rw [labels, mem_insertionSort, mem_dedup, mem_filter, mem_flatMap]
  refine ⟨⟨arcs.get d.id, get_mem arcs d.id, ?_⟩, by simpa using hlabel⟩
  rw [← hd]
  cases d.reversed <;> simp

/-- The arcs use every edge between different labels once and keep the labels of their two sides; with
slots keyed by points, the walks of every label close and use its directed arcs once; the two faces of an
arc run along the same points in opposite order. -/
theorem shared_boundary_partition (g : LabelGrid) (crossing : Option Crossing) (reaches : PenaltyTest)
    (origin tileSize outputScale : ℤ) :
    ∃ grid traced, boundaryGraph g crossing origin outputScale = .ok grid ∧
      traceArcs grid reaches tileSize = .ok traced ∧
      (∀ edge, (Differs g origin edge → (traced.flatMap (fun t => pathEdges t.path)).count edge = 1) ∧
        (¬Differs g origin edge → (traced.flatMap (fun t => pathEdges t.path)).count edge = 0)) ∧
      (∀ t ∈ traced, ∀ segment ∈ segments t.path,
        stepSides g origin segment.1 segment.2 = (t.arc.right, t.arc.left)) ∧
      (∃ out, assembleLabels (traced.map TracedArc.arc) = .ok out ∧
        (∀ label ≠ 0, directedArcs (traced.map TracedArc.arc) label ≠ [] → label ∈ out.map Prod.fst) ∧
        ∀ entry ∈ out, entry.2.taken.Perm (directedArcs (traced.map TracedArc.arc) entry.1) ∧ entry.2.Closed ∧
          entry.2.rings = (entry.2.walks.map (fun walk => closeRing walk.2.ring)).filter
            (fun ring => 4 ≤ ring.length)) ∧
      ∀ label label' (d e : Directed (traced.map TracedArc.arc)), d ∈ directedArcs _ label →
        e ∈ directedArcs _ label' → d.id = e.id → label ≠ label' →
        directedPoints e = (directedPoints d).reverse := by
  obtain ⟨grid, hgrid, hdescribes⟩ := boundaryGraph_spec g crossing origin outputScale
  obtain ⟨traced, htraced, hedges, harcs⟩ := traceArcs_spec hdescribes reaches tileSize
  refine ⟨grid, traced, hgrid, htraced, ?_, ?_, ?_, fun _ _ _ _ => directedPoints_reverse⟩
  · intro edge
    rw [hedges.count_eq]
    refine ⟨?_, ?_⟩
    · intro hdiffers
      exact count_eq_one_of_mem boundaryEdges_nodup ((mem_boundaryEdges hdescribes).mpr hdiffers)
    · intro hsame
      exact count_eq_zero_of_not_mem (fun hmem => hsame ((mem_boundaryEdges hdescribes).mp hmem))
  · intro t ht segment hsegment
    obtain ⟨_, _, hsides⟩ := (harcs t ht).path.segment hsegment
    exact hsides
  · obtain ⟨out, hrun, hlabels, hassembled⟩ := assembleLabels_spec (traced.map TracedArc.arc)
    have hdistinct : ∀ arc ∈ traced.map TracedArc.arc, arc.right ≠ arc.left := by
      intro arc harc
      obtain ⟨t, ht, rfl⟩ := mem_map.mp harc
      exact (harcs t ht).path.sides
    refine ⟨out, hrun, ?_, ?_⟩
    · intro label hlabel hne
      obtain ⟨d, hd⟩ := exists_mem_of_ne_nil _ hne
      rw [hlabels]
      exact mem_labels hlabel hd
    · intro entry hentry
      have hentry' := hassembled entry hentry
      have hclosed : entry.2.Closed := by
        refine hentry'.closed ?_ (directedArcs_length hdistinct entry.1)
        intro p
        rw [flow_directedArcs]
        exact arcFlow_sum hdescribes hedges harcs entry.1 p
      have hall : entry.2.walks.filter (fun walk => walk.2.current = walk.1) = entry.2.walks := by
        rw [filter_eq_self]
        intro walk hwalk
        exact decide_eq_true (hclosed walk hwalk).1
      have hkept := hentry'.kept
      rw [LabelRings.Kept, hall] at hkept
      exact ⟨hentry'.taken, hclosed, hkept⟩

end Mappf.Terrain
