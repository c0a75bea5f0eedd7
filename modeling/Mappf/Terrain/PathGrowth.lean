import Mappf.Lib.Flags
import Mappf.Terrain.Arcs
import Mappf.Terrain.Vertex

/-! # What an arc's path runs along

A path grows by edges that were still unused, and keeps the same labels on its two sides. -/
namespace Mappf.Terrain
open Heading List

section
variable {g : LabelGrid} {crossing : Option Crossing} {origin scale : ℤ} {grid : EdgeGrid}

/-! ## Edges at a vertex -/

variable {v : Point} {kind : EdgeKind} {id : ℕ} {p : Point} {k : Heading} {r l : Label} {left : List Bool}
  {points : List Point} {fuel : ℕ} {pair : Label × Label} {tileSize : ℤ} {info : EdgeInfo}

section

variable (h : Describes g crossing origin scale grid)
include h

theorem Describes.infoAt (hid : grid.edgeId v kind = some id) : grid.infoAt id = edgeInfo g crossing origin v kind :=
  (h.info_eq v kind id hid).trans (if_neg not_mem_nil)

theorem Describes.contains_of_sides
    (hne : (edgeSides g origin v kind).1 ≠ (edgeSides g origin v kind).2) : grid.Contains v := by
  have hw := h.width_eq
  have hh := h.height_eq
  by_contra hout
  apply hne
  rw [EdgeGrid.Contains, h.origin_eq, hw, hh] at hout
  push_cast at hout
  cases kind with
  | vertical | horizontal =>
    rw [edgeSides, LabelGrid.sides, g.labelAt_outside (by omega), g.labelAt_outside (by omega)]

theorem Describes.hasPair (hid : grid.edgeId v kind = some id) (pair : Label × Label) : grid.hasPair pair id = true ↔
      (edgeSides g origin v kind).1 ≠ (edgeSides g origin v kind).2 ∧
        labelPair (edgeSides g origin v kind).1 (edgeSides g origin v kind).2 = pair := by
  rw [EdgeGrid.hasPair, h.infoAt hid, edgeInfo]
  by_cases hne : (edgeSides g origin v kind).1 ≠ (edgeSides g origin v kind).2 <;> simp [hne]

end

theorem mem_pairEdges : id ∈ grid.pairEdges p pair ↔
      (∃ k : Heading, grid.edgeId (k.edge p).1 (k.edge p).2 = some id) ∧ grid.hasPair pair id = true := by
  rw [EdgeGrid.pairEdges, mem_filter, mem_filterMap]
  refine and_congr_left (fun _ => ?_)
  constructor
  · rintro ⟨found, hmem, rfl⟩
    simp only [EdgeGrid.incidentIds, mem_cons, not_mem_nil, or_false] at hmem
    rcases hmem with hmem | hmem | hmem | hmem
    · exact ⟨.up, hmem.symm⟩
    · exact ⟨.down, hmem.symm⟩
    · exact ⟨.left, hmem.symm⟩
    · exact ⟨.right, hmem.symm⟩
  · rintro ⟨k, hk⟩
    refine ⟨some id, ?_, rfl⟩
    rw [← hk]
    cases k <;> simp [EdgeGrid.incidentIds, edge]

theorem otherEnd_heading (hid : grid.edgeId (k.edge p).1 (k.edge p).2 = some id) : otherEnd grid id p = k.step p := by
  obtain ⟨hends, _, _⟩ := grid.edgeId_spec hid
  rw [otherEnd, hends]
  cases k with
  | right | down => exact if_pos rfl
  | left => exact if_neg (step_ne p .left)
  | up => exact if_neg (step_ne p .up)

section

variable (h : Describes g crossing origin scale grid)
include h

theorem Describes.hasPair_step (hid : grid.edgeId (k.edge p).1 (k.edge p).2 = some id) (pair : Label × Label) :
    grid.hasPair pair id = true ↔
      (stepSides g origin p (k.step p)).1 ≠ (stepSides g origin p (k.step p)).2 ∧
        labelPair (stepSides g origin p (k.step p)).1 (stepSides g origin p (k.step p)).2 = pair := by
  rw [h.hasPair hid, edgeSides_edge]
  cases k.forward with
  | true => rfl
  | false =>
    simp only [Bool.false_eq_true, if_false, Prod.fst_swap, Prod.snd_swap]
    rw [labelPair_comm, ne_comm]

theorem Describes.edgeId_step (hne : (stepSides g origin p (k.step p)).1 ≠ (stepSides g origin p (k.step p)).2) :
    ∃ id, grid.edgeId (k.edge p).1 (k.edge p).2 = some id := by
  apply grid.edgeId_of_contains
  apply h.contains_of_sides
  exact edgeSides_ne g origin hne

/-! ## Through a vertex -/

/-- Where exactly two edges of a pair meet, the boundary goes on with the same sides. -/
theorem Describes.through {j : Heading} (hrl : r ≠ l)
    (htwo : (grid.pairEdges p (labelPair r l)).length = 2) (hjk : j ≠ k)
    (hj : stepSides g origin (j.step p) p = (r, l)) (hk : grid.edgeId (k.edge p).1 (k.edge p).2 = some id)
    (hid : grid.hasPair (labelPair r l) id = true) : stepSides g origin p (k.step p) = (r, l) := by
  have hjout : stepSides g origin p (j.step p) = (l, r) := by
    rw [← Prod.swap_swap (stepSides g origin p (j.step p)), ← stepSides_back, hj]
    rfl
  obtain ⟨hne, hpair⟩ := (h.hasPair_step hk _).mp hid
  rcases labelPair_eq hpair with ⟨h1, h2⟩ | ⟨h1, h2⟩
  · exact Prod.ext h1 h2
  exfalso
  -- both edges have `r` on the left when they leave, so the edge between them is of the pair too
  rw [stepSides_step] at hjout h1 h2
  have hj1 := congrArg Prod.fst hjout
  have hj2 := congrArg Prod.snd hjout
  dsimp only at hj1 hj2 h1 h2
  have hopp := opposite_of_same_sides hjk hrl hj2 hj1 h2 h1
  have hmid : stepSides g origin p (j.turn.step p) = (r, l) := by
    rw [stepSides_step, ← hopp, h2, hj1]
  obtain ⟨idm, hidm⟩ := h.edgeId_step (p := p) (k := j.turn) (by rw [hmid]; exact hrl)
  obtain ⟨idj, hidj⟩ := h.edgeId_step (p := p) (k := j) (by rw [stepSides_step, hj1, hj2]; exact hrl.symm)
  have hm : idm ∈ grid.pairEdges p (labelPair r l) :=
    mem_pairEdges.mpr ⟨⟨_, hidm⟩, (h.hasPair_step hidm _).mpr (by rw [hmid]; exact ⟨hrl, rfl⟩)⟩
  have hjm : idj ∈ grid.pairEdges p (labelPair r l) :=
    mem_pairEdges.mpr ⟨⟨_, hidj⟩, (h.hasPair_step hidj _).mpr
      (by rw [stepSides_step, hj1, hj2]; exact ⟨hrl.symm, labelPair_comm l r⟩)⟩
  have hkm : id ∈ grid.pairEdges p (labelPair r l) := mem_pairEdges.mpr ⟨⟨_, hk⟩, hid⟩
  have hdist {a b : Heading} {ida idb : ℕ} (hab : a ≠ b) (ha : grid.edgeId (a.edge p).1 (a.edge p).2 = some ida)
      (hb : grid.edgeId (b.edge p).1 (b.edge p).2 = some idb) : ida ≠ idb := by
    intro heq
    rw [← heq] at hb
    obtain ⟨h1, h2⟩ := grid.edgeId_injective ha hb
    exact hab (edge_injective (Prod.ext h1 h2))
  have hjm' : idj ≠ idm := hdist (by cases j <;> decide) hidj hidm
  have hkm' : id ≠ idm := hdist (by rw [hopp]; cases j <;> decide) hk hidm
  have hjk' : idj ≠ id := hdist hjk hidj hk
  obtain ⟨a, b, hab⟩ := length_eq_two.mp htwo
  rw [hab] at hm hjm hkm
  simp only [mem_cons, not_mem_nil, or_false] at hm hjm hkm
  omega

end

/-! ## Paths -/

def pathEdges (points : List Point) : List (Point × EdgeKind) :=
  (segments points).map (fun segment => unitEdge segment.1 segment.2)

variable (g origin) in
structure ArcPath (r l : Label) (points : List Point) : Prop where
  chain : points.IsChain (fun p q => (∃ k : Heading, q = k.step p) ∧ stepSides g origin p q = (r, l))
  long : 2 ≤ points.length
  sides : r ≠ l

variable (grid) in
def edgeOf (id : ℕ) : Point × EdgeKind := ((grid.endpoints id).1, EdgeKind.ofId id)

variable (grid) in
def unused (remaining : List Bool) : List (Point × EdgeKind) := (flagged remaining).map (edgeOf grid)

theorem edgeOf_of_edgeId {edge : Point × EdgeKind} (hid : grid.edgeId edge.1 edge.2 = some id) :
    edgeOf grid id = edge := by
  obtain ⟨hends, hkind, _⟩ := grid.edgeId_spec hid
  rw [edgeOf, hends, hkind]

variable (grid) in
theorem unused_set (h : left.getD id false = true) :
    (unused grid left).Perm (edgeOf grid id :: unused grid (left.set id false)) :=
  (flagged_set h).map (edgeOf grid)

theorem segments_append (hlast : points.getLast? = some p) (q : Point) :
    segments (points ++ [q]) = segments points ++ [(p, q)] := by
  induction points with
  | nil => cases hlast
  | cons a points ih =>
    cases points with
    | nil =>
      cases hlast
      rfl
    | cons b points =>
      exact congrArg (cons (a, b)) (ih hlast)

section

variable (path : ArcPath g origin r l points)
include path

theorem ArcPath.append (hlast : points.getLast? = some p)
    (hk : stepSides g origin p (k.step p) = (r, l)) : ArcPath g origin r l (points ++ [k.step p]) where
  chain := by
    refine isChain_append.mpr ⟨path.chain, isChain_singleton _, ?_⟩
    intro x hx y hy
    rw [hlast] at hx
    cases hx
    cases hy
    exact ⟨⟨k, rfl⟩, hk⟩
  long := by
    have := path.long
    rw [length_append]
    omega
  sides := path.sides

theorem ArcPath.prepend (hhead : points.head? = some p)
    (hk : stepSides g origin p (k.step p) = (l, r)) : ArcPath g origin r l (k.step p :: points) where
  chain := by
    refine isChain_cons.mpr ⟨?_, path.chain⟩
    intro q hq
    rw [hhead] at hq
    cases hq
    refine ⟨⟨k.opposite, (step_opposite p k).symm⟩, ?_⟩
    rw [stepSides_back, hk]
    rfl
  long := by
    have := path.long
    rw [length_cons]
    omega
  sides := path.sides

theorem ArcPath.last (hlast : points.getLast? = some p) :
    ∃ j : Heading, stepSides g origin (j.step p) p = (r, l) ∧ unitEdge (j.step p) p ∈ pathEdges points := by
  obtain ⟨chain, long, _⟩ := path
  induction points with
  | nil => cases hlast
  | cons a points ih =>
    match points with
    | [] => exact absurd long (Nat.not_succ_le_self 1)
    | [b] =>
      have hb : b = p := Option.some.inj hlast
      obtain ⟨⟨k, hk⟩, hsides⟩ := (isChain_cons_cons.mp chain).1
      subst hb
      subst hk
      refine ⟨k.opposite, ?_, ?_⟩
      · rw [step_opposite, hsides]
      · rw [step_opposite]
        exact mem_singleton.mpr rfl
    | b :: c :: points =>
      obtain ⟨j, hsides, hmem⟩ := ih hlast (isChain_cons_cons.mp chain).2 (by simp only [length_cons]; omega)
      exact ⟨j, hsides, mem_cons_of_mem _ hmem⟩

theorem ArcPath.first (hhead : points.head? = some p) :
    ∃ j : Heading, stepSides g origin (j.step p) p = (l, r) ∧ unitEdge (j.step p) p ∈ pathEdges points := by
  obtain ⟨chain, long, _⟩ := path
  match points with
  | [] => cases hhead
  | [a] => exact absurd long (Nat.not_succ_le_self 1)
  | a :: b :: points =>
    cases hhead
    obtain ⟨⟨k, rfl⟩, hsides⟩ := (isChain_cons_cons.mp chain).1
    refine ⟨k, ?_, ?_⟩
    · rw [stepSides_back, hsides]
      rfl
    · rw [unitEdge_step', ← unitEdge_step]
      exact mem_cons_self

end

/-! ## Growing -/

theorem soleCandidate_spec (h : soleCandidate grid pair left p = some id) :
    id ∈ grid.pairEdges p pair ∧ left.getD id false = true := by
  have hmem : id ∈ (grid.pairEdges p pair).filter (fun edge => left.getD edge false) := by
    unfold soleCandidate at h
    split at h
    · next edge hedge =>
      cases h
      rw [hedge]
      exact mem_singleton.mpr rfl
    · cases h
  exact mem_filter.mp hmem

theorem Describes.next (h : Describes g crossing origin scale grid) {j : Heading} (hrl : r ≠ l)
    (hj : stepSides g origin (j.step p) p = (r, l)) (hused : unitEdge (j.step p) p ∉ unused grid left)
    (hend : isArcEndpoint grid tileSize (labelPair r l) p = false)
    (hsole : soleCandidate grid (labelPair r l) left p = some id) :
    ∃ k : Heading, otherEnd grid id p = k.step p ∧ stepSides g origin p (k.step p) = (r, l) ∧
      left.getD id false = true ∧ edgeOf grid id = k.edge p := by
  obtain ⟨hmem, hrem⟩ := soleCandidate_spec hsole
  obtain ⟨⟨k, hk⟩, hpair⟩ := mem_pairEdges.mp hmem
  have hedge := edgeOf_of_edgeId hk
  have htwo : (grid.pairEdges p (labelPair r l)).length = 2 := by
    rw [isArcEndpoint, Bool.or_eq_false_iff] at hend
    simpa using hend.2
  have hjk : j ≠ k := by
    intro heq
    apply hused
    rw [unitEdge_step', heq, ← hedge]
    exact mem_map_of_mem (mem_flagged.mpr hrem)
  exact ⟨k, otherEnd_heading hk, h.through hrl htwo hjk hj hk hpair, hrem, hedge⟩

variable (g origin grid) in
structure Grown (r l : Label) (points : List Point) (remaining : List Bool) (points' : List Point)
    (remaining' : List Bool) : Prop where
  path : ArcPath g origin r l points'
  edges : (pathEdges points' ++ unused grid remaining').Perm (pathEdges points ++ unused grid remaining)
  fewer : ∀ id, remaining'.getD id false = true → remaining.getD id false = true
  length : remaining'.length = remaining.length

theorem fewer_set {id' : ℕ} (h : (left.set id false).getD id' false = true) :
    left.getD id' false = true ∧ id' ≠ id := by
  rw [getD_set_false, Bool.and_eq_true, decide_eq_true_eq] at h
  exact ⟨h.1, h.2.symm⟩

theorem Grown.trans {points' points'' : List Point} {left' left'' : List Bool}
    (h : Grown g origin grid r l points left points' left')
    (h' : Grown g origin grid r l points' left' points'' left'') :
    Grown g origin grid r l points left points'' left'' :=
  ⟨h'.path, h'.edges.trans h.edges, fun id hid => h.fewer id (h'.fewer id hid), h'.length.trans h.length⟩

variable (path : ArcPath g origin r l points)
include path

theorem ArcPath.grown : Grown g origin grid r l points left points left :=
  ⟨path, List.Perm.refl _, fun _ hid => hid, rfl⟩

theorem Grown.append (hlast : points.getLast? = some p)
    (hk : stepSides g origin p (k.step p) = (r, l)) (hid : left.getD id false = true)
    (hedge : edgeOf grid id = k.edge p) :
    Grown g origin grid r l points left (points ++ [k.step p]) (left.set id false) where
  path := path.append hlast hk
  edges := by
    rw [pathEdges, segments_append hlast, map_append, append_assoc]
    refine List.Perm.append_left _ ?_
    have hset := unused_set grid hid
    rw [hedge, ← unitEdge_step] at hset
    exact hset.symm
  fewer := fun _ hid => (fewer_set hid).1
  length := length_set

theorem Grown.prepend (hhead : points.head? = some p)
    (hk : stepSides g origin p (k.step p) = (l, r)) (hid : left.getD id false = true)
    (hedge : edgeOf grid id = k.edge p) :
    Grown g origin grid r l points left (k.step p :: points) (left.set id false) where
  path := path.prepend hhead hk
  edges := by
    have hset := unused_set grid hid
    rw [hedge, ← unitEdge_step'] at hset
    cases points with
    | nil => cases hhead
    | cons a points =>
      cases hhead
      exact (perm_middle.symm).trans (List.Perm.append_left _ hset.symm)
  fewer := fun _ hid => (fewer_set hid).1
  length := length_set

omit path

theorem flagged_fewer (hid : left.getD id false = true) (hfuel : (flagged left).length < fuel + 1) :
    (flagged (left.set id false)).length < fuel := by
  have hlen := (flagged_set hid).length_eq
  rw [length_cons] at hlen
  omega

include path

theorem ArcPath.getLast : ∃ p, points.getLast? = some p := by
  have hne : points ≠ [] := by
    intro hnil
    have hlong := path.long
    simp [hnil] at hlong
  exact ⟨_, getLast?_eq_some_getLast hne⟩

theorem ArcPath.head : ∃ p, points.head? = some p := by
  obtain ⟨_, long, _⟩ := path
  cases points with
  | nil => cases long
  | cons p points => exact ⟨p, rfl⟩

omit path

theorem extendArc_forward (h : Describes g crossing origin scale grid)
    (path : ArcPath g origin r l points) (hnodup : (pathEdges points ++ unused grid left).Nodup)
    (hfuel : (flagged left).length < fuel) : ∃ points' left' closed,
      extendArc grid tileSize (labelPair r l) false fuel points [] left = .ok (points', left', closed) ∧
        Grown g origin grid r l points left points' left' := by
  induction fuel generalizing points left with
  | zero => cases hfuel
  | succ fuel ih =>
    obtain ⟨p, hlast⟩ := path.getLast
    obtain ⟨j, hj, hmem⟩ := path.last hlast
    have hused : unitEdge (j.step p) p ∉ unused grid left := (nodup_append'.mp hnodup).2.2 hmem
    simp only [extendArc, Bool.false_eq_true, if_false, hlast, reverse_nil, nil_append]
    cases hend : isArcEndpoint grid tileSize (labelPair r l) p with
    | true => exact ⟨points, left, false, rfl, path.grown⟩
    | false =>
      simp only [Bool.false_eq_true, if_false]
      cases hsole : soleCandidate grid (labelPair r l) left p with
      | none => exact ⟨points, left, false, rfl, path.grown⟩
      | some id =>
        obtain ⟨k, hother, hk, hid, hedge⟩ := h.next path.sides hj hused hend hsole
        have one := Grown.append path hlast hk hid hedge
        dsimp only
        rw [hother]
        split_ifs
        · exact ⟨_, _, true, rfl, one⟩
        · obtain ⟨points', left', closed, hrun, hgrown⟩ :=
            ih one.path (one.edges.nodup_iff.mpr hnodup) (flagged_fewer hid hfuel)
          exact ⟨points', left', closed, hrun, one.trans hgrown⟩

theorem extendArc_backward (h : Describes g crossing origin scale grid) (tileSize : ℤ) (front : List Point)
    (path : ArcPath g origin r l (front.reverse ++ points))
    (hnodup : (pathEdges (front.reverse ++ points) ++ unused grid left).Nodup)
    (hfuel : (flagged left).length < fuel) : ∃ points' left',
      extendArc grid tileSize (labelPair r l) true fuel points front left = .ok (points', left', false) ∧
        Grown g origin grid r l (front.reverse ++ points) left points' left' := by
  induction fuel generalizing front left with
  | zero => cases hfuel
  | succ fuel ih =>
    obtain ⟨p, hhead⟩ := path.head
    obtain ⟨j, hj, hmem⟩ := path.first hhead
    have hused : unitEdge (j.step p) p ∉ unused grid left := (nodup_append'.mp hnodup).2.2 hmem
    simp only [extendArc, if_true, hhead]
    cases hend : isArcEndpoint grid tileSize (labelPair r l) p with
    | true => exact ⟨_, left, rfl, path.grown⟩
    | false =>
      cases hsole : soleCandidate grid (labelPair r l) left p with
      | none => exact ⟨_, left, rfl, path.grown⟩
      | some id =>
        rw [labelPair_comm] at hend hsole
        obtain ⟨k, hother, hk, hid, hedge⟩ := h.next path.sides.symm hj hused hend hsole
        have one := Grown.prepend path hhead hk hid hedge
        have hfront : k.step p :: (front.reverse ++ points) = (front ++ [k.step p]).reverse ++ points := by
          rw [reverse_append]
          rfl
        dsimp only
        rw [hother]
        rw [hfront] at one
        obtain ⟨points', left', hrun, hgrown⟩ :=
          ih (front ++ [k.step p]) one.path (one.edges.nodup_iff.mpr hnodup) (flagged_fewer hid hfuel)
        exact ⟨points', left', hrun, one.trans hgrown⟩

theorem edgeInfo_some (hinfo : edgeInfo g crossing origin v kind = some info) :
    edgeSides g origin v kind = (info.right, info.left) ∧ info.right ≠ info.left ∧
      info.labels = labelPair info.right info.left ∧
      info.crossing = crossing.map (fun pos => pos v kind) := by
  unfold edgeInfo at hinfo
  dsimp only at hinfo
  split_ifs at hinfo with hne
  cases hinfo
  exact ⟨rfl, hne, rfl, rfl⟩

def EdgeKind.heading : EdgeKind → Heading
  | .vertical => .down
  | .horizontal => .right

variable (kind) (v : Point)

theorem step_heading : kind.heading.step v = kind.far v := by
  cases kind <;> rfl

theorem edge_heading : kind.heading.edge v = (v, kind) := by
  cases kind <;> rfl

theorem stepSides_far : stepSides g origin v (kind.far v) = edgeSides g origin v kind := by
  rw [← step_heading, stepSides, canonical_step, edge_heading]
  cases kind <;> rfl

theorem unitEdge_far : unitEdge v (kind.far v) = (v, kind) := by
  rw [← step_heading, unitEdge_step, edge_heading]

/-- What a seed edge grows into. -/
theorem growArc_spec (h : Describes g crossing origin scale grid) (tileSize : ℤ) {seed : ℕ}
    (hseed : left.getD seed false = true) (hnodup : (unused grid left).Nodup)
    (hlt : seed < grid.info.length) (hinfo : grid.infoAt seed = some info) : ∃ path left',
      growArc grid tileSize info.labels seed (left.set seed false) = .ok (path, left') ∧
        ArcPath g origin info.right info.left path ∧
        (pathEdges path ++ unused grid left').Perm (unused grid left) ∧
        (∀ id, left'.getD id false = true → left.getD id false = true ∧ id ≠ seed) ∧
        left'.length = left.length := by
  have hid := grid.edgeId_endpoints hlt
  obtain ⟨hends, hkind, _⟩ := grid.edgeId_spec hid
  rw [h.infoAt hid] at hinfo
  obtain ⟨hsides, hne, hlabels, _⟩ := edgeInfo_some hinfo
  obtain ⟨v, hv⟩ : ∃ v, (grid.endpoints seed).1 = v := ⟨_, rfl⟩
  rw [hv] at hends hsides
  have path : ArcPath g origin info.right info.left [v, (EdgeKind.ofId seed).far v] := by
    refine ⟨isChain_pair.mpr ⟨⟨(EdgeKind.ofId seed).heading, (step_heading _ v).symm⟩, ?_⟩, le_refl 2, hne⟩
    rw [stepSides_far, hsides]
  have hedges : (pathEdges [v, (EdgeKind.ofId seed).far v] ++ unused grid (left.set seed false)).Perm
      (unused grid left) := by
    have hset := unused_set grid hseed
    rw [edgeOf, hv, ← unitEdge_far] at hset
    exact hset.symm
  have hnodup' := hedges.nodup_iff.mpr hnodup
  have hfuel (flags : List Bool) : (flagged flags).length < flags.length + 1 :=
    Nat.lt_succ_of_le (flagged_length_le flags)
  rw [growArc, hends, hlabels]
  dsimp only
  obtain ⟨points, rest, closed, hrun, hgrown⟩ := extendArc_forward h path hnodup' (hfuel _)
  rw [hrun, ok_bind]
  cases closed with
  | true =>
    exact ⟨points, rest, rfl, hgrown.path, hgrown.edges.trans hedges, fun id hid => fewer_set (hgrown.fewer id hid),
      hgrown.length.trans length_set⟩
  | false =>
    have hrest := hfuel rest
    rw [hgrown.length] at hrest
    obtain ⟨points', rest', hrun', hgrown'⟩ := extendArc_backward h tileSize []
      hgrown.path (hgrown.edges.nodup_iff.mpr hnodup') hrest
    refine ⟨points', rest', ?_, hgrown'.path, hgrown'.edges.trans (hgrown.edges.trans hedges),
      fun id hid => fewer_set (hgrown.fewer id (hgrown'.fewer id hid)), hgrown'.length.trans (hgrown.length.trans length_set)⟩
    rw [hrun', ok_bind]
    rfl

end

end Mappf.Terrain
