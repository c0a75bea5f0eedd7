import Mappf.Terrain.EdgeGrid
import Mathlib.Data.List.Destutter
import Mathlib.Data.List.FinRange

/-! # Simplification of an arc

The penalties of `limit_penalties` are floating-point numbers. A penalty test says, for an output scale,
whether the largest penalty of the points between two others reaches the tolerance at that scale; every
result below holds for all such tests. Each simplification returns points it was given. -/
namespace Mappf.Terrain
open List

abbrev PenaltyTest := ℤ → Point → List Point → Point → Bool

def triangleArea (a b c : Point) : ℤ := (b.1 - a.1) * (c.2 - a.2) - (c.1 - a.1) * (b.2 - a.2)

def manhattan (a b : Point) : ℤ := |a.1 - b.1| + |a.2 - b.2|

def signedArea (points : List Point) : ℤ :=
  (List.zipWith (fun a b => a.1 * b.2 - a.2 * b.1) points (points.rotate 1)).sum

def previousIndex {n : ℕ} (i : Fin n) : Fin n :=
  ⟨if i.val = 0 then n - 1 else i.val - 1, by have := i.isLt; split_ifs <;> omega⟩

def nextIndex {n : ℕ} (i : Fin n) : Fin n := ⟨(i.val + 1) % n, Nat.mod_lt _ i.pos⟩

def areaAt (points : List Point) (i : Fin points.length) : ℤ :=
  triangleArea (points.get (previousIndex i)) (points.get i) (points.get (nextIndex i))

def isClosed (points : List Point) : Bool := points.head? = points.getLast?

def openPath (closed : Bool) (points : List Point) : List Point :=
  if closed = true ∧ isClosed points = true then points.dropLast else points

def closePath (closed : Bool) (points : List Point) : List Point :=
  if closed = true then points ++ points.head?.toList else points

/-! ## Straight runs -/

def isCollinear (closed : Bool) (points : List Point) (i : Fin points.length) : Bool :=
  (closed || (1 ≤ i.val && i.val + 1 < points.length)) && areaAt points i == 0

/-- The loop of `remove_collinear`. Every turn but the last drops a point, so the length is enough fuel. -/
def dropCollinear (closed : Bool) : ℕ → List Point → List Point
  | 0, points => points
  | fuel + 1, points =>
    if points.length ≤ (if closed then 3 else 2) then points
    else
      let kept := (List.finRange points.length).filter (fun i => !isCollinear closed points i)
      if kept.length = points.length then points else dropCollinear closed fuel (kept.map points.get)

def removeCollinear (points : List Point) (closed : Bool) : List Point :=
  let path := openPath closed points
  closePath closed (dropCollinear closed path.length path)

/-! ## Staircases -/

def keepsStair (path : List Point) (closed clockwise : Bool) (i : Fin path.length) : Bool :=
  let endpoint := !closed && (i.val = 0 || i.val + 1 = path.length)
  let unitStair := manhattan (path.get i) (path.get (previousIndex i)) = 1 ||
    manhattan (path.get i) (path.get (nextIndex i)) = 1
  let area := areaAt path i
  endpoint || !unitStair || (area != 0 && decide (0 < area) == clockwise)

def removeStaircases (points : List Point) (closed clockwise : Bool) : List Point :=
  let path := openPath closed points
  if path.length ≤ 2 then points
  else closePath closed (((List.finRange path.length).filter (keepsStair path closed clockwise)).map path.get)

/-! ## Penalties -/

section
variable (reaches : PenaltyTest) (scale : ℤ)

def finalPoint (point : Point) (rest : List Point) : List Point := if rest.isEmpty then [point] else []

/-- The loop of `limit_penalties` after the last kept point `last`, with the points passed since. -/
def limitLoop : Point → List Point → List Point → List Point
  | _, _, [] => []
  | last, between, point :: rest =>
    if between.isEmpty then finalPoint point rest ++ limitLoop last [point] rest
    else if reaches scale last between point then
      let kept := between.getLastD last
      kept :: finalPoint point rest ++ limitLoop kept [point] rest
    else finalPoint point rest ++ limitLoop last (between ++ [point]) rest

def limitPenalties (points : List Point) : List Point :=
  match points with
  | first :: second :: third :: rest =>
    (first :: limitLoop reaches scale first [] (second :: third :: rest)).destutter (· ≠ ·)
  | points => points

/-! ## Arcs -/

/-- The given points stand where simplification leaves too few. -/
def acceptSimplified (points simplified : List Point) (minimum : ℕ) : List Point :=
  if simplified.length < minimum then points else simplified

def simplifyArc (points : List Point) (right left : Label) : List Point :=
  if points.length ≤ 2 then points
  else
    let closed := isClosed points
    let straight := removeCollinear points closed
    let clockwise : Bool := if closed then 0 < signedArea straight else left < right
    let simplified := limitPenalties reaches 1 (removeStaircases straight closed clockwise)
    acceptSimplified points simplified (if closed then 4 else 2)

def simplifyInterpolatedArc (points : List Point) : List Point :=
  if points.length ≤ 2 then points
  else
    let closed := isClosed points
    let simplified := limitPenalties reaches scale (removeCollinear points closed)
    acceptSimplified points simplified (if closed then 4 else 1)

end

/-! ## What thinning keeps -/

section
variable (reaches : PenaltyTest) (scale : ℤ) {points rest : List Point}

/-- `kept` thins `points`: a skipped point stands between two neighbours of `kept` that allow it. -/
inductive Thinned (ok : Point → Point → Point → Prop) : List Point → List Point → Prop
  | single (p : Point) : Thinned ok [p] [p]
  | keep {a c : Point} {between kept rest : List Point} (hskip : ∀ b ∈ between, ok a b c)
      (h : Thinned ok (c :: kept) (c :: rest)) : Thinned ok (a :: c :: kept) (a :: (between ++ c :: rest))

variable {ok : Point → Point → Point → Prop} {kept : List Point}

theorem Thinned.sublist (h : Thinned ok kept points) : kept <+ points := by
  induction h with
  | single p => exact Sublist.refl _
  | keep _ _ ih => exact (ih.trans (sublist_append_right _ _)).cons_cons _

theorem Thinned.ends (h : Thinned ok kept points) : kept.head? = points.head? ∧ kept.getLast? = points.getLast? := by
  induction h with
  | single p => exact ⟨rfl, rfl⟩
  | @keep a c between kept rest _ _ ih =>
    refine ⟨rfl, ?_⟩
    rw [getLast?_cons_cons, ih.2, ← cons_append, getLast?_append_cons]

theorem limitLoop_thins (hok : ∀ a between c, reaches scale a between c = false → ∀ b ∈ between, ok a b c)
    {last point : Point} (between : List Point) (h : ∀ b ∈ between, ok last b point) :
    Thinned ok (last :: (finalPoint point rest ++ limitLoop reaches scale last (between ++ [point]) rest))
      (last :: (between ++ point :: rest)) := by
  induction rest generalizing last point between with
  | nil => exact .keep h (.single point)
  | cons next rest ih =>
    have hne : (between ++ [point]).isEmpty = false := by simp
    rw [limitLoop, hne, if_neg Bool.false_ne_true]
    split_ifs with hreach
    · -- the point before `next` is kept, and nothing has been passed since
      have hkept : (between ++ [point]).getLastD last = point := by simp
      rw [hkept]
      exact .keep h (ih [] (by simp))
    · have hbelow := ih _ (hok last _ next (Bool.eq_false_of_not_eq_true hreach))
      rw [append_assoc between [point] (next :: rest)] at hbelow
      exact hbelow

/-- The list of `limit_penalties` before its last line. -/
def keptPoints : List Point → List Point
  | first :: rest => first :: limitLoop reaches scale first [] rest
  | [] => []

variable {reaches scale} in
theorem keptPoints_thins (hok : ∀ a between c, reaches scale a between c = false → ∀ b ∈ between, ok a b c)
    (h : 2 < points.length) : Thinned ok (keptPoints reaches scale points) points := by
  match points, h with
  | _ :: _ :: _ :: _, _ => exact limitLoop_thins reaches scale hok [] (by simp)

theorem limitPenalties_of_long (h : 2 < points.length) :
    limitPenalties reaches scale points = (keptPoints reaches scale points).destutter (· ≠ ·) := by
  match points, h with
  | _ :: _ :: _ :: _, _ => rfl

theorem limitPenalties_of_short (h : points.length ≤ 2) : limitPenalties reaches scale points = points := by
  match points, h with
  | [], _ | [_], _ | [_, _], _ => rfl

theorem destutter_ends (l : List Point) :
    (l.destutter (· ≠ ·)).head? = l.head? ∧ (l.destutter (· ≠ ·)).getLast? = l.getLast? := by
  cases l with
  | nil => exact ⟨rfl, rfl⟩
  | cons a l =>
    rw [destutter_cons']
    induction l generalizing a with
    | nil => exact ⟨rfl, rfl⟩
    | cons b l ih =>
      by_cases hab : a = b
      · subst hab
        rw [destutter'_cons_neg _ (by simp), getLast?_cons_cons]
        exact ih a
      · rw [destutter'_cons_pos _ hab, getLast?_cons_cons, ← (ih b).2]
        obtain ⟨hhead, -⟩ := ih b
        cases hl : l.destutter' (· ≠ ·) b with
        | nil => rw [hl] at hhead; cases hhead
        | cons c m => exact ⟨rfl, getLast?_cons_cons⟩

theorem limitPenalties_ends (points : List Point) : limitPenalties reaches scale points <+ points ∧
    (limitPenalties reaches scale points).head? = points.head? ∧
    (limitPenalties reaches scale points).getLast? = points.getLast? := by
  by_cases hlong : 2 < points.length
  · have hthin : Thinned (fun _ _ _ => True) (keptPoints reaches scale points) points :=
      keptPoints_thins (fun _ _ _ _ _ _ => trivial) hlong
    obtain ⟨hhead, hlast⟩ := destutter_ends (keptPoints reaches scale points)
    rw [limitPenalties_of_long reaches scale hlong, hhead, hlast]
    exact ⟨(destutter_sublist _ _).trans hthin.sublist, hthin.ends⟩
  · rw [limitPenalties_of_short reaches scale (not_lt.mp hlong)]
    exact ⟨Sublist.refl _, rfl, rfl⟩

end

/-! ## Endpoints -/

theorem ends_filter {n : ℕ} (keep : Fin n → Bool) (f : Fin n → Point)
    (h : ∀ i : Fin n, i.val = 0 ∨ i.val + 1 = n → keep i = true) :
    (((finRange n).filter keep).map f).head? = ((finRange n).map f).head? ∧
    (((finRange n).filter keep).map f).getLast? = ((finRange n).map f).getLast? := by
  cases n with
  | zero => exact ⟨rfl, rfl⟩
  | succ n =>
    constructor
    · rw [finRange_succ, filter_cons_of_pos (h 0 (.inl rfl))]
      rfl
    · rw [finRange_succ_last, filter_append, filter_cons_of_pos (h (Fin.last n) (.inr rfl))]
      simp

theorem dropCollinear_ends (fuel : ℕ) (points : List Point) :
    (dropCollinear false fuel points).head? = points.head? ∧
    (dropCollinear false fuel points).getLast? = points.getLast? := by
  induction fuel generalizing points with
  | zero => exact ⟨rfl, rfl⟩
  | succ fuel ih =>
    rw [dropCollinear]
    by_cases hshort : points.length ≤ (if false then 3 else 2)
    · rw [if_pos hshort]
      exact ⟨rfl, rfl⟩
    · rw [if_neg hshort]
      dsimp only
      split_ifs
      · exact ⟨rfl, rfl⟩
      · have hends := ends_filter (fun i => !isCollinear false points i) points.get (by
          rintro i (hi | hi) <;> simp [isCollinear, hi])
        rw [map_get_finRange] at hends
        rw [(ih _).1, (ih _).2]
        exact hends

theorem isClosed_closePath (points : List Point) : isClosed (closePath true points) = true := by
  cases points with
  | nil => rfl
  | cons p points =>
    rw [isClosed, closePath, if_pos rfl]
    exact decide_eq_true (getLast?_concat (l := p :: points)).symm

section
variable {α : Type*} [LinearOrder α]

theorem lt_of_foldl_max_lt {f : Point → α} {t : α} (l : List Point) {z : α}
    (h : l.foldl (fun largest b => max largest (f b)) z < t) : z < t ∧ ∀ b ∈ l, f b < t := by
  induction l generalizing z with
  | nil => exact ⟨h, by simp⟩
  | cons b l ih =>
    obtain ⟨hmax, hrest⟩ := ih h
    obtain ⟨hz, hb⟩ := max_lt_iff.mp hmax
    exact ⟨hz, forall_mem_cons.mpr ⟨hb, hrest⟩⟩

variable [Zero α] (penalty : Point → Point → Point → α) (tolerance : ℤ → α)

/-- The test of `limit_penalties` for penalties of any ordered type. -/
def maxPenalty : PenaltyTest := fun scale a between c =>
  tolerance scale ≤ between.foldl (fun largest b => max largest (penalty a b c)) 0

theorem limit_penalties_thins (scale : ℤ) (points : List Point) :
    let test := maxPenalty penalty tolerance
    let limited := limitPenalties test scale points
    let arc := simplifyInterpolatedArc test scale points
    limited <+ points ∧ limited.head? = points.head? ∧ limited.getLast? = points.getLast? ∧
    (points.length ≤ 2 → limited = points) ∧
    (2 < points.length → limited.IsChain (· ≠ ·) ∧ limited = (keptPoints test scale points).destutter (· ≠ ·) ∧
      Thinned (fun a b c => penalty a b c < tolerance scale) (keptPoints test scale points) points) ∧
    (isClosed points = false → arc.head? = points.head? ∧ arc.getLast? = points.getLast?) ∧
    (isClosed points = true → arc = points ∨ isClosed arc = true ∧ 4 ≤ arc.length) := by
  intro test limited arc
  obtain ⟨hsub, hends⟩ := limitPenalties_ends test scale points
  refine ⟨hsub, hends.1, hends.2, limitPenalties_of_short test scale, fun hlong => ?_, fun hopen => ?_, fun hclosed => ?_⟩
  · have heq := limitPenalties_of_long test scale hlong
    refine ⟨?_, heq, keptPoints_thins (fun a between c hlow => ?_) hlong⟩
    · rw [show limited = _ from heq]
      exact isChain_destutter _ _
    · exact (lt_of_foldl_max_lt between (not_le.mp (of_decide_eq_false hlow))).2
  · obtain ⟨-, hhead, hlast⟩ := limitPenalties_ends test scale (removeCollinear points false)
    obtain ⟨hhead', hlast'⟩ := dropCollinear_ends points.length points
    dsimp only [arc, simplifyInterpolatedArc, acceptSimplified]
    rw [hopen, if_neg Bool.false_ne_true]
    split_ifs
    · exact ⟨rfl, rfl⟩
    · exact ⟨rfl, rfl⟩
    · exact ⟨hhead.trans hhead', hlast.trans hlast'⟩
  · obtain ⟨-, hhead, hlast⟩ := limitPenalties_ends test scale (removeCollinear points true)
    have hclose := isClosed_closePath (dropCollinear true (openPath true points).length (openPath true points))
    dsimp only [arc, simplifyInterpolatedArc, acceptSimplified]
    rw [hclosed, if_pos rfl]
    split_ifs with _ hfew
    · exact .inl rfl
    · exact .inl rfl
    · refine .inr ⟨?_, not_lt.mp hfew⟩
      rw [isClosed, hhead, hlast]
      exact hclose

theorem two_equal_points : ¬(limitPenalties (maxPenalty (fun _ _ _ => (0 : ℤ)) fun _ => 1) 1 [(0, 0), (0, 0)]).IsChain
    (· ≠ ·) := by decide

end

end Mappf.Terrain
