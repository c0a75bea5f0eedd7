import Mappf.Terrain.Simplify

/-! # Shared boundary arcs

`build_arcs`: every edge that is still unused seeds a path, which grows forward and, unless it has closed,
backward, until a junction or a tile anchor; the path then becomes an arc. The loop is modelled together
with the grid path of each arc, which the source drops. -/
namespace Mappf.Terrain

structure SharedArc where
  points : List Point
  topologyStart : Point
  topologyEnd : Point
  sharedRenderEndpoints : Bool
  right : Label
  left : Label
  startDirection : ℤ
  endDirection : ℤ

def direction (a b : Point) : ℤ :=
  match (b.1 - a.1).sign, (b.2 - a.2).sign with
  | 1, 0 => 0
  | 0, 1 => 1
  | -1, 0 => 2
  | 0, -1 => 3
  | _, _ => 0

def segments (points : List Point) : List (Point × Point) := points.zip points.tail

section
variable (grid : EdgeGrid)

/-! ## Growing a path -/

section
variable (tileSize : ℤ) (pair : Label × Label)

def isTileAnchor (point : Point) : Bool :=
  let onX : Bool := point.1 = 0 ∨ point.1 = tileSize
  let onY : Bool := point.2 = 0 ∨ point.2 = tileSize
  if onX && onY then true
  else if onX then (grid.pairEdges point pair).any (fun edge => EdgeKind.ofId edge = .horizontal)
  else if onY then (grid.pairEdges point pair).any (fun edge => EdgeKind.ofId edge = .vertical)
  else false

def isArcEndpoint (point : Point) : Bool :=
  isTileAnchor grid tileSize pair point || (grid.pairEdges point pair).length != 2

def soleCandidate (remaining : List Bool) (current : Point) : Option ℕ :=
  match (grid.pairEdges current pair).filter (fun edge => remaining.getD edge false) with
  | [edge] => some edge
  | _ => none

def otherEnd (edge : ℕ) (current : Point) : Point :=
  let (start, stop) := grid.endpoints edge
  if start = current then stop else start

/-- Each turn uses up a remaining edge; `front` is the part put before the points so far. -/
def extendArc (prepend : Bool) :
    ℕ → List Point → List Point → List Bool → Fallible (List Point × List Bool × Bool)
  | 0, _, _, _ => .error .fault
  | fuel + 1, points, front, remaining =>
    match if prepend then (front.reverse ++ points).head? else points.getLast? with
    | none => .error .fault
    | some current =>
      if isArcEndpoint grid tileSize pair current then .ok (front.reverse ++ points, remaining, false)
      else
        match soleCandidate grid pair remaining current with
        | none => .ok (front.reverse ++ points, remaining, false)
        | some edge =>
          let remaining := remaining.set edge false
          let next := otherEnd grid edge current
          if prepend then extendArc prepend fuel points (front ++ [next]) remaining
          else
            let points := points ++ [next]
            if points.head? = points.getLast? then .ok (points, remaining, true)
            else extendArc prepend fuel points front remaining

def growArc (seed : ℕ) (remaining : List Bool) : Fallible (List Point × List Bool) := do
  let fuel := remaining.length + 1
  let (seedStart, seedEnd) := grid.endpoints seed
  let (points, remaining, closed) ← extendArc grid tileSize pair false fuel [seedStart, seedEnd] [] remaining
  if closed then return (points, remaining)
  else
    let (points, remaining, _) ← extendArc grid tileSize pair true fuel points [] remaining
    return (points, remaining)

end

/-! ## From a path to an arc -/

def expectInfo (edge : ℕ) : Fallible EdgeInfo :=
  match grid.infoAt edge with
  | none => .error .fault
  | some info => .ok info

def sidesAlong (segment : Point × Point) : Fallible (Label × Label) := do
  let (edge, forward) ← grid.edgeBetween segment.1 segment.2
  let info ← expectInfo grid edge
  return if forward then (info.right, info.left) else (info.left, info.right)

def crossingAlong (segment : Point × Point) : Fallible Point := do
  let (edge, _) ← grid.edgeBetween segment.1 segment.2
  match (grid.infoAt edge).bind EdgeInfo.crossing with
  | none => .error .fault
  | some crossing => return crossing

def graphHasCrossings : Bool := grid.info.any (fun info => info.any (fun info => info.crossing.isSome))

def scaled (point : Point) : Point := (point.1 * grid.outputScale, point.2 * grid.outputScale)

/-- A closed arc returns to its first crossing, an open one keeps its topological ends. -/
def renderPath (topologyStart topologyEnd : Point) (crossings : List Point) : List Point :=
  if topologyStart = topologyEnd then crossings ++ crossings.head?.toList
  else scaled grid topologyStart :: crossings ++ [scaled grid topologyEnd]

variable (reaches : PenaltyTest)

def arcPoints (interpolated : Bool) (points : List Point) (topologyStart topologyEnd : Point)
    (right left : Label) : Fallible (List Point) :=
  if interpolated then do
    let crossings ← (segments points).mapM (crossingAlong grid)
    return simplifyInterpolatedArc reaches grid.outputScale (renderPath grid topologyStart topologyEnd crossings)
  else return simplifyArc reaches points right left

def finishArc (interpolated : Bool) (points : List Point) : Fallible SharedArc :=
  match points.head?, points.tail.head?, points.dropLast.getLast?, points.getLast? with
  | some first, some second, some beforeLast, some last => do
    let (right, left) ← sidesAlong grid (first, second)
    let sides ← (segments points).mapM (sidesAlong grid)
    if sides.any (fun side => side.1 ≠ right) then .error .fault
    else
      let arcPoints ← arcPoints grid reaches interpolated points first last right left
      return {
        points := arcPoints
        topologyStart := first
        topologyEnd := last
        sharedRenderEndpoints := !interpolated || first ≠ last
        right := right
        left := left
        startDirection := direction first second
        endDirection := direction beforeLast last }
  | _, _, _, _ => .error .fault

/-! ## The scan over the edges -/

structure TracedArc where
  path : List Point
  arc : SharedArc

structure BuildState where
  remaining : List Bool
  arcs : List TracedArc

variable (tileSize : ℤ)

def seedStep (interpolated : Bool) (s : BuildState) (seed : ℕ) : Fallible BuildState :=
  if s.remaining.getD seed false = false then .ok s
  else do
    let info ← expectInfo grid seed
    let (path, remaining) ← growArc grid tileSize info.labels seed (s.remaining.set seed false)
    let arc ← finishArc grid reaches interpolated path
    return ⟨remaining, s.arcs ++ [⟨path, arc⟩]⟩

def traceArcs : Fallible (List TracedArc) := do
  let remaining := grid.info.map Option.isSome
  let s ← (List.range remaining.length).foldlM (seedStep grid reaches tileSize (graphHasCrossings grid)) ⟨remaining, []⟩
  return s.arcs

end

end Mappf.Terrain
