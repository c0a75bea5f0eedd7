import Mappf.Terrain.Arcs
import Mathlib.Data.List.Sort
import Mathlib.Data.Prod.Lex

/-! # Rings from arcs

`assemble_rings` stitches the directed arcs of each label into rings. The slots of arcs by start point, which the
source keeps in one flat array, are a map keyed by the points. The walks behind the rings are kept beside them. -/
namespace Mappf.Terrain

/-- One of `n` arcs in one of its directions. -/
structure DirectedArc (n : ℕ) where
  id : Fin n
  reversed : Bool
  deriving DecidableEq

namespace DirectedArc

variable {n : ℕ}

def key (d : DirectedArc n) : ℕ ×ₗ Bool := toLex (d.id.val, d.reversed)

end DirectedArc

abbrev Slots (n : ℕ) := Point → List (DirectedArc n)

section
variable (arcs : List SharedArc)

abbrev Directed := DirectedArc arcs.length

variable {arcs} (d : Directed arcs)

def directedPoints : List Point :=
  if d.reversed then (arcs.get d.id).points.reverse else (arcs.get d.id).points

def directedStart : Point :=
  if d.reversed then (arcs.get d.id).topologyEnd else (arcs.get d.id).topologyStart

def directedEnd : Point :=
  if d.reversed then (arcs.get d.id).topologyStart else (arcs.get d.id).topologyEnd

def directedStartDirection : ℤ :=
  if d.reversed then ((arcs.get d.id).endDirection + 2) % 4 else (arcs.get d.id).startDirection

def directedEndDirection : ℤ :=
  if d.reversed then ((arcs.get d.id).startDirection + 2) % 4 else (arcs.get d.id).endDirection

def turnRank (incoming outgoing : ℤ) : ℕ :=
  match (outgoing - incoming) % 4 with
  | 1 => 0
  | 0 => 1
  | 3 => 2
  | _ => 3

def takeTurningArc (candidates : List (Directed arcs)) (incoming : ℤ) :
    Option (Directed arcs × List (Directed arcs)) := do
  let index ← candidates.minIdxOn?
    (fun d => (toLex (turnRank incoming (directedStartDirection d), d.key) : ℕ ×ₗ ℕ ×ₗ Bool))
  let next ← candidates[index]?
  return (next, candidates.eraseIdx index)

variable (arcs)

def directions (arc : SharedArc) (label : Label) : List Bool :=
  (if arc.right = label then [false] else []) ++ (if arc.left = label then [true] else [])

/-- The entry of `by_label`. -/
def directedArcs (label : Label) : List (Directed arcs) :=
  (List.finRange arcs.length).flatMap (fun id => (directions (arcs.get id) label).map (fun reversed => ⟨id, reversed⟩))

def labels : List Label :=
  ((arcs.flatMap (fun arc => [arc.right, arc.left])).filter (· ≠ 0)).dedup.insertionSort (· ≤ ·)

/-! ## One walk -/

structure Walk where
  ring : List Point
  current : Point
  incoming : ℤ
  taken : List (Directed arcs)

variable {arcs}

def Walk.begin (first : Directed arcs) : Walk arcs :=
  ⟨directedPoints first, directedEnd first, directedEndDirection first, [first]⟩

def Walk.extend (walk : Walk arcs) (next : Directed arcs) : Walk arcs where
  ring := walk.ring ++
    (if (arcs.get next.id).sharedRenderEndpoints then (directedPoints next).drop 1 else directedPoints next)
  current := directedEnd next
  incoming := directedEndDirection next
  taken := walk.taken ++ [next]

/-- The bounded loop of a walk that began at `start`; it has closed when it is back there. -/
def walkLoop (start : Point) : ℕ → Walk arcs → Slots arcs.length → Walk arcs × Slots arcs.length
  | 0, walk, slots => (walk, slots)
  | fuel + 1, walk, slots =>
    if walk.current = start then (walk, slots)
    else
      match takeTurningArc (slots walk.current) walk.incoming with
      | none => (walk, slots)
      | some (next, rest) => walkLoop start fuel (walk.extend next) (Function.update slots walk.current rest)

def closeRing (ring : List Point) : List Point :=
  if ring.head? = ring.getLast? then ring else ring ++ ring.head?.toList

/-- The rings of a label with the walks they come from, each with its start. -/
structure LabelRings (arcs : List SharedArc) where
  rings : List (List Point)
  walks : List (Point × Walk arcs)

def LabelRings.add (out : LabelRings arcs) (start : Point) (walk : Walk arcs) : LabelRings arcs where
  rings := if walk.current = start ∧ 4 ≤ (closeRing walk.ring).length then out.rings ++ [closeRing walk.ring]
    else out.rings
  walks := out.walks ++ [(start, walk)]

/-- The inner loop over the slot of one start; each turn takes an arc from it. -/
def startLoop (start : Point) :
    ℕ → LabelRings arcs × Slots arcs.length → Fallible (LabelRings arcs × Slots arcs.length)
  | 0, _ => .error .fault
  | fuel + 1, (out, slots) =>
    match slots start with
    | [] => .ok (out, slots)
    | first :: rest =>
      let (walk, slots) := walkLoop start (arcs.length + 1) (Walk.begin first) (Function.update slots start rest)
      startLoop start fuel (out.add start walk, slots)

/-! ## All walks of a label -/

/-- The points whose slots are touched are the starts. -/
structure Filled (arcs : List SharedArc) where
  slots : Slots arcs.length
  starts : List Point

def fillStep (s : Filled arcs) (d : Directed arcs) : Filled arcs where
  slots := Function.update s.slots (directedStart d) (s.slots (directedStart d) ++ [d])
  starts := if (s.slots (directedStart d)).isEmpty then s.starts ++ [directedStart d] else s.starts

def mapTouched (f : List (DirectedArc arcs.length) → List (DirectedArc arcs.length)) (touched : List Point)
    (slots : Slots arcs.length) : Slots arcs.length :=
  touched.foldl (fun slots point => Function.update slots point (f (slots point))) slots

def assembleLabel (slots : Slots arcs.length) (label : Label) : Fallible (LabelRings arcs × Slots arcs.length) := do
  let directed := directedArcs arcs label
  let filled := directed.foldl fillStep ⟨slots, []⟩
  let slots := mapTouched (fun slot => slot.insertionSort (fun d e => d.key ≤ e.key)) filled.starts filled.slots
  let starts := filled.starts.insertionSort (fun p q => (toLex p : ℤ ×ₗ ℤ) ≤ toLex q)
  let (out, slots) ← starts.foldlM (fun s start => startLoop start (directed.length + 1) s) (⟨[], []⟩, slots)
  return (out, mapTouched (fun _ => []) filled.starts slots)

def labelStep (s : List (Label × LabelRings arcs) × Slots arcs.length) (label : Label) :
    Fallible (List (Label × LabelRings arcs) × Slots arcs.length) := do
  let (rings, slots) ← assembleLabel s.2 label
  return (s.1 ++ [(label, rings)], slots)

variable (arcs)

def assembleLabels : Fallible (List (Label × LabelRings arcs)) := do
  let (out, _) ← (labels arcs).foldlM labelStep ([], fun _ => [])
  return out

end

end Mappf.Terrain
