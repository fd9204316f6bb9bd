import ProximityNet.Movement.Basic
import ProximityNet.Movement.Hypotenuse

/-!
# Random walks

Nodes wander about a rectangle.  They are placed at random; in each step every node goes a random
way along both axes, at most `maxStep` each, and stays inside.  The seed decides the whole walk.
-/

namespace ProximityNet

/-- A point of the plane. -/
structure Position where
  x : Float
  y : Float
deriving DecidableEq

/-- How far two points are apart. -/
def Position.distance (p q : Position) : Float := hypotenuse (p.x - q.x) (p.y - q.y)

/-- The area of a walk, from the origin on, and how far a node goes in a step. -/
structure WalkArea where
  width : Float
  height : Float
  maxStep : Float
deriving DecidableEq

/-- A random walk: where the nodes are, and the random numbers to come. -/
structure RandomWalk where
  area : WalkArea
  positions : SortedMap NodeId Position
  random : Generator

/-- The number of a closed range that is nearest to `x`. -/
def clamp (low high x : Float) : Except MovementFault Float :=
  if low ≤ high then
    let x := if x < low then low else x
    .ok (if x > high then high else x)
  else .error .noArea

/-- All pairs of an entry and a later one. -/
def pairsOf {α : Type} : List α → List (α × α)
  | [] => []
  | a :: rest => rest.map (fun b => (a, b)) ++ pairsOf rest

namespace RandomWalk

/-- Draw a number, as part of a movement. -/
def draw (g : Generator) (low high : Float) : Except MovementFault (Float × Generator) :=
  (g.between low high).mapError .noChoice

/-- Place nodes in their order. A node that comes again is placed again. -/
def place (area : WalkArea) : List NodeId → SortedMap NodeId Position × Generator →
    Except MovementFault (SortedMap NodeId Position × Generator)
  | [], state => .ok state
  | id :: rest, (positions, g) => do
    let (x, g) ← draw g 0.0 area.width
    let (y, g) ← draw g 0.0 area.height
    place area rest (positions.insert id ⟨x, y⟩, g)

/-- A walk of these nodes, which are placed at random. -/
def start (ids : List NodeId) (area : WalkArea) (seed : Nat) : Except MovementFault RandomWalk := do
  let (positions, random) ← place area ids (.empty, .ofSeed seed)
  return ⟨area, positions, random⟩

/-- Where a node is. -/
def position? (w : RandomWalk) (id : NodeId) : Option Position := w.positions.get? id

/-- A random step from a point. -/
def wander (area : WalkArea) (p : Position) (g : Generator) :
    Except MovementFault (Position × Generator) := do
  let (dx, g) ← draw g (-area.maxStep) area.maxStep
  let (dy, g) ← draw g (-area.maxStep) area.maxStep
  let x ← clamp 0.0 area.width (p.x + dx)
  let y ← clamp 0.0 area.height (p.y + dy)
  return (⟨x, y⟩, g)

/-- Move nodes on in their order. -/
def wanderAll (area : WalkArea) : List (NodeId × Position) →
    SortedMap NodeId Position × Generator →
    Except MovementFault (SortedMap NodeId Position × Generator)
  | [], state => .ok state
  | (id, p) :: rest, (positions, g) => do
    let (p, g) ← wander area p g
    wanderAll area rest (positions.insert id p, g)

/-- Move every node on. -/
def advance (w : RandomWalk) : Except MovementFault RandomWalk := do
  let (positions, random) ← wanderAll w.area w.positions.entries (w.positions, w.random)
  return { w with positions, random }

/-- The distance of two nodes as an entry of a matrix. -/
def entry? (p q : NodeId × Position) : Option (NodePair × Distance) := do
  let pair ← NodePair.of? p.1 q.1
  let distance ← Distance.ofFloat? (p.2.distance q.2)
  some (pair, distance)

/-- The distances of all nodes. -/
def distances (w : RandomWalk) : DistanceMatrix :=
  SortedMap.ofList ((pairsOf w.positions.entries).filterMap fun (p, q) => entry? p q)

instance : Movement RandomWalk where
  advance := advance
  distances := distances

end RandomWalk

end ProximityNet
