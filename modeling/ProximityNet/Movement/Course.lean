import ProximityNet.Movement.RandomWalk
import ProximityNet.Movement.Replay

/-!
# Courses

A `Course` is any of the movements there are.
-/

namespace ProximityNet

/-- How nodes move. -/
inductive Course where
  | stationary (s : Stationary)
  | replay (r : Replay)
  | randomWalk (w : RandomWalk)

namespace Course

def advance : Course → Except MovementFault Course
  | stationary s => (Movement.advance s).map stationary
  | replay r => (Movement.advance r).map replay
  | randomWalk w => (Movement.advance w).map randomWalk

def distances : Course → DistanceMatrix
  | stationary s => Movement.distances s
  | replay r => Movement.distances r
  | randomWalk w => Movement.distances w

instance : Movement Course where
  advance := advance
  distances := distances

end Course

end ProximityNet
