import ProximityNet.Distance.Matrix
import ProximityNet.Random.Range

/-!
# Movement of nodes

The engine learns distances from a model of how nodes move.  A type with a `Movement` instance is
such a model: it can be moved on by one step and says how far the nodes are apart.

Moving on fails where there is nothing to choose from at random, or no area to stay in;
`MovementFault` says why.
-/

namespace ProximityNet

/-- Why nodes cannot be placed or moved on. -/
inductive MovementFault where
  /-- There is no random choice of a place or of a way. -/
  | noChoice (fault : RangeFault)
  /-- The area that nodes are kept in is empty, or its border is not a number. -/
  | noArea
deriving DecidableEq

/-- A model of how nodes move. -/
class Movement (μ : Type) where
  /-- One step on. -/
  advance : μ → Except MovementFault μ
  /-- How far the nodes are apart now. -/
  distances : μ → DistanceMatrix

/-- Nodes that stay where they are. -/
structure Stationary where
  distances : DistanceMatrix

instance : Movement Stationary where
  advance := .ok
  distances s := s.distances

end ProximityNet
