import ProximityNet.Movement.Basic

/-!
# Replayed distances

A `Replay` plays a list of distance matrices one by one; the last one stays for good.
-/

namespace ProximityNet

/-- A list of matrices and the place reached in it. -/
structure Replay where
  steps : List DistanceMatrix
  position : Nat

namespace Replay

def start (steps : List DistanceMatrix) : Replay := ⟨steps, 0⟩

/-- The replay of lists of entries, if no entry pairs a node with itself. -/
def ofEntries (steps : List (List DistanceEntry)) : Except TopologyError Replay :=
  (steps.mapM DistanceMatrix.ofEntries).map start

/-- Go on to the next matrix, if there is one. -/
def advance (r : Replay) : Replay :=
  if r.position + 1 < r.steps.length then { r with position := r.position + 1 } else r

/-- The matrix that is played now; an empty list plays the empty matrix. -/
def distances (r : Replay) : DistanceMatrix := (r.steps[r.position]?).getD .empty

instance : Movement Replay where
  advance r := .ok r.advance
  distances := distances

end Replay

end ProximityNet
