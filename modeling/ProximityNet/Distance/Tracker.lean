import ProximityNet.Distance.Matrix
import ProximityNet.Node.Basic

/-!
# What changes from matrix to matrix

A `DistanceTracker` remembers the last matrix it was given and says of the next one what is
different. It also keeps the *hub overlay*, which lays every hub at distance zero from every
emulation node with a hub interface; the overlay is made once, from the nodes known at that time.
-/

namespace ProximityNet

/-- The last matrix seen, and the hub overlay once it is made. -/
structure DistanceTracker where
  current : DistanceMatrix
  overlay : Option DistanceMatrix

/-- All pairs of a hub and an emulation node with a hub interface. -/
def hubPairs (nodes : List Node) : List NodePair :=
  (nodes.filter (·.isCentral)).flatMap fun h =>
    (nodes.filter fun n => n.isEmulation && n.hasHubInterface).filterMap fun n =>
      NodePair.of? h.id n.id

/-- Distance zero for all pairs of a hub and an emulation node with a hub interface. -/
def hubOverlay (nodes : List Node) : DistanceMatrix :=
  SortedMap.ofList ((hubPairs nodes).map fun p => (p, Distance.zero))

namespace DistanceTracker

/-- Nothing seen yet. -/
def start : DistanceTracker := ⟨.empty, none⟩

/-- What `next` changes, and the tracker that has seen it. -/
def track (t : DistanceTracker) (next : DistanceMatrix) : DistanceMatrix × DistanceTracker :=
  (next.changesSince t.current, { t with current := next })

/-- Make the hub overlay, unless there is one. -/
def ensureOverlay (t : DistanceTracker) (nodes : List Node) : DistanceTracker :=
  { t with overlay := some (t.overlay.getD (hubOverlay nodes)) }

/-- Lay the hub overlay over a matrix. -/
def applyOverlay (t : DistanceTracker) (m : DistanceMatrix) : DistanceMatrix :=
  match t.overlay with
  | some o => m.overlay o
  | none => m

end DistanceTracker

end ProximityNet
