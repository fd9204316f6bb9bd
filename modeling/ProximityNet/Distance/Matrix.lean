import ProximityNet.Distance.Basic
import ProximityNet.Distance.NodePair
import ProximityNet.Node.Error

/-!
# Distance matrices

A `DistanceMatrix` gives distances to pairs of nodes.  It is symmetric because its keys are
unordered pairs, and it is visited in ascending order of pairs.

`changesSince` is what a later step has to look at: the pairs whose distance is new, changed or
gone, the last ones at the unlimited distance.
-/

namespace ProximityNet

/-- Distances by pair of nodes. -/
abbrev DistanceMatrix := SortedMap NodePair Distance

/-- The distance between two nodes as it is written in scenario files and snapshots. -/
structure DistanceEntry where
  a : NodeId
  b : NodeId
  distance : Distance
deriving DecidableEq

/-- The pair of two nodes, which have to be distinct. -/
def NodePair.make (a b : NodeId) : Except TopologyError NodePair :=
  match NodePair.of? a b with
  | some p => .ok p
  | none => .error (.selfPair a)

/-- The distance with this value, which has to be a number and not negative. -/
def Distance.make (value : Float) : Except TopologyError Distance :=
  match Distance.ofFloat? value with
  | some d => .ok d
  | none => .error (.invalidDistance value)

namespace DistanceMatrix

/-- Set the distance between two nodes. -/
def set (m : DistanceMatrix) (a b : NodeId) (d : Distance) : Except TopologyError DistanceMatrix :=
  (NodePair.make a b).map fun p => m.insert p d

/-- The distance between two nodes, in either order. -/
def between? (m : DistanceMatrix) (a b : NodeId) : Option Distance :=
  (NodePair.of? a b).bind m.get?

/-- The matrix without the distance between two nodes. -/
def unset (m : DistanceMatrix) (a b : NodeId) : DistanceMatrix :=
  match NodePair.of? a b with
  | some p => m.erase p
  | none => m

/-- All nodes of a list of pairs, each once and in order. -/
def nodesOf : List (NodePair × Distance) → SortedMap NodeId Unit
  | [] => .empty
  | (p, _) :: rest => ((nodesOf rest).insert p.low ()).insert p.high ()

/-- The nodes that stand in some pair, in order. -/
def nodes (m : DistanceMatrix) : List NodeId := (nodesOf m.entries).keys

/-- What has become of the distance of a pair, if it is not what it was; a pair that is gone is at
the unlimited distance. -/
def change : (now before : Option Distance) → Option Distance
  | some d, some d' => if d == d' then none else some d
  | some d, none => some d
  | none, some _ => some .unlimited
  | none, none => none

/-- The pairs that are new since `earlier`, have changed or are gone, with their distances. -/
def changesSince (m earlier : DistanceMatrix) : DistanceMatrix := SortedMap.merge change m earlier

theorem get?_changesSince (m earlier : DistanceMatrix) (p : NodePair) :
    (m.changesSince earlier).get? p = change (m.get? p) (earlier.get? p) :=
  SortedMap.get?_merge rfl m earlier p

/-- The matrix of a list of entries; a later entry of a pair replaces an earlier one. -/
def ofEntriesOnto (m : DistanceMatrix) : List DistanceEntry → Except TopologyError DistanceMatrix
  | [] => .ok m
  | e :: rest =>
    match m.set e.a e.b e.distance with
    | .ok m' => ofEntriesOnto m' rest
    | .error err => .error err

def ofEntries (l : List DistanceEntry) : Except TopologyError DistanceMatrix :=
  ofEntriesOnto .empty l

/-- The entries of a matrix, in the order of its pairs. -/
def toEntries (m : DistanceMatrix) : List DistanceEntry :=
  m.entries.map fun e => ⟨e.1.low, e.1.high, e.2⟩

end DistanceMatrix

end ProximityNet
