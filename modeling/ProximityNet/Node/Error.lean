import ProximityNet.Decimal.Layout
import ProximityNet.Node.Id

/-!
# What can be wrong with nodes and distances
-/

namespace ProximityNet

/-- Why a node, a pair of nodes or a distance cannot be made. -/
inductive TopologyError where
  /-- A node was paired with itself. -/
  | selfPair (node : NodeId)
  /-- A distance is negative or not a number. -/
  | invalidDistance (value : Float)
  /-- An emulation node has an id that is kept for hubs and the management node. -/
  | reservedId (node : NodeId)
  /-- There is no hub with this number. -/
  | hubOutOfRange (index : Nat)
  /-- A node has more interfaces of one kind than can be numbered. -/
  | tooManyInterfaces (node : NodeId)
deriving DecidableEq

namespace TopologyError

def message : TopologyError → String
  | selfPair node => "node " ++ node.label ++ " cannot be paired with itself"
  | invalidDistance value => "invalid distance " ++ FloatLayout.plain.text value
  | reservedId node => "node id " ++ node.label ++ " lies in the reserved id range"
  | hubOutOfRange index => "central hub index " ++ index.repr ++ " out of range"
  | tooManyInterfaces node => "node " ++ node.label ++ " has too many interfaces of one kind"

end TopologyError

end ProximityNet
