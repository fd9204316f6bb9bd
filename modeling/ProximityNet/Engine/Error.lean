import ProximityNet.Backend.Error
import ProximityNet.Link.Connection
import ProximityNet.Tunnel

/-!
# What can go wrong while links are reconciled

An error that arises at one pair of nodes belongs to that pair and is reported with it; the others
end the step.  `ReconcileError.message` says how every cause is reported.
-/

namespace ProximityNet

/-- Why a step, a pair of nodes or a control link cannot be reconciled. -/
inductive ReconcileError where
  | noMovementModel
  /-- There are no distances although there is more than one emulation node. -/
  | emptyDistanceMatrix (step : Nat)
  | unknownNode (node : NodeId)
  | duplicateNode (node : NodeId)
  /-- A connection that should be stored is not. -/
  | missingConnection (pair : NodePair) (interfaces : InterfacePair)
  | tunnel (cause : TunnelError)
  | backend (cause : BackendError)
  | managementLink (node : NodeId) (cause : BackendError)
  | topology (cause : TopologyError)
deriving DecidableEq

namespace ReconcileError

def message : ReconcileError → String
  | noMovementModel => "no movement model configured"
  | emptyDistanceMatrix step => "empty distance matrix at step " ++ step.repr
  | unknownNode node => "unknown node " ++ node.label
  | duplicateNode node => "node " ++ node.label ++ " registered twice"
  | missingConnection pair interfaces =>
    "no connection for " ++ pair.label ++ " on " ++ interfaces.label
  | tunnel cause => "tunnel error: " ++ cause.message
  | backend cause => "backend error: " ++ cause.message
  | managementLink node cause =>
    "management link to node " ++ node.label ++ " failed: " ++ cause.message
  | topology cause => "topology error: " ++ cause.message

end ReconcileError

end ProximityNet
