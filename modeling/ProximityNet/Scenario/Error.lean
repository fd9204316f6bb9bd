import ProximityNet.Engine.Basic
import ProximityNet.Node.Interface
import ProximityNet.Text.Quoted

/-!
# Errors of scenarios and simulations

A `ScenarioFault` is what is wrong with a scenario as it is written down.  A `SimulationError` is
anything that can keep a simulation from being set up or run.
-/

namespace ProximityNet

/-- What is wrong with a scenario. -/
inductive ScenarioFault where
  | noNodes
  /-- The node ids would reach the reserved ones. -/
  | tooManyNodes (count : Nat)
  | noInterfaces
  /-- An interface kind that nodes are given by other means. -/
  | specialInterface (kind : InterfaceKind)
  | zeroInterval
  | lossOutOfRange (loss : Float)
  | noWalkArea
  | badWalkStep
  | emptyReplay
  /-- A node without an owner, although nodes are on several servers. -/
  | unownedNode (node : NodeId)
  /-- A variable whose value is not what it should be. -/
  | badVariable (name value : String)
  /-- A variable whose value is not a name or a JSON text that is expected there. -/
  | malformedVariable (name : String)
  /-- Steps that should follow each other without time in between. -/
  | zeroAutoStep
deriving DecidableEq

namespace ScenarioFault

def message : ScenarioFault → String
  | noNodes => "node_count must be at least 1"
  | tooManyNodes count => "node_count " ++ count.repr ++ " reaches into the reserved id range"
  | noInterfaces => "at least one interface per node is required"
  | specialInterface kind =>
    "interface kind " ++ kind.shortName ++ " is not configurable per node"
  | zeroInterval => "auto_step_interval_ms must be positive"
  | lossOutOfRange loss => "loss_percent " ++ FloatLayout.plain.text loss ++ " out of range"
  | noWalkArea => "random walk area must be positive"
  | badWalkStep => "random walk max_step must be non-negative"
  | emptyReplay => "replay needs at least one step"
  | unownedNode node => "node " ++ node.label ++ " has no owning server"
  | badVariable name value => "invalid " ++ name ++ ": " ++ Text.quoted value
  | malformedVariable name => "invalid " ++ name
  | zeroAutoStep => "auto-step interval must be positive"

end ScenarioFault

/-- What can keep a simulation from being set up or run. -/
inductive SimulationError where
  | scenario (fault : ScenarioFault)
  | alreadyStarted
  | notStarted
  /-- The simulation could not be started. -/
  | setupFailed (cause : SimulationError)
  /-- Nodes could not be placed or moved on. -/
  | crashed (fault : MovementFault)
  | reconcile (cause : ReconcileError)
  | model (cause : ModelError)
  | topology (cause : TopologyError)
  /-- A scenario file cannot be read. -/
  | noFile
  /-- A text is not the JSON text of a scenario. -/
  | malformed
deriving DecidableEq

namespace SimulationError

def message : SimulationError → String
  | scenario fault => "configuration error: " ++ fault.message
  | alreadyStarted => "simulation already started"
  | notStarted => "simulation not started"
  | setupFailed cause => "network setup failed: " ++ cause.message
  | crashed _ => "simulation task failed"
  | reconcile cause => "reconciliation error: " ++ cause.message
  | model cause => "link model error: " ++ cause.message
  | topology cause => "topology error: " ++ cause.message
  | noFile => "I/O error"
  | malformed => "JSON error"

/-- Why a step was not run, as an error of the simulation. -/
def ofStepError : StepError → SimulationError
  | .refused cause => reconcile cause
  | .stuck fault => crashed fault

end SimulationError

end ProximityNet
