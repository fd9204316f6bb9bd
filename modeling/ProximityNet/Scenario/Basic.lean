import ProximityNet.Movement.Course
import ProximityNet.Scenario.Error

/-!
# Scenarios

A `Scenario` describes a simulation: how many nodes there are and what interfaces they have, how
links follow distances, how the nodes move, and what else there is to the network.  `validate` finds
out whether it makes sense, and `engine` puts an engine together for it.
-/

namespace ProximityNet

/-- How the nodes of a scenario move. -/
inductive MovementPlan where
  | randomWalk (area : WalkArea) (seed : Nat)
  | replay (steps : List (List DistanceEntry))
deriving DecidableEq

/-- The description of a simulation. -/
structure Scenario where
  /-- Emulation nodes are numbered from one up to this. -/
  nodeCount : Nat
  /-- The interfaces every emulation node has. -/
  interfaces : List InterfaceKind
  pairing : Pairing.Choice
  model : LinkModel.Config
  /-- The bandwidth of a link that comes up for the first time. -/
  bandwidthKbit : Option Nat
  /-- The loss of a link that comes up for the first time. -/
  lossPercent : Option Float
  /-- Whether all nodes are attached to a hub. -/
  centralHub : Bool
  /-- Whether there is a management node. -/
  management : Bool
  movement : MovementPlan
  /-- The time between steps that are run without being asked for. -/
  autoStepMs : Option Nat
  /-- Which server has which node, if there are several. -/
  distribution : Option Ownership

namespace Scenario

/-- The scenario in which nothing is said. -/
def standard : Scenario where
  nodeCount := 10
  interfaces := [.mesh]
  pairing := .equal
  model := .standard
  bandwidthKbit := some 54000
  lossPercent := none
  centralHub := false
  management := false
  movement := .randomWalk ⟨100.0, 100.0, 5.0⟩ 42
  autoStepMs := none
  distribution := none

instance : Inhabited Scenario := ⟨standard⟩

/-- The shaping of a link that comes up for the first time. -/
def initialShaping (s : Scenario) : Shaping := ⟨s.bandwidthKbit, s.lossPercent, none⟩

/-- The ids of the emulation nodes. -/
def nodeIds (s : Scenario) : List NodeId := (List.range s.nodeCount).map fun i => .ofNat (i + 1)

/-! ### Validation -/

def checkNodes (s : Scenario) : Except ScenarioFault Unit :=
  if s.nodeCount = 0 then .error .noNodes
  else if NodeId.management.toNat - reservedIds ≤ s.nodeCount then
    .error (.tooManyNodes s.nodeCount)
  else .ok ()

def checkInterfaces (s : Scenario) : Except ScenarioFault Unit :=
  if s.interfaces.isEmpty then .error .noInterfaces
  else
    match s.interfaces.find? fun kind => !kind.isNormal with
    | some kind => .error (.specialInterface kind)
    | none => .ok ()

def checkInterval (s : Scenario) : Except ScenarioFault Unit :=
  if s.autoStepMs = some 0 then .error .zeroInterval else .ok ()

def checkLoss (s : Scenario) : Except ScenarioFault Unit :=
  match s.lossPercent with
  | some loss => if 0.0 ≤ loss && loss ≤ 100.0 then .ok () else .error (.lossOutOfRange loss)
  | none => .ok ()

def checkMovement (s : Scenario) : Except ScenarioFault Unit :=
  match s.movement with
  | .randomWalk area _ =>
    if !(area.width > 0.0 && area.height > 0.0) then .error .noWalkArea
    else if !(area.maxStep ≥ 0.0 && area.maxStep.isFinite) then .error .badWalkStep
    else .ok ()
  | .replay steps => if steps.isEmpty then .error .emptyReplay else .ok ()

/-- The first of `count` ids from `next` on that has no owner. -/
def firstUnowned (owners : SortedMap NodeId String) (next : Nat) : (count : Nat) → Option NodeId
  | 0 => none
  | count + 1 =>
    if owners.contains (.ofNat next) then firstUnowned owners (next + 1) count
    else some (.ofNat next)

def checkOwners (s : Scenario) : Except ScenarioFault Unit :=
  match s.distribution with
  | some o =>
    match firstUnowned o.owners 1 s.nodeCount with
    | some node => .error (.unownedNode node)
    | none => .ok ()
  | none => .ok ()

/-- All that is to be checked before the link model, the first fault found. -/
def checkAll (s : Scenario) : Except ScenarioFault Unit := do
  s.checkNodes
  s.checkInterfaces
  s.checkInterval
  s.checkLoss
  s.checkMovement
  s.checkOwners

/-- The link model of a scenario. -/
def linkModel (s : Scenario) : Except SimulationError LinkModel :=
  (LinkModel.build s.initialShaping s.model).mapError .model

/-- Find out whether a scenario makes sense. -/
def validate (s : Scenario) : Except SimulationError Unit := do
  s.checkAll.mapError .scenario
  let _ ← s.linkModel
  return ()

/-! ### Putting an engine together -/

/-- The interfaces of an emulation node, those for the hub and for the management node included. -/
def allInterfaces (s : Scenario) : List InterfaceKind :=
  s.interfaces ++ (if s.centralHub then [.hub] else [])
    ++ (if s.management then [.management] else [])

/-- The emulation nodes, the hub and the management node. -/
def nodes (s : Scenario) : Except TopologyError (List Node) := do
  let emulated ← s.nodeIds.mapM fun id => Node.emulation id s.allInterfaces
  let hub ← if s.centralHub then (Node.central 0).map ([·]) else .ok []
  return emulated ++ hub ++ (if s.management then [Node.management] else [])

/-- The nodes at the start of their movement. -/
def course (s : Scenario) : Except SimulationError Course :=
  match s.movement with
  | .randomWalk area seed =>
    ((RandomWalk.start s.nodeIds area seed).mapError .crashed).map .randomWalk
  | .replay steps => ((Replay.ofEntries steps).mapError .topology).map .replay

/-- The tunnels between servers, kept in a part of the world. -/
def policy {σ : Type} (s : Scenario) (tunnels : Part σ Ownership.Tunnels) : TunnelPolicy σ :=
  match s.distribution with
  | some o => o.policy.within tunnels
  | none => .local

/-- An engine for a scenario, without any tunnel yet. -/
def engine {σ : Type} (s : Scenario) (backend : Backend σ) (tunnels : Part σ Ownership.Tunnels)
    (world : σ) : Except SimulationError (Engine σ Course) := do
  s.validate
  let model ← s.linkModel
  let course ← s.course
  let nodes ← s.nodes.mapError .topology
  let setting : Setting σ := ⟨model, s.pairing.pairing, backend, s.policy tunnels⟩
  let fresh := Engine.start setting (some course) (tunnels.set .empty world)
  (fresh.addNodes nodes).mapError .reconcile

end Scenario

end ProximityNet
