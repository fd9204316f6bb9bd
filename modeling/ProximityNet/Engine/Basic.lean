import ProximityNet.Distance.Tracker
import ProximityNet.Engine.Reconcile
import ProximityNet.Movement.Basic

/-!
# The engine

The engine turns distances into links.  `applyDistances` takes a matrix, looks at the pairs of nodes
at which it differs from the last one, and reconciles the links of each.  `step` takes the matrix
from the movement of the nodes, and `connectManagement` sets up the links to the management node.

The state `σ` is that of the world outside: the backend, the tunnels and the hooks act on it.
-/

namespace ProximityNet

/-- Why a step was not run. -/
inductive StepError where
  | refused (cause : ReconcileError)
  /-- The nodes could not be moved on. -/
  | stuck (fault : MovementFault)
deriving DecidableEq

/-- An engine with its nodes, links and distances. -/
structure Engine (σ μ : Type) where
  setting : Setting σ
  nodes : SortedMap NodeId Node
  /-- How nodes move, if distances are to come from that. -/
  movement : Option μ
  tracker : DistanceTracker
  store : ConnectionStore
  /-- The step that is run next. Steps are counted without a bound: a counter of 64 bits says the same
  for the first `2 ^ 64` steps. -/
  step : Nat
  /-- What is done once, after the first step. -/
  hooks : List (ConnectionStore → σ → σ)
  world : σ

namespace Engine

variable {σ μ : Type}

/-- An engine without nodes that has not run a step. -/
def start (setting : Setting σ) (movement : Option μ) (world : σ) : Engine σ μ where
  setting := setting
  nodes := .empty
  movement := movement
  tracker := .start
  store := .empty
  step := 0
  hooks := []
  world := world

/-- Make a node known; its id has to be new. -/
def addNode (e : Engine σ μ) (node : Node) : Except ReconcileError (Engine σ μ) :=
  if e.nodes.contains node.id then .error (.duplicateNode node.id)
  else .ok { e with nodes := e.nodes.insert node.id node }

/-- Make nodes known one by one. -/
def addNodes (e : Engine σ μ) : List Node → Except ReconcileError (Engine σ μ)
  | [] => .ok e
  | node :: rest =>
    match e.addNode node with
    | .ok e' => addNodes e' rest
    | .error err => .error err

/-- Have something done once, after the first step. -/
def onSetup (e : Engine σ μ) (hook : ConnectionStore → σ → σ) : Engine σ μ :=
  { e with hooks := e.hooks ++ [hook] }

/-- The distances last applied, without the hub overlay. -/
def distances (e : Engine σ μ) : DistanceMatrix := e.tracker.current

/-- Whether nodes may be on several servers. -/
def isDistributed (e : Engine σ μ) : Bool := e.setting.policy.isDistributed

def emulationNodes (e : Engine σ μ) : List Node := e.nodes.values.filter (·.isEmulation)

/-- Work that starts from the state of an engine. -/
def progress (e : Engine σ μ) (report : StepReport) : Progress σ := ⟨e.store, report, e.world⟩

/-- Link emulation nodes to the management node, and count the links that came up. -/
def connectManagement (e : Engine σ μ) : Except ReconcileError Nat × Engine σ μ :=
  let (result, p) := e.setting.connectManagement e.nodes e.step (e.progress (.blank e.step 0))
  (result.map fun () => p.report.linksUp, { e with store := p.store, world := p.world })

/-- Run hooks in their order. -/
def runHooks (store : ConnectionStore) : List (ConnectionStore → σ → σ) → σ → σ
  | [], world => world
  | hook :: rest, world => runHooks store rest (hook store world)

/-- Reconcile the pairs of `changed`, with all that the backend is told around it. -/
def reconcileStep (e : Engine σ μ) (changed all : DistanceMatrix) : Progress σ :=
  let s := e.setting
  let world := s.backend.announce (.stepStarting e.step all) e.world
  let world := s.backend.announce (.changesPending e.step changed all) world
  let p := s.reconcileAll e.nodes e.step changed.entries
    ⟨e.store, .blank e.step changed.size, world⟩
  let world := s.backend.announce (.changesApplied e.step changed all) p.world
  match s.backend.perform (.finishStep e.step all) world with
  | (.ok (), world) => { p with world }
  | (.error cause, world) => { p with world, report := { p.report with commitError := some cause } }

/-- Run a step with the given distances. Where nothing has changed nothing is done, except in the
first step, which always runs and is followed by the hooks. -/
def applyDistances (e : Engine σ μ) (distances : DistanceMatrix) : StepReport × Engine σ μ :=
  let (changes, tracker) := (e.tracker.ensureOverlay e.nodes.values).track distances
  let changed := tracker.applyOverlay changes
  let all := tracker.applyOverlay distances
  if changed.isEmpty && e.step != 0 then
    ({ StepReport.blank e.step 0 with unchanged := true }, { e with tracker, step := e.step + 1 })
  else
    let p := e.reconcileStep changed all
    let hooks := if e.step = 0 then e.hooks else []
    (p.report,
      { e with
        tracker
        store := p.store
        step := e.step + 1
        hooks := if e.step = 0 then [] else e.hooks
        world := runHooks p.store hooks p.world })

/-- Move the nodes on, except before the first step, and run a step with their distances. -/
def runStep [Movement μ] (e : Engine σ μ) : Except StepError StepReport × Engine σ μ :=
  match e.movement with
  | none => (.error (.refused .noMovementModel), e)
  | some movement =>
    match if e.step = 0 then .ok movement else Movement.advance movement with
    | .error fault => (.error (.stuck fault), e)
    | .ok movement =>
      let e := { e with movement := some movement }
      let distances := Movement.distances movement
      if distances.isEmpty && e.emulationNodes.length > 1 then
        (.error (.refused (.emptyDistanceMatrix e.step)), e)
      else
        let (report, e) := e.applyDistances distances
        (.ok report, e)

/-- Forget all links and distances, and start again with the first step. -/
def reset (e : Engine σ μ) : Engine σ μ :=
  { e with store := .empty, tracker := .start, step := 0 }

end Engine

end ProximityNet
