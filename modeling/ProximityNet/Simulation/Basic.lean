import ProximityNet.Scenario.Basic
import ProximityNet.Snapshot

/-!
# Simulations

A `Simulation` takes a scenario through its life: it is started, run step by step, and aborted, and
may then be started again.  While it runs it holds an engine; whatever it does, it publishes a
snapshot and says whether its network is ready.

* `start` puts an engine together, links nodes to the management node and runs the first step.  When
  any of this fails nothing is kept.
* `run` runs further steps.  When one fails, those before it stay done.
* `abort` gives the engine up.

Only the world outside, which the backend acts on, is carried from one run to the next.
-/

namespace ProximityNet

/-- Whether the first network is in place. -/
inductive Readiness where
  | pending
  | ready
  | failed (cause : SimulationError)
deriving DecidableEq

/-- A simulation has an engine, or only the world that an engine would act on. -/
inductive Stage (σ : Type) where
  | idle (world : σ)
  | running (engine : Engine σ Course)

namespace Stage

variable {σ : Type}

def isRunning : Stage σ → Bool
  | idle _ => false
  | running _ => true

def world : Stage σ → σ
  | idle world => world
  | running engine => engine.world

/-- Change the world. -/
def mapWorld (f : σ → σ) : Stage σ → Stage σ
  | idle world => idle (f world)
  | running engine => running { engine with world := f engine.world }

end Stage

/-- A scenario and how far it has been run. -/
structure Simulation (σ : Type) where
  scenario : Scenario
  /-- Where the tunnels between servers are kept in the world. -/
  tunnels : Part σ Ownership.Tunnels
  stage : Stage σ
  readiness : Readiness
  /-- The snapshot last published. -/
  snapshot : Snapshot
  /-- How many snapshots have been published. -/
  published : Nat
  /-- The time between steps that are run without being asked for, if any are. -/
  autoStepMs : Option Nat

namespace Simulation

variable {σ : Type}

/-- A simulation of a scenario that makes sense, not started yet. -/
def make (scenario : Scenario) (tunnels : Part σ Ownership.Tunnels) (world : σ) :
    Except SimulationError (Simulation σ) := do
  scenario.validate
  return ⟨scenario, tunnels, .idle world, .pending, .empty, 0, none⟩

def isStarted (s : Simulation σ) : Bool := s.stage.isRunning

/-- Publish what an engine shows of itself, and go on with it. -/
def publish (s : Simulation σ) (e : Engine σ Course) : Simulation σ :=
  { s with stage := .running e, snapshot := .capture e, published := s.published + 1 }

/-- Give up whatever was running, and publish the empty snapshot. -/
def clear (s : Simulation σ) (readiness : Readiness) (world : σ) : Simulation σ :=
  { s with
    stage := .idle world
    readiness
    snapshot := .empty
    published := s.published + 1 }

/-! ### Starting -/

/-- Link nodes to the management node and run the first step. -/
def setUp (e : Engine σ Course) : Except SimulationError StepReport × Engine σ Course :=
  match e.connectManagement with
  | (.error cause, e) => (.error (.reconcile cause), e)
  | (.ok _, e) =>
    let (result, e) := e.runStep
    (result.mapError .ofStepError, e)

/-- A start that failed. -/
def failStart (s : Simulation σ) (cause : SimulationError) (world : σ) :
    Except SimulationError StepReport × Simulation σ :=
  (.error cause, s.clear (.failed cause) world)

/-- Start a simulation with a backend; `plug` is what the new backend does to the world. -/
def start (s : Simulation σ) (backend : Backend σ) (plug : σ → σ) :
    Except SimulationError StepReport × Simulation σ :=
  match s.stage with
  | .running _ => (.error .alreadyStarted, s)
  | .idle world =>
    match s.scenario.engine backend s.tunnels (plug world) with
    | .error cause => s.failStart cause (plug world)
    | .ok engine =>
      match setUp engine with
      | (.error cause, engine) => s.failStart cause engine.world
      | (.ok report, engine) =>
        let autoStepMs := s.scenario.autoStepMs.or s.autoStepMs
        (.ok report, { s.publish engine with readiness := .ready, autoStepMs })

/-! ### Running -/

/-- Run steps one after another and publish a snapshot after each. -/
def runSteps (s : Simulation σ) (e : Engine σ Course) :
    Nat → Except SimulationError (List StepReport) × Simulation σ
  | 0 => (.ok [], s)
  | count + 1 =>
    match e.runStep with
    | (.error cause, e) => (.error (.ofStepError cause), { s with stage := .running e })
    | (.ok report, e) =>
      let (reports, s) := runSteps (s.publish e) e count
      (reports.map (report :: ·), s)

/-- Run `count` steps, or at most one where nodes are on several servers. -/
def run (s : Simulation σ) (count : Nat) :
    Except SimulationError (List StepReport) × Simulation σ :=
  match s.stage with
  | .idle _ => (.error .notStarted, s)
  | .running e => s.runSteps e (if e.isDistributed then min count 1 else count)

/-- Give the engine up. -/
def abort (s : Simulation σ) : Simulation σ :=
  { s.clear .pending s.stage.world with autoStepMs := none }

/-- What waiting for the network comes to, once it does. -/
def wait? (s : Simulation σ) : Option (Except SimulationError Unit) :=
  match s.readiness with
  | .pending => none
  | .ready => some (.ok ())
  | .failed cause => some (.error (.setupFailed cause))

/-! ### Steps by themselves -/

/-- Have steps run by themselves from now on. -/
def startAuto (s : Simulation σ) (ms : Nat) : Except SimulationError Unit × Simulation σ :=
  if ms = 0 then (.error (.scenario .zeroAutoStep), s)
  else if s.isStarted then (.ok (), { s with autoStepMs := some ms })
  else (.error .notStarted, s)

/-- No more steps by themselves; the result says whether there were any to come. -/
def stopAuto (s : Simulation σ) : Bool × Simulation σ :=
  (s.autoStepMs.isSome, { s with autoStepMs := none })

/-- Let time pass for `ticks` steps by themselves; after one that fails there are no others. -/
def elapse (s : Simulation σ) : (ticks : Nat) → Simulation σ
  | 0 => s
  | ticks + 1 =>
    match s.run 1 with
    | (.ok _, s) => elapse s ticks
    | (.error _, s) => s

end Simulation

end ProximityNet
