import ProximityNet.Proofs.Restart

/-!
# Steps in batches

A started simulation is asked for some number of steps at a time.  On one server it makes no
difference how the steps are divided into batches: the reports, the engine with its links and its
world, and the snapshots are those of all the steps asked for at once, up to the first step that
fails.  On several servers a batch never is more than one step.

* `isDistributed` — whether the nodes of a started simulation are on several servers;
* `andRun`, `runBatches` — a batch after another, as far as none fails;
* `runSteps_running` — steps keep a simulation started, on as many servers as before;
* `run_add` — two batches are one, whether or not they succeed;
* `runBatches_eq` — so are any number of them;
* `batches_add_up` — what becomes of the steps that are asked for, on one server and on several.
-/

namespace ProximityNet

variable {σ : Type}

namespace Simulation

/-- Whether the nodes of a started simulation are on several servers. -/
def isDistributed (s : Simulation σ) : Bool :=
  match s.stage with
  | .idle _ => false
  | .running e => e.isDistributed

/-- Run `count` steps after a batch, unless the batch has failed. -/
def andRun (batch : Except SimulationError (List StepReport) × Simulation σ) (count : Nat) :
    Except SimulationError (List StepReport) × Simulation σ :=
  match batch with
  | (.error cause, s) => (.error cause, s)
  | (.ok reports, s) =>
    let (result, s) := s.run count
    (result.map (reports ++ ·), s)

/-- Run one batch of steps after another; after one that fails there are no others. -/
def runBatches (s : Simulation σ) :
    List Nat → Except SimulationError (List StepReport) × Simulation σ
  | [] => (.ok [], s)
  | count :: rest =>
    match s.run count with
    | (.error cause, s) => (.error cause, s)
    | (.ok reports, s) =>
      let (result, s) := runBatches s rest
      (result.map (reports ++ ·), s)

variable {s : Simulation σ} {e : Engine σ Course}

/-! ### One server and several -/

theorem exists_running (h : s.isStarted = true) : ∃ e, s.stage = .running e := by
  rw [isStarted] at h
  cases hstage : s.stage with
  | idle world =>
    rw [hstage] at h
    cases h
  | running e => exact ⟨e, rfl⟩

theorem isDistributed_of_running (h : s.stage = .running e) :
    s.isDistributed = e.isDistributed := by
  rw [isDistributed, h]

/-- Where all nodes are on one server, as many steps are run as are asked for. -/
theorem run_local (hstage : s.stage = .running e) (hlocal : e.isDistributed = false) (count : Nat) :
    s.run count = s.runSteps e count := by
  rw [run, hstage]
  dsimp only
  rw [hlocal]
  rfl

/-- Where nodes are on several servers, one step is run at most. -/
theorem run_distributed (hstage : s.stage = .running e) (hremote : e.isDistributed = true)
    (count : Nat) : s.run count = s.runSteps e (min count 1) := by
  rw [run, hstage]
  dsimp only
  rw [hremote]
  rfl

theorem isDistributed_runStep (e : Engine σ Course) :
    e.runStep.2.isDistributed = e.isDistributed := by
  have hsetting : e.runStep.2.setting = e.setting := e.perform_setting .step
  rw [Engine.isDistributed, hsetting, Engine.isDistributed]

/-- Steps keep a simulation started, and on as many servers as before. -/
theorem runSteps_running (count : Nat) (hstage : s.stage = .running e) :
    ∃ e', (s.runSteps e count).2.stage = .running e' ∧ e'.isDistributed = e.isDistributed := by
  induction count generalizing s e with
  | zero => exact ⟨e, hstage, rfl⟩
  | succ count ih =>
    have hservers := isDistributed_runStep e
    rw [runSteps]
    rcases hstep : e.runStep with ⟨result, next⟩
    rw [hstep] at hservers
    cases result with
    | error cause => exact ⟨next, rfl, hservers⟩
    | ok report =>
      obtain ⟨e', hstage', hsame⟩ := ih (s := s.publish next) (e := next) rfl
      exact ⟨e', hstage', hsame.trans hservers⟩

/-! ### Two batches -/

/-- A report in front of a batch stands in front of all that is run after it. -/
theorem andRun_cons (report : StepReport)
    (batch : Except SimulationError (List StepReport) × Simulation σ) (count : Nat) :
    andRun (batch.1.map (report :: ·), batch.2) count =
      ((andRun batch count).1.map (report :: ·), (andRun batch count).2) := by
  obtain ⟨result, s⟩ := batch
  cases result with
  | error cause => rfl
  | ok reports =>
    show ((s.run count).1.map (report :: reports ++ ·), _) =
      (((s.run count).1.map (reports ++ ·)).map (report :: ·), _)
    cases (s.run count).1 <;> rfl

/-- On one server two batches are one, whether or not they succeed. -/
theorem run_add (hstage : s.stage = .running e) (hlocal : e.isDistributed = false)
    (first second : Nat) : s.run (first + second) = andRun (s.run first) second := by
  -- on the first batch, whose first step leaves an engine that is on one server as well
  induction first generalizing s e with
  | zero =>
    have hnone : s.run 0 = (.ok [], s) := run_local hstage hlocal 0
    rw [hnone, Nat.zero_add, andRun]
    dsimp only
    cases hbatch : s.run second with
    | mk result s' => cases result <;> rfl
  | succ first ih =>
    have hservers := isDistributed_runStep e
    rw [Nat.succ_add, run_local hstage hlocal, run_local hstage hlocal, runSteps, runSteps]
    rcases hstep : e.runStep with ⟨result, next⟩
    rw [hstep, hlocal] at hservers
    cases result with
    | error cause => rfl
    | ok report =>
      have hnext : (s.publish next).stage = .running next := rfl
      have hrest := ih hnext hservers
      rw [run_local hnext hservers, run_local hnext hservers] at hrest
      dsimp only
      rw [hrest, andRun_cons]

/-! ### Any number of batches -/

/-- On one server batches are one, of as many steps as they have together. -/
theorem runBatches_eq (h : s.isStarted = true) (hlocal : s.isDistributed = false)
    (counts : List Nat) : s.runBatches counts = s.run counts.sum := by
  induction counts generalizing s with
  | nil =>
    obtain ⟨e, hstage⟩ := exists_running h
    rw [isDistributed_of_running hstage] at hlocal
    exact (run_local hstage hlocal 0).symm
  | cons count rest ih =>
    obtain ⟨e, hstage⟩ := exists_running h
    rw [isDistributed_of_running hstage] at hlocal
    rw [List.sum_cons, run_add hstage hlocal, runBatches]
    obtain ⟨e', hstage', hsame⟩ := runSteps_running count hstage
    rw [← run_local hstage hlocal count] at hstage'
    rcases hbatch : s.run count with ⟨result, s'⟩
    rw [hbatch] at hstage'
    cases result with
    | error cause => rfl
    | ok reports =>
      have hlocal' : s'.isDistributed = false := by
        rw [isDistributed_of_running hstage', hsame, hlocal]
      dsimp only
      rw [ih (isStarted_of_running hstage') hlocal']
      rfl

/-- On one server it makes no difference how steps are divided into batches.  When they succeed, the
reports are those of the batches in their order, and the simulation is left with the same engine, the
same world, in which the backend has what it was told, and the same snapshot.  On several servers any
number of steps is one step, and none is none. -/
theorem batches_add_up (h : s.isStarted = true) :
    (s.isDistributed = false →
      (∀ counts, s.runBatches counts = s.run counts.sum) ∧
      ∀ first second reports s', s.run (first + second) = (.ok reports, s') →
        ∃ before between after, s.run first = (.ok before, between) ∧
          between.run second = (.ok after, s') ∧ reports = before ++ after) ∧
    (s.isDistributed = true →
      (∀ count, 1 ≤ count → s.run count = s.run 1) ∧ s.run 0 = (.ok [], s)) := by
  obtain ⟨e, hstage⟩ := exists_running h
  rw [isDistributed_of_running hstage]
  constructor
  · intro hlocal
    refine ⟨runBatches_eq h ((isDistributed_of_running hstage).trans hlocal), ?_⟩
    intro first second reports s' hrun
    rw [run_add hstage hlocal] at hrun
    rcases hfirst : s.run first with ⟨result, between⟩
    rw [hfirst] at hrun
    cases result with
    | error cause => cases hrun
    | ok before =>
      rcases hsecond : between.run second with ⟨result', last⟩
      rw [andRun] at hrun
      dsimp only at hrun
      rw [hsecond] at hrun
      cases result' with
      | error cause => cases hrun
      | ok after =>
        cases hrun
        exact ⟨before, between, after, rfl, hsecond, rfl⟩
  · intro hremote
    refine ⟨fun count hcount => ?_, run_distributed hstage hremote 0⟩
    rw [run_distributed hstage hremote, run_distributed hstage hremote, min_eq_right hcount,
      min_self]

/-- Two nodes on one server, near to each other in every other step. -/
def restless : Scenario :=
  let apart (distance : Distance) : List DistanceEntry := [⟨.ofNat 1, .ofNat 2, distance⟩]
  { Scenario.standard with
    nodeCount := 2
    movement := .replay [apart .zero, apart .unlimited, apart .zero, apart .unlimited] }

/-- The simulation of them, started with a backend that fails to create their link and is recorded. -/
def restlessSimulation : Simulation ((Script × List Exchange) × Ownership.Tunnels) :=
  ((⟨restless, .second, .idle ((miscreation, []), .empty), .pending, .empty, 0, none⟩ :
    Simulation ((Script × List Exchange) × Ownership.Tunnels)).start
      (Script.backend.recorded.within scriptPart) id).2

/-- One step and two more are three steps, in which the link comes up late and is taken down. -/
theorem restless_batches :
    restlessSimulation.isStarted = true ∧ restlessSimulation.isDistributed = false ∧
      (restlessSimulation.run (1 + 2)).1.map (·.map (·.transitions)) = .ok [0, 1, 1] ∧
      restlessSimulation.runBatches [1, 2] = restlessSimulation.run (1 + 2) ∧
      ∃ reports last before between after,
        restlessSimulation.run (1 + 2) = (.ok reports, last) ∧
        restlessSimulation.run 1 = (.ok before, between) ∧
        between.run 2 = (.ok after, last) ∧ reports = before ++ after := by
  have hstarted : restlessSimulation.isStarted = true := by decide +kernel
  have hlocal : restlessSimulation.isDistributed = false := by decide +kernel
  have hruns : (restlessSimulation.run (1 + 2)).1.map (·.map (·.transitions)) = .ok [0, 1, 1] := by
    decide +kernel
  obtain ⟨hbatches, hparts⟩ := (batches_add_up hstarted).1 hlocal
  refine ⟨hstarted, hlocal, hruns, hbatches [1, 2], ?_⟩
  cases hthree : restlessSimulation.run (1 + 2) with
  | mk result last =>
    rw [hthree] at hruns
    cases result with
    | error cause => cases hruns
    | ok reports =>
      obtain ⟨before, between, after, hfirst, hsecond, hsum⟩ := hparts 1 2 reports last hthree
      exact ⟨reports, last, before, between, after, rfl, hfirst, hsecond, hsum⟩

end Simulation

end ProximityNet
