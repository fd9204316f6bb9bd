import ProximityNet.Proofs.Tellings
import ProximityNet.Proofs.Validation
import ProximityNet.Simulation.Basic

/-!
# The life of a simulation

A simulation is started, run and aborted by calls, one after another.  It keeps an engine while it
is started, and shows its readiness and the snapshot published last.  The three are written in
different places, some of them on the way out of a call that fails; this file says that they agree
after every call.

* `Call`, `Outcome`, `play` — calls and what came of them;
* `Outcome.FailedLast` — the latest start failed and no abort has followed;
* `Agrees` — the invariant of a simulation and of what its calls came to;
* `runSteps_shows` — a snapshot keeps up with the engine, also where a step fails;
* `start_cases`, `run_cases` — all that a call can do;
* `Agrees.perform` — the invariant after one call;
* `refused_iff`, `untimely_unchanged` — calls that come at the wrong time change nothing;
* `lifecycle_agrees` — all of it after any number of calls.
-/

namespace ProximityNet

variable {σ μ : Type}

/-! ### Steps that fail -/

namespace Engine

variable [Movement μ]

/-- After a step that fails an engine shows the same of itself. -/
theorem capture_of_error {e e' : Engine σ μ} {cause : StepError}
    (h : e.runStep = (.error cause, e')) : Snapshot.capture e' = Snapshot.capture e := by
  obtain ⟨movement, rfl⟩ := runStep_of_error h
  rfl

end Engine

/-- An error that calls at the wrong time do not fail with. -/
def SimulationError.Timely (cause : SimulationError) : Prop :=
  cause ≠ .alreadyStarted ∧ cause ≠ .notStarted

namespace Simulation

/-! ### Calls -/

/-- What a simulation is called for. A start brings a backend and what this does to the world. -/
inductive Call (σ : Type) where
  | start (backend : Backend σ) (plug : σ → σ)
  | run (count : Nat)
  | abort

/-- What came of a call. -/
inductive Outcome where
  | started (result : Except SimulationError StepReport)
  | ran (result : Except SimulationError (List StepReport))
  | aborted

/-- One call. -/
def perform (s : Simulation σ) : Call σ → Outcome × Simulation σ
  | .start backend plug => let (result, s) := s.start backend plug; (.started result, s)
  | .run count => let (result, s) := s.run count; (.ran result, s)
  | .abort => (.aborted, s.abort)

/-- Calls one after another. -/
def play (s : Simulation σ) : List (Call σ) → List Outcome × Simulation σ
  | [] => ([], s)
  | call :: rest =>
    let (outcome, s) := s.perform call
    let (outcomes, s) := play s rest
    (outcome :: outcomes, s)

namespace Outcome

def isRan : Outcome → Bool
  | ran _ => true
  | _ => false

/-- What a call failed with. -/
def fault? : Outcome → Option SimulationError
  | started (.error cause) | ran (.error cause) => some cause
  | _ => none

/-- A call was refused, because the simulation is started already or because it is not. -/
def Refused (o : Outcome) : Prop := o.fault? = some .alreadyStarted ∨ o.fault? = some .notStarted

/-- The latest start failed with this cause, and no abort has followed. -/
def FailedLast (outcomes : List Outcome) (cause : SimulationError) : Prop :=
  (outcomes.filter fun o => !o.isRan).getLast? = some (.started (.error cause))

variable {outcomes : List Outcome} {cause : SimulationError}

theorem not_refused_of_timely {o : Outcome} (h : ∀ cause, o.fault? = some cause → cause.Timely) :
    ¬ o.Refused := by
  rintro (hrefused | hrefused)
  · exact (h _ hrefused).1 rfl
  · exact (h _ hrefused).2 rfl

theorem not_failedLast_nil : ¬ FailedLast [] cause := nofun

theorem failedLast_started (result : Except SimulationError StepReport) :
    FailedLast (outcomes ++ [started result]) cause ↔ result = .error cause := by
  rw [FailedLast, List.filter_append, List.filter_cons_of_pos rfl, List.filter_nil,
    List.getLast?_concat, Option.some.injEq, started.injEq]

theorem failedLast_ran (result : Except SimulationError (List StepReport)) :
    FailedLast (outcomes ++ [ran result]) cause ↔ FailedLast outcomes cause := by
  rw [FailedLast, List.filter_append, List.filter_cons_of_neg (by simp [isRan]), List.filter_nil,
    List.append_nil, FailedLast]

theorem not_failedLast_aborted : ¬ FailedLast (outcomes ++ [aborted]) cause := by
  rw [FailedLast, List.filter_append, List.filter_cons_of_pos rfl, List.filter_nil,
    List.getLast?_concat]
  nofun

end Outcome

open Outcome

/-! ### What agrees -/

/-- What a simulation shows agrees with what it keeps, and with what its calls came to so far. -/
structure Agrees (s : Simulation σ) (outcomes : List Outcome) : Prop where
  started : s.isStarted = true ↔ s.readiness = .ready
  shown : ∀ e, s.stage = .running e → s.snapshot = .capture e
  blank : s.isStarted = false → s.snapshot = .empty
  /-- Before a start, and after an abort, it is pending. -/
  waiting : s.isStarted = false →
    (s.readiness = .pending ∧ ∀ cause, ¬ FailedLast outcomes cause) ∨
      ∃ cause, s.readiness = .failed cause ∧ FailedLast outcomes cause
  /-- There are no steps but those that are called for. -/
  byCalls : s.autoStepMs = none

variable {s : Simulation σ} {outcomes : List Outcome}

theorem isStarted_of_running {e : Engine σ Course} (h : s.stage = .running e) :
    s.isStarted = true := by
  rw [isStarted, h]
  rfl

theorem make_eq_ok {scenario : Scenario} {tunnels : Part σ Ownership.Tunnels} {world : σ}
    (h : make scenario tunnels world = .ok s) : scenario.validate = .ok () ∧
      s = ⟨scenario, tunnels, .idle world, .pending, .empty, 0, none⟩ := by
  rw [make, check_bind_eq_ok_iff] at h
  exact ⟨h.1, (Except.ok.inj h.2).symm⟩

theorem agrees_make {scenario : Scenario} {tunnels : Part σ Ownership.Tunnels} {world : σ}
    (h : make scenario tunnels world = .ok s) : s.Agrees [] := by
  obtain ⟨-, rfl⟩ := make_eq_ok h
  refine ⟨⟨nofun, nofun⟩, ?_, fun _ => rfl, fun _ => .inl ⟨rfl, fun _ => not_failedLast_nil⟩, rfl⟩
  intro e he
  cases he

/-- A simulation with an engine agrees with its calls whatever they came to. -/
theorem agrees_running {e : Engine σ Course} (hstage : s.stage = .running e)
    (hready : s.readiness = .ready) (hshown : s.snapshot = .capture e) (hauto : s.autoStepMs = none)
    (outcomes : List Outcome) : s.Agrees outcomes := by
  have hstarted := isStarted_of_running hstage
  refine ⟨iff_of_true hstarted hready, ?_, ?_, ?_, hauto⟩
  · intro e' he'
    rw [hstage] at he'
    rw [← Stage.running.inj he']
    exact hshown
  · intro hidle
    rw [hstarted] at hidle
    cases hidle
  · intro hidle
    rw [hstarted] at hidle
    cases hidle

/-- A simulation that is cleared agrees with its calls if its readiness does. -/
theorem agrees_clear {readiness : Readiness} {world : σ} (hauto : s.autoStepMs = none)
    (h : (readiness = .pending ∧ ∀ cause, ¬ FailedLast outcomes cause) ∨
      ∃ cause, readiness = .failed cause ∧ FailedLast outcomes cause) :
    (s.clear readiness world).Agrees outcomes := by
  refine ⟨⟨nofun, fun hready => ?_⟩, ?_, fun _ => rfl, fun _ => h, hauto⟩
  · have hready : readiness = .ready := hready
    rcases h with ⟨rfl, -⟩ | ⟨cause, rfl, -⟩
    · cases hready
    · cases hready
  · intro e he
    cases he

/-! ### Running steps -/

/-- A started simulation stays started with the same readiness, and its snapshot keeps up with the
engine: it is published after every step, and a step that fails changes nothing that is shown. -/
theorem runSteps_shows (count : Nat) {e : Engine σ Course} (hstage : s.stage = .running e)
    (hshown : s.snapshot = .capture e) :
    ∃ e' published, (s.runSteps e count).2 =
      { s with stage := .running e', snapshot := .capture e', published } := by
  -- on the steps still to be run, from whatever engine is there and shown
  induction count generalizing s e with
  | zero =>
    refine ⟨e, s.published, ?_⟩
    rw [← hstage, ← hshown]
    rfl
  | succ count ih =>
    rw [runSteps]
    cases hstep : e.runStep with
    | mk result e' =>
      cases result with
      | error cause =>
        refine ⟨e', s.published, ?_⟩
        rw [Engine.capture_of_error hstep, ← hshown]
      | ok report =>
        obtain ⟨e'', published, h⟩ := ih (s := s.publish e') (e := e') rfl rfl
        refine ⟨e'', published, ?_⟩
        dsimp only
        rw [h]
        rfl

/-- Steps fail with what an engine fails with. -/
theorem runSteps_fault {count : Nat} {e : Engine σ Course} {cause : SimulationError}
    (h : (s.runSteps e count).1 = .error cause) : ∃ err, cause = .ofStepError err := by
  induction count generalizing s e with
  | zero => cases h
  | succ count ih =>
    rw [runSteps] at h
    split at h
    · exact ⟨_, (Except.error.inj h).symm⟩
    · rename_i report e' _
      dsimp only at h
      cases hrest : ((s.publish e').runSteps e' count).1 with
      | error cause' =>
        rw [hrest] at h
        obtain rfl : cause' = cause := Except.error.inj h
        exact ih hrest
      | ok reports =>
        rw [hrest] at h
        cases h

/-! ### What a call can do -/

theorem timely_ofStepError (err : StepError) : (SimulationError.ofStepError err).Timely := by
  cases err with
  | refused cause => exact ⟨nofun, nofun⟩
  | stuck fault => exact ⟨nofun, nofun⟩

theorem timely_of_late {cause : SimulationError} (h : cause.Late) : cause.Timely := by
  cases h with
  | endlessArea => exact ⟨nofun, nofun⟩
  | selfPair node => exact ⟨nofun, nofun⟩
  | crowded node => exact ⟨nofun, nofun⟩

theorem timely_of_setUp {e e' : Engine σ Course} {cause : SimulationError}
    (h : setUp e = (.error cause, e')) : cause.Timely := by
  rw [setUp] at h
  split at h
  · rw [← Except.error.inj (Prod.mk.inj h).1]
    exact ⟨nofun, nofun⟩
  · rename_i linked _
    cases hstep : linked.runStep with
    | mk result stepped =>
      rw [hstep] at h
      cases result with
      | ok report => cases (Prod.mk.inj h).1
      | error err =>
        rw [← Except.error.inj (Prod.mk.inj h).1]
        exact timely_ofStepError err

/-- A start is refused, or it fails and everything is cleared, or there is an engine. -/
theorem start_cases (hs : s.scenario.validate = .ok ()) (backend : Backend σ) (plug : σ → σ) :
    (s.isStarted = true ∧ s.start backend plug = (.error .alreadyStarted, s)) ∨
    (s.isStarted = false ∧ ∃ cause world, s.start backend plug = s.failStart cause world ∧
      cause.Timely) ∨
    (s.isStarted = false ∧ ∃ report e, s.start backend plug =
      (.ok report, { s.publish e with
        readiness := .ready, autoStepMs := s.scenario.autoStepMs.or s.autoStepMs })) := by
  rw [start, isStarted]
  cases s.stage with
  | running e => exact .inl ⟨rfl, rfl⟩
  | idle world =>
    dsimp only
    cases hengine : s.scenario.engine backend s.tunnels (plug world) with
    | error cause =>
      have hlate := ((Scenario.valid_of_validate hs).succeeds_engine hs backend s.tunnels
        (plug world)).2 cause hengine
      exact .inr (.inl ⟨rfl, cause, plug world, rfl, timely_of_late hlate⟩)
    | ok engine =>
      dsimp only
      cases hsetup : setUp engine with
      | mk result e =>
        cases result with
        | error cause => exact .inr (.inl ⟨rfl, cause, e.world, rfl, timely_of_setUp hsetup⟩)
        | ok report => exact .inr (.inr ⟨rfl, report, e, rfl⟩)

/-- Steps are run where there is an engine. -/
theorem run_cases (s : Simulation σ) (count : Nat) :
    (s.isStarted = false ∧ s.run count = (.error .notStarted, s)) ∨
    ∃ e steps, s.stage = .running e ∧ s.run count = s.runSteps e steps := by
  rw [run, isStarted]
  cases s.stage with
  | idle world => exact .inl ⟨rfl, rfl⟩
  | running e => exact .inr ⟨e, _, rfl, rfl⟩

/-! ### One call -/

theorem Agrees.start (h : s.Agrees outcomes) (hs : s.scenario.validate = .ok ())
    (hauto : s.scenario.autoStepMs = none) (backend : Backend σ) (plug : σ → σ) :
    (s.start backend plug).2.Agrees (outcomes ++ [.started (s.start backend plug).1]) := by
  rcases start_cases hs backend plug with ⟨hstarted, hstart⟩ | ⟨-, cause, world, hstart, -⟩ |
    ⟨-, report, e, hstart⟩
  · rw [hstart]
    cases hstage : s.stage with
    | idle world =>
      rw [isStarted, hstage] at hstarted
      cases hstarted
    | running e =>
      exact agrees_running hstage (h.started.mp hstarted) (h.shown e hstage) h.byCalls _
  · rw [hstart]
    exact agrees_clear h.byCalls (.inr ⟨cause, rfl, (failedLast_started _).mpr rfl⟩)
  · rw [hstart]
    refine agrees_running rfl rfl rfl ?_ _
    show s.scenario.autoStepMs.or s.autoStepMs = none
    rw [hauto, h.byCalls]
    rfl

theorem Agrees.run (h : s.Agrees outcomes) (count : Nat) :
    (s.run count).2.Agrees (outcomes ++ [.ran (s.run count).1]) := by
  rcases run_cases s count with ⟨hidle, hrun⟩ | ⟨e, steps, hstage, hrun⟩
  · rw [hrun]
    refine ⟨h.started, h.shown, h.blank, fun hidle => ?_, h.byCalls⟩
    simp only [failedLast_ran]
    exact h.waiting hidle
  · rw [hrun]
    have hstarted := isStarted_of_running hstage
    obtain ⟨e', published, hstate⟩ := runSteps_shows steps hstage (h.shown e hstage)
    rw [hstate]
    refine agrees_running (e := e') rfl ?_ rfl ?_ _
    · exact h.started.mp hstarted
    · exact h.byCalls

theorem agrees_abort (s : Simulation σ) (outcomes : List Outcome) :
    s.abort.Agrees (outcomes ++ [.aborted]) := by
  rw [abort]
  exact agrees_clear (s := { s with autoStepMs := none }) rfl
    (.inl ⟨rfl, fun _ => not_failedLast_aborted⟩)

/-- What a simulation shows agrees after any call. -/
theorem Agrees.perform (h : s.Agrees outcomes) (hs : s.scenario.validate = .ok ())
    (hauto : s.scenario.autoStepMs = none) (call : Call σ) :
    (s.perform call).2.Agrees (outcomes ++ [(s.perform call).1]) := by
  cases call with
  | start backend plug => exact h.start hs hauto backend plug
  | run count => exact h.run count
  | abort => exact agrees_abort s outcomes

theorem runSteps_scenario (s : Simulation σ) (e : Engine σ Course) (count : Nat) :
    (s.runSteps e count).2.scenario = s.scenario := by
  induction count generalizing s e with
  | zero => rfl
  | succ count ih =>
    rw [runSteps]
    split
    · rfl
    · exact ih _ _

/-- A simulation is of one scenario for all its life. -/
theorem perform_scenario (hs : s.scenario.validate = .ok ()) (call : Call σ) :
    (s.perform call).2.scenario = s.scenario := by
  cases call with
  | start backend plug =>
    show (s.start backend plug).2.scenario = s.scenario
    rcases start_cases hs backend plug with ⟨-, h⟩ | ⟨-, cause, world, h, -⟩ | ⟨-, report, e, h⟩
    · rw [h]
    · rw [h]; rfl
    · rw [h]; rfl
  | run count =>
    show (s.run count).2.scenario = s.scenario
    rcases run_cases s count with ⟨-, h⟩ | ⟨e, steps, -, h⟩
    · rw [h]
    · rw [h]
      exact runSteps_scenario s e steps
  | abort => rfl

/-! ### Calls at the wrong time -/

/-- A start of what is started, or a run of what is not. -/
def Call.Untimely (s : Simulation σ) : Call σ → Prop
  | .start _ _ => s.isStarted = true
  | .run _ => s.isStarted = false
  | .abort => False

/-- A call is refused exactly if it comes at the wrong time. -/
theorem refused_iff (hs : s.scenario.validate = .ok ()) (call : Call σ) :
    (s.perform call).1.Refused ↔ call.Untimely s := by
  cases call with
  | start backend plug =>
    show Refused (.started (s.start backend plug).1) ↔ s.isStarted = true
    rcases start_cases hs backend plug with ⟨hstarted, h⟩ | ⟨hidle, cause, world, h, hcause⟩ |
      ⟨hidle, report, e, h⟩
    · rw [h]
      exact iff_of_true (.inl rfl) hstarted
    · rw [h, hidle]
      refine iff_of_false (not_refused_of_timely fun cause' hfault => ?_) Bool.false_ne_true
      rw [← Option.some.inj hfault]
      exact hcause
    · rw [h, hidle]
      exact iff_of_false (not_refused_of_timely nofun) Bool.false_ne_true
  | run count =>
    show Refused (.ran (s.run count).1) ↔ s.isStarted = false
    rcases run_cases s count with ⟨hidle, h⟩ | ⟨e, steps, hstage, h⟩
    · rw [h]
      exact iff_of_true (.inr rfl) hidle
    · rw [h, isStarted_of_running hstage]
      refine iff_of_false (not_refused_of_timely fun cause hfault => ?_) Bool.true_eq_false.mp
      cases hresult : (s.runSteps e steps).1 with
      | ok reports =>
        rw [hresult] at hfault
        cases hfault
      | error cause' =>
        rw [hresult] at hfault
        obtain ⟨err, rfl⟩ := runSteps_fault hresult
        rw [← Option.some.inj hfault]
        exact timely_ofStepError err
  | abort => exact iff_of_false (not_refused_of_timely nofun) id

theorem untimely_unchanged (hs : s.scenario.validate = .ok ()) {call : Call σ}
    (h : call.Untimely s) : (s.perform call).2 = s := by
  cases call with
  | start backend plug =>
    have hstarted : s.isStarted = true := h
    rcases start_cases hs backend plug with ⟨-, h⟩ | ⟨hidle, -⟩ | ⟨hidle, -⟩
    · exact congrArg Prod.snd h
    · rw [hidle] at hstarted
      cases hstarted
    · rw [hidle] at hstarted
      cases hstarted
  | run count =>
    have hidle : s.isStarted = false := h
    rcases run_cases s count with ⟨-, h⟩ | ⟨e, steps, hstage, -⟩
    · exact congrArg Prod.snd h
    · rw [isStarted_of_running hstage] at hidle
      cases hidle
  | abort => exact h.elim

/-! ### All calls -/

/-- What agrees before some calls agrees after them. -/
theorem Agrees.play (h : s.Agrees outcomes) (hs : s.scenario.validate = .ok ())
    (hauto : s.scenario.autoStepMs = none) (calls : List (Call σ)) :
    (s.play calls).2.Agrees (outcomes ++ (s.play calls).1) ∧
      (s.play calls).2.scenario = s.scenario := by
  induction calls generalizing s outcomes with
  | nil =>
    rw [Simulation.play, List.append_nil]
    exact ⟨h, rfl⟩
  | cons call rest ih =>
    have hscenario := perform_scenario hs call
    obtain ⟨hagrees, hrest⟩ := ih (h.perform hs hauto call) (by rw [hscenario]; exact hs)
      (by rw [hscenario]; exact hauto)
    rw [List.append_assoc, List.singleton_append] at hagrees
    exact ⟨hagrees, hrest.trans hscenario⟩

/-- Whatever a simulation is called for and whatever the backends answer, what it shows agrees with
what it keeps after every call, and calls at the wrong time are refused and change nothing. -/
theorem lifecycle_agrees {scenario : Scenario} {tunnels : Part σ Ownership.Tunnels} {world : σ}
    (hmake : make scenario tunnels world = .ok s) (hauto : scenario.autoStepMs = none)
    (calls : List (Call σ)) :
    (s.play calls).2.Agrees (s.play calls).1 ∧
      ∀ call : Call σ, (((s.play calls).2.perform call).1.Refused ↔
          call.Untimely (s.play calls).2) ∧
        (((s.play calls).2.perform call).1.Refused →
          ((s.play calls).2.perform call).2 = (s.play calls).2) := by
  obtain ⟨hs, hnew⟩ := make_eq_ok hmake
  have hsame : s.scenario = scenario := by rw [hnew]
  rw [← hsame] at hs hauto
  obtain ⟨hagrees, hscenario⟩ := (agrees_make hmake).play hs hauto calls
  have hvalid : (s.play calls).2.scenario.validate = .ok () := by rw [hscenario, hs]
  refine ⟨hagrees, fun call => ⟨refused_iff hvalid call, fun hrefused => ?_⟩⟩
  exact untimely_unchanged hvalid ((refused_iff hvalid call).mp hrefused)

/-- Two nodes whose distances are known for two steps, and then for none. -/
def fading : Scenario :=
  let apart (distance : Distance) : List DistanceEntry := [⟨.ofNat 1, .ofNat 2, distance⟩]
  { Scenario.standard with
    nodeCount := 2
    movement := .replay [apart .zero, apart .unlimited, []] }

/-- The second start and the first run are refused, and the second run fails after one more step. -/
def fadingCalls : List (Call Ownership.Tunnels) :=
  [.run 1, .start .silent id, .start .silent id, .run 3]

/-- What is shown is what there is after the step that was run before the one that failed. -/
theorem fading_agrees :
    let s : Simulation Ownership.Tunnels :=
      ⟨fading, ⟨id, fun t _ => t⟩, .idle .empty, .pending, .empty, 0, none⟩
    make fading s.tunnels .empty = .ok s ∧
      (s.play fadingCalls).1.map (·.fault?) = [some .notStarted, none, some .alreadyStarted,
        some (.reconcile (.emptyDistanceMatrix 2))] ∧
      (s.play fadingCalls).2.snapshot.step = 2 ∧
      (s.play fadingCalls).2.Agrees (s.play fadingCalls).1 ∧
      ∀ call : Call Ownership.Tunnels,
        (((s.play fadingCalls).2.perform call).1.Refused ↔
          call.Untimely (s.play fadingCalls).2) ∧
        (((s.play fadingCalls).2.perform call).1.Refused →
          ((s.play fadingCalls).2.perform call).2 = (s.play fadingCalls).2) := by
  intro s
  have hmake : make fading s.tunnels .empty = .ok s := rfl
  refine ⟨hmake, by decide +kernel, by decide +kernel, ?_⟩
  exact lifecycle_agrees hmake rfl fadingCalls

end Simulation

end ProximityNet
