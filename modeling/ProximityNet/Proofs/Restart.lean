import ProximityNet.Proofs.Creations
import ProximityNet.Proofs.Forgetting
import ProximityNet.Proofs.Lifecycle

/-!
# A restart is a fresh start

A simulation that is aborted, or whose start fails, keeps the world that its engine acted on, with the
tunnels that were made in it.  The next start puts a new engine together and plugs a backend in.  What
comes of it cannot be told from the first start of a new simulation, although the two worlds may
differ in everything that the backend does not see.

* `Scenario.engine_world`, `Scenario.engine_fits` — an engine depends on the world in nothing but its
  world;
* `Engine.onto`, `Engine.onto_shows` — the same engine on the world that the backend sees;
* `StagesAlike`, `Waiting`, `Twins` — two simulations that are seen alike from outside, before a start
  and after it;
* `Waiting.start`, `Twins.perform`, `Twins.play` — starts lead to twins, and calls keep them so;
* `restart_is_fresh` — whatever happened before the start.
-/

namespace ProximityNet

variable {σ β τ μ : Type}

theorem Backend.within_shows {place : Part σ τ} (h : place.Lawful) (b : Backend τ) :
    (b.within place).Shows place.get b where
  announce _ _ := h _ _
  start _ _ _ := Prod.ext rfl (h _ _)
  perform _ _ := Prod.ext rfl (h _ _)

/-! ### Engines of a scenario -/

namespace Engine

/-- Adding nodes has nothing to do with the world. -/
theorem addNodes_world (e : Engine σ μ) (nodes : List Node) (w : σ) :
    ({ e with world := w } : Engine σ μ).addNodes nodes =
      (e.addNodes nodes).map fun e' => { e' with world := w } := by
  induction nodes generalizing e with
  | nil => rfl
  | cons node rest ih =>
    rw [addNodes, addNodes, addNode, addNode]
    dsimp only
    cases e.nodes.contains node.id with
    | true => rfl
    | false => exact ih { e with nodes := e.nodes.insert node.id node }

/-- The same engine with a backend that acts on another world, where no tunnels are kept; what there
is to be said about them is what is said in the world `w`. -/
def onto (e : Engine σ μ) (b : Backend τ) (w : σ) (v : τ) : Engine τ μ where
  setting := ⟨e.setting.model, e.setting.pairing, b, e.setting.policy.frozen w⟩
  nodes := e.nodes
  movement := e.movement
  tracker := e.tracker
  store := e.store
  step := e.step
  hooks := []
  world := v

end Engine

namespace Scenario

variable {scenario : Scenario} {backend : Backend σ} {tunnels : Part σ Ownership.Tunnels}

theorem policy_fixed (scenario : Scenario) (tunnels : Part σ Ownership.Tunnels) :
    (scenario.policy tunnels).Fixed := by
  rw [policy]
  cases scenario.distribution with
  | none => exact .single
  | some o => exact .owned o tunnels

/-- What is apart from the tunnels is not touched when a tunnel is made. -/
theorem policy_ensure_apart {place : Part σ τ} (h : place.Apart tunnels) (pair : NodePair) (w : σ) :
    place.get ((scenario.policy tunnels).ensure pair w).2 = place.get w := by
  rw [policy]
  cases scenario.distribution with
  | none => rfl
  | some o => exact h _ w

/-- The link model, the movement and the nodes of a scenario. -/
def parts (s : Scenario) : Except SimulationError (LinkModel × Course × List Node) := do
  s.validate
  let model ← s.linkModel
  let course ← s.course
  let nodes ← s.nodes.mapError .topology
  return (model, course, nodes)

/-- An engine is put together from parts that have nothing to do with the world. -/
theorem engine_eq (scenario : Scenario) (backend : Backend σ) (tunnels : Part σ Ownership.Tunnels)
    (w : σ) : scenario.engine backend tunnels w = scenario.parts >>= fun (model, course, nodes) =>
      ((Engine.start ⟨model, scenario.pairing.pairing, backend, scenario.policy tunnels⟩ (some course)
        (tunnels.set .empty w)).addNodes nodes).mapError .reconcile := by
  rw [engine, parts]
  cases scenario.validate with
  | error cause => rfl
  | ok _ =>
    cases scenario.linkModel with
    | error cause => rfl
    | ok model =>
      cases scenario.course with
      | error cause => rfl
      | ok course => cases scenario.nodes <;> rfl

/-- So the engine does not depend on the world that it is put into. -/
theorem engine_world (scenario : Scenario) (backend : Backend σ)
    (tunnels : Part σ Ownership.Tunnels) (w w' : σ) :
    scenario.engine backend tunnels w' =
      (scenario.engine backend tunnels w).map fun e => { e with world := tunnels.set .empty w' } := by
  rw [engine_eq, engine_eq]
  cases scenario.parts with
  | error cause => rfl
  | ok parts =>
    obtain ⟨model, course, nodes⟩ := parts
    have hadd := Engine.addNodes_world (Engine.start ⟨model, scenario.pairing.pairing, backend,
      scenario.policy tunnels⟩ (some course) (tunnels.set .empty w)) nodes (tunnels.set .empty w')
    refine (congrArg (Except.mapError SimulationError.reconcile) hadd).trans ?_
    show _ = Except.map _ (Except.mapError SimulationError.reconcile
      ((Engine.start _ _ _).addNodes nodes))
    cases (Engine.start ⟨model, scenario.pairing.pairing, backend, scenario.policy tunnels⟩
      (some course) (tunnels.set .empty w)).addNodes nodes <;> rfl

/-- What an engine of a scenario is given. -/
theorem engine_fits {w : σ} {e : Engine σ Course}
    (h : scenario.engine backend tunnels w = .ok e) : e.setting.backend = backend ∧
      e.setting.policy = scenario.policy tunnels ∧ e.hooks = [] ∧
      e.world = tunnels.set .empty w := by
  rw [engine_eq] at h
  cases hparts : scenario.parts with
  | error cause =>
    rw [hparts] at h
    cases h
  | ok parts =>
    obtain ⟨model, course, nodes⟩ := parts
    rw [hparts] at h
    have hadd := eq_ok_of_mapError h
    rw [Engine.addNodes_eq hadd]
    exact ⟨rfl, rfl, rfl, rfl⟩

end Scenario

/-- An engine of a scenario is seen as an engine on the world that its backend is in. -/
theorem Engine.onto_shows {place : Part σ τ} {scenario : Scenario}
    {tunnels : Part σ Ownership.Tunnels} {e : Engine σ μ} {b : Backend τ}
    (hb : e.setting.backend.Shows place.get b) (ht : e.setting.policy = scenario.policy tunnels)
    (hapart : place.Apart tunnels) (hhooks : e.hooks = []) (w : σ) :
    e.Shows place.get (e.onto b w (place.get e.world)) where
  setting := by
    refine ⟨rfl, rfl, hb, ?_⟩
    have hfixed : e.setting.policy.Fixed := by
      rw [ht]
      exact scenario.policy_fixed tunnels
    refine hfixed.stateless.frozen_shows w fun pair w' => ?_
    rw [ht]
    exact Scenario.policy_ensure_apart hapart pair w'
  nodes := rfl
  movement := rfl
  tracker := rfl
  store := rfl
  step := rfl
  hooks := by
    rw [hhooks]
    exact .nil
  world := rfl

/-! ### Engines that are seen alike -/

/-- Two engines that are seen as one by whoever sees no more of their worlds than `look` does. -/
structure Engine.Alike (look : σ → τ) (e e' : Engine σ μ) : Prop where
  seen : ∃ e₀ : Engine τ μ, e.Shows look e₀ ∧ e'.Shows look e₀
  distributed : e'.isDistributed = e.isDistributed

namespace Engine.Alike

variable {look : σ → τ} {e e' : Engine σ μ}

theorem world (h : e.Alike look e') : look e.world = look e'.world := by
  obtain ⟨e₀, hshows, hshows'⟩ := h.seen
  exact hshows.world.trans hshows'.world.symm

/-- They show the same of themselves. -/
theorem capture (h : e.Alike look e') : Snapshot.capture e' = Snapshot.capture e := by
  obtain ⟨e₀, hshows, hshows'⟩ := h.seen
  rw [Snapshot.capture, Snapshot.capture, distances, distances, hshows.step, hshows.tracker,
    hshows.store, hshows'.step, hshows'.tracker, hshows'.store]

theorem connectManagement (h : e.Alike look e') :
    e.connectManagement.1 = e'.connectManagement.1 ∧
      Engine.Alike look e.connectManagement.2 e'.connectManagement.2 := by
  obtain ⟨e₀, hshows, hshows'⟩ := h.seen
  obtain ⟨hresult, hlinked⟩ := connectManagement_shows hshows
  obtain ⟨hresult', hlinked'⟩ := connectManagement_shows hshows'
  exact ⟨hresult.trans hresult'.symm, ⟨_, hlinked, hlinked'⟩, h.distributed⟩

theorem runStep [Movement μ] (h : e.Alike look e') :
    e.runStep.1 = e'.runStep.1 ∧ Engine.Alike look e.runStep.2 e'.runStep.2 := by
  obtain ⟨e₀, hshows, hshows'⟩ := h.seen
  obtain ⟨hresult, hstepped⟩ := runStep_shows hshows
  obtain ⟨hresult', hstepped'⟩ := runStep_shows hshows'
  refine ⟨hresult.trans hresult'.symm, ⟨_, hstepped, hstepped'⟩, ?_⟩
  have hsetting : e.runStep.2.setting = e.setting := e.perform_setting .step
  have hsetting' : e'.runStep.2.setting = e'.setting := e'.perform_setting .step
  rw [isDistributed, isDistributed, hsetting, hsetting']
  exact h.distributed

end Engine.Alike

/-! ### Simulations that are seen alike -/

namespace Simulation

variable {place : Part σ τ} {k : Nat} {s s' : Simulation σ} {e e' : Engine σ Course}

/-- Both are idle in worlds that look alike, or both run engines that do. -/
inductive StagesAlike (look : σ → τ) : Stage σ → Stage σ → Prop
  | idle {w w' : σ} (same : look w = look w') : StagesAlike look (.idle w) (.idle w')
  | running {e e' : Engine σ Course} (alike : e.Alike look e') :
      StagesAlike look (.running e) (.running e')

theorem StagesAlike.world {look : σ → τ} {a a' : Stage σ} (h : StagesAlike look a a') :
    look a.world = look a'.world := by
  cases h with
  | idle same => exact same
  | running alike => exact alike.world

theorem StagesAlike.isRunning {look : σ → τ} {a a' : Stage σ} (h : StagesAlike look a a') :
    a'.isRunning = a.isRunning := by
  cases h with
  | idle => rfl
  | running => rfl

/-- Two simulations of one scenario that both wait for a start; the first has published `k` snapshots
more. -/
structure Waiting (k : Nat) (s s' : Simulation σ) : Prop where
  scenario : s'.scenario = s.scenario
  tunnels : s'.tunnels = s.tunnels
  published : s.published = k + s'.published
  autoStepMs : s'.autoStepMs = s.autoStepMs

/-- Two simulations that are seen alike, but for the number of snapshots published. -/
structure Twins (place : Part σ τ) (k : Nat) (s s' : Simulation σ) : Prop
    extends Waiting k s s' where
  stage : StagesAlike place.get s.stage s'.stage
  readiness : s'.readiness = s.readiness
  snapshot : s'.snapshot = s.snapshot

theorem Waiting.publish (h : Waiting k s s') (halike : e.Alike place.get e')
    (hready : s'.readiness = s.readiness) : Twins place k (s.publish e) (s'.publish e') where
  scenario := h.scenario
  tunnels := h.tunnels
  published := by
    show s.published + 1 = k + (s'.published + 1)
    rw [h.published, Nat.add_assoc]
  autoStepMs := h.autoStepMs
  stage := .running halike
  readiness := hready
  snapshot := halike.capture

theorem Waiting.clear (h : Waiting k s s') {w w' : σ} (hlook : place.get w = place.get w')
    (readiness : Readiness) : Twins place k (s.clear readiness w) (s'.clear readiness w') where
  scenario := h.scenario
  tunnels := h.tunnels
  published := by
    show s.published + 1 = k + (s'.published + 1)
    rw [h.published, Nat.add_assoc]
  autoStepMs := h.autoStepMs
  stage := .idle hlook
  readiness := rfl
  snapshot := rfl

/-! ### Steps -/

theorem setUp_alike (h : e.Alike place.get e') :
    (setUp e).1 = (setUp e').1 ∧ (setUp e).2.Alike place.get (setUp e').2 := by
  obtain ⟨hresult, hlinked⟩ := h.connectManagement
  rw [setUp, setUp]
  rcases hconnect : e.connectManagement with ⟨result, linked⟩
  rcases hconnect' : e'.connectManagement with ⟨result', linked'⟩
  rw [hconnect, hconnect'] at hresult hlinked
  obtain rfl : result = result' := hresult
  cases result with
  | error cause => exact ⟨rfl, hlinked⟩
  | ok count =>
    obtain ⟨hstep, hstepped⟩ := hlinked.runStep
    exact ⟨congrArg (Except.mapError SimulationError.ofStepError) hstep, hstepped⟩

/-- Steps keep twins alike, whether or not one of them fails. -/
theorem Twins.runSteps (h : Twins place k s s') (halike : e.Alike place.get e') (count : Nat) :
    (s.runSteps e count).1 = (s'.runSteps e' count).1 ∧
      Twins place k (s.runSteps e count).2 (s'.runSteps e' count).2 := by
  -- on the steps still to be run
  induction count generalizing s s' e e' with
  | zero => exact ⟨rfl, h⟩
  | succ count ih =>
    obtain ⟨hresult, hstepped⟩ := halike.runStep
    rw [Simulation.runSteps, Simulation.runSteps]
    rcases hstep : e.runStep with ⟨result, next⟩
    rcases hstep' : e'.runStep with ⟨result', next'⟩
    rw [hstep, hstep'] at hresult hstepped
    obtain rfl : result = result' := hresult
    cases result with
    | error cause => exact ⟨rfl, { h with stage := .running hstepped }⟩
    | ok report =>
      obtain ⟨hreports, hrest⟩ := ih (h.publish hstepped h.readiness) hstepped
      exact ⟨congrArg (·.map (report :: ·)) hreports, hrest⟩

theorem Twins.run (h : Twins place k s s') (count : Nat) :
    (s.run count).1 = (s'.run count).1 ∧ Twins place k (s.run count).2 (s'.run count).2 := by
  have hstage := h.stage
  rw [Simulation.run, Simulation.run]
  generalize s.stage = a at hstage
  generalize s'.stage = a' at hstage
  cases hstage with
  | idle => exact ⟨rfl, h⟩
  | running halike =>
    dsimp only
    rw [halike.distributed]
    exact h.runSteps halike _

/-! ### Starts -/

theorem start_of_started (h : s.isStarted = true) (backend : Backend σ) (plug : σ → σ) :
    s.start backend plug = (.error .alreadyStarted, s) := by
  rw [isStarted] at h
  rw [start]
  cases hstage : s.stage with
  | running e => rfl
  | idle w =>
    rw [hstage] at h
    cases h

theorem exists_idle (h : s.isStarted = false) : ∃ w, s.stage = .idle w := by
  rw [isStarted] at h
  cases hstage : s.stage with
  | idle w => exact ⟨w, rfl⟩
  | running e =>
    rw [hstage] at h
    cases h

section Starts

variable {backend : Backend σ} {plug : σ → σ} {b : Backend τ} {v : τ}
  (hb : backend.Shows place.get b) (hplug : ∀ w, place.get (plug w) = v)
include hb hplug

/-- Two simulations that wait for a start and get the same backend become twins, whether or not the
start succeeds. -/
theorem Waiting.start (h : Waiting k s s') (hapart : place.Apart s.tunnels)
    (hidle : s.isStarted = false) (hidle' : s'.isStarted = false) :
    (s.start backend plug).1 = (s'.start backend plug).1 ∧
      Twins place k (s.start backend plug).2 (s'.start backend plug).2 := by
  obtain ⟨w, hstage⟩ := exists_idle hidle
  obtain ⟨w', hstage'⟩ := exists_idle hidle'
  have hlook : place.get (plug w) = place.get (plug w') := by rw [hplug, hplug]
  rw [Simulation.start, Simulation.start, hstage, hstage']
  dsimp only
  rw [h.scenario, h.tunnels, s.scenario.engine_world backend s.tunnels (plug w) (plug w')]
  cases hengine : s.scenario.engine backend s.tunnels (plug w) with
  | error cause => exact ⟨rfl, h.clear hlook _⟩
  | ok e =>
    obtain ⟨hbackend, hpolicy, hhooks, hworld⟩ := Scenario.engine_fits hengine
    obtain ⟨e', he'⟩ : ∃ e', e' = { e with world := s.tunnels.set .empty (plug w') } := ⟨_, rfl⟩
    have halike : e.Alike place.get e' := by
      have hshows := Engine.onto_shows (e := e) (by rw [hbackend]; exact hb) hpolicy hapart hhooks w
      have hshows' := Engine.onto_shows (e := e') (by rw [he', hbackend]; exact hb)
        (by rw [he']; exact hpolicy) hapart (by rw [he']; exact hhooks) w
      have hsame : e'.onto b w (place.get e'.world) = e.onto b w (place.get e.world) := by
        rw [he', hworld]
        dsimp only
        rw [hapart, hapart, hplug, hplug]
        rfl
      rw [hsame] at hshows'
      exact ⟨⟨_, hshows, hshows'⟩, by rw [he']; rfl⟩
    obtain ⟨hresult, hset⟩ := setUp_alike halike
    rw [Except.map, ← he']
    dsimp only
    rcases hsetUp : setUp e with ⟨result, ready⟩
    rcases hsetUp' : setUp e' with ⟨result', ready'⟩
    rw [hsetUp, hsetUp'] at hresult hset
    obtain rfl : result = result' := hresult
    cases result with
    | error cause => exact ⟨rfl, h.clear hset.world _⟩
    | ok report =>
      have hwaiting : Waiting k
          { s with readiness := .ready, autoStepMs := s.scenario.autoStepMs.or s.autoStepMs }
          { s' with readiness := .ready, autoStepMs := s.scenario.autoStepMs.or s'.autoStepMs } :=
        { h with autoStepMs := by rw [h.autoStepMs] }
      exact ⟨rfl, hwaiting.publish hset rfl⟩

/-- A call that brings no other backend than this one. -/
def Call.Brings (backend : Backend σ) (plug : σ → σ) : Call σ → Prop
  | .start backend' plug' => backend' = backend ∧ plug' = plug
  | .run _ | .abort => True

/-- What a call says of twins is the same, and they stay twins. -/
theorem Twins.perform (h : Twins place k s s') (hapart : place.Apart s.tunnels) {call : Call σ}
    (hcall : call.Brings backend plug) :
    (s.perform call).1 = (s'.perform call).1 ∧
      Twins place k (s.perform call).2 (s'.perform call).2 := by
  cases call with
  | start backend' plug' =>
    obtain ⟨rfl, rfl⟩ := hcall
    have hboth : s'.isStarted = s.isStarted := h.stage.isRunning
    cases hstarted : s.isStarted with
    | true =>
      rw [hstarted] at hboth
      rw [Simulation.perform, Simulation.perform, start_of_started hstarted, start_of_started hboth]
      exact ⟨rfl, h⟩
    | false =>
      rw [hstarted] at hboth
      obtain ⟨hresult, htwins⟩ := h.toWaiting.start hb hplug hapart hstarted hboth
      exact ⟨congrArg Outcome.started hresult, htwins⟩
  | run count =>
    obtain ⟨hresult, htwins⟩ := h.run count
    exact ⟨congrArg Outcome.ran hresult, htwins⟩
  | abort => exact ⟨rfl, { h.toWaiting.clear h.stage.world .pending with autoStepMs := rfl }⟩

end Starts

/-! ### Calls -/

theorem runSteps_tunnels (s : Simulation σ) (e : Engine σ Course) (count : Nat) :
    (s.runSteps e count).2.tunnels = s.tunnels := by
  induction count generalizing s e with
  | zero => rfl
  | succ count ih =>
    rw [runSteps]
    split
    · rfl
    · exact ih _ _

/-- A simulation keeps its tunnels in one place for all its life. -/
theorem perform_tunnels (s : Simulation σ) (call : Call σ) :
    (s.perform call).2.tunnels = s.tunnels := by
  cases call with
  | start backend plug =>
    show (s.start backend plug).2.tunnels = s.tunnels
    rw [start]
    split
    · rfl
    · split
      · rfl
      · split <;> rfl
  | run count =>
    show (s.run count).2.tunnels = s.tunnels
    rcases run_cases s count with ⟨-, h⟩ | ⟨e, steps, -, h⟩
    · rw [h]
    · rw [h]
      exact runSteps_tunnels s e steps
  | abort => rfl

theorem play_tunnels (s : Simulation σ) (calls : List (Call σ)) :
    (s.play calls).2.tunnels = s.tunnels := by
  induction calls generalizing s with
  | nil => rfl
  | cons call rest ih => exact (ih (s.perform call).2).trans (s.perform_tunnels call)

/-- Twins stay twins however they are called, and what the calls come to is the same. -/
theorem Twins.play {backend : Backend σ} {plug : σ → σ} {b : Backend τ} {v : τ}
    (hb : backend.Shows place.get b) (hplug : ∀ w, place.get (plug w) = v)
    (h : Twins place k s s') (hapart : place.Apart s.tunnels) {calls : List (Call σ)}
    (hcalls : ∀ call ∈ calls, call.Brings backend plug) :
    (s.play calls).1 = (s'.play calls).1 ∧ Twins place k (s.play calls).2 (s'.play calls).2 := by
  induction calls generalizing s s' with
  | nil => exact ⟨rfl, h⟩
  | cons call rest ih =>
    obtain ⟨houtcome, hnext⟩ := h.perform hb hplug hapart (hcalls call List.mem_cons_self)
    obtain ⟨houtcomes, hrest⟩ := ih hnext (by rw [s.perform_tunnels]; exact hapart)
      fun call' hmem => hcalls call' (List.mem_cons_of_mem _ hmem)
    rw [Simulation.play, Simulation.play]
    exact ⟨congrArg₂ List.cons houtcome houtcomes, hrest⟩

/-- Whatever calls came before, and whatever backends they brought: a simulation that is not started
says the same of the next start and of every call after it, has the same exchanges with the backend,
and shows the same as a new simulation of the scenario that is called in the same way. -/
theorem restart_is_fresh {scenario : Scenario} {tunnels : Part σ Ownership.Tunnels} {w w' : σ}
    {new : Simulation σ} (hmake : make scenario tunnels w = .ok s)
    (hnew : make scenario tunnels w' = .ok new) (hauto : scenario.autoStepMs = none)
    {past : List (Call σ)} (hidle : (s.play past).2.isStarted = false)
    {place : Part σ (τ × List Exchange)} (hplace : place.Lawful) (hapart : place.Apart tunnels)
    (b : Backend τ) (v : τ) {calls : List (Call σ)}
    (hcalls : ∀ call ∈ calls, call.Brings (b.recorded.within place) (place.set (v, []))) :
    let start := Call.start (b.recorded.within place) (place.set (v, []))
    let old := (s.play past).2
    (old.play (start :: calls)).1 = (new.play (start :: calls)).1 ∧
      place.get (old.play (start :: calls)).2.stage.world =
        place.get (new.play (start :: calls)).2.stage.world ∧
      (old.play (start :: calls)).2.readiness = (new.play (start :: calls)).2.readiness ∧
      (old.play (start :: calls)).2.snapshot = (new.play (start :: calls)).2.snapshot ∧
      (old.play (start :: calls)).2.published =
        old.published + (new.play (start :: calls)).2.published := by
  intro start old
  obtain ⟨hs, hmade⟩ := make_eq_ok hmake
  obtain ⟨-, rfl⟩ := make_eq_ok hnew
  have hscenario : s.scenario = scenario := by rw [hmade]
  obtain ⟨hagrees, hsame⟩ := (agrees_make hmake).play (by rw [hscenario]; exact hs)
    (by rw [hscenario]; exact hauto) past
  have htunnels : old.tunnels = tunnels := by
    rw [s.play_tunnels past, hmade]
  have hb := b.recorded.within_shows hplace
  have hplug : ∀ w, place.get (place.set (v, []) w) = (v, []) := hplace (v, [])
  have hwaiting : Waiting old.published old
      ⟨scenario, tunnels, .idle w', .pending, .empty, 0, none⟩ :=
    ⟨(hsame.trans hscenario).symm, htunnels.symm, rfl, hagrees.byCalls.symm⟩
  rw [← htunnels] at hapart
  obtain ⟨hresult, htwins⟩ := hwaiting.start hb hplug hapart hidle rfl
  have hkept : (old.start (b.recorded.within place) (place.set (v, []))).2.tunnels = old.tunnels :=
    old.perform_tunnels start
  obtain ⟨houtcomes, hend⟩ := htwins.play hb hplug (by rw [hkept]; exact hapart) hcalls
  refine ⟨?_, hend.stage.world, hend.readiness.symm, hend.snapshot.symm, hend.published⟩
  exact congrArg₂ List.cons (congrArg Outcome.started hresult) houtcomes

/-- The two nodes on their servers, near to each other and then out of range. -/
def spread : Scenario :=
  let apart (distance : Distance) : List DistanceEntry := [⟨.ofNat 1, .ofNat 2, distance⟩]
  { Scenario.standard with
    nodeCount := 2
    movement := .replay [apart .zero, apart .unlimited]
    distribution := some twoServers }

/-- Where a scripted backend and its record are kept beside the tunnels. -/
def scriptPart : Part ((Script × List Exchange) × Ownership.Tunnels) (Script × List Exchange) :=
  .first

/-- The simulation of it, not started yet. -/
def spreadSimulation : Simulation ((Script × List Exchange) × Ownership.Tunnels) :=
  ⟨spread, .second, .idle (([], []), .empty), .pending, .empty, 0, none⟩

/-- A simulation is aborted in its second step and leaves a tunnel, of which nothing is to be noticed
when it is started again with a backend that fails once. -/
theorem spread_restarts :
    let start := Call.start (Script.backend.recorded.within scriptPart)
      (scriptPart.set (miscreation, []))
    let old := (spreadSimulation.play [start, .run 1, .abort]).2
    make spread .second (([], []), .empty) = .ok spreadSimulation ∧ old.isStarted = false ∧
      old.stage.world.2.contains ⟨⟨1⟩, ⟨2⟩⟩ = true ∧
      spreadSimulation.stage.world.2.contains ⟨⟨1⟩, ⟨2⟩⟩ = false ∧
      (old.play [start, .run 1]).2.snapshot.step = 2 ∧
      (old.play [start, .run 1]).1 = (spreadSimulation.play [start, .run 1]).1 ∧
      scriptPart.get (old.play [start, .run 1]).2.stage.world =
        scriptPart.get (spreadSimulation.play [start, .run 1]).2.stage.world ∧
      (old.play [start, .run 1]).2.readiness =
        (spreadSimulation.play [start, .run 1]).2.readiness ∧
      (old.play [start, .run 1]).2.snapshot =
        (spreadSimulation.play [start, .run 1]).2.snapshot ∧
      (old.play [start, .run 1]).2.published =
        old.published + (spreadSimulation.play [start, .run 1]).2.published := by
  have hvalid : spread.validate = .ok () := by decide +kernel
  have hmake : make spread .second (([], []), .empty) = .ok spreadSimulation := by
    rw [make, hvalid]
    rfl
  have hidle : (spreadSimulation.play [.start (Script.backend.recorded.within scriptPart)
      (scriptPart.set (miscreation, [])), .run 1, .abort]).2.isStarted = false := by
    decide +kernel
  have hcalls : ∀ call ∈ [Call.run 1], call.Brings (Script.backend.recorded.within scriptPart)
      (scriptPart.set (miscreation, [])) := by
    intro call hmem
    rw [List.mem_singleton.mp hmem]
    trivial
  have hplace : scriptPart.Lawful := fun _ _ => rfl
  have hapart : scriptPart.Apart (Part.second : Part _ Ownership.Tunnels) := fun _ _ => rfl
  refine ⟨hmake, hidle, by decide +kernel, by decide +kernel, by decide +kernel, ?_⟩
  exact restart_is_fresh hmake hmake rfl hidle hplace hapart Script.backend miscreation hcalls

end Simulation

end ProximityNet
