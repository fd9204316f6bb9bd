import ProximityNet.Proofs.Incremental

/-!
# Reachable engines

An engine is reachable if it comes out of a new one by operations and resets, whether or not they
succeed, with hooks and movements set anywhere between them.  What an operation may do to an engine
is said once, so that an invariant has to be checked against three cases only.

* `Engine.changed`, `applyDistances_skipped`, `applyDistances_visits` — the pairs that a step looks at,
  if there are any, and what it does besides;
* `Engine.distancesOf?` — the distances that an operation runs a step with, if it comes to a step;
* `Engine.Performs`, `perform_performs` — all that an operation can do;
* `Engine.ReachableBy` — the engines that allowed operations lead to; `Engine.Reachable` if all are;
* `ReachableBy.invariant` — what every operation keeps holds of all of them;
* `ReachableBy.numbered`, `ReachableBy.keyed` — two invariants that need no condition.
-/

namespace ProximityNet

open Relation (ReflTransGen)

variable {σ μ : Type}

/-- The connections that due work may leave behind. -/
def Setting.Advances (s : Setting σ) (due : Task → Prop) (st st' : ConnectionStore) : Prop :=
  ∃ p p' : Progress σ, p.store = st ∧ ReflTransGen (s.Proceeds due) p p' ∧ p'.store = st'

/-- A property that every due move keeps holds of the connections that are left behind. -/
theorem Setting.Advances.keeps {s : Setting σ} {due : Task → Prop} {st st' : ConnectionStore}
    {I : ConnectionStore → Prop} (h : s.Advances due st st') (hs : st.Numbered)
    (move : ∀ t p p', due t → p.store.Numbered → s.Move t p p' → I p.store → I p'.store)
    (hI : I st) : st'.Numbered ∧ I st' := by
  obtain ⟨p, p', rfl, hproceeds, rfl⟩ := h
  exact proceeds_keeps (I := fun st _ => I st) move hproceeds hs hI

namespace Engine

/-- The pairs that a step with these distances looks at, those of hubs included. -/
def changed (e : Engine σ μ) (distances : DistanceMatrix) : DistanceMatrix :=
  let (changes, tracker) := (e.tracker.ensureOverlay e.nodes.values).track distances
  tracker.applyOverlay changes

/-- The hub overlay that a step lays over the changes. -/
def hubs (e : Engine σ μ) : DistanceMatrix := e.tracker.overlay.getD (hubOverlay e.nodes.values)

theorem changed_eq (e : Engine σ μ) (distances : DistanceMatrix) :
    e.changed distances = (distances.changesSince e.distances).overlay e.hubs := rfl

/-! ### What a step does -/

/-- What a step does, with names for what it compares. -/
theorem applyDistances_eq (e : Engine σ μ) (distances : DistanceMatrix) :
    e.applyDistances distances =
      let tracker := ((e.tracker.ensureOverlay e.nodes.values).track distances).2
      if (e.changed distances).isEmpty && e.step != 0 then
        ({ StepReport.blank e.step 0 with unchanged := true }, { e with tracker, step := e.step + 1 })
      else
        let p := e.reconcileStep (e.changed distances) (tracker.applyOverlay distances)
        (p.report,
          { e with
            tracker
            store := p.store
            step := e.step + 1
            hooks := if e.step = 0 then [] else e.hooks
            world := runHooks p.store (if e.step = 0 then e.hooks else []) p.world }) := rfl

/-- A step in which nothing has changed does nothing. -/
theorem applyDistances_skipped {e : Engine σ μ} {distances : DistanceMatrix}
    (h : ((e.changed distances).isEmpty && e.step != 0) = true) :
    (e.applyDistances distances).1 = { StepReport.blank e.step 0 with unchanged := true } ∧
      (e.applyDistances distances).2.store = e.store ∧
      (e.applyDistances distances).2.world = e.world ∧ (e.changed distances).entries = [] := by
  rw [applyDistances_eq]
  dsimp only
  rw [if_pos h]
  exact ⟨rfl, rfl, rfl, List.isEmpty_iff.mp (Bool.and_eq_true_iff.mp h).1⟩

/-- Any other step makes its visits, with the hub overlay laid over all distances, and has its hooks
run. -/
theorem applyDistances_visits_hubs {e : Engine σ μ} {distances : DistanceMatrix}
    (h : ¬ ((e.changed distances).isEmpty && e.step != 0) = true) :
    ∃ commitError, let p := e.visits (e.changed distances) (distances.overlay e.hubs)
      (e.applyDistances distances).1 = { p.report with commitError } ∧
        (e.applyDistances distances).2.store = p.store ∧
        (e.applyDistances distances).2.world =
          runHooks p.store (if e.step = 0 then e.hooks else [])
            (e.closed (e.changed distances) (distances.overlay e.hubs) p.world) := by
  have hall : ((e.tracker.ensureOverlay e.nodes.values).track distances).2.applyOverlay distances =
      distances.overlay e.hubs := rfl
  obtain ⟨commitError, hstep⟩ :=
    e.reconcileStep_visits (e.changed distances) (distances.overlay e.hubs)
  refine ⟨commitError, ?_⟩
  rw [applyDistances_eq]
  dsimp only
  rw [if_neg h, hall, hstep]
  exact ⟨rfl, rfl, rfl⟩

/-- The same where it does not matter what is laid over the distances. -/
theorem applyDistances_visits {e : Engine σ μ} {distances : DistanceMatrix}
    (h : ¬ ((e.changed distances).isEmpty && e.step != 0) = true) :
    ∃ all commitError, let p := e.visits (e.changed distances) all
      (e.applyDistances distances).1 = { p.report with commitError } ∧
        (e.applyDistances distances).2.store = p.store ∧
        (e.applyDistances distances).2.world =
          runHooks p.store (if e.step = 0 then e.hooks else [])
            (e.closed (e.changed distances) all p.world) := by
  obtain ⟨commitError, hvisits⟩ := applyDistances_visits_hubs h
  exact ⟨_, commitError, hvisits⟩

/-- A step reconciles the changed pairs one by one, and reports the ones that fail. -/
theorem applyDistances_reconciles (e : Engine σ μ) (distances : DistanceMatrix) :
    ∃ p : Progress σ, p.store = e.store ∧ p.report.failures = [] ∧
      (e.applyDistances distances).2.store =
        (e.setting.reconcileAll e.nodes e.step (e.changed distances).entries p).store ∧
      (e.applyDistances distances).1.failures =
        (e.setting.reconcileAll e.nodes e.step (e.changed distances).entries p).report.failures := by
  by_cases hskip : ((e.changed distances).isEmpty && e.step != 0) = true
  · -- there is nothing to reconcile in a step that is skipped
    obtain ⟨hreport, hstore, -, hempty⟩ := applyDistances_skipped hskip
    rw [hempty, hreport]
    exact ⟨e.progress (.blank e.step 0), rfl, rfl, hstore, rfl⟩
  · obtain ⟨all, commitError, hreport, hstore, -⟩ := applyDistances_visits hskip
    rw [hreport]
    exact ⟨e.opened (e.changed distances) all, rfl, rfl, hstore, rfl⟩

/-- An engine that has run a step with these distances. -/
structure Stepped (e : Engine σ μ) (distances : DistanceMatrix) (e' : Engine σ μ) : Prop where
  setting : e'.setting = e.setting
  nodes : e'.nodes = e.nodes
  tracker : e'.tracker = ⟨distances, some (e.tracker.overlay.getD (hubOverlay e.nodes.values))⟩
  step : e'.step = e.step + 1
  store : e.setting.Advances (Task.DueInStep e.nodes e.step (e.changed distances)) e.store e'.store

theorem applyDistances_stepped (e : Engine σ μ) (hs : e.store.Numbered)
    (distances : DistanceMatrix) : e.Stepped distances (e.applyDistances distances).2 := by
  have hstore : e.setting.Advances (Task.DueInStep e.nodes e.step (e.changed distances)) e.store
      (e.applyDistances distances).2.store := by
    obtain ⟨p, hp, _, hstore, _⟩ := e.applyDistances_reconciles distances
    have hps : p.store.Numbered := by
      rw [hp]
      exact hs
    refine ⟨p, _, hp, Setting.reconcileAll_proceeds hps fun x hx => ?_, hstore.symm⟩
    exact SortedMap.get?_eq_some_iff.mpr hx
  refine ⟨?_, ?_, ?_, ?_, hstore⟩
  all_goals
    rw [applyDistances]
    dsimp only
    split <;> rfl

/-! ### What an operation does -/

/-- Engines that differ in their movement, hooks and world only. -/
structure Resembles (e e' : Engine σ μ) : Prop where
  setting : e'.setting = e.setting
  nodes : e'.nodes = e.nodes
  tracker : e'.tracker = e.tracker
  store : e'.store = e.store
  step : e'.step = e.step

theorem Resembles.refl (e : Engine σ μ) : e.Resembles e := ⟨rfl, rfl, rfl, rfl, rfl⟩

theorem resembles_onSetup (e : Engine σ μ) (hook : ConnectionStore → σ → σ) :
    e.Resembles (e.onSetup hook) :=
  ⟨rfl, rfl, rfl, rfl, rfl⟩

theorem resembles_moving (e : Engine σ μ) (movement : Option μ) :
    e.Resembles { e with movement } :=
  ⟨rfl, rfl, rfl, rfl, rfl⟩

variable [Movement μ]

/-- The distances that the movement gives to the next step, if it gives any. -/
def nextDistances? (e : Engine σ μ) : Option DistanceMatrix :=
  match e.movement with
  | none => none
  | some movement =>
    match if e.step = 0 then .ok movement else Movement.advance movement with
    | .error _ => none
    | .ok movement =>
      let distances := Movement.distances movement
      if distances.isEmpty && e.emulationNodes.length > 1 then none else some distances

/-- The distances that an operation runs a step with, if it comes to a step. -/
def distancesOf? (e : Engine σ μ) : Operation → Option DistanceMatrix
  | .apply distances => some distances
  | .step => e.nextDistances?
  | .addNode _ | .connectManagement => none

/-- What an operation may do to an engine. -/
inductive Performs (e : Engine σ μ) : Operation → Engine σ μ → Prop
  /-- The operation fails before it begins. -/
  | idle {op : Operation} {e' : Engine σ μ} (same : e.Resembles e') : Performs e op e'
  | added {node : Node} (new : e.nodes.contains node.id = false) :
      Performs e (.addNode node) { e with nodes := e.nodes.insert node.id node }
  | linked {store' : ConnectionStore} {world' : σ}
      (store : e.setting.Advances (Task.DueInLinking e.nodes e.step) e.store store') :
      Performs e .connectManagement { e with store := store', world := world' }
  | stepped {op : Operation} {distances : DistanceMatrix} {e' : Engine σ μ}
      (takes : e.distancesOf? op = some distances) (stepped : e.Stepped distances e') :
      Performs e op e'

theorem runStep_performs (e : Engine σ μ) (hs : e.store.Numbered) :
    e.Performs .step e.runStep.2 := by
  have hnext : e.distancesOf? .step = e.nextDistances? := rfl
  rw [nextDistances?] at hnext
  rw [runStep]
  cases hm : e.movement with
  | none => exact .idle (.refl e)
  | some movement =>
    rw [hm] at hnext
    dsimp only at hnext ⊢
    cases hr : (if e.step = 0 then Except.ok movement else Movement.advance movement) with
    | error fault => exact .idle (.refl e)
    | ok movement' =>
      rw [hr] at hnext
      dsimp only at hnext ⊢
      have hnodes : ({ e with movement := some movement' } : Engine σ μ).emulationNodes =
        e.emulationNodes := rfl
      rw [hnodes]
      by_cases hempty : ((Movement.distances movement').isEmpty &&
          decide (e.emulationNodes.length > 1)) = true
      · rw [if_pos hempty]
        exact .idle (resembles_moving e (some movement'))
      · rw [if_neg hempty] at hnext ⊢
        obtain ⟨h1, h2, h3, h4, h5⟩ := applyDistances_stepped
          ({ e with movement := some movement' } : Engine σ μ) hs (Movement.distances movement')
        exact .stepped hnext ⟨h1, h2, h3, h4, h5⟩

theorem perform_performs (e : Engine σ μ) (hs : e.store.Numbered) (op : Operation) :
    e.Performs op (e.perform op) := by
  cases op with
  | addNode node =>
    rw [perform, addNode]
    cases hnew : e.nodes.contains node.id with
    | true => exact .idle (.refl e)
    | false => exact .added hnew
  | connectManagement =>
    exact .linked ⟨_, _, rfl, Setting.connectManagement_proceeds
      (p := e.progress (.blank e.step 0)) hs, rfl⟩
  | apply distances => exact .stepped rfl (applyDistances_stepped e hs distances)
  | step => exact runStep_performs e hs

theorem Performs.setting {e e' : Engine σ μ} {op : Operation} (h : e.Performs op e') :
    e'.setting = e.setting := by
  cases h with
  | idle same => exact same.setting
  | added => rfl
  | linked => rfl
  | stepped _ hstepped => exact hstepped.setting

theorem Performs.numbered {e e' : Engine σ μ} {op : Operation} (h : e.Performs op e')
    (hs : e.store.Numbered) : e'.store.Numbered := by
  have advances : ∀ {due st}, e.setting.Advances due e.store st → st.Numbered := fun h =>
    (h.keeps (I := fun _ => True) hs (fun _ _ _ _ _ _ _ => trivial) trivial).1
  cases h with
  | idle same =>
    rw [same.store]
    exact hs
  | added => exact hs
  | linked hstore => exact advances hstore
  | stepped _ hstepped => exact advances hstepped.store

/-! ### Reachable engines -/

/-- The engines that allowed operations lead to. -/
inductive ReachableBy (allowed : Engine σ μ → Operation → Prop) : Engine σ μ → Prop
  | start (setting : Setting σ) (movement : Option μ) (world : σ) :
      ReachableBy allowed (start setting movement world)
  | onSetup {e : Engine σ μ} (h : ReachableBy allowed e) (hook : ConnectionStore → σ → σ) :
      ReachableBy allowed (e.onSetup hook)
  | moving {e : Engine σ μ} (h : ReachableBy allowed e) (movement : μ) :
      ReachableBy allowed { e with movement := some movement }
  | perform {e : Engine σ μ} {op : Operation} (h : ReachableBy allowed e) (hop : allowed e op) :
      ReachableBy allowed (e.perform op)
  | reset {e : Engine σ μ} (h : ReachableBy allowed e) : ReachableBy allowed e.reset

/-- The engines that any operations lead to. -/
abbrev Reachable : Engine σ μ → Prop := ReachableBy fun _ _ => True

namespace ReachableBy

variable {allowed : Engine σ μ → Operation → Prop} {e : Engine σ μ}

/-- A run of allowed operations. -/
theorem run (h : e.ReachableBy allowed) (ops : List Operation) (hops : ∀ e, ∀ op ∈ ops, allowed e op) :
    (e.run ops).ReachableBy allowed := by
  induction ops generalizing e with
  | nil => exact h
  | cons op rest ih =>
    refine ih (h.perform (hops e op List.mem_cons_self)) fun e' op' hmem => ?_
    exact hops e' op' (List.mem_cons_of_mem _ hmem)

theorem mono {allowed' : Engine σ μ → Operation → Prop} (h : e.ReachableBy allowed)
    (hallowed : ∀ e op, allowed e op → allowed' e op) : e.ReachableBy allowed' := by
  induction h with
  | start setting movement world => exact .start setting movement world
  | onSetup _ hook ih => exact ih.onSetup hook
  | moving _ movement ih => exact ih.moving movement
  | perform _ hop ih => exact ih.perform (hallowed _ _ hop)
  | reset _ ih => exact ih.reset

theorem numbered (h : e.ReachableBy allowed) : e.store.Numbered := by
  induction h with
  | start => exact ConnectionStore.numbered_empty
  | onSetup _ _ ih => exact ih
  | moving _ _ ih => exact ih
  | perform _ _ ih => exact (perform_performs _ ih _).numbered ih
  | reset => exact ConnectionStore.numbered_empty

/-- What operations and resets keep, whatever the movement, the hooks and the world are. -/
theorem invariant {I : Engine σ μ → Prop} (h : e.ReachableBy allowed)
    (start : ∀ setting movement world, I (Engine.start setting movement world))
    (resembles : ∀ {e e' : Engine σ μ}, e.Resembles e' → I e → I e')
    (perform : ∀ {e op e'}, e.ReachableBy allowed → allowed e op → e.Performs op e' → I e → I e')
    (reset : ∀ e, I e → I e.reset) : I e := by
  induction h with
  | start setting movement world => exact start setting movement world
  | onSetup _ hook ih => exact resembles (resembles_onSetup _ hook) ih
  | moving _ movement ih => exact resembles (resembles_moving _ (some movement)) ih
  | perform hreach hop ih =>
    exact perform hreach hop (perform_performs _ hreach.numbered _) ih
  | reset _ ih => exact reset _ ih

end ReachableBy

end Engine

/-- Nodes stand under their own ids. -/
theorem Engine.ReachableBy.keyed [Movement μ] {allowed : Engine σ μ → Operation → Prop}
    {e : Engine σ μ} (h : e.ReachableBy allowed) : Keyed e.nodes := by
  refine h.invariant (I := fun e => Keyed e.nodes) ?_ ?_ ?_ ?_
  · intro _ _ _ id x hx
    cases hx
  · intro _ _ hsame hk
    rw [hsame.nodes]
    exact hk
  · intro _ _ _ _ _ hperforms hk
    cases hperforms with
    | idle same =>
      rw [same.nodes]
      exact hk
    | added => exact hk.insert _
    | linked => exact hk
    | stepped _ hstepped =>
      rw [hstepped.nodes]
      exact hk
  · intro _ hk
    exact hk

theorem Engine.reachable_twoNodeEngine : twoNodeEngine.Reachable :=
  (ReachableBy.start ⟨.unshaped .none, .equal, .silent, .local⟩ none ()).run
    (twoNodes.map .addNode) fun _ _ _ => trivial

end ProximityNet
