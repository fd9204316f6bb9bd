import ProximityNet.Proofs.Reachable
import ProximityNet.Proofs.Recording

/-!
# What a reset forgets

A reset drops the links, the distances and the number of the step, and leaves everything else where
it is: the world with the tunnels that were made, the movement of the nodes and what is still to be
done after the first step.  If the answers from outside do not depend on what came before, none of
that can be told from a newly built engine.

* `Backend.Stateless`, `TunnelPolicy.Stateless` — answers that do not depend on the world;
* `TunnelPolicy.Fixed` — one server, or owners that do not change, with tunnels kept somewhere in the
  world; such a policy remembers its tunnels, and still is stateless (`Fixed.stateless`);
* `frozen` — the same answers from a world in which nothing happens;
* `Shows.history`, `Shows.replies` — engines that are seen alike have the same exchanges and replies;
* `Engine.bare`, `Quiet.bare_run` — where hooks do nothing, neither they nor the movement matter;
* `reset_forgets` — a reset engine and a new one behave alike.
-/

namespace ProximityNet

variable {σ τ μ : Type}

/-! ### Answers that do not depend on the world -/

/-- The answers of a backend do not depend on what it has done before. -/
structure Backend.Stateless (b : Backend σ) : Prop where
  start : ∀ site c w w', (b.start site c w).1 = (b.start site c w').1
  perform : ∀ r w w', (b.perform r w).1 = (b.perform r w').1

/-- What a policy says does not depend on the tunnels that there are. -/
structure TunnelPolicy.Stateless (t : TunnelPolicy σ) : Prop where
  isRemote : ∀ w w', t.isRemote w = t.isRemote w'
  ensure : ∀ pair w w', (t.ensure pair w).1 = (t.ensure pair w').1

/-- Nodes that are on one server, or whose owners are settled once and for all, with the tunnels kept
in a part of the world. -/
inductive TunnelPolicy.Fixed : TunnelPolicy σ → Prop
  | single : Fixed .local
  | owned (o : Ownership) (part : Part σ Ownership.Tunnels) : Fixed (o.policy.within part)

/-- Whether a pair gets its tunnel depends on the owners alone. -/
theorem Ownership.ensure_result (o : Ownership) (pair : NodePair) (t t' : Ownership.Tunnels) :
    (o.ensure pair t).1 = (o.ensure pair t').1 := by
  rw [Ownership.ensure, Ownership.ensure]
  split
  · rfl
  · split <;> rfl

theorem TunnelPolicy.Fixed.stateless {t : TunnelPolicy σ} (h : t.Fixed) : t.Stateless := by
  cases h with
  | single =>
    refine ⟨fun _ _ => ?_, fun _ _ _ => ?_⟩
    · rfl
    · rfl
  | owned o part =>
    refine ⟨fun _ _ => rfl, fun pair w w' => ?_⟩
    rw [within_ensure, within_ensure]
    exact o.ensure_result pair (part.get w) (part.get w')

/-- The backend that always answers as `b` does in the world `w`. -/
def Backend.frozen (b : Backend σ) (w : σ) : Backend τ where
  announce _ v := v
  start site c v := ((b.start site c w).1, v)
  perform r v := ((b.perform r w).1, v)

/-- The policy that always answers as `t` does in the world `w`. -/
def TunnelPolicy.frozen (t : TunnelPolicy σ) (w : σ) : TunnelPolicy τ where
  isRemote _ := t.isRemote w
  ensure pair v := ((t.ensure pair w).1, v)
  isDistributed := t.isDistributed

/-- A stateless backend is seen as a frozen one by whoever does not see what it does. -/
theorem Backend.Stateless.frozen_shows {b : Backend σ} (h : b.Stateless) (w : σ) :
    b.Shows (fun _ => ()) (b.frozen w) where
  announce _ _ := rfl
  start site c v := Prod.ext (h.start site c v w) rfl
  perform r v := Prod.ext (h.perform r v w) rfl

theorem TunnelPolicy.Stateless.frozen_shows {t : TunnelPolicy σ} (h : t.Stateless) (w : σ)
    {look : σ → τ} (hlook : ∀ pair v, look (t.ensure pair v).2 = look v) :
    t.Shows look (t.frozen w) where
  isRemote v x y := by rw [h.isRemote v w]; rfl
  ensure pair v := Prod.ext (h.ensure pair v w) (hlook pair v)

/-! ### What engines reply -/

/-- What comes back from an operation. -/
inductive Reply where
  | added (result : Except ReconcileError Unit)
  | linked (result : Except ReconcileError Nat)
  | applied (report : StepReport)
  | stepped (result : Except StepError StepReport)

namespace Engine

variable [Movement μ]

/-- The reply to an operation. -/
def reply (e : Engine σ μ) : Operation → Reply
  | .addNode node => .added ((e.addNode node).map fun _ => ())
  | .connectManagement => .linked e.connectManagement.1
  | .apply distances => .applied (e.applyDistances distances).1
  | .step => .stepped e.runStep.1

/-- The replies to all operations of a run. -/
def replies (e : Engine σ μ) : List Operation → List Reply
  | [] => []
  | op :: rest => e.reply op :: (e.perform op).replies rest

variable {look : τ → σ} {e' : Engine τ μ} {e : Engine σ μ}

theorem Shows.reply (h : e'.Shows look e) (op : Operation) : e'.reply op = e.reply op := by
  cases op with
  | addNode node =>
    rw [Engine.reply, Engine.reply, addNode, addNode, h.nodes]
    split <;> rfl
  | connectManagement => exact congrArg Reply.linked (connectManagement_shows h).1
  | apply distances => exact congrArg Reply.applied (applyDistances_shows h distances).1
  | step => exact congrArg Reply.stepped (runStep_shows h).1

/-- An engine whose world holds more replies as one whose world holds less. -/
theorem Shows.replies (h : e'.Shows look e) (ops : List Operation) :
    e'.replies ops = e.replies ops := by
  induction ops generalizing e' e with
  | nil => rfl
  | cons op rest ih =>
    rw [Engine.replies, Engine.replies, h.reply op, ih (perform_shows h op)]

/-- No operation changes the setting. -/
theorem perform_setting (e : Engine σ μ) (op : Operation) : (e.perform op).setting = e.setting := by
  cases op with
  | addNode node =>
    rw [perform, addNode]
    cases e.nodes.contains node.id <;> rfl
  | connectManagement => rfl
  | apply distances => exact (e.applyDistances_setting distances).1
  | step =>
    show e.runStep.2.setting = e.setting
    rw [runStep]
    split
    · rfl
    · split
      · rfl
      · rename_i next _
        dsimp only
        split
        · rfl
        · exact (applyDistances_setting ({ e with movement := some next } : Engine σ μ) _).1

theorem run_setting (e : Engine σ μ) (ops : List Operation) : (e.run ops).setting = e.setting := by
  induction ops generalizing e with
  | nil => rfl
  | cons op rest ih => exact (ih (e.perform op)).trans (e.perform_setting op)

end Engine

/-! ### Records of engines that are seen alike -/

theorem Setting.Shows.recorded {look : τ → σ} {s' : Setting τ} {s : Setting σ}
    (h : s'.Shows look s) : s'.recorded.Shows (Prod.map look id) s.recorded where
  model := h.model
  pairing := h.pairing
  backend :=
    { announce := fun a w => Prod.ext (h.backend.announce a w.1) rfl
      start := fun site c w => by
        have hstart := h.backend.start site c w.1
        have hanswer := congrArg Prod.fst hstart
        exact Prod.ext hanswer (Prod.ext (congrArg Prod.snd hstart)
          (congrArg (fun answer => w.2 ++ [Exchange.asked site c answer]) hanswer))
      perform := fun r w => by
        have hperform := h.backend.perform r w.1
        have hresult := congrArg Prod.fst hperform
        exact Prod.ext hresult (Prod.ext (congrArg Prod.snd hperform)
          (congrArg (fun result => w.2 ++ [Exchange.performed r result]) hresult)) }
  policy :=
    { isRemote := fun w => h.policy.isRemote w.1
      ensure := fun pair w => by
        have hensure := h.policy.ensure pair w.1
        have hresult := congrArg Prod.fst hensure
        exact Prod.ext hresult (Prod.ext (congrArg Prod.snd hensure) rfl) }

namespace Engine

variable {look : τ → σ} {e' : Engine τ μ} {e : Engine σ μ}

theorem Shows.recorded (h : e'.Shows look e) :
    e'.recorded.Shows (Prod.map look id) e.recorded where
  setting := h.setting.recorded
  nodes := h.nodes
  movement := h.movement
  tracker := h.tracker
  store := h.store
  step := h.step
  hooks := by
    show List.Forall₂ _ (e'.hooks.map _) (e.hooks.map _)
    rw [List.forall₂_map_left_iff, List.forall₂_map_right_iff]
    refine h.hooks.imp fun hook' hook hhook => ?_
    intro st w
    exact Prod.ext (hhook st w.1) rfl
  world := Prod.ext h.world rfl

/-- An engine whose world holds more has the same exchanges as one whose world holds less. -/
theorem Shows.history [Movement μ] (h : e'.Shows look e) (ops : List Operation) :
    e'.history ops = e.history ops :=
  congrArg Prod.snd (run_shows h.recorded ops).world

/-! ### Engines that do not move -/

/-- The same engine, which does not move and has nothing to be done after the first step. -/
def bare (e : Engine σ μ) : Engine σ μ := { e with movement := none, hooks := [] }

/-- What is to be done after the first step does nothing. -/
def Quiet (e : Engine σ μ) : Prop := ∀ hook ∈ e.hooks, ∀ st w, hook st w = w

theorem runHooks_of_idle {hooks : List (ConnectionStore → σ → σ)}
    (h : ∀ hook ∈ hooks, ∀ st w, hook st w = w) (st : ConnectionStore) (w : σ) :
    runHooks st hooks w = w :=
  runHooks_keeps (J := (· = w)) (fun hook hmem v hv => (h hook hmem st v).trans hv) rfl

/-- A step does the same without movement and hooks. -/
theorem Quiet.bare_applyDistances (h : e.Quiet) (distances : DistanceMatrix) :
    e.bare.applyDistances distances =
        ((e.applyDistances distances).1, (e.applyDistances distances).2.bare) ∧
      (e.applyDistances distances).2.Quiet := by
  have hhooks : ∀ hook ∈ (if e.step = 0 then e.hooks else []), ∀ st w, hook st w = w := by
    intro hook hmem
    split at hmem
    · exact h hook hmem
    · cases hmem
  rw [applyDistances_eq, applyDistances_eq]
  by_cases hidle : ((e.changed distances).isEmpty && e.step != 0) = true
  · have hbare : ((e.bare.changed distances).isEmpty && e.bare.step != 0) = true := hidle
    rw [if_pos hidle, if_pos hbare]
    exact ⟨rfl, h⟩
  · have hbare : ¬ ((e.bare.changed distances).isEmpty && e.bare.step != 0) = true := hidle
    rw [if_neg hidle, if_neg hbare]
    dsimp only
    rw [runHooks_of_idle hhooks]
    refine ⟨?_, ?_⟩
    · have hnone : (if e.bare.step = 0 then e.bare.hooks else []) = [] := by split <;> rfl
      have hdone : (if e.bare.step = 0 then [] else e.bare.hooks) = [] := by split <;> rfl
      rw [hnone, hdone]
      rfl
    · intro hook hmem
      dsimp only at hmem
      split at hmem
      · cases hmem
      · exact h hook hmem

variable [Movement μ]

/-- So does every operation that does not move the nodes. -/
theorem Quiet.bare_perform (h : e.Quiet) {op : Operation} (hop : op ≠ .step) :
    e.bare.perform op = (e.perform op).bare ∧ e.bare.reply op = e.reply op ∧
      (e.perform op).Quiet := by
  cases op with
  | addNode node =>
    have hnodes : e.bare.nodes = e.nodes := rfl
    rw [reply, reply, perform, perform, addNode, addNode, hnodes]
    cases e.nodes.contains node.id with
    | true => exact ⟨rfl, rfl, h⟩
    | false => exact ⟨rfl, rfl, h⟩
  | connectManagement => exact ⟨rfl, rfl, h⟩
  | apply distances =>
    obtain ⟨hbare, hquiet⟩ := h.bare_applyDistances distances
    have hreport := congrArg Prod.fst hbare
    exact ⟨congrArg Prod.snd hbare, congrArg Reply.applied hreport, hquiet⟩
  | step => exact absurd rfl hop

theorem Quiet.bare_run (h : e.Quiet) {ops : List Operation} (hops : ∀ op ∈ ops, op ≠ .step) :
    e.bare.run ops = (e.run ops).bare ∧ e.bare.replies ops = e.replies ops := by
  induction ops generalizing e with
  | nil => exact ⟨rfl, rfl⟩
  | cons op rest ih =>
    obtain ⟨hperform, hreply, hquiet⟩ := h.bare_perform (hops op List.mem_cons_self)
    obtain ⟨hrun, hreplies⟩ := ih hquiet fun op' hmem => hops op' (List.mem_cons_of_mem _ hmem)
    rw [run_cons, run_cons, replies, replies, hperform, hreply, hrun, hreplies]
    exact ⟨rfl, rfl⟩

/-! ### Engines without a memory outside -/

/-- The same engine in a world in which nothing happens, with the answers from the world `w`. -/
def frozen (e : Engine σ μ) (w : σ) : Engine Unit μ where
  setting := ⟨e.setting.model, e.setting.pairing, e.setting.backend.frozen w,
    e.setting.policy.frozen w⟩
  nodes := e.nodes
  movement := e.movement
  tracker := e.tracker
  store := e.store
  step := e.step
  hooks := e.hooks.map fun _ _ v => v
  world := ()

omit [Movement μ] in
theorem frozen_shows (hb : e.setting.backend.Stateless) (ht : e.setting.policy.Stateless) (w : σ) :
    e.Shows (fun _ => ()) (e.frozen w) where
  setting := ⟨rfl, rfl, hb.frozen_shows w, ht.frozen_shows w fun _ _ => rfl⟩
  nodes := rfl
  movement := rfl
  tracker := rfl
  store := rfl
  step := rfl
  hooks := by
    show List.Forall₂ _ e.hooks (e.hooks.map _)
    rw [List.forall₂_map_right_iff, List.forall₂_same]
    intro _ _ _ _
    rfl
  world := rfl

omit [Movement μ] in
/-- A record does not make up for the memory that a frozen engine lacks. -/
theorem quiet_recorded_frozen (e : Engine σ μ) (w : σ) : (e.frozen w).recorded.Quiet := by
  intro hook hmem st v
  obtain ⟨idle, hidle, rfl⟩ := List.mem_map.mp hmem
  obtain ⟨_, _, rfl⟩ := List.mem_map.mp hidle
  rfl

/-- All that an engine without a memory outside works with: its answers, taken from the world `w`,
its nodes, links, distances and step. -/
def shadow (e : Engine σ μ) (w : σ) : Engine (Unit × List Exchange) μ := (e.frozen w).recorded.bare

/-- The shadow of an engine runs as the engine does. -/
theorem shadow_run (hb : e.setting.backend.Stateless) (ht : e.setting.policy.Stateless) (w : σ)
    {ops : List Operation} (hops : ∀ op ∈ ops, op ≠ .step) :
    (e.shadow w).replies ops = e.replies ops ∧
      ((e.shadow w).run ops).world.2 = e.history ops ∧
      ((e.shadow w).run ops).store = (e.run ops).store ∧
      ((e.shadow w).run ops).tracker = (e.run ops).tracker ∧
      ((e.shadow w).run ops).step = (e.run ops).step := by
  have hfrozen : e.Shows (fun _ => ()) (e.frozen w) := frozen_shows hb ht w
  have hrecorded := (e.frozen w).recorded_shows
  obtain ⟨hbare, hreplies⟩ := (e.quiet_recorded_frozen w).bare_run hops
  have hrun := run_shows hfrozen ops
  have hrun' := run_shows hrecorded ops
  rw [shadow, hbare]
  refine ⟨?_, ?_, ?_, ?_, ?_⟩
  · rw [hreplies, hrecorded.replies, hfrozen.replies]
  · rw [hfrozen.history]
    rfl
  · exact hrun'.store.trans hrun.store.symm
  · exact hrun'.tracker.trans hrun.tracker.symm
  · exact hrun'.step.trans hrun.step.symm

/-- Engines that differ in their movement, hooks and world only cannot be told apart, if nothing
outside remembers anything. -/
theorem Resembles.alike {e' : Engine σ μ} (h : e.Resembles e') (hb : e.setting.backend.Stateless)
    (ht : e.setting.policy.Stateless) {ops : List Operation} (hops : ∀ op ∈ ops, op ≠ .step) :
    e'.replies ops = e.replies ops ∧ e'.history ops = e.history ops ∧
      (e'.run ops).store = (e.run ops).store ∧ (e'.run ops).tracker = (e.run ops).tracker ∧
      (e'.run ops).step = (e.run ops).step := by
  have hshadow : e'.shadow e.world = e.shadow e.world := by
    rw [shadow, shadow, bare, bare, recorded, recorded, frozen, frozen, h.setting, h.nodes,
      h.tracker, h.store, h.step]
  obtain ⟨h1, h2, h3, h4, h5⟩ := shadow_run hb ht e.world hops
  obtain ⟨h1', h2', h3', h4', h5'⟩ := shadow_run (e := e') (by rw [h.setting]; exact hb)
    (by rw [h.setting]; exact ht) e.world hops
  rw [hshadow] at h1' h2' h3' h4' h5'
  exact ⟨h1'.symm.trans h1, h2'.symm.trans h2, h3'.symm.trans h3, h4'.symm.trans h4,
    h5'.symm.trans h5⟩

end Engine

/-- Whatever an engine has been through, after a reset it replies, tells its backend and keeps what a
newly built engine with the same setting and nodes would, also where tunnels are left from before. -/
theorem reset_forgets [Movement μ] {e new : Engine σ μ} (hb : e.setting.backend.Stateless)
    (ht : e.setting.policy.Fixed) (past : List Operation) {movement : Option μ} {world : σ}
    {nodes : List Node} (hnew : (Engine.start e.setting movement world).addNodes nodes = .ok new)
    (hnodes : new.nodes = (e.run past).nodes) {ops : List Operation}
    (hops : ∀ op ∈ ops, op ≠ .step) :
    let old := (e.run past).reset
    old.replies ops = new.replies ops ∧ old.history ops = new.history ops ∧
      (old.run ops).store = (new.run ops).store ∧
      (old.run ops).distances = (new.run ops).distances ∧
      (old.run ops).tracker.overlay = (new.run ops).tracker.overlay ∧
      (old.run ops).step = (new.run ops).step := by
  intro old
  have hbuilt := Engine.addNodes_eq hnew
  have hsetting : new.setting = e.setting := by rw [hbuilt]; rfl
  have hresembles : new.Resembles old := by
    refine ⟨?_, hnodes.symm, ?_, ?_, ?_⟩
    · rw [hsetting]
      exact e.run_setting past
    all_goals
      rw [hbuilt]
      rfl
  obtain ⟨hreplies, hhistory, hstore, htracker, hstep⟩ := hresembles.alike
    (by rw [hsetting]; exact hb) (by rw [hsetting]; exact ht.stateless) hops
  exact ⟨hreplies, hhistory, hstore, congrArg DistanceTracker.current htracker,
    congrArg DistanceTracker.overlay htracker, hstep⟩

/-- Two servers with a node each. -/
def twoServers : Ownership := ⟨"a", SortedMap.ofList [(⟨1⟩, "a"), (⟨2⟩, "b")]⟩

/-- The two nodes on the two servers; the world holds the tunnels and nothing else. -/
def twoServerEngine : Engine Ownership.Tunnels Stationary :=
  { Engine.start ⟨.unshaped .none, .equal, .silent, twoServers.policy.within .whole⟩ none
      .empty with nodes := twoNodeEngine.nodes }

/-- A tunnel outlives the reset, and the next link comes up as the very first one did. -/
theorem tunnel_left_unnoticed :
    let past := [Operation.apply (apart .zero), .apply (apart .unlimited)]
    let ops := [Operation.connectManagement, .apply (apart .zero)]
    let old := (twoServerEngine.run past).reset
    old.world.contains ⟨⟨1⟩, ⟨2⟩⟩ = true ∧ twoServerEngine.world.contains ⟨⟨1⟩, ⟨2⟩⟩ = false ∧
      (old.run ops).store.active.count = 1 ∧
      old.replies ops = twoServerEngine.replies ops ∧
      old.history ops = twoServerEngine.history ops ∧
      (old.run ops).store = (twoServerEngine.run ops).store ∧
      (old.run ops).distances = (twoServerEngine.run ops).distances ∧
      (old.run ops).tracker.overlay = (twoServerEngine.run ops).tracker.overlay ∧
      (old.run ops).step = (twoServerEngine.run ops).step := by
  intro past ops old
  have hb : twoServerEngine.setting.backend.Stateless := ⟨fun _ _ _ _ => rfl, fun _ _ _ => rfl⟩
  have ht : twoServerEngine.setting.policy.Fixed := .owned twoServers .whole
  have hnew : (Engine.start twoServerEngine.setting none .empty).addNodes twoNodes =
    .ok twoServerEngine := rfl
  refine ⟨by decide +kernel, by decide +kernel, by decide +kernel, ?_⟩
  refine reset_forgets hb ht past hnew rfl fun op hmem => ?_
  rcases List.mem_pair.mp hmem with rfl | rfl
  · exact Operation.noConfusion
  · exact Operation.noConfusion

end ProximityNet
