import ProximityNet.Proofs.Runs

/-!
# Engines seen through a part of their world

The world that a backend acts on may hold more than another backend knows of.  `look` reads the
smaller world off the larger one.  When the larger backend does to it what the smaller backend does,
an engine on the larger world runs as one on the smaller world:

* `Backend.Shows`, `TunnelPolicy.Shows`, `Setting.Shows` — the larger one does what the smaller does;
* `Work.Shows` — the same of a piece of work, with a rule for everything work is made of;
* `Engine.Shows`, `Engine.run_shows` — whole runs.
-/

namespace ProximityNet

variable {τ σ μ α β : Type} {look : τ → σ}

/-- What `b'` does is, as far as `look` sees, what `b` does. -/
structure Backend.Shows (look : τ → σ) (b' : Backend τ) (b : Backend σ) : Prop where
  announce : ∀ a w, look (b'.announce a w) = b.announce a (look w)
  start : ∀ site c w,
    ((b'.start site c w).1, look (b'.start site c w).2) = b.start site c (look w)
  perform : ∀ r w, ((b'.perform r w).1, look (b'.perform r w).2) = b.perform r (look w)

structure TunnelPolicy.Shows (look : τ → σ) (t' : TunnelPolicy τ) (t : TunnelPolicy σ) :
    Prop where
  isRemote : ∀ w x y, t'.isRemote w x y = t.isRemote (look w) x y
  ensure : ∀ pair w, ((t'.ensure pair w).1, look (t'.ensure pair w).2) = t.ensure pair (look w)

structure Setting.Shows (look : τ → σ) (s' : Setting τ) (s : Setting σ) : Prop where
  model : s'.model = s.model
  pairing : s'.pairing = s.pairing
  backend : s'.backend.Shows look s.backend
  policy : s'.policy.Shows look s.policy

/-- The step under way, as far as `look` sees. -/
def Progress.seen (look : τ → σ) (p : Progress τ) : Progress σ := ⟨p.store, p.report, look p.world⟩

namespace Work

/-- The work `w'` ends as `w` does, as far as `look` sees. -/
structure Shows (look : τ → σ) (w' : Work τ α) (w : Work σ α) : Prop where
  eq : ∀ p, ((w' p).1, (w' p).2.seen look) = w (p.seen look)

variable {w' : Work τ α} {w : Work σ α}

theorem shows_pure (a : α) : (pure a : Work τ α).Shows look (pure a) := ⟨fun _ => rfl⟩

theorem shows_fail (e : ReconcileError) : (fail e : Work τ α).Shows look (fail e) := ⟨fun _ => rfl⟩

theorem Shows.andThen {f' : α → Work τ β} {f : α → Work σ β} (h : w'.Shows look w)
    (hf : ∀ a, (f' a).Shows look (f a)) : (w' >>= f').Shows look (w >>= f) := by
  refine ⟨fun p => ?_⟩
  have hp := h.eq p
  rcases hr : w' p with ⟨e | a, q⟩
  · rw [hr] at hp
    rw [bind_of_error hr, bind_of_error hp.symm]
  · rw [hr] at hp
    rw [bind_of_ok hr, bind_of_ok hp.symm]
    exact (hf a).eq q

theorem Shows.ite {c : Prop} [Decidable c] {v' : Work τ α} {v : Work σ α} (h : w'.Shows look w)
    (hv : v'.Shows look v) : (if c then w' else v').Shows look (if c then w else v) := by
  split
  · exact h
  · exact hv

theorem Shows.forM {g' : α → Work τ Unit} {g : α → Work σ Unit}
    (h : ∀ a, (g' a).Shows look (g a)) (l : List α) : (l.forM g').Shows look (l.forM g) := by
  induction l with
  | nil => exact shows_pure ()
  | cons a rest ih => exact (h a).andThen fun _ => ih

theorem shows_ofExcept (r : Except ReconcileError α) :
    (ofExcept r : Work τ α).Shows look (ofExcept r) := by
  cases r with
  | ok a => exact shows_pure a
  | error e => exact shows_fail e

theorem Shows.withError (h : w'.Shows look w) (f : ReconcileError → ReconcileError) :
    (w'.withError f).Shows look (w.withError f) := by
  refine ⟨fun p => ?_⟩
  have hp := h.eq p
  rw [Work.withError, Work.withError, ← hp]

theorem Shows.attempt (h : w'.Shows look w) : w'.attempt.Shows look w.attempt := by
  refine ⟨fun p => ?_⟩
  have hp := h.eq p
  rw [Work.attempt, Work.attempt, ← hp]

/-! ### Calls to the backend -/

variable {b' : Backend τ} {b : Backend σ}

theorem shows_announce (hb : b'.Shows look b) (a : Announcement) :
    (announce b' a).Shows look (announce b a) := by
  refine ⟨fun p => ?_⟩
  show (Except.ok (), (⟨p.store, p.report, look (b'.announce a p.world)⟩ : Progress σ)) = _
  rw [hb.announce]
  rfl

theorem shows_ask (hb : b'.Shows look b) (site : LinkSite) (c : Connection) :
    (ask b' site c).Shows look (ask b site c) := by
  refine ⟨fun p => ?_⟩
  have h : b.start site c (p.seen look).world = (_, _) := (hb.start site c p.world).symm
  rw [ask, ask, h]
  rfl

theorem shows_perform (hb : b'.Shows look b) (r : Request) :
    (perform b' r).Shows look (perform b r) := by
  refine ⟨fun p => ?_⟩
  have h : b.perform r (p.seen look).world = (_, _) := (hb.perform r p.world).symm
  rw [perform, perform, h]
  rfl

/-! ### Changes of the store and the report -/

theorem shows_connections : (connections : Work τ _).Shows look connections := ⟨fun _ => rfl⟩

theorem shows_freshId : (freshId : Work τ _).Shows look freshId := ⟨fun _ => rfl⟩

theorem shows_stored (pair : NodePair) (i : InterfacePair) :
    (stored pair i : Work τ _).Shows look (stored pair i) := by
  refine ⟨fun p => ?_⟩
  have hfind : (p.seen look).store.find? pair i = p.store.find? pair i := rfl
  rw [stored, stored, hfind]
  cases p.store.find? pair i <;> rfl

theorem shows_put (c : Connection) : (put c : Work τ _).Shows look (put c) := ⟨fun _ => rfl⟩

theorem shows_modify (pair : NodePair) (i : InterfacePair) (f : Connection → Connection) :
    (modify pair i f : Work τ _).Shows look (modify pair i f) := ⟨fun _ => rfl⟩

theorem shows_setActive (pair : NodePair) (i : InterfacePair) (active : Bool) :
    (setActive pair i active : Work τ _).Shows look (setActive pair i active) := by
  refine ⟨fun p => ?_⟩
  have hset : (p.seen look).store.setActive? pair i active = p.store.setActive? pair i active := rfl
  rw [setActive, setActive, hset]
  cases p.store.setActive? pair i active <;> rfl

theorem shows_count (f : StepReport → StepReport) :
    (count f : Work τ _).Shows look (count f) := ⟨fun _ => rfl⟩

end Work

/-! ### Links -/

open Work

section Links

variable {b' : Backend τ} {b : Backend σ} (hb : b'.Shows look b) (v : Visit)
  (kind : ConnectionKind) (ix iy : Interface) (i : InterfacePair) (c : Connection)
  (shaping : Shaping)
include hb

theorem setUp_shows :
    (setUp b' v kind ix iy i shaping).Shows look (setUp b v kind ix iy i shaping) := by
  refine shows_freshId.andThen fun id => (shows_ask hb _ _).andThen fun answer => Shows.ite ?_ ?_
  · exact (shows_put _).andThen fun _ => (shows_stored _ _).andThen fun _ =>
      (shows_perform hb _).andThen fun _ => (shows_count _).andThen fun _ => shows_pure _
  · exact (shows_count _).andThen fun _ => shows_pure _

theorem bringUp_shows :
    (bringUp b' v kind ix iy i shaping).Shows look (bringUp b v kind ix iy i shaping) :=
  (shows_stored _ _).andThen fun _ => (shows_perform hb _).andThen fun _ =>
    (shows_setActive _ _ _).andThen fun _ => (shows_modify _ _ _).andThen fun _ => shows_count _

theorem takeDown_shows :
    (takeDown b' v c i shaping).Shows look (takeDown b v c i shaping) :=
  (shows_perform hb _).andThen fun _ => (shows_setActive _ _ _).andThen fun _ =>
    (shows_modify _ _ _).andThen fun _ => shows_count _

theorem shape_shows : (shape b' v c i shaping).Shows look (shape b v c i shaping) :=
  (shows_announce hb _).andThen fun _ => shows_perform hb _

end Links

/-! ### Pairs of nodes -/

namespace Setting

variable {s' : Setting τ} {s : Setting σ} (h : s'.Shows look s)
include h

theorem initial_shows : s'.initial = s.initial := by rw [initial, initial, h.model]

theorem decide_shows (kind : ConnectionKind) (d : Distance) : s'.decide kind d = s.decide kind d := by
  rw [decide, decide, initial_shows h, h.model]

theorem candidates_shows (v : Visit) : s'.candidates v = s.candidates v := by
  rw [candidates, candidates, h.pairing]

theorem createLink_shows (v : Visit) (d : LinkDecision) (ix iy : Interface) :
    (s'.createLink v d ix iy).Shows look (s.createLink v d ix iy) := by
  refine shows_connections.andThen fun store => Shows.ite (shows_pure _) ?_
  rw [initial_shows h]
  exact (setUp_shows h.backend ..).andThen fun _ =>
    Shows.ite (bringUp_shows h.backend ..) (shows_pure _)

theorem renewLink_shows (v : Visit) (d : LinkDecision) (i : InterfacePair) :
    (s'.renewLink v d i).Shows look (s.renewLink v d i) := by
  refine (shows_stored _ _).andThen fun c => ?_
  rw [initial_shows h]
  cases c.kind with
  | management => exact shows_pure _
  | central => exact (shape_shows h.backend ..).andThen fun _ => shows_count _
  | user =>
    refine Shows.ite ?_ (takeDown_shows h.backend ..)
    exact (shape_shows h.backend ..).andThen fun _ => (shows_modify _ _ _).andThen fun _ =>
      shows_count _

theorem reviveLink_shows (v : Visit) (d : LinkDecision) (i : InterfacePair) :
    (s'.reviveLink v d i).Shows look (s.reviveLink v d i) :=
  (shows_stored _ _).andThen fun _ => bringUp_shows h.backend ..

theorem renewLinks_shows (v : Visit) (d : LinkDecision) :
    (s'.renewLinks v d).Shows look (s.renewLinks v d) := by
  rw [renewLinks, renewLinks, candidates_shows h]
  have active : ∀ rest' rest, Work.Shows look rest' rest →
      (do
        let store ← Work.connections
        (store.activeInterfaces v.pair).forM (s'.renewLink v d)
        rest' : Work τ Unit).Shows look (do
        let store ← Work.connections
        (store.activeInterfaces v.pair).forM (s.renewLink v d)
        rest) := fun rest' rest hrest =>
    shows_connections.andThen fun _ =>
      (Shows.forM (fun i => renewLink_shows h v d i) _).andThen fun _ => hrest
  cases d.connected with
  | false => exact active _ _ (shows_pure _)
  | true =>
    refine (Shows.forM (fun e : Interface × Interface => createLink_shows h v d e.1 e.2) _).andThen
      fun _ => ?_
    exact active _ _ (shows_connections.andThen fun _ =>
      Shows.forM (fun i => reviveLink_shows h v d i) _)

theorem ensureTunnel_shows (x y : NodeId) (pair : NodePair) :
    (s'.ensureTunnel x y pair).Shows look (s.ensureTunnel x y pair) := by
  refine ⟨fun p => ?_⟩
  have hensure : s.policy.ensure pair (p.seen look).world = (_, _) :=
    (h.policy.ensure pair p.world).symm
  have hremote : s.policy.isRemote (p.seen look).world x y = s'.policy.isRemote p.world x y :=
    (h.policy.isRemote p.world x y).symm
  rw [ensureTunnel, ensureTunnel, hensure, hremote]
  split <;> rfl

theorem reconcileNodes_shows (step : Nat) (pair : NodePair) (d : Distance) (x y : Node) :
    (s'.reconcileNodes step pair d x y).Shows look (s.reconcileNodes step pair d x y) := by
  rw [reconcileNodes, reconcileNodes]
  refine Shows.ite (shows_pure _) ?_
  dsimp only
  rw [decide_shows h]
  refine shows_connections.andThen fun _ => Shows.ite ?_ (shows_pure _)
  exact (ensureTunnel_shows h ..).andThen fun _ => renewLinks_shows h ..

theorem reconcile_shows (nodes : SortedMap NodeId Node) (step : Nat) (pair : NodePair)
    (d : Distance) : (s'.reconcile nodes step pair d).Shows look (s.reconcile nodes step pair d) := by
  rw [reconcile, reconcile]
  cases nodes.get? pair.low with
  | none => exact shows_fail _
  | some x =>
    cases nodes.get? pair.high with
    | none => exact shows_fail _
    | some y => exact reconcileNodes_shows h ..

theorem reconcileAll_shows (nodes : SortedMap NodeId Node) (step : Nat)
    (l : List (NodePair × Distance)) (p : Progress τ) :
    (s'.reconcileAll nodes step l p).seen look = s.reconcileAll nodes step l (p.seen look) := by
  induction l generalizing p with
  | nil => rfl
  | cons e rest ih =>
    obtain ⟨pair, d⟩ := e
    have hp := (reconcile_shows h nodes step pair d).eq p
    rw [reconcileAll, reconcileAll, ← hp]
    generalize s'.reconcile nodes step pair d p = r
    obtain ⟨_ | _, q⟩ := r <;> exact ih _

theorem startManagementLink_shows (v : Visit) (ix iy : Interface) (i : InterfacePair) :
    (s'.startManagementLink v ix iy i).Shows look (s.startManagementLink v ix iy i) := by
  rw [startManagementLink, startManagementLink, initial_shows h]
  refine shows_connections.andThen fun store => ?_
  have hup : ∀ isThere : Bool,
      (if isThere then bringUp s'.backend v .management ix iy i s.initial
        else pure () : Work τ Unit).Shows look
        (if isThere then bringUp s.backend v .management ix iy i s.initial else pure ()) :=
    fun _ => Shows.ite (bringUp_shows h.backend ..) (shows_pure _)
  split
  · exact (shows_pure true).andThen hup
  · exact (setUp_shows h.backend ..).andThen hup

theorem connectToManagement_shows (step : Nat) (management : Node) (iy : Interface)
    (node : Node) : (s'.connectToManagement step management iy node).Shows look
      (s.connectToManagement step management iy node) := by
  rw [connectToManagement, connectToManagement]
  cases node.managementInterface? with
  | none => exact shows_pure _
  | some ix =>
    refine (shows_ofExcept _).andThen fun pair => shows_connections.andThen fun _ =>
      Shows.ite (shows_pure _) ?_
    exact ((startManagementLink_shows h ..).withError _).attempt

theorem connectManagement_shows (nodes : SortedMap NodeId Node) (step : Nat) :
    (s'.connectManagement nodes step).Shows look (s.connectManagement nodes step) := by
  rw [connectManagement, connectManagement]
  cases nodes.get? .management with
  | none => exact shows_pure _
  | some management =>
    dsimp only
    cases management.managementInterface? with
    | none => exact shows_pure _
    | some iy => exact Shows.forM (fun node => connectToManagement_shows h ..) _

end Setting

/-! ### Engines -/

namespace Engine

/-- The engine `e'` is, as far as `look` sees, the engine `e`. -/
structure Shows (look : τ → σ) (e' : Engine τ μ) (e : Engine σ μ) : Prop where
  setting : e'.setting.Shows look e.setting
  nodes : e'.nodes = e.nodes
  movement : e'.movement = e.movement
  tracker : e'.tracker = e.tracker
  store : e'.store = e.store
  step : e'.step = e.step
  hooks : List.Forall₂ (fun h' h => ∀ st w, look (h' st w) = h st (look w)) e'.hooks e.hooks
  world : look e'.world = e.world

variable {e' : Engine τ μ} {e : Engine σ μ}

theorem runHooks_shows {hooks' : List (ConnectionStore → τ → τ)}
    {hooks : List (ConnectionStore → σ → σ)} (st : ConnectionStore)
    (h : List.Forall₂ (fun h' h => ∀ st w, look (h' st w) = h st (look w)) hooks' hooks) (w : τ) :
    look (runHooks st hooks' w) = runHooks st hooks (look w) := by
  induction h generalizing w with
  | nil => rfl
  | cons hhook _ ih =>
    rw [runHooks, runHooks, ih, hhook]

theorem reconcileStep_shows (h : e'.Shows look e) (changed all : DistanceMatrix) :
    (e'.reconcileStep changed all).seen look = e.reconcileStep changed all := by
  have hb := h.setting.backend
  rw [reconcileStep, reconcileStep]
  dsimp only
  generalize hp' : (⟨e'.store, .blank e'.step changed.size, e'.setting.backend.announce
    (.changesPending e'.step changed all) (e'.setting.backend.announce (.stepStarting e'.step all)
      e'.world)⟩ : Progress τ) = p'
  generalize hp : (⟨e.store, .blank e.step changed.size, e.setting.backend.announce
    (.changesPending e.step changed all) (e.setting.backend.announce (.stepStarting e.step all)
      e.world)⟩ : Progress σ) = p
  have hseen : p'.seen look = p := by
    rw [← hp', ← hp, Progress.seen, hb.announce, hb.announce, h.store, h.step, h.world]
  have hvisits := Setting.reconcileAll_shows h.setting e.nodes e.step changed.entries p'
  rw [hseen] at hvisits
  rw [h.nodes, h.step, ← hvisits]
  generalize e'.setting.reconcileAll e.nodes e.step changed.entries p' = q
  have happlied : e.setting.backend.announce (.changesApplied e.step changed all)
      (q.seen look).world =
      look (e'.setting.backend.announce (.changesApplied e.step changed all) q.world) :=
    (hb.announce _ _).symm
  rw [happlied, ← hb.perform]
  rcases e'.setting.backend.perform (.finishStep e.step all)
    (e'.setting.backend.announce (.changesApplied e.step changed all) q.world) with ⟨_ | _, w⟩ <;> rfl

theorem applyDistances_shows (h : e'.Shows look e) (distances : DistanceMatrix) :
    (e'.applyDistances distances).1 = (e.applyDistances distances).1 ∧
      (e'.applyDistances distances).2.Shows look (e.applyDistances distances).2 := by
  rw [applyDistances, applyDistances, h.nodes, h.tracker]
  dsimp only
  generalize ((e.tracker.ensureOverlay e.nodes.values).track distances).2 = tracker
  generalize tracker.applyOverlay
    ((e.tracker.ensureOverlay e.nodes.values).track distances).1 = changed
  generalize tracker.applyOverlay distances = all
  rw [h.step]
  by_cases hidle : (changed.isEmpty && e.step != 0) = true
  · rw [if_pos hidle, if_pos hidle]
    exact ⟨rfl, ⟨h.setting, rfl, h.movement, rfl, h.store, rfl, h.hooks, h.world⟩⟩
  · rw [if_neg hidle, if_neg hidle]
    have hreconcile := reconcileStep_shows h changed all
    have hreport : (e'.reconcileStep changed all).report = (e.reconcileStep changed all).report :=
      congrArg Progress.report hreconcile
    have hstore : (e'.reconcileStep changed all).store = (e.reconcileStep changed all).store :=
      congrArg Progress.store hreconcile
    have hworld : look (e'.reconcileStep changed all).world = (e.reconcileStep changed all).world :=
      congrArg Progress.world hreconcile
    refine ⟨hreport, ⟨h.setting, rfl, h.movement, rfl, hstore, rfl, ?_, ?_⟩⟩
    · dsimp only
      split
      · exact List.Forall₂.nil
      · exact h.hooks
    · dsimp only
      have hhooks : List.Forall₂ (fun h' h => ∀ st w, look (h' st w) = h st (look w))
          (if e.step = 0 then e'.hooks else []) (if e.step = 0 then e.hooks else []) := by
        split
        · exact h.hooks
        · exact List.Forall₂.nil
      rw [hstore, runHooks_shows _ hhooks, hworld]

theorem connectManagement_shows (h : e'.Shows look e) :
    e'.connectManagement.1 = e.connectManagement.1 ∧
      e'.connectManagement.2.Shows look e.connectManagement.2 := by
  have hseen : (e'.progress (.blank e'.step 0)).seen look = e.progress (.blank e.step 0) := by
    rw [progress, progress, Progress.seen, h.store, h.step, h.world]
  have hwork := (Setting.connectManagement_shows h.setting e.nodes e.step).eq
    (e'.progress (.blank e'.step 0))
  rw [hseen] at hwork
  rw [connectManagement, connectManagement, ← hwork, h.nodes]
  rw [show e'.setting.connectManagement e.nodes e'.step = e'.setting.connectManagement e.nodes
    e.step by rw [h.step]]
  exact ⟨rfl, ⟨h.setting, rfl, h.movement, h.tracker, rfl, h.step, h.hooks, rfl⟩⟩

variable [Movement μ]

theorem runStep_shows (h : e'.Shows look e) :
    e'.runStep.1 = e.runStep.1 ∧ e'.runStep.2.Shows look e.runStep.2 := by
  have hnodes : e'.emulationNodes = e.emulationNodes := by
    rw [emulationNodes, emulationNodes, h.nodes]
  rw [runStep, runStep, h.movement]
  cases hm : e.movement with
  | none => exact ⟨rfl, h⟩
  | some movement =>
    have hadvance : (if e'.step = 0 then Except.ok movement else Movement.advance movement) =
        if e.step = 0 then Except.ok movement else Movement.advance movement := by rw [h.step]
    dsimp only
    rw [hadvance]
    generalize (if e.step = 0 then Except.ok movement else Movement.advance movement) = r
    cases r with
    | error fault => exact ⟨rfl, h⟩
    | ok movement' =>
      have hmoved : ({ e' with movement := some movement' } : Engine τ μ).Shows look
          { e with movement := some movement' } :=
        ⟨h.setting, h.nodes, rfl, h.tracker, h.store, h.step, h.hooks, h.world⟩
      dsimp only
      rw [show ({ e' with movement := some movement' } : Engine τ μ).emulationNodes =
        ({ e with movement := some movement' } : Engine σ μ).emulationNodes from hnodes]
      split
      · exact ⟨by rw [h.step], hmoved⟩
      · obtain ⟨hreport, hengine⟩ := applyDistances_shows hmoved (Movement.distances movement')
        exact ⟨congrArg Except.ok hreport, hengine⟩

theorem perform_shows (h : e'.Shows look e) (op : Operation) :
    (e'.perform op).Shows look (e.perform op) := by
  cases op with
  | addNode node =>
    rw [perform, perform, addNode, addNode, h.nodes]
    cases e.nodes.contains node.id with
    | true => exact h
    | false => exact ⟨h.setting, rfl, h.movement, h.tracker, h.store, h.step, h.hooks, h.world⟩
  | connectManagement => exact (connectManagement_shows h).2
  | apply distances => exact (applyDistances_shows h distances).2
  | step => exact (runStep_shows h).2

/-- An engine whose world holds more runs as one whose world holds less. -/
theorem run_shows (h : e'.Shows look e) (ops : List Operation) :
    (e'.run ops).Shows look (e.run ops) := by
  induction ops generalizing e' e with
  | nil => exact h
  | cons op rest ih => exact ih (perform_shows h op)

end Engine

end ProximityNet
