import ProximityNet.Engine.Basic
import ProximityNet.Proofs.Chains

/-!
# Runs of an engine

A run applies operations to an engine one after another: nodes are made known, linked to the
management node, and steps are run.  An operation may fail; the engine goes on with what was done.

* `Operation`, `Engine.perform`, `Engine.run` — one operation, and a list of them;
* `Setting.Keeps` — a property of nodes, links and world that everything an engine does keeps;
* `Setting.Guards` — a property of the world alone, which only calls can break;
* `Engine.visits`, `reconcileStep_visits` — a step is its visits, with something before and after;
* `Engine.run_kept` — such a property holds after every run.

Nodes are only ever added, so a property may count on the nodes that are known (`Grows`).
-/

namespace ProximityNet

variable {σ μ : Type}

/-- What an engine can be told to do, short of a reset. -/
inductive Operation where
  | addNode (node : Node)
  | connectManagement
  | apply (distances : DistanceMatrix)
  | step

namespace Engine

variable [Movement μ]

/-- The engine after an operation, whether or not it succeeds. -/
def perform (e : Engine σ μ) : Operation → Engine σ μ
  | .addNode node =>
    match e.addNode node with
    | .ok e' => e'
    | .error _ => e
  | .connectManagement => e.connectManagement.2
  | .apply distances => (e.applyDistances distances).2
  | .step => e.runStep.2

/-- The engine after operations in their order. -/
def run (e : Engine σ μ) (ops : List Operation) : Engine σ μ := ops.foldl perform e

@[simp] theorem run_nil (e : Engine σ μ) : e.run [] = e := rfl

@[simp] theorem run_cons (e : Engine σ μ) (op : Operation) (ops : List Operation) :
    e.run (op :: ops) = (e.perform op).run ops := rfl

theorem run_append (e : Engine σ μ) (ops ops' : List Operation) :
    e.run (ops ++ ops') = (e.run ops).run ops' := List.foldl_append

end Engine

/-- Every node that was known is known. -/
def Grows (nodes nodes' : SortedMap NodeId Node) : Prop :=
  ∀ id node, nodes.get? id = some node → nodes'.get? id = some node

theorem Grows.insert {nodes : SortedMap NodeId Node} {node : Node}
    (hnew : nodes.contains node.id = false) : Grows nodes (nodes.insert node.id node) := by
  intro id x hx
  have hne : node.id ≠ id := by
    rintro rfl
    rw [SortedMap.contains, hx] at hnew
    cases hnew
  rw [SortedMap.get?_insert_of_ne nodes node hne, hx]

/-- A task that an engine with these nodes may have. -/
inductive Task.Due (nodes : SortedMap NodeId Node) : Task → Prop
  | follow {v : Visit} {step : Nat} {changed : DistanceMatrix} (h : v.Follows nodes step changed) :
      Due nodes (.follow v)
  | manage {v : Visit} {step : Nat} (h : v.Manages nodes step) : Due nodes (.manage v)

/-- Announcements that are not about one link. -/
def Announcement.isOfStep : Announcement → Bool
  | .adjusting .. => false
  | _ => true

/-- A property of nodes, links and world that everything done under a setting keeps. -/
structure Setting.Keeps (s : Setting σ)
    (I : SortedMap NodeId Node → ConnectionStore → σ → Prop) : Prop where
  move : ∀ {nodes t p p'}, t.Due nodes → p.store.Numbered → s.Move t p p' →
    I nodes p.store p.world → I nodes p'.store p'.world
  announce : ∀ {nodes st w} {a : Announcement}, a.isOfStep = true → I nodes st w →
    I nodes st (s.backend.announce a w)
  finish : ∀ {nodes st w} (step : Nat) (all : DistanceMatrix), I nodes st w →
    I nodes st (s.backend.perform (.finishStep step all) w).2
  grow : ∀ {nodes nodes' st w}, Grows nodes nodes' → I nodes st w → I nodes' st w

/-- A property of the world that every call to the backend and the tunnels keeps. -/
structure Setting.Guards (s : Setting σ) (J : σ → Prop) : Prop where
  announce : ∀ {a w}, J w → J (s.backend.announce a w)
  start : ∀ {site c w answer w'}, s.backend.start site c w = (answer, w') → J w → J w'
  perform : ∀ {r w result w'}, s.backend.perform r w = (result, w') → J w → J w'
  ensure : ∀ {pair w result w'}, s.policy.ensure pair w = (result, w') → J w → J w'

section Guards

variable {s : Setting σ} {J : σ → Prop} {t : Task} {p p' : Progress σ}

theorem Setting.Guards.move (hg : s.Guards J) (h : s.Move t p p') (hJ : J p.world) : J p'.world := by
  cases h with
  | tunnel _ ensure => exact hg.ensure ensure hJ
  | startFailed _ _ start => exact hg.start start hJ
  | refused _ _ start => exact hg.start start hJ
  | createFailed _ _ start _ create => exact hg.perform create (hg.start start hJ)
  | launchFailed _ _ start _ create raise =>
    exact hg.perform raise (hg.perform create (hg.start start hJ))
  | launched _ _ start _ create raise =>
    exact hg.perform raise (hg.perform create (hg.start start hJ))
  | raiseFailed _ _ _ raise => exact hg.perform raise hJ
  | raised _ _ _ raise => exact hg.perform raise hJ
  | lowerFailed _ _ _ _ lower => exact hg.perform lower hJ
  | lowered _ _ _ _ lower => exact hg.perform lower hJ
  | adjustFailed _ _ _ shape => exact hg.perform shape (hg.announce hJ)
  | adjusted _ _ _ _ shape => exact hg.perform shape (hg.announce hJ)
  | hubAdjusted _ _ _ shape => exact hg.perform shape (hg.announce hJ)

theorem Setting.Guards.keeps (hg : s.Guards J) : s.Keeps fun _ _ w => J w where
  move _ _ hmove hJ := hg.move hmove hJ
  announce _ hJ := hg.announce hJ
  finish _ _ hJ := hg.perform rfl hJ
  grow _ hJ := hJ

end Guards

namespace Engine

variable {I : SortedMap NodeId Node → ConnectionStore → σ → Prop} {e : Engine σ μ}

/-- A property holds of an engine, and its hooks keep it. -/
structure Kept (I : SortedMap NodeId Node → ConnectionStore → σ → Prop) (e : Engine σ μ) :
    Prop where
  numbered : e.store.Numbered
  holds : I e.nodes e.store e.world
  hooks : ∀ hook ∈ e.hooks, ∀ nodes st w, I nodes st w → I nodes st (hook st w)

theorem runHooks_keeps {J : σ → Prop} {st : ConnectionStore}
    {hooks : List (ConnectionStore → σ → σ)} (hhooks : ∀ hook ∈ hooks, ∀ w, J w → J (hook st w))
    {w : σ} (hw : J w) : J (runHooks st hooks w) := by
  induction hooks generalizing w with
  | nil => exact hw
  | cons hook rest ih =>
    exact ih (fun h hmem => hhooks h (List.mem_cons_of_mem _ hmem))
      (hhooks hook List.mem_cons_self w hw)

theorem proceeds_holds {due : Task → Prop} {nodes : SortedMap NodeId Node} {s : Setting σ}
    {p p' : Progress σ} (hk : s.Keeps I) (hdue : ∀ t, due t → t.Due nodes)
    (h : Relation.ReflTransGen (s.Proceeds due) p p') (hs : p.store.Numbered)
    (hI : I nodes p.store p.world) : p'.store.Numbered ∧ I nodes p'.store p'.world :=
  Setting.proceeds_keeps (I := fun st w => I nodes st w)
    (fun t _ _ ht hn hmove => hk.move (hdue t ht) hn hmove) h hs hI

/-- A step that has been announced and has made no visit yet. -/
def opened (e : Engine σ μ) (changed all : DistanceMatrix) : Progress σ where
  store := e.store
  report := .blank e.step changed.size
  world := e.setting.backend.announce (.changesPending e.step changed all)
    (e.setting.backend.announce (.stepStarting e.step all) e.world)

/-- A step that has made its visits. -/
def visits (e : Engine σ μ) (changed all : DistanceMatrix) : Progress σ :=
  e.setting.reconcileAll e.nodes e.step changed.entries (e.opened changed all)

/-- The world when a step is finished, before its hooks. -/
def closed (e : Engine σ μ) (changed all : DistanceMatrix) (w : σ) : σ :=
  (e.setting.backend.perform (.finishStep e.step all)
    (e.setting.backend.announce (.changesApplied e.step changed all) w)).2

theorem reconcileStep_visits (e : Engine σ μ) (changed all : DistanceMatrix) :
    ∃ commitError, e.reconcileStep changed all = ⟨(e.visits changed all).store,
      { (e.visits changed all).report with commitError },
      e.closed changed all (e.visits changed all).world⟩ := by
  rw [reconcileStep, closed]
  dsimp only
  have hvisits : e.setting.reconcileAll e.nodes e.step changed.entries ⟨e.store,
      .blank e.step changed.size, e.setting.backend.announce (.changesPending e.step changed all)
        (e.setting.backend.announce (.stepStarting e.step all) e.world)⟩ = e.visits changed all := rfl
  rw [hvisits]
  rcases e.setting.backend.perform (.finishStep e.step all) _ with ⟨cause | _, w⟩
  · exact ⟨some cause, rfl⟩
  · exact ⟨_, rfl⟩

/-- What a step does to links and world before its hooks. -/
theorem reconcileStep_holds (hk : e.setting.Keeps I) (hs : e.store.Numbered)
    (hI : I e.nodes e.store e.world) (changed all : DistanceMatrix) :
    (e.reconcileStep changed all).store.Numbered ∧
      I e.nodes (e.reconcileStep changed all).store (e.reconcileStep changed all).world := by
  have hdue : ∀ t : Task, t.DueInStep e.nodes e.step changed → t.Due e.nodes := by
    intro t ht
    cases t with
    | follow v => exact .follow ht
    | manage v => exact ht.elim
  have hopened : I e.nodes (e.opened changed all).store (e.opened changed all).world :=
    hk.announce rfl (hk.announce rfl hI)
  have hvisits : (e.visits changed all).store.Numbered ∧
      I e.nodes (e.visits changed all).store (e.visits changed all).world :=
    proceeds_holds hk hdue (Setting.reconcileAll_proceeds (p := e.opened changed all) hs
      (fun _ hmem => SortedMap.get?_eq_some_iff.mpr hmem)) hs hopened
  obtain ⟨_, hstep⟩ := e.reconcileStep_visits changed all
  rw [hstep]
  exact ⟨hvisits.1, hk.finish e.step all (hk.announce rfl hvisits.2)⟩

theorem applyDistances_kept (hk : e.setting.Keeps I) (h : e.Kept I) (distances : DistanceMatrix) :
    (e.applyDistances distances).2.Kept I ∧
      (e.applyDistances distances).2.setting = e.setting := by
  rw [applyDistances]
  dsimp only
  split
  · exact ⟨⟨h.numbered, h.holds, h.hooks⟩, rfl⟩
  · obtain ⟨hn, hI⟩ := reconcileStep_holds hk h.numbered h.holds
      (((e.tracker.ensureOverlay e.nodes.values).track distances).2.applyOverlay
        ((e.tracker.ensureOverlay e.nodes.values).track distances).1)
      (((e.tracker.ensureOverlay e.nodes.values).track distances).2.applyOverlay distances)
    refine ⟨⟨hn, ?_, ?_⟩, rfl⟩
    · refine runHooks_keeps (fun hook hmem w hw => ?_) hI
      split at hmem
      · exact h.hooks hook hmem _ _ w hw
      · cases hmem
    · intro hook hmem
      dsimp only at hmem
      split at hmem
      · cases hmem
      · exact h.hooks hook hmem

theorem connectManagement_kept (hk : e.setting.Keeps I) (h : e.Kept I) :
    e.connectManagement.2.Kept I ∧ e.connectManagement.2.setting = e.setting := by
  have hdue : ∀ t : Task, t.DueInLinking e.nodes e.step → t.Due e.nodes := by
    intro t ht
    cases t with
    | follow v => exact ht.elim
    | manage v => exact .manage ht
  obtain ⟨hn, hI⟩ := proceeds_holds hk hdue (Setting.connectManagement_proceeds
    (p := e.progress (.blank e.step 0)) h.numbered) h.numbered h.holds
  exact ⟨⟨hn, hI, h.hooks⟩, rfl⟩

variable [Movement μ]

theorem runStep_kept (hk : e.setting.Keeps I) (h : e.Kept I) :
    e.runStep.2.Kept I ∧ e.runStep.2.setting = e.setting := by
  rw [runStep]
  cases hm : e.movement with
  | none => exact ⟨h, rfl⟩
  | some movement =>
    dsimp only
    generalize (if e.step = 0 then Except.ok movement else Movement.advance movement) = r
    cases r with
    | error fault => exact ⟨h, rfl⟩
    | ok movement' =>
      have h' : ({ e with movement := some movement' } : Engine σ μ).Kept I :=
        ⟨h.numbered, h.holds, h.hooks⟩
      dsimp only
      split
      · exact ⟨h', rfl⟩
      · exact applyDistances_kept (e := { e with movement := some movement' }) hk h' _

theorem perform_kept (hk : e.setting.Keeps I) (h : e.Kept I) (op : Operation) :
    (e.perform op).Kept I ∧ (e.perform op).setting = e.setting := by
  cases op with
  | addNode node =>
    rw [perform, addNode]
    cases hnew : e.nodes.contains node.id with
    | true => exact ⟨h, rfl⟩
    | false =>
      have hgrow := Grows.insert hnew
      exact ⟨⟨h.numbered, hk.grow hgrow h.holds, h.hooks⟩, rfl⟩
  | connectManagement => exact connectManagement_kept hk h
  | apply distances => exact applyDistances_kept hk h distances
  | step => exact runStep_kept hk h

/-- A property that everything done under a setting keeps holds after every run. -/
theorem run_kept (hk : e.setting.Keeps I) (h : e.Kept I) (ops : List Operation) :
    (e.run ops).Kept I ∧ (e.run ops).setting = e.setting := by
  induction ops generalizing e with
  | nil => exact ⟨h, rfl⟩
  | cons op rest ih =>
    obtain ⟨h', hsetting⟩ := perform_kept hk h op
    obtain ⟨hrun, hrest⟩ := ih (by rw [hsetting]; exact hk) h'
    exact ⟨hrun, hrest.trans hsetting⟩

end Engine

end ProximityNet
