import ProximityNet.Proofs.Containment
import ProximityNet.Proofs.Recording

/-!
# What the backend is told of a step

A step tells its backend that it begins and which pairs have changed, visits these pairs one after
another, and tells it that the changes are made.  In between every exchange is about a link of the
pair that is visited.

* `Exchange.link?`, `Exchange.failed` — the link that an exchange is about, and whether it failed;
* `Exchange.Told`, `Move.told` — what a move of a visit may tell, and that it tells nothing else;
* `proceeds_told` — so does all due work;
* `Engine.history_skipped`, `Engine.applyDistances_recorded` — the history of a step, skipped or not;
* `Engine.history_told` — every link that a step mentions is one of a changed pair;
* `Engine.reportOf?`, `Engine.perform_applies` — a step of any kind applies some matrix;
* `Engine.reportOf?_applies` — and tells what it tells for that matrix.
-/

namespace ProximityNet

open Relation (ReflTransGen)

variable {σ τ μ : Type}

/-! ### Exchanges about links -/

namespace Exchange

/-- The link that an exchange is about, if it is about one. -/
def link? : Exchange → Option (LinkSite × Connection)
  | announced (.adjusting site c _ _) => some (site, c)
  | announced _ => none
  | asked site c _ => some (site, c)
  | performed r _ => r.link?.map (·.2)

/-- Whether the backend failed at an exchange. -/
def failed : Exchange → Bool
  | asked _ _ (.error _) | performed _ (.error _) => true
  | _ => false

/-- Whether a link was to be taken down. -/
def lowers : Exchange → Bool
  | performed (.lower ..) _ => true
  | _ => false

/-- An exchange about a link of a pair. -/
def AboutPair (pair : NodePair) (x : Exchange) : Prop :=
  ∃ site c, x.link? = some (site, c) ∧ c.pair = pair

/-- An exchange that a visit may have with the backend: it is about a link between the two nodes, and
no link but one for users is to be taken down. -/
def Told (v : Visit) (x : Exchange) : Prop :=
  ∃ site c, x.link? = some (site, c) ∧ site.x = v.x ∧ site.y = v.y ∧ c.pair = v.pair ∧
    (x.lowers = true → c.kind = .user)

end Exchange

/-- A record goes on with exchanges that all have a property. -/
def Adds (P : Exchange → Prop) (h h' : List Exchange) : Prop := ∃ l, h' = h ++ l ∧ ∀ x ∈ l, P x

namespace Adds

variable {P Q : Exchange → Prop} {h h' h'' : List Exchange} {x y : Exchange}

theorem refl (h : List Exchange) : Adds P h h :=
  ⟨[], (List.append_nil h).symm, fun _ hx => by cases hx⟩

theorem one (heq : h' = h ++ [x]) (hx : P x) : Adds P h h' := by
  refine ⟨[x], heq, fun z hz => ?_⟩
  rwa [List.mem_singleton.mp hz]

theorem two (heq : h' = h ++ [x, y]) (hx : P x) (hy : P y) : Adds P h h' := by
  refine ⟨[x, y], heq, fun z hz => ?_⟩
  simp only [List.mem_cons, List.not_mem_nil, or_false] at hz
  rcases hz with rfl | rfl
  · exact hx
  · exact hy

theorem trans (ha : Adds P h h') (hb : Adds P h' h'') : Adds P h h'' := by
  obtain ⟨l, rfl, hl⟩ := ha
  obtain ⟨l', rfl, hl'⟩ := hb
  refine ⟨l ++ l', List.append_assoc .., fun x hx => ?_⟩
  rcases List.mem_append.mp hx with hx | hx
  · exact hl x hx
  · exact hl' x hx

theorem mono (ha : Adds P h h') (hPQ : ∀ x, P x → Q x) : Adds Q h h' := by
  obtain ⟨l, hl, hP⟩ := ha
  exact ⟨l, hl, fun x hx => hPQ x (hP x hx)⟩

/-- What holds of a record and of all that is added holds of the record that goes on. -/
theorem all (ha : Adds P h h') (hh : ∀ x ∈ h, P x) : ∀ x ∈ h', P x := by
  obtain ⟨l, rfl, hl⟩ := ha
  intro x hx
  rcases List.mem_append.mp hx with hx | hx
  · exact hh x hx
  · exact hl x hx

end Adds

/-! ### Moves -/

namespace Setting

variable {s : Setting σ} {t : Task} {p p' : Progress (σ × List Exchange)}

theorem Revives.site {s : Setting σ} {c : Connection} {site : LinkSite} {q : Shaping}
    (h : s.Revives t c site q) : site.x = t.visit.x ∧ site.y = t.visit.y := by
  cases h <;> exact ⟨rfl, rfl⟩

/-- A move tells of links of its visit only. -/
theorem Move.told (h : s.recorded.Move t p p') (hs : p.store.Numbered) :
    Adds (Exchange.Told t.visit) p.world.2 p'.world.2 := by
  cases h with
  | tunnel remote ensure =>
    rw [recorded_ensure ensure]
    exact .refl _
  | startFailed launch free start =>
    exact .one (recorded_start start) ⟨_, _, rfl, rfl, rfl, rfl, nofun⟩
  | refused launch free start =>
    exact .one (recorded_start start) ⟨_, _, rfl, rfl, rfl, rfl, nofun⟩
  | createFailed launch free start yes create =>
    exact (Adds.one (recorded_start start) ⟨_, _, rfl, rfl, rfl, rfl, nofun⟩).trans
      (.one (recorded_perform create) ⟨_, _, rfl, rfl, rfl, rfl, nofun⟩)
  | launchFailed launch free start yes create raise | launched launch free start yes create raise =>
    exact ((Adds.one (recorded_start start) ⟨_, _, rfl, rfl, rfl, rfl, nofun⟩).trans
      (.one (recorded_perform create) ⟨_, _, rfl, rfl, rfl, rfl, nofun⟩)).trans
      (.one (recorded_perform raise) ⟨_, _, rfl, rfl, rfl, rfl, nofun⟩)
  | raiseFailed revive found down raise | raised revive found down raise =>
    exact .one (recorded_perform raise)
      ⟨_, _, rfl, revive.site.1, revive.site.2, (hs.keys_eq found).1, nofun⟩
  | lowerFailed kind far found up lower | lowered kind far found up lower =>
    exact .one (recorded_perform lower)
      ⟨_, _, rfl, rfl, rfl, (hs.keys_eq found).1, fun _ => kind⟩
  | adjustFailed adjust found up shape | adjusted kind adjust found up shape
  | hubAdjusted kind found up shape =>
    exact .two (recorded_shape shape) ⟨_, _, rfl, rfl, rfl, (hs.keys_eq found).1, nofun⟩
      ⟨_, _, rfl, rfl, rfl, (hs.keys_eq found).1, nofun⟩

/-- All due work tells of links of its visits only. -/
theorem proceeds_told {due : Task → Prop} (h : ReflTransGen (s.recorded.Proceeds due) p p')
    (hs : p.store.Numbered) :
    Adds (fun x => ∃ t, due t ∧ x.Told t.visit) p.world.2 p'.world.2 := by
  refine (proceeds_keeps (I := fun _ w =>
    Adds (fun x => ∃ t, due t ∧ Exchange.Told t.visit x) p.world.2 w.2) ?_ h hs (.refl _)).2
  intro t q q' ht hq hmove hadds
  exact hadds.trans ((hmove.told hq).mono fun x hx => ⟨t, ht, hx⟩)

/-- Reconciling a pair tells of links of that pair only. -/
theorem reconcile_told (s : Setting σ) (nodes : SortedMap NodeId Node) (step : Nat)
    (pair : NodePair) (distance : Distance) (hs : p.store.Numbered) :
    Adds (Exchange.AboutPair pair) p.world.2
      (s.recorded.reconcile nodes step pair distance p).2.world.2 := by
  -- only this pair has changed
  have hchanged := SortedMap.get?_insert_self (.empty : DistanceMatrix) pair distance
  have hproceeds : ReflTransGen (s.recorded.Proceeds _) p
      (s.recorded.reconcile nodes step pair distance p).2 := reconcile_proceeds hs hchanged
  refine (proceeds_told hproceeds hs).mono ?_
  rintro x ⟨t, ht, site, c, hlink, _, _, hpair, _⟩
  cases t with
  | manage v => exact ht.elim
  | follow v =>
    refine ⟨site, c, hlink, hpair.trans ?_⟩
    by_contra hne
    have hother : pair ≠ v.pair := fun heq => hne heq.symm
    have hv := ht.changed
    rw [SortedMap.get?_insert_of_ne _ _ hother] at hv
    cases hv

/-- Visiting the pairs of a matrix is work that is due in a step with it. -/
theorem reconcileAll_entries (s : Setting σ) (nodes : SortedMap NodeId Node) (step : Nat)
    (changed : DistanceMatrix) {p : Progress σ} (hs : p.store.Numbered) :
    ReflTransGen (s.Proceeds (Task.DueInStep nodes step changed)) p
      (s.reconcileAll nodes step changed.entries p) :=
  reconcileAll_proceeds hs fun _ hentry => SortedMap.get?_eq_some_iff.mpr hentry

end Setting

/-! ### Steps -/

namespace Engine

variable [Movement μ]

theorem history_one (e : Engine σ μ) (op : Operation) :
    e.history [op] = (e.recorded.perform op).world.2 := rfl

/-- Hooks leave a record alone. -/
theorem runHooks_recorded (hooks : List (ConnectionStore → σ → σ)) (st : ConnectionStore)
    (w : σ × τ) : (runHooks st (hooks.map fun hook st w => (hook st w.1, w.2)) w).2 = w.2 := by
  induction hooks generalizing w with
  | nil => rfl
  | cons hook rest ih =>
    rw [List.map_cons, runHooks, ih]

/-- A step in which nothing has changed tells the backend nothing. -/
theorem history_skipped {e : Engine σ μ} {distances : DistanceMatrix}
    (h : ((e.changed distances).isEmpty && e.step != 0) = true) :
    e.history [.apply distances] = [] := by
  have hrecorded : ((e.recorded.changed distances).isEmpty && e.recorded.step != 0) = true := h
  obtain ⟨-, -, hworld, -⟩ := applyDistances_skipped hrecorded
  exact congrArg Prod.snd hworld

omit [Movement μ] in
/-- The backend is told that the visits are made, and has to finish the step. -/
theorem closed_recorded (e : Engine σ μ) (changed all : DistanceMatrix) (w : σ × List Exchange) :
    ∃ result, (e.recorded.closed changed all w).2 = w.2 ++
      [.announced (.changesApplied e.step changed all), .performed (.finishStep e.step all) result] := by
  rcases hfinish : e.recorded.setting.backend.perform (.finishStep e.step all)
    (e.recorded.setting.backend.announce (.changesApplied e.step changed all) w) with ⟨result, w'⟩
  have hclosed : e.recorded.closed changed all w = w' := congrArg Prod.snd hfinish
  rw [hclosed]
  exact ⟨result, (recorded_perform hfinish).trans (List.append_assoc _ _ _)⟩

/-- A step that is not skipped makes its visits, and tells what is told on them between what it tells
itself. -/
theorem applyDistances_recorded {e : Engine σ μ} {distances : DistanceMatrix}
    (h : ¬ ((e.changed distances).isEmpty && e.step != 0) = true) :
    ∃ (p q : Progress (σ × List Exchange)) (all : DistanceMatrix)
      (result : Except BackendError Unit) (commitError : Option BackendError),
      p.store = e.store ∧ p.report = .blank e.step (e.changed distances).size ∧
      p.world.2 = [.announced (.stepStarting e.step all),
        .announced (.changesPending e.step (e.changed distances) all)] ∧
      e.setting.recorded.reconcileAll e.nodes e.step (e.changed distances).entries p = q ∧
      e.history [.apply distances] = q.world.2 ++
        [.announced (.changesApplied e.step (e.changed distances) all),
          .performed (.finishStep e.step all) result] ∧
      (e.applyDistances distances).1 = { q.report with commitError } ∧
      (e.applyDistances distances).2.store = q.store := by
  have hrecorded : ¬ ((e.recorded.changed distances).isEmpty && e.recorded.step != 0) = true := h
  obtain ⟨all, commitError, hreport, hstore, hworld⟩ := applyDistances_visits hrecorded
  have hseen := applyDistances_shows e.recorded_shows distances
  rw [hseen.1] at hreport
  rw [hseen.2.store] at hstore
  obtain ⟨result, htold⟩ := e.closed_recorded (e.changed distances) all
    (e.recorded.visits (e.changed distances) all).world
  refine ⟨e.recorded.opened (e.changed distances) all, _, all, result, commitError, rfl, rfl, rfl,
    rfl, ?_, hreport, hstore⟩
  rw [history_one, perform, hworld]
  split
  · exact (runHooks_recorded e.hooks _ _).trans htold
  · exact htold

/-- The history of a step that is not skipped. -/
theorem history_apply {e : Engine σ μ} {distances : DistanceMatrix}
    (h : ¬ ((e.changed distances).isEmpty && e.step != 0) = true) :
    ∃ (p : Progress (σ × List Exchange)) (all : DistanceMatrix) (result : Except BackendError Unit)
      (commitError : Option BackendError),
      p.store = e.store ∧ p.report = .blank e.step (e.changed distances).size ∧
      p.world.2 = [.announced (.stepStarting e.step all),
        .announced (.changesPending e.step (e.changed distances) all)] ∧
      e.history [.apply distances] =
        (e.setting.recorded.reconcileAll e.nodes e.step (e.changed distances).entries p).world.2 ++
          [.announced (.changesApplied e.step (e.changed distances) all),
            .performed (.finishStep e.step all) result] ∧
      (e.applyDistances distances).1 =
        { (e.setting.recorded.reconcileAll e.nodes e.step (e.changed distances).entries p).report with
          commitError } := by
  obtain ⟨p, q, all, result, commitError, hstore, hblank, hbefore, rfl, hhistory, hreport, -⟩ :=
    applyDistances_recorded h
  exact ⟨p, all, result, commitError, hstore, hblank, hbefore, hhistory, hreport⟩

/-- Every link that a step mentions is mentioned on a visit to a pair that has changed. -/
theorem history_told {e : Engine σ μ} (hs : e.store.Numbered) (distances : DistanceMatrix) :
    ∀ x ∈ e.history [.apply distances], x.link? = none ∨
      ∃ v : Visit, v.Follows e.nodes e.step (e.changed distances) ∧ x.Told v := by
  by_cases hskip : ((e.changed distances).isEmpty && e.step != 0) = true
  · rw [history_skipped hskip]
    intro x hx
    cases hx
  obtain ⟨p, all, result, _, hstore, _, hbefore, hhistory, _⟩ := history_apply hskip
  have hps : p.store.Numbered := by
    rw [hstore]
    exact hs
  have hvisits : Adds (fun x => x.link? = none ∨
      ∃ v : Visit, v.Follows e.nodes e.step (e.changed distances) ∧ x.Told v) p.world.2
      (e.setting.recorded.reconcileAll e.nodes e.step (e.changed distances).entries p).world.2 := by
    refine (Setting.proceeds_told (Setting.reconcileAll_entries _ _ _ _ hps) hps).mono ?_
    rintro x ⟨t, ht, htold⟩
    cases t with
    | follow v => exact Or.inr ⟨v, ht, htold⟩
    | manage v => exact ht.elim
  rw [hhistory]
  refine Adds.all (Adds.two rfl (Or.inl rfl) (Or.inl rfl)) (hvisits.all ?_)
  rw [hbefore]
  refine Adds.all (Adds.two rfl (Or.inl rfl) (Or.inl rfl)) (h := []) ?_
  intro x hx
  cases hx

/-! ### Steps of either kind -/

/-- The report of the step that an operation runs, if it comes to a step. -/
def reportOf? (e : Engine σ μ) : Operation → Option StepReport
  | .apply distances => some (e.applyDistances distances).1
  | .step => e.runStep.1.toOption
  | .addNode _ | .connectManagement => none

/-- The engine with another movement, which a step does not look at once it has its distances. -/
def moving (e : Engine σ μ) (movement : Option μ) : Engine σ μ := { e with movement }

/-- A step that fails does nothing but have the nodes move on. -/
theorem runStep_of_error {e e' : Engine σ μ} {cause : StepError}
    (h : e.runStep = (.error cause, e')) : ∃ movement, e' = e.moving movement := by
  rw [runStep] at h
  cases hmove : e.movement with
  | none =>
    rw [hmove] at h
    exact ⟨e.movement, (Prod.mk.inj h).2.symm⟩
  | some movement =>
    rw [hmove] at h
    dsimp only at h
    split at h
    · exact ⟨e.movement, (Prod.mk.inj h).2.symm⟩
    · rename_i next _
      split at h
      · exact ⟨some next, (Prod.mk.inj h).2.symm⟩
      · cases (Prod.mk.inj h).1

/-- A step that the engine comes to applies a matrix; where nothing is applied neither links nor the
world change, unless links to the management node are set up. -/
theorem perform_applies (e : Engine σ μ) {op : Operation} (hop : op ≠ .connectManagement) :
    (e.reportOf? op = none ∧ ∃ nodes movement, e.perform op = { e with nodes, movement }) ∨
      ∃ movement distances, e.reportOf? op = some ((e.moving movement).applyDistances distances).1 ∧
        e.perform op = ((e.moving movement).applyDistances distances).2 := by
  cases op with
  | addNode node =>
    refine Or.inl ⟨rfl, ?_⟩
    rw [perform, addNode]
    cases e.nodes.contains node.id with
    | true => exact ⟨e.nodes, e.movement, rfl⟩
    | false => exact ⟨e.nodes.insert node.id node, e.movement, rfl⟩
  | connectManagement => exact absurd rfl hop
  | apply distances => exact Or.inr ⟨e.movement, distances, rfl, rfl⟩
  | step =>
    rw [perform, reportOf?, runStep]
    split
    · exact Or.inl ⟨rfl, e.nodes, e.movement, rfl⟩
    · split
      · exact Or.inl ⟨rfl, e.nodes, e.movement, rfl⟩
      · rename_i movement' _
        dsimp only
        split
        · exact Or.inl ⟨rfl, e.nodes, some movement', rfl⟩
        · exact Or.inr ⟨some movement', Movement.distances movement', rfl, rfl⟩

/-- An engine whose world holds more has the same report as one whose world holds less. -/
theorem Shows.reportOf? {look : τ → σ} {e' : Engine τ μ} {e : Engine σ μ} (h : e'.Shows look e)
    (op : Operation) : e'.reportOf? op = e.reportOf? op := by
  cases op with
  | addNode node => rfl
  | connectManagement => rfl
  | apply distances => exact congrArg some (applyDistances_shows h distances).1
  | step => exact congrArg Except.toOption (runStep_shows h).1

/-- A step that the engine comes to tells what its matrix tells; where nothing is applied nothing is
told. -/
theorem reportOf?_applies (e : Engine σ μ) {op : Operation} (hop : op ≠ .connectManagement) :
    (e.reportOf? op = none ∧ e.history [op] = []) ∨
      ∃ movement distances, e.reportOf? op = some ((e.moving movement).applyDistances distances).1 ∧
        e.history [op] = (e.moving movement).history [.apply distances] := by
  have hreport := e.recorded_shows.reportOf? op
  rw [history_one, ← hreport]
  rcases e.recorded.perform_applies hop with ⟨hnone, _, _, hidle⟩ | ⟨movement, distances, hsome, happ⟩
  · exact Or.inl ⟨hnone, by rw [hidle]; rfl⟩
  · refine Or.inr ⟨movement, distances, ?_, by rw [happ]; rfl⟩
    rw [hsome, ← (applyDistances_shows (e.moving movement).recorded_shows distances).1]
    rfl

end Engine

end ProximityNet
