import ProximityNet.Proofs.Reachable
import ProximityNet.Proofs.Twins

/-!
# A failing pair does not disturb the others

All pairs share one store, one counter of ids and one report, and a pair may be given up half way.
Still the links of a pair, and whether it fails, depend only on what is answered about that pair:
two engines in the same state, whose backends and tunnels answer alike about it, leave it alike.

* `Setting.visited` — one round of reconciling, with its failure in the report;
* `Setting.Confined` — what reconciling a pair leaves alone;
* `Contained` — two sides have the same links of a pair, and the pair has failed on both or neither;
* `Contained.visited`, `Contained.reconcileAll` — a round keeps that, and so do all rounds;
* `Engine.Parallel` — two engines with the same links of a pair, which `Parallel.applyDistances` and
  `Parallel.run` keep so through steps with the same distances;
* `failures_contained` — answers about one pair make no difference to any other pair;
* `Setting.stateless` — a backend and tunnels that answer from a table.
-/

namespace ProximityNet

variable {σ τ ρ μ ν κ : Type}

/-- The pairs that could not be reconciled. -/
def StepReport.failedPairs (r : StepReport) : List NodePair := r.failures.map (·.pair)

theorem failedPairs_addFailure (r : StepReport) (f : PairFailure) :
    (r.addFailure f).failedPairs = r.failedPairs ++ [f.pair] := by
  rw [StepReport.failedPairs, StepReport.addFailure, List.map_append]
  rfl

/-! ### One side -/

namespace Setting

variable {s : Setting σ} {t : Task} {p p' : Progress σ}

theorem Move.failures (h : s.Move t p p') : p'.report.failures = p.report.failures := by
  cases h <;> rfl

theorem Moves.failures (h : s.Moves t p p') : p'.report.failures = p.report.failures := by
  induction h with
  | refl => rfl
  | tail _ hmove ih => exact hmove.failures.trans ih

/-- What reconciling a pair leaves alone. -/
structure Confined (pair : NodePair) (p p' : Progress σ) : Prop where
  numbered : p'.store.Numbered
  failures : p'.report.failures = p.report.failures
  others : ∀ q, q ≠ pair → ∀ i, p'.store.find? q i = p.store.find? q i

theorem Confined.refl {pair : NodePair} (hs : p.store.Numbered) : Confined pair p p :=
  ⟨hs, rfl, fun _ _ _ => rfl⟩

theorem reconcile_confined {nodes : SortedMap NodeId Node} {step : Nat} {pair : NodePair}
    {distance : Distance} (hs : p.store.Numbered) :
    Confined pair p (s.reconcile nodes step pair distance p).2 := by
  rw [reconcile]
  cases nodes.get? pair.low with
  | none => exact .refl hs
  | some x =>
    cases nodes.get? pair.high with
    | none => exact .refl hs
    | some y =>
      have hmoves : s.Moves (.follow ⟨x, y, pair, distance, s.policy.isRemote p.world x.id y.id, step⟩)
          p (s.reconcileNodes step pair distance x y p).2 := reconcileNodes_moves hs
      refine ⟨Moves.numbered hmoves hs, Moves.failures hmoves, ?_⟩
      intro q hq i
      exact Moves.find?_of_ne hmoves hs hq

/-- Reconcile a pair, and report it if that fails. -/
def visited (s : Setting σ) (nodes : SortedMap NodeId Node) (step : Nat) (pair : NodePair)
    (distance : Distance) (p : Progress σ) : Progress σ :=
  match s.reconcile nodes step pair distance p with
  | (.ok (), p') => p'
  | (.error cause, p') => { p' with report := p'.report.addFailure ⟨pair, distance, cause⟩ }

theorem visited_of_ok {nodes : SortedMap NodeId Node} {step : Nat} {pair : NodePair}
    {distance : Distance} (h : s.reconcile nodes step pair distance p = (.ok (), p')) :
    s.visited nodes step pair distance p = p' := by
  rw [visited, h]

theorem visited_of_error {nodes : SortedMap NodeId Node} {step : Nat} {pair : NodePair}
    {distance : Distance} {cause : ReconcileError}
    (h : s.reconcile nodes step pair distance p = (.error cause, p')) :
    s.visited nodes step pair distance p =
      { p' with report := p'.report.addFailure ⟨pair, distance, cause⟩ } := by
  rw [visited, h]

/-- A round leaves links and world as reconciling does. -/
theorem visited_reconciles {nodes : SortedMap NodeId Node} {step : Nat} (pair : NodePair)
    (distance : Distance) :
    (s.visited nodes step pair distance p).store =
        (s.reconcile nodes step pair distance p).2.store ∧
      (s.visited nodes step pair distance p).world =
        (s.reconcile nodes step pair distance p).2.world := by
  rcases hr : s.reconcile nodes step pair distance p with ⟨cause | _, p'⟩
  · rw [visited_of_error hr]
    exact ⟨rfl, rfl⟩
  · rw [visited_of_ok hr]
    exact ⟨rfl, rfl⟩

/-- A round keeps what has failed before in the report. -/
theorem visited_failures {nodes : SortedMap NodeId Node} {step : Nat} {pair : NodePair}
    {distance : Distance} (hs : p.store.Numbered) :
    ∀ f ∈ p.report.failures, f ∈ (s.visited nodes step pair distance p).report.failures := by
  intro f hf
  have hconfined : Confined pair p (s.reconcile nodes step pair distance p).2 :=
    reconcile_confined hs
  have hkept : f ∈ (s.reconcile nodes step pair distance p).2.report.failures := by
    rwa [hconfined.failures]
  rcases hr : s.reconcile nodes step pair distance p with ⟨cause | _, p'⟩
  · rw [hr] at hkept
    rw [visited_of_error hr]
    exact List.mem_append_left _ hkept
  · rw [hr] at hkept
    rwa [visited_of_ok hr]

/-- Reconciling pairs is one round after another. -/
theorem reconcileAll_cons (s : Setting σ) (nodes : SortedMap NodeId Node) (step : Nat)
    (pair : NodePair) (distance : Distance) (rest : List (NodePair × Distance))
    (p : Progress σ) :
    s.reconcileAll nodes step ((pair, distance) :: rest) p =
      s.reconcileAll nodes step rest (s.visited nodes step pair distance p) := by
  rw [reconcileAll]
  rcases hr : s.reconcile nodes step pair distance p with ⟨cause | _, p'⟩
  · rw [visited_of_error hr]
  · rw [visited_of_ok hr]

/-- A round leaves the links of other pairs alone, and does not report them. -/
theorem visited_of_ne {nodes : SortedMap NodeId Node} {step : Nat} {pair q : NodePair}
    {distance : Distance} (hs : p.store.Numbered) (hne : q ≠ pair) :
    (s.visited nodes step pair distance p).store.Numbered ∧
      (∀ i, (s.visited nodes step pair distance p).store.find? q i = p.store.find? q i) ∧
      (q ∈ (s.visited nodes step pair distance p).report.failedPairs ↔
        q ∈ p.report.failedPairs) := by
  have hconfined : Confined pair p (s.reconcile nodes step pair distance p).2 :=
    reconcile_confined hs
  rcases hr : s.reconcile nodes step pair distance p with ⟨cause | _, p'⟩
  · rw [hr] at hconfined
    rw [visited_of_error hr]
    refine ⟨hconfined.numbered, hconfined.others q hne, ?_⟩
    rw [failedPairs_addFailure, List.mem_append, List.mem_singleton, StepReport.failedPairs,
      hconfined.failures]
    exact or_iff_left hne
  · rw [hr] at hconfined
    rw [visited_of_ok hr]
    refine ⟨hconfined.numbered, hconfined.others q hne, ?_⟩
    rw [StepReport.failedPairs, hconfined.failures]
    rfl

end Setting

/-! ### Two sides -/

/-- Two sides have the same links of a pair, and the pair has failed on both or on neither. -/
structure Contained (q : NodePair) (p : Progress σ) (p' : Progress τ) : Prop where
  left : p.store.Numbered
  right : p'.store.Numbered
  alike : p.store.AlikeAt q p'.store
  failed : q ∈ p.report.failedPairs ↔ q ∈ p'.report.failedPairs

section Sides

variable {s : Setting σ} {s' : Setting τ} {q : NodePair} {r : Replies}
  {nodes : SortedMap NodeId Node} {p : Progress σ} {p' : Progress τ}

/-- The round of the pair itself: answers that are alike lead to the same end. -/
theorem Contained.visited_self (hm : s.Matches s') (hq : s.Answers q r) (hq' : s'.Answers q r)
    (hk : Keyed nodes) (step : Nat) (distance : Distance) (h : Contained q p p') :
    Contained q (s.visited nodes step q distance p) (s'.visited nodes step q distance p') := by
  obtain ⟨hbeside, hend⟩ := (Setting.reconcile_alike hm hq hq' hk step distance).run
    ⟨h.left.toWellFormed, h.right.toWellFormed, h.alike⟩
  have hconfined : Setting.Confined q p (s.reconcile nodes step q distance p).2 :=
    Setting.reconcile_confined h.left
  have hconfined' : Setting.Confined q p' (s'.reconcile nodes step q distance p').2 :=
    Setting.reconcile_confined h.right
  rcases hr : s.reconcile nodes step q distance p with ⟨result, p₁⟩
  rcases hr' : s'.reconcile nodes step q distance p' with ⟨result', p₁'⟩
  rw [hr] at hconfined
  rw [hr'] at hconfined'
  rw [hr, hr'] at hbeside hend
  cases hend with
  | ok =>
    rw [Setting.visited_of_ok hr, Setting.visited_of_ok hr']
    refine ⟨hconfined.numbered, hconfined'.numbered, hbeside.alike, ?_⟩
    have hfailed := h.failed
    rw [StepReport.failedPairs, StepReport.failedPairs] at hfailed ⊢
    rw [hconfined.failures, hconfined'.failures]
    exact hfailed
  | error =>
    rw [Setting.visited_of_error hr, Setting.visited_of_error hr']
    refine ⟨hconfined.numbered, hconfined'.numbered, hbeside.alike, ?_⟩
    rw [failedPairs_addFailure, failedPairs_addFailure]
    exact iff_of_true (List.mem_append_right _ (List.mem_singleton_self q))
      (List.mem_append_right _ (List.mem_singleton_self q))

/-- A round of any pair, which may end differently on the two sides unless it is the pair itself. -/
theorem Contained.visited (hm : s.Matches s') (hq : s.Answers q r) (hq' : s'.Answers q r)
    (hk : Keyed nodes) (step : Nat) (pair : NodePair) (distance : Distance)
    (h : Contained q p p') :
    Contained q (s.visited nodes step pair distance p)
      (s'.visited nodes step pair distance p') := by
  by_cases hne : q = pair
  · subst hne
    exact h.visited_self hm hq hq' hk step distance
  · obtain ⟨hs, hsame, hfailed⟩ : (s.visited nodes step pair distance p).store.Numbered ∧ _ :=
      Setting.visited_of_ne h.left hne
    obtain ⟨hs', hsame', hfailed'⟩ : (s'.visited nodes step pair distance p').store.Numbered ∧ _ :=
      Setting.visited_of_ne h.right hne
    exact ⟨hs, hs', h.alike.of_find? hsame hsame', (hfailed.trans h.failed).trans hfailed'.symm⟩

/-- All rounds of a step. -/
theorem Contained.reconcileAll (hm : s.Matches s') (hq : s.Answers q r) (hq' : s'.Answers q r)
    (hk : Keyed nodes) (step : Nat) (l : List (NodePair × Distance)) (h : Contained q p p') :
    Contained q (s.reconcileAll nodes step l p) (s'.reconcileAll nodes step l p') := by
  induction l generalizing p p' with
  | nil => exact h
  | cons x rest ih =>
    obtain ⟨pair, distance⟩ := x
    rw [Setting.reconcileAll_cons, Setting.reconcileAll_cons]
    exact ih (h.visited hm hq hq' hk step pair distance)

end Sides

/-! ### Engines -/

namespace Engine

/-- Engines that go on with the same distances; each has a backend, tunnels, a movement and a world of
its own, and links of its own but for those of one pair, which are alike. -/
structure Parallel (q : NodePair) (e : Engine σ μ) (e' : Engine τ ν) : Prop where
  setting : e.setting.Matches e'.setting
  nodes : e'.nodes = e.nodes
  tracker : e'.tracker = e.tracker
  step : e'.step = e.step
  left : e.store.Numbered
  right : e'.store.Numbered
  alike : e.store.AlikeAt q e'.store

theorem Parallel.changed {q : NodePair} {e : Engine σ μ} {e' : Engine τ ν} (h : Parallel q e e')
    (distances : DistanceMatrix) : e'.changed distances = e.changed distances := by
  rw [Engine.changed, Engine.changed, h.nodes, h.tracker]

/-- A step keeps the links of the pair alike if the answers about it are, and the pair fails in both
engines or in neither. -/
theorem Parallel.applyDistances {q : NodePair} {r : Replies} {e : Engine σ μ} {e' : Engine τ ν}
    (h : Parallel q e e') (hk : Keyed e.nodes) (hq : e.setting.Answers q r)
    (hq' : e'.setting.Answers q r) (distances : DistanceMatrix) :
    Parallel q (e.applyDistances distances).2 (e'.applyDistances distances).2 ∧
      (q ∈ (e.applyDistances distances).1.failedPairs ↔
        q ∈ (e'.applyDistances distances).1.failedPairs) := by
  have hstep := e.applyDistances_stepped h.left distances
  have hstep' := e'.applyDistances_stepped h.right distances
  obtain ⟨p, hp, hfailures, hstore, hfailed⟩ := e.applyDistances_reconciles distances
  obtain ⟨p', hp', hfailures', hstore', hfailed'⟩ := e'.applyDistances_reconciles distances
  have hstart : Contained q p p' := by
    refine ⟨?_, ?_, ?_, ?_⟩
    · rw [hp]
      exact h.left
    · rw [hp']
      exact h.right
    · rw [hp, hp']
      exact h.alike
    · rw [StepReport.failedPairs, StepReport.failedPairs, hfailures, hfailures']
  have hend := hstart.reconcileAll h.setting hq hq' hk e.step (e.changed distances).entries
  rw [h.nodes, h.step, h.changed] at hstore' hfailed'
  refine ⟨⟨?_, ?_, ?_, ?_, ?_, ?_, ?_⟩, ?_⟩
  · rw [hstep.setting, hstep'.setting]
    exact h.setting
  · rw [hstep.nodes, hstep'.nodes, h.nodes]
  · rw [hstep.tracker, hstep'.tracker, h.tracker, h.nodes]
  · rw [hstep.step, hstep'.step, h.step]
  · rw [hstore]
    exact hend.left
  · rw [hstore']
    exact hend.right
  · rw [hstore, hstore']
    exact hend.alike
  · rw [StepReport.failedPairs, StepReport.failedPairs, hfailed, hfailed']
    exact hend.failed

/-- However many steps are run, the links of the pair stay alike. -/
theorem Parallel.run [Movement μ] [Movement ν] {q : NodePair} {r : Replies} {e : Engine σ μ}
    {e' : Engine τ ν} (h : Parallel q e e') (hk : Keyed e.nodes) (hq : e.setting.Answers q r)
    (hq' : e'.setting.Answers q r) (l : List DistanceMatrix) :
    Parallel q (e.run (l.map .apply)) (e'.run (l.map .apply)) := by
  induction l generalizing e e' with
  | nil => exact h
  | cons distances rest ih =>
    obtain ⟨hsetting, hnodes⟩ := applyDistances_setting e distances
    obtain ⟨hsetting', _⟩ := applyDistances_setting e' distances
    refine ih (h.applyDistances hk hq hq' distances).1 ?_ ?_ ?_
    · show Keyed (e.applyDistances distances).2.nodes
      rw [hnodes]
      exact hk
    · show (e.applyDistances distances).2.setting.Answers q r
      rw [hsetting]
      exact hq
    · show (e'.applyDistances distances).2.setting.Answers q r
      rw [hsetting']
      exact hq'

/-- Engines in the same state; each has a backend, tunnels, a movement and a world of its own. -/
structure Shares (e : Engine σ μ) (e' : Engine τ ν) : Prop where
  setting : e.setting.Matches e'.setting
  nodes : e'.nodes = e.nodes
  tracker : e'.tracker = e.tracker
  store : e'.store = e.store
  step : e'.step = e.step

/-- Engines that are both in the state of a third one are in the same state. -/
theorem Shares.parallel {e₀ : Engine ρ κ} {e : Engine σ μ} {e' : Engine τ ν} (h : e₀.Shares e)
    (h' : e₀.Shares e') (hs : e₀.store.Numbered) (q : NodePair) : Parallel q e e' := by
  refine ⟨⟨?_, ?_⟩, ?_, ?_, ?_, ?_, ?_, ?_⟩
  · rw [h.setting.model, h'.setting.model]
  · rw [h.setting.pairing, h'.setting.pairing]
  · rw [h.nodes, h'.nodes]
  · rw [h.tracker, h'.tracker]
  · rw [h.step, h'.step]
  · rw [h.store]
    exact hs
  · rw [h'.store]
    exact hs
  · rw [h.store, h'.store]
    exact .refl q e₀.store

end Engine

/-- A pair with the smaller id first, as every pair that is made of two nodes is. -/
def NodePair.Ordered (q : NodePair) : Prop := q.low.toNat < q.high.toNat

instance (q : NodePair) : Decidable q.Ordered := inferInstanceAs (Decidable (_ < _))

/-- Two engines take the same distances from the same state, with answers that may differ about one
pair only.  Then every other pair has the same links in both, up and down, but for their ids, and it
fails in both or in neither. -/
theorem failures_contained [Movement κ] {e₀ : Engine ρ κ} {e : Engine σ μ} {e' : Engine τ ν}
    (he : e₀.Reachable) (h : e₀.Shares e) (h' : e₀.Shares e') {p : NodePair}
    {r : NodePair → Replies} (hr : ∀ q, q.Ordered → q ≠ p → e.setting.Answers q (r q))
    (hr' : ∀ q, q.Ordered → q ≠ p → e'.setting.Answers q (r q)) (distances : DistanceMatrix)
    {q : NodePair} (hq : q.Ordered) (hne : q ≠ p) :
    (∀ i, ((e.applyDistances distances).2.store.active.find? q i).map Connection.anonymous =
        ((e'.applyDistances distances).2.store.active.find? q i).map Connection.anonymous) ∧
      (∀ i, ((e.applyDistances distances).2.store.inactive.find? q i).map Connection.anonymous =
        ((e'.applyDistances distances).2.store.inactive.find? q i).map Connection.anonymous) ∧
      (q ∈ (e.applyDistances distances).1.failedPairs ↔
        q ∈ (e'.applyDistances distances).1.failedPairs) := by
  have hk : Keyed e.nodes := by
    rw [h.nodes]
    exact he.keyed
  obtain ⟨hend, hfailed⟩ := (h.parallel h' he.numbered q).applyDistances hk (hr q hq hne)
    (hr' q hq hne) distances
  refine ⟨?_, ?_, hfailed⟩
  · intro i
    exact hend.alike.active hend.left.toWellFormed hend.right.toWellFormed i
  · intro i
    exact hend.alike.inactive hend.left.toWellFormed hend.right.toWellFormed i

/-! ### Answers from a table -/

/-- A backend and tunnels that answer from a table and remember nothing. -/
def Setting.stateless (model : LinkModel) (pairing : Pairing) (r : NodePair → Replies) :
    Setting Unit where
  model := model
  pairing := pairing
  backend :=
    { announce _ w := w
      start _ c w := ((r c.pair).start c.interfaces, w)
      perform q w :=
        match q.link? with
        | none => (.ok (), w)
        | some (kind, _, c) => ((r c.pair).perform kind c.interfaces, w) }
  policy :=
    { isRemote _ a b := (r ⟨a, b⟩).isRemote
      ensure pair w := ((r pair).ensure, w)
      isDistributed := false }

theorem Setting.answers_stateless (model : LinkModel) (pairing : Pairing) (r : NodePair → Replies)
    (q : NodePair) : (stateless model pairing r).Answers q (r q) where
  start := by
    rintro site c w rfl _
    rfl
  perform := by
    rintro request kind site c w hlink rfl _
    show (match request.link? with
      | none => (Except.ok (), w)
      | some (kind, _, c) => ((r c.pair).perform kind c.interfaces, w)).1 = _
    rw [hlink]
  isRemote _ := rfl
  ensure _ := rfl

/-- All goes well. -/
def Replies.fine : Replies := ⟨fun _ => .ok .yes, fun _ _ => .ok (), false, .ok ()⟩

/-- No link comes up. -/
def Replies.stuck : Replies :=
  { Replies.fine with perform kind _ := if kind = .raise then .error (.timeout 5) else .ok () }

/-- Three nodes with an interface each. -/
def threeNodeEngine : Engine Unit Stationary :=
  twoNodeEngine.perform (.addNode ⟨⟨3⟩, .emulation, [⟨.mesh, 0⟩]⟩)

/-- The three nodes, with answers from a table. -/
def answered (r : NodePair → Replies) : Engine Unit Stationary :=
  { threeNodeEngine with setting := .stateless (.unshaped .none) .equal r }

/-- The three nodes are near to each other. -/
def together : DistanceMatrix :=
  SortedMap.ofList [(⟨⟨1⟩, ⟨2⟩⟩, .zero), (⟨⟨1⟩, ⟨3⟩⟩, .zero), (⟨⟨2⟩, ⟨3⟩⟩, .zero)]

/-- Where only the first pair fails, the second one is linked as if nothing had failed. -/
theorem failure_spares_second :
    let e := answered fun _ => .fine
    let e' := answered fun q => if q = ⟨⟨1⟩, ⟨2⟩⟩ then .stuck else .fine
    (e.applyDistances together).1.failedPairs = [] ∧
      (e'.applyDistances together).1.failedPairs = [⟨⟨1⟩, ⟨2⟩⟩] ∧
      ((e'.applyDistances together).2.store.active.find? ⟨⟨1⟩, ⟨3⟩⟩
        ⟨⟨.mesh, 0⟩, ⟨.mesh, 0⟩⟩).isSome = true ∧
      ∀ i, ((e.applyDistances together).2.store.active.find? ⟨⟨1⟩, ⟨3⟩⟩ i).map
          Connection.anonymous =
        ((e'.applyDistances together).2.store.active.find? ⟨⟨1⟩, ⟨3⟩⟩ i).map
          Connection.anonymous := by
  have he : threeNodeEngine.Reachable := Engine.reachable_twoNodeEngine.perform trivial
  have hshares : ∀ r, threeNodeEngine.Shares (answered r) := by
    intro r
    exact ⟨⟨rfl, rfl⟩, rfl, rfl, rfl, rfl⟩
  have hfine : ∀ q, q.Ordered → q ≠ ⟨⟨1⟩, ⟨2⟩⟩ →
      (answered fun _ => .fine).setting.Answers q .fine := by
    intro q _ _
    exact Setting.answers_stateless (.unshaped .none) .equal (fun _ => .fine) q
  have hspared : ∀ q, q.Ordered → q ≠ ⟨⟨1⟩, ⟨2⟩⟩ →
      (answered fun q => if q = ⟨⟨1⟩, ⟨2⟩⟩ then .stuck else .fine).setting.Answers q .fine := by
    intro q _ hq
    have hanswers := Setting.answers_stateless (.unshaped .none) .equal
      (fun q => if q = ⟨⟨1⟩, ⟨2⟩⟩ then Replies.stuck else .fine) q
    rw [if_neg hq] at hanswers
    exact hanswers
  refine ⟨by decide +kernel, by decide +kernel, by decide +kernel, ?_⟩
  exact (failures_contained he (hshares _) (hshares _) hfine hspared together
    (show (⟨⟨1⟩, ⟨3⟩⟩ : NodePair).Ordered by decide) (by decide)).1

end ProximityNet
