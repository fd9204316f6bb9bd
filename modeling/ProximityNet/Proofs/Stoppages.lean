import ProximityNet.Proofs.Causes
import ProximityNet.Proofs.Chronicle

/-!
# Which pairs a step reports

A step goes through the changed pairs in their order and reports those at which it had to stop.  It
stops at a pair if one of the nodes is not known, if the tunnel fails, or if a call about one of its
links fails, and then at once; so the report can be read off what has happened.

* `Deed.failed` — an exchange or a tunnel that failed;
* `Work.Candid` — work that ends with an error if and only if something has failed in it, as all work
  on links does (`renewLinks_candid`, `reconcileNodes_candid`);
* `Setting.Halts`, `visited_halts`, `reconcileAll_halts` — what a step has to say about a pair;
* `reconcileAll_reports` — what is reported, in which order and with which distances;
* `Engine.failures_ascending`, `Engine.failedPairs_iff` — the pairs that a step reports;
* `Engine.failed_reported` — a failed call shows in the report.
-/

namespace ProximityNet

variable {σ μ α β : Type}

/-- Whether something failed. -/
def Deed.failed : Deed → Bool
  | exchanged x => x.failed
  | ensured _ result => !result.isOk

/-! ### Work that fails where a call does -/

namespace Work

/-- If something fails the work ends with an error, and if it ends with an error then something has
failed, or a connection was missing. -/
structure Candid (w : Work (σ × List (Moment σ)) α) : Prop where
  tells : ∀ p, ∃ l, (w p).2.world.2 = p.world.2 ++ l ∧
    (∀ m ∈ l, m.deed.failed = true → (w p).1.isOk = false) ∧
    ∀ cause, (w p).1 = .error cause → (∃ m ∈ l, m.deed.failed = true) ∨
      ∃ pair i, cause = .missingConnection pair i

variable {w v : Work (σ × List (Moment σ)) α} {f : α → Work (σ × List (Moment σ)) β}

/-- Work that has nothing to do with the outside world. -/
theorem candid_of_inner (hworld : ∀ p, (w p).2.world = p.world)
    (hcause : ∀ p cause, (w p).1 = .error cause → ∃ pair i, cause = .missingConnection pair i) :
    w.Candid := by
  refine ⟨fun p => ⟨[], ?_, fun m hm => ?_, fun cause h => Or.inr (hcause p cause h)⟩⟩
  · rw [hworld, List.append_nil]
  · cases hm

theorem candid_pure (a : α) : (pure a : Work (σ × List (Moment σ)) α).Candid :=
  candid_of_inner (fun _ => rfl) fun _ _ h => by cases h

theorem Candid.andThen (h : w.Candid) (hf : ∀ a, (f a).Candid) : (w >>= f).Candid := by
  refine ⟨fun p => ?_⟩
  obtain ⟨l, hl, hfails, hcause⟩ := h.tells p
  rcases hr : w p with ⟨cause | a, q⟩
  · rw [hr] at hl hcause
    rw [bind_of_error hr]
    refine ⟨l, hl, fun _ _ _ => rfl, fun cause' heq => ?_⟩
    rw [← Except.error.inj heq]
    exact hcause cause rfl
  · rw [hr] at hl hfails
    rw [bind_of_ok hr]
    obtain ⟨l', hl', hfails', hcause'⟩ := (hf a).tells q
    refine ⟨l ++ l', by rw [hl', hl, List.append_assoc], fun m hm hfailed => ?_, fun cause h => ?_⟩
    · rcases List.mem_append.mp hm with hm | hm
      · cases hfails m hm hfailed
      · exact hfails' m hm hfailed
    · rcases hcause' cause h with ⟨m, hm, hfailed⟩ | hmissing
      · exact Or.inl ⟨m, List.mem_append_right _ hm, hfailed⟩
      · exact Or.inr hmissing

theorem Candid.ite {c : Prop} [Decidable c] (h : w.Candid) (hv : v.Candid) :
    (if c then w else v).Candid := by
  split
  · exact h
  · exact hv

theorem Candid.forM {g : α → Work (σ × List (Moment σ)) Unit} (h : ∀ a, (g a).Candid) (l : List α) :
    (l.forM g).Candid := by
  induction l with
  | nil => exact candid_pure ()
  | cons a rest ih => exact (h a).andThen fun _ => ih

theorem candid_connections : (connections : Work (σ × List (Moment σ)) _).Candid :=
  candid_of_inner (fun _ => rfl) fun _ _ h => by cases h

theorem candid_freshId : (freshId : Work (σ × List (Moment σ)) _).Candid :=
  candid_of_inner (fun _ => rfl) fun _ _ h => by cases h

theorem candid_put (c : Connection) : (put c : Work (σ × List (Moment σ)) _).Candid :=
  candid_of_inner (fun _ => rfl) fun _ _ h => by cases h

theorem candid_modify (pair : NodePair) (i : InterfacePair) (g : Connection → Connection) :
    (modify pair i g : Work (σ × List (Moment σ)) _).Candid :=
  candid_of_inner (fun _ => rfl) fun _ _ h => by cases h

theorem candid_count (g : StepReport → StepReport) :
    (count g : Work (σ × List (Moment σ)) _).Candid :=
  candid_of_inner (fun _ => rfl) fun _ _ h => by cases h

theorem candid_stored (pair : NodePair) (i : InterfacePair) :
    (stored pair i : Work (σ × List (Moment σ)) _).Candid := by
  refine candid_of_inner (fun p => ?_) fun p cause h => ?_
  · rw [stored]
    split <;> rfl
  · rw [stored] at h
    split at h
    · cases h
    · exact ⟨pair, i, (Except.error.inj h).symm⟩

theorem candid_setActive (pair : NodePair) (i : InterfacePair) (active : Bool) :
    (setActive pair i active : Work (σ × List (Moment σ)) _).Candid := by
  refine candid_of_inner (fun p => ?_) fun p cause h => ?_
  · rw [setActive]
    split <;> rfl
  · rw [setActive] at h
    split at h
    · cases h
    · exact ⟨pair, i, (Except.error.inj h).symm⟩

/-! ### Calls to the backend -/

variable (b : Backend σ)

theorem candid_announce (a : Announcement) : (announce b.chronicled a).Candid := by
  refine ⟨fun p => ⟨[⟨p.world.1, .exchanged (.announced a)⟩], rfl, fun m hm hfailed => ?_, nofun⟩⟩
  rw [List.mem_singleton.mp hm] at hfailed
  cases hfailed

theorem candid_ask (site : LinkSite) (c : Connection) : (ask b.chronicled site c).Candid := by
  refine ⟨fun p => ⟨[⟨p.world.1, .exchanged (.asked site c (b.start site c p.world.1).1)⟩], rfl, ?_⟩⟩
  show _ ∧ ∀ cause, (b.start site c p.world.1).1.mapError _ = _ → _
  rw [show (ask b.chronicled site c p).1 = (b.start site c p.world.1).1.mapError .backend from rfl]
  cases (b.start site c p.world.1).1 with
  | error e => exact ⟨fun _ _ _ => rfl, fun _ _ => Or.inl ⟨_, List.mem_singleton_self _, rfl⟩⟩
  | ok answer =>
    refine ⟨fun m hm hfailed => ?_, nofun⟩
    rw [List.mem_singleton.mp hm] at hfailed
    cases hfailed

theorem candid_perform (r : Request) : (perform b.chronicled r).Candid := by
  refine ⟨fun p => ⟨[⟨p.world.1, .exchanged (.performed r (b.perform r p.world.1).1)⟩], rfl, ?_⟩⟩
  rw [show (perform b.chronicled r p).1 = (b.perform r p.world.1).1.mapError .backend from rfl]
  cases (b.perform r p.world.1).1 with
  | error e => exact ⟨fun _ _ _ => rfl, fun _ _ => Or.inl ⟨_, List.mem_singleton_self _, rfl⟩⟩
  | ok u =>
    refine ⟨fun m hm hfailed => ?_, nofun⟩
    rw [List.mem_singleton.mp hm] at hfailed
    cases hfailed

end Work

/-! ### Links -/

open Work

section Links

variable (b : Backend σ) (v : Visit) (kind : ConnectionKind) (ix iy : Interface) (i : InterfacePair)
  (c : Connection) (shaping : Shaping)

theorem setUp_candid : (setUp b.chronicled v kind ix iy i shaping).Candid := by
  refine candid_freshId.andThen fun id => (candid_ask b _ _).andThen fun answer => Candid.ite ?_ ?_
  · exact (candid_put _).andThen fun _ => (candid_stored _ _).andThen fun _ =>
      (candid_perform b _).andThen fun _ => (candid_count _).andThen fun _ => candid_pure _
  · exact (candid_count _).andThen fun _ => candid_pure _

theorem bringUp_candid : (bringUp b.chronicled v kind ix iy i shaping).Candid :=
  (candid_stored _ _).andThen fun _ => (candid_perform b _).andThen fun _ =>
    (candid_setActive _ _ _).andThen fun _ => (candid_modify _ _ _).andThen fun _ => candid_count _

theorem takeDown_candid : (takeDown b.chronicled v c i shaping).Candid :=
  (candid_perform b _).andThen fun _ => (candid_setActive _ _ _).andThen fun _ =>
    (candid_modify _ _ _).andThen fun _ => candid_count _

theorem shape_candid : (shape b.chronicled v c i shaping).Candid :=
  (candid_announce b _).andThen fun _ => candid_perform b _

end Links

/-! ### Pairs of nodes -/

namespace Setting

section Pairs

variable (s : Setting σ) (v : Visit) (decision : LinkDecision)

theorem createLink_candid (ix iy : Interface) : (s.chronicled.createLink v decision ix iy).Candid := by
  refine candid_connections.andThen fun store => Candid.ite (candid_pure _) ?_
  exact (setUp_candid s.backend ..).andThen fun _ =>
    Candid.ite (bringUp_candid s.backend ..) (candid_pure _)

theorem renewLink_candid (i : InterfacePair) : (s.chronicled.renewLink v decision i).Candid := by
  refine (candid_stored _ _).andThen fun c => ?_
  cases c.kind with
  | management => exact candid_pure _
  | central => exact (shape_candid s.backend ..).andThen fun _ => candid_count _
  | user =>
    refine Candid.ite ?_ (takeDown_candid s.backend ..)
    exact (shape_candid s.backend ..).andThen fun _ => (candid_modify _ _ _).andThen fun _ =>
      candid_count _

theorem reviveLink_candid (i : InterfacePair) : (s.chronicled.reviveLink v decision i).Candid :=
  (candid_stored _ _).andThen fun _ => bringUp_candid s.backend ..

theorem renewLinks_candid : (s.chronicled.renewLinks v decision).Candid := by
  rw [renewLinks]
  have active : ∀ rest : Work (σ × List (Moment σ)) Unit, rest.Candid →
      (do
        let store ← Work.connections
        (store.activeInterfaces v.pair).forM (s.chronicled.renewLink v decision)
        rest : Work (σ × List (Moment σ)) Unit).Candid := fun rest hrest =>
    candid_connections.andThen fun _ =>
      (Candid.forM (fun i => s.renewLink_candid v decision i) _).andThen fun _ => hrest
  cases decision.connected with
  | false => exact active _ (candid_pure _)
  | true =>
    refine (Candid.forM (fun e : Interface × Interface =>
      s.createLink_candid v decision e.1 e.2) _).andThen fun _ => ?_
    exact active _ (candid_connections.andThen fun _ =>
      Candid.forM (fun i => s.reviveLink_candid v decision i) _)

theorem ensureTunnel_candid (x y : NodeId) (pair : NodePair) :
    (s.chronicled.ensureTunnel x y pair).Candid := by
  refine ⟨fun p => ?_⟩
  cases hremote : s.chronicled.policy.isRemote p.world x y with
  | false =>
    rw [ensureTunnel, hremote, if_neg Bool.false_ne_true]
    refine ⟨[], (List.append_nil _).symm, fun m hm => ?_, fun cause h => ?_⟩
    · cases hm
    · cases h
  | true =>
    have hensure : s.chronicled.policy.ensure pair p.world = ((s.policy.ensure pair p.world.1).1,
        ((s.policy.ensure pair p.world.1).2,
          p.world.2 ++ [⟨p.world.1, .ensured pair (s.policy.ensure pair p.world.1).1⟩])) := rfl
    rw [ensureTunnel, hremote, if_pos rfl, hensure]
    refine ⟨[⟨p.world.1, .ensured pair (s.policy.ensure pair p.world.1).1⟩], rfl, ?_⟩
    cases (s.policy.ensure pair p.world.1).1 with
    | error fault =>
      exact ⟨fun _ _ _ => rfl, fun _ _ => Or.inl ⟨_, List.mem_singleton_self _, rfl⟩⟩
    | ok u =>
      refine ⟨fun m hm hfailed => ?_, fun cause h => ?_⟩
      · rw [List.mem_singleton.mp hm] at hfailed
        cases hfailed
      · cases h

theorem reconcileNodes_candid (step : Nat) (pair : NodePair) (distance : Distance) (x y : Node) :
    (s.chronicled.reconcileNodes step pair distance x y).Candid := by
  rw [reconcileNodes]
  refine Candid.ite (candid_pure _) ?_
  dsimp only
  refine candid_connections.andThen fun _ => Candid.ite ?_ (candid_pure _)
  exact (s.ensureTunnel_candid ..).andThen fun _ => s.renewLinks_candid ..

end Pairs

/-! ### The visits of a step -/

/-- One of the nodes of the pair is not known. -/
def Strange (nodes : SortedMap NodeId Node) (q : NodePair) : Prop :=
  nodes.get? q.low = none ∨ nodes.get? q.high = none

/-- A part of a step that has a pair to visit: it is reported if one of its nodes is not known or
something fails. -/
structure Halts (nodes : SortedMap NodeId Node) (q : NodePair)
    (p p' : Progress (σ × List (Moment σ))) : Prop where
  told : ∃ l, ofPair q p'.world.2 = ofPair q p.world.2 ++ l ∧
    (q ∈ p'.report.failedPairs ↔ q ∈ p.report.failedPairs ∨ Strange nodes q ∨
      ∃ m ∈ l, m.deed.failed = true)

section Visits

variable {s : Setting σ} {nodes : SortedMap NodeId Node} {step : Nat} {q : NodePair}
  {distance : Distance}

/-- Between known nodes an error tells of itself. -/
theorem reconcile_told_of_known {x y : Node} {p : Progress (σ × List (Moment σ))}
    (hx : nodes.get? q.low = some x) (hy : nodes.get? q.high = some y) (hs : p.store.Numbered) :
    ∃ l, (s.chronicled.reconcile nodes step q distance p).2.world.2 = p.world.2 ++ l ∧
      ((s.chronicled.reconcile nodes step q distance p).1.isOk = false ↔
        ∃ m ∈ l, m.deed.failed = true) := by
  have hreconcile : s.chronicled.reconcile nodes step q distance p =
      s.chronicled.reconcileNodes step q distance x y p := by
    rw [reconcile, hx, hy]
  have hcause : ∀ cause, (s.chronicled.reconcileNodes step q distance x y p).1 = .error cause →
      cause.OfPair nodes q := fun cause h => reconcileNodes_fails hs h
  obtain ⟨l, hl, hfails, herror⟩ := (s.reconcileNodes_candid step q distance x y).tells p
  rw [hreconcile]
  refine ⟨l, hl, fun hr => ?_, fun hm => hm.elim fun m hm => hfails m hm.1 hm.2⟩
  cases hresult : (s.chronicled.reconcileNodes step q distance x y p).1 with
  | ok u =>
    rw [hresult] at hr
    cases hr
  | error cause =>
    rcases herror cause hresult with htold | ⟨pair, i, rfl⟩
    · exact htold
    · exact absurd rfl ((hcause _ hresult).stored pair i)

/-- A visit reports its pair if it ends with an error. -/
theorem visited_failedPairs_iff {p : Progress σ} (hs : p.store.Numbered) :
    q ∈ (s.visited nodes step q distance p).report.failedPairs ↔
      q ∈ p.report.failedPairs ∨ (s.reconcile nodes step q distance p).1.isOk = false := by
  have hconfined : Confined q p (s.reconcile nodes step q distance p).2 := reconcile_confined hs
  rcases hr : s.reconcile nodes step q distance p with ⟨cause | u, p'⟩
  · rw [visited_of_error hr, failedPairs_addFailure]
    exact iff_of_true (List.mem_append_right _ (List.mem_singleton_self q)) (Or.inr rfl)
  · rw [hr] at hconfined
    rw [visited_of_ok hr, StepReport.failedPairs, hconfined.failures]
    exact (or_iff_left Bool.noConfusion).symm

theorem visited_halts {p : Progress (σ × List (Moment σ))} (hs : p.store.Numbered)
    (hk : Keyed nodes) : Halts nodes q p (s.chronicled.visited nodes step q distance p) := by
  have hencounter : s.chronicled.Encounter q p (s.chronicled.reconcile nodes step q distance p) :=
    reconcile_encounter hs hk
  obtain ⟨l, hl, hpassage, -⟩ := hencounter.passage hs
  refine ⟨l, ?_, (visited_failedPairs_iff hs).trans (or_congr_right ?_)⟩
  · rw [(visited_reconciles q distance).2, hl, ofPair_append, ofPair_of_forall hpassage.pair?]
  cases hx : nodes.get? q.low with
  | none =>
    have hr : s.chronicled.reconcile nodes step q distance p = (.error (.unknownNode q.low), p) := by
      rw [reconcile, hx]
      rfl
    exact iff_of_true (by rw [hr]; rfl) (Or.inl (Or.inl hx))
  | some x =>
    cases hy : nodes.get? q.high with
    | none =>
      have hr : s.chronicled.reconcile nodes step q distance p =
          (.error (.unknownNode q.high), p) := by
        rw [reconcile, hx, hy]
        rfl
      exact iff_of_true (by rw [hr]; rfl) (Or.inl (Or.inr hy))
    | some y =>
      obtain ⟨l', hl', hiff⟩ : ∃ l', (s.chronicled.reconcile nodes step q distance p).2.world.2 =
          p.world.2 ++ l' ∧ _ := reconcile_told_of_known hx hy hs
      have hsame : l' = l := List.append_cancel_left (hl'.symm.trans hl)
      have hknown : ¬ Strange nodes q := by
        rw [Strange, hx, hy]
        rintro (h | h) <;> cases h
      rw [hiff, hsame, or_iff_right hknown]

/-- The visits to other pairs are nothing to a pair. -/
theorem reconcileAll_of_notMem {l : List (NodePair × Distance)} {p : Progress σ}
    (hs : p.store.Numbered) (hl : q ∉ l.map Prod.fst) :
    (s.reconcileAll nodes step l p).store.Numbered ∧
      (∀ i, (s.reconcileAll nodes step l p).store.find? q i = p.store.find? q i) ∧
      (q ∈ (s.reconcileAll nodes step l p).report.failedPairs ↔ q ∈ p.report.failedPairs) := by
  induction l generalizing p with
  | nil => exact ⟨hs, fun _ => rfl, Iff.rfl⟩
  | cons a rest ih =>
    rw [List.map_cons, List.mem_cons, not_or] at hl
    obtain ⟨hs', hsame, hfailed⟩ : (s.visited nodes step a.1 a.2 p).store.Numbered ∧ _ :=
      visited_of_ne hs hl.1
    obtain ⟨hs'', hsame', hfailed'⟩ := ih hs' hl.2
    rw [reconcileAll_cons]
    exact ⟨hs'', fun i => (hsame' i).trans (hsame i), hfailed'.trans hfailed⟩

theorem reconcileAll_halts {l : List (NodePair × Distance)} {p : Progress (σ × List (Moment σ))}
    (hs : p.store.Numbered) (hk : Keyed nodes) (hl : (l.map Prod.fst).Nodup)
    (hq : q ∈ l.map Prod.fst) :
    Halts nodes q p (s.chronicled.reconcileAll nodes step l p) := by
  induction l generalizing p with
  | nil => cases hq
  | cons a rest ih =>
    obtain ⟨q', distance⟩ := a
    obtain ⟨hfresh, hrest⟩ := List.nodup_cons.mp hl
    rw [reconcileAll_cons]
    by_cases hne : q = q'
    · -- the visits that follow are to other pairs
      subst hne
      have hcrossing : Crossing s.policy q p (s.chronicled.visited nodes step q distance p) :=
        visited_crossing distance hs hk
      have hhalts : Halts nodes q p (s.chronicled.visited nodes step q distance p) :=
        visited_halts hs hk
      obtain ⟨l, hl, hiff⟩ := hhalts.told
      have hspares : Spares q (s.chronicled.visited nodes step q distance p)
          (s.chronicled.reconcileAll nodes step rest _) :=
        reconcileAll_spares hcrossing.numbered hk hfresh
      obtain ⟨-, -, hfailed⟩ : (s.chronicled.reconcileAll nodes step rest
          (s.chronicled.visited nodes step q distance p)).store.Numbered ∧ _ :=
        reconcileAll_of_notMem hcrossing.numbered hfresh
      exact ⟨l, hspares.told.trans hl, hfailed.trans hiff⟩
    · have hspares : Spares q p (s.chronicled.visited nodes step q' distance p) :=
        visited_spares distance hs hk hne
      obtain ⟨-, -, hfailed⟩ : (s.chronicled.visited nodes step q' distance p).store.Numbered ∧ _ :=
        visited_of_ne hs hne
      obtain ⟨l, hl, hiff⟩ := (ih hspares.numbered hrest
        ((List.mem_cons.mp hq).resolve_left hne)).told
      refine ⟨l, by rw [hl, hspares.told], ?_⟩
      rw [hiff, hfailed]

/-- What is reported is reported in the order of the visits, with the distances of the visits. -/
theorem reconcileAll_reports {l : List (NodePair × Distance)} {p : Progress σ}
    (hs : p.store.Numbered) :
    ∃ fs, (s.reconcileAll nodes step l p).report.failures = p.report.failures ++ fs ∧
      (fs.map fun f => (f.pair, f.distance)).Sublist l := by
  induction l generalizing p with
  | nil => exact ⟨[], (List.append_nil _).symm, List.Sublist.refl []⟩
  | cons a rest ih =>
    obtain ⟨pair, distance⟩ := a
    have hconfined : Confined pair p (s.reconcile nodes step pair distance p).2 :=
      reconcile_confined hs
    rw [reconcileAll_cons]
    rcases hr : s.reconcile nodes step pair distance p with ⟨cause | u, p'⟩
    · rw [hr] at hconfined
      rw [visited_of_error hr]
      obtain ⟨fs, hfs, hsub⟩ := ih
        (p := { p' with report := p'.report.addFailure ⟨pair, distance, cause⟩ }) hconfined.numbered
      refine ⟨⟨pair, distance, cause⟩ :: fs, ?_, hsub.cons_cons _⟩
      rw [hfs, ← hconfined.failures]
      exact List.append_assoc ..
    · rw [hr] at hconfined
      rw [visited_of_ok hr]
      obtain ⟨fs, hfs, hsub⟩ := ih hconfined.numbered
      exact ⟨fs, by rw [hfs, hconfined.failures], hsub.cons _⟩

end Visits

end Setting

/-! ### Steps -/

namespace Engine

variable {e : Engine σ μ}

/-- Failures are reported in the order of their pairs, each with the distance that has changed. -/
theorem failures_ascending (hs : e.store.Numbered) (distances : DistanceMatrix) :
    ((e.applyDistances distances).1.failures.Pairwise fun f g => rank f.pair < rank g.pair) ∧
      ∀ f ∈ (e.applyDistances distances).1.failures,
        (e.changed distances).get? f.pair = some f.distance := by
  obtain ⟨p, hp, hblank, -, hfailures⟩ := e.applyDistances_reconciles distances
  rw [← hp] at hs
  obtain ⟨fs, hfs, hsub⟩ : ∃ fs, (e.setting.reconcileAll e.nodes e.step
      (e.changed distances).entries p).report.failures = p.report.failures ++ fs ∧ _ :=
    Setting.reconcileAll_reports hs
  rw [hblank, List.nil_append] at hfs
  rw [hfailures, hfs]
  have hascending : (fs.map fun f => (f.pair, f.distance)).Pairwise fun a b => rank a.1 < rank b.1 :=
    (e.changed distances).ascending.sublist hsub
  rw [List.pairwise_map] at hascending
  refine ⟨hascending, fun f hf => ?_⟩
  exact SortedMap.get?_eq_some_iff.mpr (hsub.subset (List.mem_map_of_mem hf))

variable [Movement μ]

/-- A step reports the changed pairs of which a node is not known or at which something fails. -/
theorem failedPairs_iff (hs : e.store.Numbered) (hk : Keyed e.nodes) (distances : DistanceMatrix)
    (q : NodePair) :
    q ∈ (e.applyDistances distances).1.failedPairs ↔
      (e.changed distances).contains q = true ∧ (Setting.Strange e.nodes q ∨
        ∃ m ∈ ofPair q (e.chronicle [.apply distances]), m.deed.failed = true) := by
  rw [← (applyDistances_shows e.chronicled_shows distances).1, chronicle_one]
  have hkeys : (e.changed distances).contains q = true ↔
      q ∈ (e.changed distances).entries.map Prod.fst :=
    SortedMap.contains_iff.trans SortedMap.mem_keys_iff.symm
  rw [hkeys]
  by_cases hskip : ((e.changed distances).isEmpty && e.step != 0) = true
  · have hskip' : ((e.chronicled.changed distances).isEmpty && e.chronicled.step != 0) = true := hskip
    obtain ⟨hreport, -, -, hentries⟩ := applyDistances_skipped hskip'
    have hnone : (e.changed distances).entries = [] := hentries
    rw [hreport, hnone]
    exact iff_of_false List.not_mem_nil fun h => List.not_mem_nil h.1
  obtain ⟨all, hfailures, hopened, hclosed⟩ := applyDistances_spares q hs hskip
  have hnumbered : (e.chronicled.visits (e.changed distances) all).store.Numbered :=
    (Setting.reconcileAll_crossing (q := q) hs hk (SortedMap.keys_nodup _)).numbered
  have hbefore : ofPair q (e.chronicled.opened (e.changed distances) all).world.2 = [] := hopened.told
  have hafter : ofPair q (e.chronicled.perform (.apply distances)).world.2 =
      ofPair q (e.chronicled.visits (e.changed distances) all).world.2 := (hclosed hnumbered).told
  rw [StepReport.failedPairs, hfailures, ← StepReport.failedPairs, hafter]
  by_cases hq : q ∈ (e.changed distances).entries.map Prod.fst
  · obtain ⟨l, hl, hiff⟩ : Setting.Halts e.nodes q (e.chronicled.opened (e.changed distances) all)
        (e.chronicled.visits (e.changed distances) all) :=
      Setting.reconcileAll_halts hs hk (SortedMap.keys_nodup _) hq
    rw [hbefore, List.nil_append] at hl
    rw [hl, and_iff_right hq]
    exact hiff.trans (or_iff_right List.not_mem_nil)
  · obtain ⟨-, -, hfailed⟩ : (e.chronicled.visits (e.changed distances) all).store.Numbered ∧ _ :=
      Setting.reconcileAll_of_notMem hs hq
    exact iff_of_false (fun h => List.not_mem_nil (hfailed.mp h)) fun h => hq h.1

/-- A pair is reported if a call about one of its links has failed. -/
theorem failed_reported (hs : e.store.Numbered) (hk : Keyed e.nodes) {distances : DistanceMatrix}
    {x : Exchange} (hx : x ∈ e.history [.apply distances]) (hfailed : x.failed = true)
    {site : LinkSite} {c : Connection} (hlink : x.link? = some (site, c)) :
    c.pair ∈ (e.applyDistances distances).1.failedPairs := by
  refine (failedPairs_iff hs hk distances c.pair).mpr ⟨?_, Or.inr ?_⟩
  · rcases history_told hs distances x hx with hnone | ⟨v, hv, site', c', hlink', -, -, hpair, -⟩
    · rw [hnone] at hlink
      cases hlink
    · obtain ⟨-, rfl⟩ := Prod.mk.inj (Option.some.inj (hlink.symm.trans hlink'))
      exact SortedMap.contains_iff.mpr ⟨v.distance, by rw [hpair]; exact hv.changed⟩
  · rw [history_eq] at hx
    obtain ⟨⟨w, deed⟩, hm, hdeed⟩ := List.mem_filterMap.mp hx
    cases deed with
    | ensured pair result => cases hdeed
    | exchanged y =>
      obtain rfl := Option.some.inj hdeed
      refine ⟨_, List.mem_filter.mpr ⟨hm, decide_eq_true ?_⟩, hfailed⟩
      show y.link?.map _ = _
      rw [hlink]
      rfl

end Engine

end ProximityNet
