import ProximityNet.Proofs.Incremental
import ProximityNet.Proofs.Ledger
import ProximityNet.Proofs.Ranges

/-!
# What a link carries

A backend is handed a shaping whenever a link comes up, is shaped or is taken down, and leaves alone
what the shaping leaves open.  What has piled up in this way is what the store says of the link, but
for one thing: a link is taken down with all lost, which is not stored, and stays lost until a loss is
handed over again.

* `Handover`, `handovers` — the shapings that were handed over for one link;
* `carried` — what they come to;
* `drained` — whether the last loss among them came with the link being taken down;
* `Accounted` — the invariant that ties these to the store;
* `carried_shaping` — what every run makes of them, when nothing fails;
* `loss_outlives_descent` — a run in which a link that is up again is still lost.
-/

namespace ProximityNet

variable {σ μ : Type}

/-! ### Handing over -/

/-- A shaping that was handed over for a link. -/
structure Handover where
  shaping : Shaping
  /-- Whether the link was taken down with it. -/
  lowering : Bool

/-- The shaping that an exchange handed over for a link, if the backend did what it was asked. -/
def Exchange.handover? (id : ConnectionId) : Exchange → Option Handover
  | .performed (.raise _ c shaping) (.ok ()) | .performed (.adjust _ c _ shaping) (.ok ()) =>
    if c.id = id then some ⟨shaping, false⟩ else none
  | .performed (.lower _ c shaping) (.ok ()) => if c.id = id then some ⟨shaping, true⟩ else none
  | _ => none

/-- All shapings that were handed over for a link. -/
def handovers (id : ConnectionId) (history : List Exchange) : List Handover :=
  history.filterMap (Exchange.handover? id)

/-- What a link carries: each shaping is laid over the ones before it. -/
def carried (id : ConnectionId) (history : List Exchange) : Shaping :=
  (handovers id history).foldl (fun q h => h.shaping.fillFrom q) .none

/-- Whether a link was taken down with the last loss that was handed over for it. -/
def drained (id : ConnectionId) (history : List Exchange) : Bool :=
  ((handovers id history).filter (·.shaping.lossPercent.isSome)).getLast?.any (·.lowering)

section Handovers

variable {id : ConnectionId} {h more : List Exchange} {x : Handover}

theorem handovers_append (id : ConnectionId) (h more : List Exchange) :
    handovers id (h ++ more) = handovers id h ++ handovers id more := List.filterMap_append

/-- Exchanges in which nothing is handed over. -/
theorem carried_of_nil (hmore : handovers id more = []) :
    carried id (h ++ more) = carried id h ∧ drained id (h ++ more) = drained id h := by
  rw [carried, drained, handovers_append, hmore, List.append_nil]
  exact ⟨rfl, rfl⟩

/-- Exchanges in which one shaping is handed over. -/
theorem carried_of_one (hmore : handovers id more = [x]) :
    carried id (h ++ more) = x.shaping.fillFrom (carried id h) ∧
      drained id (h ++ more) =
        if x.shaping.lossPercent.isSome then x.lowering else drained id h := by
  rw [carried, drained, handovers_append, hmore, List.foldl_append, List.filter_append]
  refine ⟨rfl, ?_⟩
  cases hloss : x.shaping.lossPercent with
  | none => rw [List.filter_cons_of_neg (by simp [hloss]), List.filter_nil, List.append_nil]; rfl
  | some loss =>
    rw [List.filter_cons_of_pos (by simp [hloss]), List.filter_nil, List.getLast?_concat]
    rfl

/-- An exchange in which a shaping is handed over for one link. -/
theorem handovers_one {c : Connection} {y : Exchange}
    (hy : ∀ id, y.handover? id = if c.id = id then some x else none) (id : ConnectionId) :
    handovers id [y] = if c.id = id then [x] else [] := by
  rw [handovers, List.filterMap_cons, List.filterMap_nil, hy]
  split <;> simp_all

theorem handovers_raised (site : LinkSite) (c : Connection) (q : Shaping) (id : ConnectionId) :
    handovers id [.performed (.raise site c q) (.ok ())] =
      if c.id = id then [⟨q, false⟩] else [] :=
  handovers_one (fun _ => rfl) id

theorem handovers_lowered (site : LinkSite) (c : Connection) (q : Shaping) (id : ConnectionId) :
    handovers id [.performed (.lower site c q) (.ok ())] =
      if c.id = id then [⟨q, true⟩] else [] :=
  handovers_one (fun _ => rfl) id

theorem handovers_adjusted (site : LinkSite) (c : Connection) (q : Shaping) (id : ConnectionId) :
    handovers id [.announced (.adjusting site c true q),
      .performed (.adjust site c true q) (.ok ())] = if c.id = id then [⟨q, false⟩] else [] :=
  handovers_one (y := .performed (.adjust site c true q) (.ok ())) (fun _ => rfl) id

end Handovers

/-! ### What is carried and what is stored -/

namespace Shaping

/-- What a link carries whose stored shaping is `q`: with all lost, if it is drained. -/
def drainedTo (q : Shaping) (drained : Bool) : Shaping :=
  if drained then LinkDecision.down.shaping.fillFrom q else q

variable {q stored : Shaping} {b : Bool}

/-- A shaping is laid over what is carried as over what is stored; if it has a loss, no other one
counts. -/
theorem fillFrom_drainedTo (q stored : Shaping) (b : Bool) :
    q.fillFrom (stored.drainedTo b) =
      (q.fillFrom stored).drainedTo (if q.lossPercent.isSome then false else b) := by
  cases b with
  | false => simp [drainedTo]
  | true =>
    cases hloss : q.lossPercent <;>
      simp [drainedTo, LinkDecision.down, loss, none, fillFrom, hloss]

theorem down_fillFrom_drainedTo (stored : Shaping) (b : Bool) :
    LinkDecision.down.shaping.fillFrom (stored.drainedTo b) = stored.drainedTo true := by
  cases b with
  | false => rfl
  | true => simp [drainedTo, LinkDecision.down, loss, none, fillFrom]

end Shaping

/-- What links carry is what the store says, or is lost; links to hubs always are as they were
when they first came up, and nothing has been handed over for links yet to come. -/
structure Accounted (s : Setting σ) (history : List Exchange) (store : ConnectionStore) : Prop where
  shaped : ∀ {id c}, store.Named id c →
    carried id history = c.shaping.drainedTo (drained id history)
  hub : ∀ {id c}, store.Named id c → c.kind = .central →
    c.connected = true ∧ c.shaping = s.initial ∧ drained id history = false
  fresh : ∀ {id : ConnectionId}, store.nextNumber ≤ id.value →
    carried id history = .none ∧ drained id history = false

variable {s : Setting σ} {history more : List Exchange} {store store' : ConnectionStore}

theorem accounted_empty (s : Setting σ) : Accounted s [] .empty where
  shaped h := by
    obtain ⟨_, _, _, h⟩ := h
    cases h
  hub h := by
    obtain ⟨_, _, _, h⟩ := h
    cases h
  fresh _ := ⟨rfl, rfl⟩

/-- Exchanges in which nothing is handed over, and which leave the store alone. -/
theorem Accounted.quiet (h : Accounted s history store) (hmore : ∀ id, handovers id more = [])
    (next : store.nextNumber ≤ store'.nextNumber)
    (same : ∀ id c, store'.Named id c → store.Named id c) : Accounted s (history ++ more) store' := by
  have hsame := fun id => carried_of_nil (h := history) (hmore id)
  refine ⟨fun {id c} hc => ?_, fun {id c} hc hkind => ?_, fun {id} hle => ?_⟩
  · rw [(hsame id).1, (hsame id).2]
    exact h.shaped (same id c hc)
  · rw [(hsame id).2]
    exact h.hub (same id c hc) hkind
  · rw [(hsame id).1, (hsame id).2]
    exact h.fresh (Nat.le_trans next hle)

/-- A shaping is handed over for one link, of which `c` is filed. -/
theorem Accounted.hand (h : Accounted s history store) {c : Connection} {x : Handover}
    (hmore : ∀ id, handovers id more = if c.id = id then [x] else [])
    (next : store.nextNumber ≤ store'.nextNumber) (used : c.id.value < store'.nextNumber)
    (named : ∀ id y, store'.Named id y ↔ if id = c.id then y = c else store.Named id y)
    (hcarried : x.shaping.fillFrom (carried c.id history) = c.shaping.drainedTo
      (if x.shaping.lossPercent.isSome then x.lowering else drained c.id history))
    (hhub : c.kind = .central → c.connected = true ∧ c.shaping = s.initial ∧
      (if x.shaping.lossPercent.isSome then x.lowering else drained c.id history) = false) :
    Accounted s (history ++ more) store' := by
  obtain ⟨hown, hdrained⟩ := carried_of_one (h := history) ((hmore c.id).trans (if_pos rfl))
  have hother := fun id (hne : id ≠ c.id) =>
    carried_of_nil (h := history) ((hmore id).trans (if_neg hne.symm))
  refine ⟨fun {id y} hy => ?_, fun {id y} hy hkind => ?_, fun {id} hle => ?_⟩
  · rw [named] at hy
    split at hy
    · rename_i hid
      rw [hid, hy, hown, hdrained]
      exact hcarried
    · rename_i hid
      rw [(hother id hid).1, (hother id hid).2]
      exact h.shaped hy
  · rw [named] at hy
    split at hy
    · rename_i hid
      rw [hy] at hkind ⊢
      rw [hid, hdrained]
      exact hhub hkind
    · rename_i hid
      rw [(hother id hid).2]
      exact h.hub hy hkind
  · have hid : id ≠ c.id := by
      rintro rfl
      exact Nat.lt_irrefl _ (Nat.lt_of_lt_of_le used hle)
    rw [(hother id hid).1, (hother id hid).2]
    exact h.fresh (Nat.le_trans next hle)

/-- A shaping is handed over for a stored link that is kept with that shaping laid over its own. -/
theorem Accounted.reshape (h : Accounted s history store) (hs : store.Numbered) {c c' : Connection}
    {pair : NodePair} {i : InterfacePair} {q : Shaping} (found : store.find? pair i = some c)
    (hmore : ∀ id, handovers id more = if c.id = id then [⟨q, false⟩] else [])
    (hid : c'.id = c.id) (hpair : c'.pair = c.pair) (hi : c'.interfaces = c.interfaces)
    (hshaping : c'.shaping = q.fillFrom c.shaping) (huser : c'.kind ≠ .central) :
    Accounted s (history ++ more) (store.file c') := by
  have hcarried := h.shaped (ConnectionStore.named_of_find? found)
  have hnext := ConnectionStore.file_nextNumber store c'
  refine h.hand (c := c') (x := ⟨q, false⟩) ?_ (Nat.le_of_eq hnext.symm) ?_ ?_ ?_ ?_
  · rw [hid]
    exact hmore
  · rw [hnext, hid]
    exact hs.below found
  · rw [hid]
    exact hs.named_file found hid hpair hi
  · rw [hid, hcarried, hshaping]
    exact Shaping.fillFrom_drainedTo _ _ _
  · exact fun hkind => absurd hkind huser

theorem Backend.Reliable.recorded {b : Backend σ} (h : b.Reliable) : b.recorded.Reliable where
  start site c w := by
    obtain ⟨answer, world, hstart, hyes⟩ := h.start site c w.1
    refine ⟨answer, (world, w.2 ++ [.asked site c (.ok answer)]), ?_, hyes⟩
    simp only [Backend.recorded, hstart]
  perform r w := by
    obtain ⟨world, hperform⟩ := h.perform r w.1
    refine ⟨(world, w.2 ++ [.performed r (.ok ())]), ?_⟩
    simp only [Backend.recorded, hperform]

theorem Backend.Reliable.not_error {b : Backend σ} (h : b.Reliable) {r : Request} {w w' : σ}
    {e : BackendError} : b.perform r w ≠ (.error e, w') := by
  obtain ⟨world, hperform⟩ := h.perform r w
  rw [hperform]
  exact nofun

/-- A visit that finds its nodes out of range hands over that all is lost. -/
theorem Setting.decide_of_far (hm : s.model.Severs) {v : Visit}
    (far : (s.decide v.kind v.distance).connected = false) :
    s.decide v.kind v.distance = .down := by
  rw [Setting.decide] at far ⊢
  split at far
  · cases far
  · rename_i hkind
    rw [if_neg hkind]
    exact hm v.distance far

/-- When nothing fails every move keeps account of what links carry. -/
theorem Setting.Move.accounted {t : Task} {p p' : Progress (σ × List Exchange)}
    (hb : s.backend.Reliable) (hm : s.model.Severs) (hs : p.store.Numbered)
    (hmove : s.recorded.Move t p p') (h : Accounted s p.world.2 p.store) :
    Accounted s p'.world.2 p'.store := by
  cases hmove with
  | tunnel _ ensure =>
    dsimp only
    rw [recorded_ensure ensure]
    exact h
  | startFailed launch free start =>
    dsimp only
    rw [recorded_start start]
    exact h.quiet (fun _ => rfl) (Nat.le_succ _) fun _ _ hc => hc
  | refused launch free start no =>
    dsimp only
    rw [recorded_start start]
    exact h.quiet (fun _ => rfl) (Nat.le_succ _) fun _ _ hc => hc
  | createFailed launch free start yes create => exact absurd create hb.recorded.not_error
  | launchFailed launch free start yes create raise => exact absurd raise hb.recorded.not_error
  | @launched _ _ l answer _ _ _ launch free start yes create raise =>
    dsimp only
    rw [recorded_perform raise, recorded_perform create, recorded_start start, List.append_assoc,
      List.append_assoc]
    obtain ⟨c, hc⟩ : ∃ c, c = ((t.visit.fresh l.kind l.interfaces p.store).accepted l.held
      answer.switch).raised t.visit.distance l.first := ⟨_, rfl⟩
    have hid : c.id = ⟨p.store.nextNumber⟩ := by rw [hc]; rfl
    have hshaping : c.shaping = l.first := by rw [hc]; exact launch.first_fillFrom_held
    obtain ⟨hempty, hundrained⟩ :
        carried ⟨p.store.nextNumber⟩ p.world.2 = .none ∧
          drained ⟨p.store.nextNumber⟩ p.world.2 = false := h.fresh (Nat.le_refl p.store.nextNumber)
    have hnext := ConnectionStore.file_nextNumber p.store.freshId.2 c
    rw [← hc]
    refine h.hand (c := c) (x := ⟨l.first, false⟩) (fun id => ?_) ?_ ?_ ?_ ?_ fun hkind => ?_
    · rw [hid]
      exact handovers_raised _ _ _ id
    · rw [hnext]
      exact Nat.le_succ _
    · rw [hnext, hid]
      exact Nat.lt_succ_self _
    · refine hs.named_fileFresh (by rw [hid]) ?_
      rw [hc]
      exact free
    · rw [hid, hempty, hundrained, hshaping, ite_self]
      exact Shaping.fillFrom_none _
    · rw [hid, hundrained, hshaping, ite_self]
      refine ⟨by rw [hc]; rfl, launch.first_of_central ?_, rfl⟩
      rw [hc] at hkind
      exact hkind
  | raiseFailed revive found down raise => exact absurd raise hb.recorded.not_error
  | raised revive found down raise =>
    dsimp only
    rw [recorded_perform raise]
    refine h.reshape hs found (handovers_raised _ _ _) rfl rfl rfl rfl fun hkind => ?_
    obtain ⟨hup, _⟩ := h.hub (ConnectionStore.named_of_find? found) hkind
    rw [hup] at down
    cases down
  | lowerFailed kind far found up lower => exact absurd lower hb.recorded.not_error
  | @lowered v _ c _ kind far found up lower =>
    dsimp only
    rw [recorded_perform lower]
    have hdown := Setting.decide_of_far hm far
    have hlost : (LinkDecision.down.shaping).lossPercent.isSome = true := rfl
    have hnext := ConnectionStore.file_nextNumber p.store (c.lowered v.distance)
    have hnamed : ∀ id y, (p.store.file (c.lowered v.distance)).Named id y ↔
        if id = c.id then y = c.lowered v.distance else p.store.Named id y :=
      hs.named_file found rfl rfl rfl
    refine h.hand (c := c.lowered v.distance) (x := ⟨LinkDecision.down.shaping, true⟩)
      (fun id => ?_) (Nat.le_of_eq hnext.symm) ?_ hnamed ?_ fun hkind => ?_
    · rw [← hdown]
      exact handovers_lowered _ _ _ id
    · show c.id.value < _
      rw [hnext]
      exact hs.below found
    · rw [if_pos hlost]
      have hcarried := h.shaped (ConnectionStore.named_of_find? found)
      exact (congrArg _ hcarried).trans (Shaping.down_fillFrom_drainedTo _ _)
    · exact absurd (kind.symm.trans hkind) nofun
  | adjustFailed adjust found up shape => exact absurd shape hb.recorded.not_error
  | adjusted kind adjust found up shape =>
    dsimp only
    rw [recorded_shape shape]
    refine h.reshape hs found (handovers_adjusted _ _ _) rfl rfl rfl rfl ?_
    dsimp only [Connection.adjusted]
    rw [kind]
    exact nofun
  | @hubAdjusted v _ c _ kind found up shape =>
    dsimp only
    rw [recorded_shape shape]
    have hnamed := ConnectionStore.named_of_find? found
    obtain ⟨_, hshaping, hundrained⟩ := h.hub hnamed kind
    have hcarried := h.shaped hnamed
    rw [hundrained, hshaping] at hcarried
    -- the link is filed as it was
    refine h.hand (c := c) (x := ⟨s.initial, false⟩) (handovers_adjusted _ _ _) (Nat.le_refl _)
      (hs.below found) (fun id y => ?_) ?_ fun _ => ⟨up, hshaping, ?_⟩
    · split
      · rename_i hid
        rw [hid]
        exact ⟨fun hy => hs.named_inj hy hnamed, fun hy => by rw [hy]; exact hnamed⟩
      · rfl
    · rw [hcarried, hundrained, hshaping, ite_self]
      exact Shaping.fillFrom_self _
    · rw [hundrained, ite_self]

theorem Setting.keeps_accounted (hb : s.backend.Reliable) (hm : s.model.Severs) :
    s.recorded.Keeps fun _ st w => Accounted s w.2 st where
  move _ hs hmove h := hmove.accounted hb hm hs h
  announce _ h := h.quiet (fun _ => rfl) (Nat.le_refl _) fun _ _ hc => hc
  finish _ _ h := h.quiet (fun _ => rfl) (Nat.le_refl _) fun _ _ hc => hc
  grow _ h := h

/-! ### Every run -/

/-- When nothing is refused and nothing fails, a link that is up carries the shaping that is stored,
unless it was taken down with the last loss that was handed over for it: then all is lost, and the rest
is as stored. -/
theorem carried_shaping [Movement μ] {e : Engine σ μ} {initial : Shaping}
    {config : LinkModel.Config} (hmodel : LinkModel.build initial config = .ok e.setting.model)
    (hb : e.setting.backend.Reliable) (ops : List Operation) :
    ∀ c ∈ (e.reset.run ops).store.active.connections,
      (drained c.id (e.reset.history ops) = false →
        carried c.id (e.reset.history ops) = c.shaping) ∧
      (drained c.id (e.reset.history ops) = true →
        carried c.id (e.reset.history ops) = { c.shaping with lossPercent := some 100.0 }) := by
  obtain ⟨hnumbered, hholds⟩ := Engine.history_kept
    (Setting.keeps_accounted hb (LinkModel.build_severs hmodel)) (accounted_empty e.setting) ops
  intro c hc
  obtain ⟨hstored, _⟩ := hnumbered.mem_active_iff.mp hc
  have hshaped : carried c.id (e.reset.history ops) =
      c.shaping.drainedTo (drained c.id (e.reset.history ops)) := hholds.shaped ⟨rfl, hstored⟩
  refine ⟨fun hdrained => ?_, fun hdrained => ?_⟩
  · rw [hshaped, hdrained]
    rfl
  · rw [hshaped, hdrained]
    rfl

/-- The two nodes, and a model that shapes links below a threshold. -/
def shapedEngine : Engine Unit Stationary :=
  { twoNodeEngine with
    setting := ⟨.step 10.0 { Shaping.none with bandwidthKbit := some 1000 }, .equal, .silent, .local⟩ }

/-- The two nodes are near. -/
def drawNear : Operation := .apply (apart ⟨4.0, by decide⟩)

/-- The two nodes are out of range. -/
def drawApart : Operation := .apply (apart ⟨40.0, by decide⟩)

/-- A link that has come up once carries what is stored. -/
theorem first_raise_carried : ∃ c ∈ (shapedEngine.reset.run [drawNear]).store.active.connections,
    carried c.id (shapedEngine.reset.history [drawNear]) = c.shaping := by
  have hmodel : LinkModel.build { Shaping.none with bandwidthKbit := some 1000 } (.step 10.0) =
      .ok shapedEngine.setting.model := rfl
  have hup : ∃ c ∈ (shapedEngine.reset.run [drawNear]).store.active.connections,
      drained c.id (shapedEngine.reset.history [drawNear]) = false := by
    decide +kernel
  obtain ⟨c, hc, hdrained⟩ := hup
  exact ⟨c, hc, (carried_shaping hmodel reliable_silent [drawNear] c hc).1 hdrained⟩

/-- A link that was out of range and is up again has all lost, and the store does not say so. -/
theorem loss_outlives_descent :
    LinkModel.build { Shaping.none with bandwidthKbit := some 1000 } (.step 10.0) =
        .ok shapedEngine.setting.model ∧
      ∃ c ∈ (shapedEngine.run [drawNear, drawApart, drawNear]).store.active.connections,
        carried c.id (shapedEngine.history [drawNear, drawApart, drawNear]) ≠ c.shaping :=
  ⟨rfl, by decide +kernel⟩

end ProximityNet
