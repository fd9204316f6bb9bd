import ProximityNet.Proofs.Shapings
import ProximityNet.Proofs.Wiring

/-!
# Links that stay up

Links to hubs and to the management node do not depend on distances.  Once up they stay up until a
reset, whatever matrix is applied and whatever the backend answers.  No step mentions a link to the
management node, and every step shapes the links of the hub overlay anew.

* `Setting.Move.standing`, `Setting.keeps_standing` — no move changes such a link while it is up;
* `LowersUserLinks`, `Setting.keeps_lowering` — only links for users are ever taken down;
* `Engine.Anchored` — the hub overlay joins hubs and emulation nodes that are known;
* `Engine.history_unmanaged` — a step has nothing to do with the management node;
* `Engine.history_shapes_hub` — a step shapes every link of the overlay that is up;
* `standing_links_kept` — all of this, of every engine that can be reached.
-/

namespace ProximityNet

variable {σ μ : Type}

/-- Only links for users are to be taken down. -/
def LowersUserLinks (history : List Exchange) : Prop :=
  ∀ x ∈ history, x.lowers = true → ∃ site c, x.link? = some (site, c) ∧ c.kind = .user

/-! ### What moves do to such links -/

namespace Setting

variable {s : Setting σ} {t : Task} {pair : NodePair} {i : InterfacePair} {c : Connection}

/-- No move changes a link that is up and not for users. -/
theorem Move.standing {p p' : Progress σ} (h : s.Move t p p') (hs : p.store.Numbered)
    (hc : p.store.find? pair i = some c) (hup : c.connected = true) (hkind : c.kind ≠ .user) :
    p'.store.find? pair i = some c := by
  have hw := hs.toWellFormed
  -- what is filed has other keys
  have filed : ∀ {st : ConnectionStore} {d : Connection}, st.WellFormed →
      st.find? pair i = some c → ¬ (d.pair = pair ∧ d.interfaces = i) →
      (st.file d).find? pair i = some c := by
    intro st d hst hfound hne
    rw [hst.find?_file, if_neg hne, hfound]
  have free : ∀ {j : InterfacePair}, p.store.find? t.visit.pair j = none →
      ¬ (t.visit.pair = pair ∧ j = i) := by
    rintro j hfree ⟨rfl, rfl⟩
    rw [hfree] at hc
    cases hc
  have other : ∀ {d : Connection}, p.store.find? t.visit.pair d.interfaces = some d →
      d.connected = false ∨ d.kind = .user → ¬ (d.pair = pair ∧ d.interfaces = i) := by
    rintro d found hd ⟨rfl, rfl⟩
    rw [← (hs.keys_eq found).1, hc] at found
    obtain rfl := Option.some.inj found
    rcases hd with hd | hd
    · rw [hup] at hd
      cases hd
    · exact hkind hd
  cases h with
  | tunnel | raiseFailed | lowerFailed | adjustFailed | hubAdjusted => exact hc
  | startFailed | refused => exact hc
  | createFailed launch hfree | launchFailed launch hfree | launched launch hfree =>
    exact filed hw.freshId hc (free hfree)
  | raised revive found down =>
    have hne := other found (Or.inl down)
    exact filed hw hc hne
  | lowered kind far found | adjusted kind adjust found =>
    have hne := other found (Or.inr kind)
    exact filed hw hc hne

theorem keeps_standing (s : Setting σ) (hup : c.connected = true) (hkind : c.kind ≠ .user) :
    s.Keeps fun _ st _ => st.find? pair i = some c where
  move _ hs hmove hc := hmove.standing hs hc hup hkind
  announce _ hc := hc
  finish _ _ hc := hc
  grow _ hc := hc

theorem keeps_lowering (s : Setting σ) : s.recorded.Keeps fun _ _ w => LowersUserLinks w.2 where
  move _ hs hmove h := by
    refine ((hmove.told hs).mono ?_).all h
    rintro x ⟨site, c, hlink, _, _, _, hlowers⟩ hx
    exact ⟨site, c, hlink, hlowers hx⟩
  announce _ h := Adds.all (.one rfl nofun) h
  finish _ _ h := Adds.all (.one rfl nofun) h
  grow _ h := h

end Setting

namespace Engine

/-! ### The hub overlay -/

theorem changed_contains_hubs {e : Engine σ μ} {pair : NodePair} (h : e.hubs.contains pair = true)
    (distances : DistanceMatrix) : (e.changed distances).contains pair = true := by
  obtain ⟨d, hd⟩ := SortedMap.contains_iff.mp h
  refine SortedMap.contains_iff.mpr ⟨d, ?_⟩
  rw [changed_eq, SortedMap.get?_overlay, hd]
  rfl

/-- The nodes are as they can be made, and the hub overlay joins hubs and emulation nodes. -/
structure Anchored (e : Engine σ μ) : Prop where
  built : ∀ id node, e.nodes.get? id = some node → node.Built
  overlay : ∀ o, e.tracker.overlay = some o → ∀ pair, o.contains pair = true → HubPair e.nodes pair

variable {e : Engine σ μ}

theorem Anchored.hubPair (h : e.Anchored) (hk : Keyed e.nodes) {pair : NodePair}
    (hpair : e.hubs.contains pair = true) : HubPair e.nodes pair := by
  rw [hubs] at hpair
  cases ho : e.tracker.overlay with
  | some o =>
    rw [ho] at hpair
    exact h.overlay o ho pair hpair
  | none =>
    rw [ho] at hpair
    obtain ⟨d, hd⟩ := SortedMap.contains_iff.mp hpair
    refine hubPair_of_mem hk ?_
    by_contra hmem
    have hnone : (hubOverlay e.nodes.values).get? pair = none := by
      rw [get?_hubOverlay, if_neg hmem]
    exact Option.some_ne_none d (hd.symm.trans hnone)

theorem Anchored.resembles {e' : Engine σ μ} (h : e.Anchored) (hsame : e.Resembles e') :
    e'.Anchored := by
  obtain ⟨hbuilt, hoverlay⟩ := h
  rw [← hsame.nodes] at hbuilt hoverlay
  rw [← hsame.tracker] at hoverlay
  exact ⟨hbuilt, hoverlay⟩

variable [Movement μ]

/-- Operations that take nodes as they can be made. -/
def Builds (_ : Engine σ μ) (op : Operation) : Prop := ∀ node, op = .addNode node → node.Built

theorem ReachableBy.anchored (h : e.ReachableBy Builds) : e.Anchored := by
  refine h.invariant (I := Anchored) ?_ ?_ ?_ ?_
  · intro _ _ _
    refine ⟨fun id node hnode => ?_, fun o ho => ?_⟩
    · cases hnode
    · cases ho
  · intro e e' hsame hanchored
    exact hanchored.resembles hsame
  · intro e op e' hreach hop hperforms hanchored
    cases hperforms with
    | idle same => exact hanchored.resembles same
    | added new =>
      refine ⟨(hop _ rfl).insert hanchored.built, fun o ho pair hpair => ?_⟩
      -- the overlay stays as it is when more nodes are known
      obtain ⟨x, y, hx, hy, hroles⟩ := hanchored.overlay o ho pair hpair
      exact ⟨x, y, Grows.insert new _ _ hx, Grows.insert new _ _ hy, hroles⟩
    | linked => exact ⟨hanchored.built, hanchored.overlay⟩
    | stepped _ hstepped =>
      refine ⟨hstepped.nodes ▸ hanchored.built, fun o ho pair hpair => ?_⟩
      rw [hstepped.tracker] at ho
      rw [hstepped.nodes]
      refine hanchored.hubPair hreach.keyed ?_
      rw [hubs, Option.some.inj ho]
      exact hpair
  · intro e hanchored
    refine ⟨hanchored.built, fun o ho => ?_⟩
    cases ho

/-! ### A step with a matrix -/

/-- No link that a step mentions has to do with the management node. -/
theorem history_unmanaged (h : e.Anchored) (hk : Keyed e.nodes) (hs : e.store.Numbered)
    (distances : DistanceMatrix) {x : Exchange} (hx : x ∈ e.history [.apply distances])
    {site : LinkSite} {c : Connection} (hlink : x.link? = some (site, c)) :
    c.pair.low ≠ .management ∧ c.pair.high ≠ .management := by
  have plain : ∀ {id : NodeId} {node : Node}, e.nodes.get? id = some node →
      node.isManagement = false → id ≠ .management := by
    rintro id node hnode hplain rfl
    have hnode' := (h.built _ _ hnode).eq_management (hk _ _ hnode)
    rw [hnode'] at hplain
    cases hplain
  rcases history_told hs distances x hx with hnone | ⟨v, hv, site', c', hlink', _, _, hpair, _⟩
  · rw [hnone] at hlink
    cases hlink
  · obtain ⟨-, rfl⟩ := Prod.mk.inj (Option.some.inj (hlink.symm.trans hlink'))
    rw [hpair]
    exact ⟨plain hv.x hv.plainX, plain hv.y hv.plainY⟩

/-- A step shapes every link of the hub overlay that is up, as it was in the beginning. -/
theorem history_shapes_hub (h : e.Anchored) (hk : Keyed e.nodes) (hs : e.store.Numbered)
    (distances : DistanceMatrix) {pair : NodePair} (hpair : e.hubs.contains pair = true)
    {i : InterfacePair} {c : Connection} (hc : e.store.find? pair i = some c)
    (hup : c.connected = true) (hkind : c.kind = .central) :
    ShapedOnce pair i c e.setting.initial (e.applyDistances distances).1.failures
      (e.history [.apply distances]) := by
  have hchanged := changed_contains_hubs hpair distances
  have hskip : ¬ ((e.changed distances).isEmpty && e.step != 0) = true := by
    obtain ⟨d, hd⟩ := SortedMap.contains_iff.mp hchanged
    rw [SortedMap.isEmpty_eq_false_iff.mpr ⟨pair, d, hd⟩, Bool.false_and]
    exact nofun
  obtain ⟨p, all, result, _, hstore, _, hbefore, hhistory, hreport⟩ := history_apply hskip
  have hmem : pair ∈ (e.changed distances).entries.map Prod.fst :=
    SortedMap.mem_keys_iff.mpr (SortedMap.contains_iff.mp hchanged)
  rw [← hstore] at hs hc
  obtain ⟨l, hl, honce⟩ : ∃ l, (e.setting.recorded.reconcileAll e.nodes e.step
      (e.changed distances).entries p).world.2 = p.world.2 ++ l ∧ _ :=
    Setting.reconcileAll_delivers (e.changed distances).keys_nodup hmem (h.hubPair hk hpair) hs hc
      hkind hup
  rw [hhistory, hl, hbefore, hreport]
  exact honce.between _ _ rfl rfl fun _ hf => hf

end Engine

/-! ### Every run -/

/-- A link to a hub or to the management node that is up stays as it is through every run, and is
never to be taken down, whatever the distances.  No step has to do with the management node.  A step
shapes every link of the hub overlay that is up exactly once, as in the beginning, unless its tunnel
or a call about its pair has failed. -/
theorem standing_links_kept [Movement μ] {e : Engine σ μ} (he : e.ReachableBy Engine.Builds) :
    (∀ ops pair i c, e.store.find? pair i = some c → c.connected = true → c.kind ≠ .user →
        (e.run ops).store.find? pair i = some c) ∧
      (∀ ops site c q result, .performed (.lower site c q) result ∈ e.history ops →
        c.kind = .user) ∧
      (∀ op, op ≠ .connectManagement → ∀ x ∈ e.history [op], ∀ site c,
        x.link? = some (site, c) → c.pair.low ≠ .management ∧ c.pair.high ≠ .management) ∧
      ∀ op report, e.reportOf? op = some report → ∀ pair, e.hubs.contains pair = true →
        ∀ i c, e.store.find? pair i = some c → c.connected = true → c.kind = .central →
          ShapedOnce pair i c e.setting.initial report.failures (e.history [op]) := by
  have hs := he.numbered
  have hk := he.keyed
  have hanchored := he.anchored
  refine ⟨?_, ?_, ?_, ?_⟩
  · intro ops pair i c hc hup hkind
    have hstart : e.Kept fun _ st _ => st.find? pair i = some c := ⟨hs, hc, fun _ _ _ _ _ h => h⟩
    exact (Engine.run_kept (e.setting.keeps_standing hup hkind) hstart ops).1.holds
  · intro ops site c q result hx
    have hstart : LowersUserLinks [] := fun _ hx => absurd hx List.not_mem_nil
    obtain ⟨_, hlowers⟩ := Engine.history_keeps (J := fun h _ => LowersUserLinks h)
      e.setting.keeps_lowering hs hstart ops
    obtain ⟨_, _, hlink, hkind⟩ := hlowers _ hx rfl
    obtain ⟨-, rfl⟩ := Prod.mk.inj (Option.some.inj hlink)
    exact hkind
  · intro op hop x hx site c hlink
    rcases e.reportOf?_applies hop with ⟨_, hnone⟩ | ⟨movement, distances, _, hhistory⟩
    · rw [hnone] at hx
      cases hx
    · rw [hhistory] at hx
      exact Engine.history_unmanaged (hanchored.resembles (Engine.resembles_moving e movement)) hk hs
        distances hx hlink
  · intro op report hreport pair hpair i c hc hup hkind
    have hop : op ≠ .connectManagement := by
      rintro rfl
      cases hreport
    rcases e.reportOf?_applies hop with ⟨hnone, _⟩ | ⟨movement, distances, happly, hhistory⟩
    · rw [hnone] at hreport
      cases hreport
    · rw [← Option.some.inj (happly.symm.trans hreport), hhistory]
      exact Engine.history_shapes_hub (hanchored.resembles (Engine.resembles_moving e movement)) hk
        hs distances hpair hc hup hkind

/-- Distances between a node and its hub, and between the nodes and the management node. -/
def strewn : DistanceMatrix :=
  SortedMap.ofList [(⟨⟨1⟩, .centralBase⟩, .unlimited), (⟨⟨1⟩, .management⟩, .unlimited),
    (⟨⟨2⟩, .management⟩, .zero)]

/-- They make no difference to the links to the hub and to the management node, and the link to the
hub is shaped once. -/
theorem assembly_stays_up :
    let e := (Engine.start ⟨.unshaped .none, Pairing.equal, .silent, .local⟩
      (none : Option Stationary) ()).run assembly
    let hub : NodePair := ⟨⟨1⟩, .centralBase⟩
    let managed : NodePair := ⟨⟨1⟩, .management⟩
    let hubs : InterfacePair := ⟨⟨.hub, 0⟩, ⟨.hub, 0⟩⟩
    let controls : InterfacePair := ⟨⟨.management, 0⟩, ⟨.management, 0⟩⟩
    ∃ c c', e.store.find? hub hubs = some c ∧ c.kind = .central ∧ c.connected = true ∧
      e.store.find? managed controls = some c' ∧ c'.kind = .management ∧ c'.connected = true ∧
      (e.run [.apply strewn]).store.find? hub hubs = some c ∧
      (e.run [.apply strewn]).store.find? managed controls = some c' ∧
      ∃ site result, (e.history [.apply strewn]).filter (·.shapes hub hubs) =
        [.announced (.adjusting site c true .none),
          .performed (.adjust site c true .none) result] := by
  intro e hub managed hubs controls
  have hlink : (e.store.find? hub hubs).map (fun c => (c.kind, c.connected)) =
      some (.central, true) := by decide +kernel
  have hcontrol : (e.store.find? managed controls).map (fun c => (c.kind, c.connected)) =
      some (.management, true) := by decide +kernel
  obtain ⟨c, hc, hsays⟩ := Option.map_eq_some_iff.mp hlink
  obtain ⟨c', hc', hsays'⟩ := Option.map_eq_some_iff.mp hcontrol
  obtain ⟨hkind, hup⟩ := Prod.mk.inj hsays
  obtain ⟨hkind', hup'⟩ := Prod.mk.inj hsays'
  obtain ⟨hstay, _, _, honce⟩ :=
    standing_links_kept (assembly_admitted.mono fun _ _ h => h.built)
  refine ⟨c, c', hc, hkind, hup, hc', hkind', hup', ?_, ?_, ?_⟩
  · exact hstay _ _ _ _ hc hup (by rw [hkind]; decide)
  · exact hstay _ _ _ _ hc' hup' (by rw [hkind']; decide)
  · have hhub : e.hubs.contains hub = true := by decide +kernel
    rcases honce (.apply strewn) _ rfl hub hhub hubs c hc hup hkind with hshaped | ⟨hnone, _⟩
    · exact hshaped
    · have hlength : ((e.history [.apply strewn]).filter (·.shapes hub hubs)).length = 2 := by
        decide +kernel
      rw [hnone] at hlength
      cases hlength

end ProximityNet
