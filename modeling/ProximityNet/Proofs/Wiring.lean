import ProximityNet.Proofs.Persistence

/-!
# How connections are wired

Connections come from three places: the pairing of two emulation nodes, the hub interfaces at a hub,
and the management interfaces at the management node, each with its own way to order the two sides.
Whatever is done to an engine, a connection joins two known nodes over interfaces of theirs that
suit its kind, the low node's interface first.

* `Node.Built`, `DistanceMatrix.Proper` — nodes as they can be made, distances between distinct nodes;
* `Connection.Connects`, `Connection.Wired` — what a connection joins;
* `candidate_suits` — interfaces that may be linked suit the kind of link;
* `Setting.Launches.follow_wired`, `Setting.Launches.manage_wired` — new links are wired;
* `Engine.Sound`, `ReachableBy.sound` — the invariant of an engine;
* `topology_sound` — in every reachable engine all connections are wired, under ids of their own.
-/

namespace ProximityNet

variable {σ μ : Type}

/-! ### Nodes -/

/-- Nodes as they can be made. -/
inductive Node.Built : Node → Prop
  | emulation {id : NodeId} {kinds : List InterfaceKind} {node : Node}
      (h : Node.emulation id kinds = .ok node) : Built node
  | central {index : Nat} {node : Node} (h : Node.central index = .ok node) : Built node
  | management : Built .management

/-- The id of a hub is below that of the management node. -/
theorem NodeId.central_ne_management (index : Nat) : NodeId.central index ≠ .management := by
  intro h
  have hvalue : UInt32.ofNat (4294967294 - index) = 4294967295 := congrArg NodeId.value h
  have hnat := congrArg UInt32.toNat hvalue
  rw [UInt32.toNat_ofNat', Nat.mod_eq_of_lt (by omega)] at hnat
  have hbound : 4294967294 - index = 4294967295 := hnat
  omega

/-- No other node has the id of the management node. -/
theorem Node.Built.eq_management {node : Node} (h : node.Built) (hid : node.id = .management) :
    node = .management := by
  cases h with
  | @emulation id kinds _ hmake =>
    rw [Node.emulation] at hmake
    split at hmake
    · cases hmake
    · rename_i hfree
      split at hmake
      · obtain rfl := Except.ok.inj hmake
        have hid' : id = .management := hid
        rw [hid'] at hfree
        exact absurd (by decide) hfree
      · cases hmake
  | @central index _ hmake =>
    rw [Node.central] at hmake
    split at hmake
    · obtain rfl := Except.ok.inj hmake
      exact absurd hid (NodeId.central_ne_management index)
    · cases hmake
  | management => rfl

/-- Nodes stay as they can be made when one more is known. -/
theorem Node.Built.insert {nodes : SortedMap NodeId Node} {node : Node} (hb : node.Built)
    (h : ∀ id x, nodes.get? id = some x → x.Built) :
    ∀ id x, (nodes.insert node.id node).get? id = some x → x.Built := by
  intro id x hx
  by_cases hid : node.id = id
  · rw [← hid, SortedMap.get?_insert_self] at hx
    rw [← Option.some.inj hx]
    exact hb
  · rw [SortedMap.get?_insert_of_ne nodes node hid] at hx
    exact h id x hx

/-- A known node is found under its own id. -/
theorem Keyed.self {nodes : SortedMap NodeId Node} (hk : Keyed nodes) {id : NodeId} {x : Node}
    (h : nodes.get? id = some x) : nodes.get? x.id = some x := by
  rw [hk id x h]
  exact h

theorem isEmulation_of_plain {x : Node} (hm : x.isManagement = false) (hc : x.isCentral = false) :
    x.isEmulation = true := by
  rw [Node.isManagement, decide_eq_false_iff_not] at hm
  rw [Node.isCentral, decide_eq_false_iff_not] at hc
  rw [isEmulation_iff]
  cases hrole : x.role with
  | emulation => rfl
  | central => exact absurd hrole hc
  | management => exact absurd hrole hm

/-! ### Matrices -/

/-- All distances are between distinct nodes. -/
def DistanceMatrix.Proper (m : DistanceMatrix) : Prop :=
  ∀ pair d, m.get? pair = some d → pair.low ≠ pair.high

theorem NodePair.low_ne_high {a b : NodeId} {pair : NodePair} (h : NodePair.of? a b = some pair) :
    pair.low ≠ pair.high := by
  rw [NodePair.of?] at h
  split at h
  · rename_i hlt
    rw [← Option.some.inj h]
    intro heq
    rw [show a = b from heq] at hlt
    omega
  · split at h
    · rename_i hlt
      rw [← Option.some.inj h]
      intro heq
      rw [show b = a from heq] at hlt
      omega
    · cases h

namespace DistanceMatrix

theorem proper_empty : Proper .empty := by
  intro pair d h
  cases h

theorem Proper.overlay {m o : DistanceMatrix} (hm : m.Proper) (ho : o.Proper) :
    Proper (m.overlay o) := by
  intro pair d h
  rw [SortedMap.get?_overlay] at h
  cases hover : o.get? pair with
  | some d' => exact ho pair d' hover
  | none =>
    rw [hover, Option.none_or] at h
    exact hm pair d h

theorem Proper.changesSince {m earlier : DistanceMatrix} (hm : m.Proper) (he : earlier.Proper) :
    (m.changesSince earlier).Proper := by
  intro pair d h
  rw [get?_changesSince] at h
  cases hnow : m.get? pair with
  | some d' => exact hm pair d' hnow
  | none =>
    cases hbefore : earlier.get? pair with
    | some d' => exact he pair d' hbefore
    | none =>
      rw [hnow, hbefore] at h
      cases h

theorem Proper.set {m m' : DistanceMatrix} {a b : NodeId} {d : Distance} (hm : m.Proper)
    (h : m.set a b d = .ok m') : m'.Proper := by
  rw [DistanceMatrix.set, NodePair.make] at h
  cases hof : NodePair.of? a b with
  | none =>
    rw [hof] at h
    cases h
  | some p =>
    rw [hof] at h
    obtain rfl := Except.ok.inj h
    intro pair d' hd
    by_cases hp : p = pair
    · rw [← hp]
      exact NodePair.low_ne_high hof
    · rw [SortedMap.get?_insert_of_ne m d hp] at hd
      exact hm pair d' hd

/-- What holds of the empty matrix and is kept by every entry holds of a matrix of entries. -/
theorem ofEntries_induction {P : DistanceMatrix → Prop} (hempty : P .empty)
    (hset : ∀ m m' (x : DistanceEntry), P m → m.set x.a x.b x.distance = .ok m' → P m')
    {l : List DistanceEntry} {m : DistanceMatrix} (h : ofEntries l = .ok m) : P m := by
  have onto : ∀ m₀, P m₀ → ofEntriesOnto m₀ l = .ok m → P m := by
    clear h
    induction l with
    | nil =>
      intro m₀ h₀ h
      rw [← Except.ok.inj h]
      exact h₀
    | cons x rest ih =>
      intro m₀ h₀ h
      rw [ofEntriesOnto] at h
      split at h
      · rename_i m₁ hm₁
        exact ih m₁ (hset m₀ m₁ x h₀ hm₁) h
      · cases h
  exact onto .empty hempty h

/-- Matrices that are read from entries are proper. -/
theorem proper_ofEntries {l : List DistanceEntry} {m : DistanceMatrix} (h : ofEntries l = .ok m) :
    m.Proper :=
  ofEntries_induction proper_empty (fun _ _ _ hm hset => hm.set hset) h

end DistanceMatrix

theorem proper_hubOverlay (nodes : List Node) : (hubOverlay nodes).Proper := by
  intro pair d h
  rw [get?_hubOverlay] at h
  split at h
  · rename_i hmem
    obtain ⟨x, _, hpairs⟩ := List.mem_flatMap.mp hmem
    obtain ⟨y, _, hof⟩ := List.mem_filterMap.mp hpairs
    exact NodePair.low_ne_high hof
  · cases h

/-! ### Wired connections -/

/-- The nodes and interfaces that links of a kind are for. -/
def ConnectionKind.Suits (x y : Node) (i : InterfacePair) : ConnectionKind → Prop
  | .user => x.isEmulation = true ∧ y.isEmulation = true ∧ i.low.kind.isNormal = true ∧
      i.high.kind.isNormal = true
  | .central => (x.isCentral = true ∨ y.isCentral = true) ∧ i.low.kind.isHub = true ∧
      i.high.kind.isHub = true
  | .management => (x.isEmulation = true ∧ y = .management ∨ x = .management ∧ y.isEmulation = true) ∧
      i.low.kind.isManagement = true ∧ i.high.kind.isManagement = true

/-- A connection that joins two nodes, the first of them the low one. -/
structure Connection.Connects (c : Connection) (x y : Node) : Prop where
  pair : c.pair = ⟨x.id, y.id⟩
  distinct : x.id ≠ y.id
  low : c.interfaces.low ∈ x.interfaces
  high : c.interfaces.high ∈ y.interfaces
  suits : c.kind.Suits x y c.interfaces

/-- A connection that joins two known nodes. -/
def Connection.Wired (nodes : SortedMap NodeId Node) (c : Connection) : Prop :=
  ∃ x y, nodes.get? x.id = some x ∧ nodes.get? y.id = some y ∧ c.Connects x y

namespace Connection

variable {c c' : Connection} {nodes nodes' : SortedMap NodeId Node}

theorem Continues.wired (h : c.Continues c') (hc : c.Wired nodes) : c'.Wired nodes := by
  obtain ⟨x, y, hx, hy, hpair, hdistinct, hlow, hhigh, hsuits⟩ := hc
  refine ⟨x, y, hx, hy, h.pair.trans hpair, hdistinct, ?_, ?_, ?_⟩
  · rw [h.interfaces]
    exact hlow
  · rw [h.interfaces]
    exact hhigh
  · rw [h.interfaces, h.kind]
    exact hsuits

theorem Wired.grow (h : c.Wired nodes) (hg : Grows nodes nodes') : c.Wired nodes' := by
  obtain ⟨x, y, hx, hy, hc⟩ := h
  exact ⟨x, y, hg _ _ hx, hg _ _ hy, hc⟩

end Connection

/-! ### New links -/

/-- A new connection joins the nodes of its pair. -/
theorem connects_fresh {v : Visit} {kind : ConnectionKind} {i : InterfacePair} {x y : Node}
    (pair : v.pair = ⟨x.id, y.id⟩) (distinct : x.id ≠ y.id) (low : i.low ∈ x.interfaces)
    (high : i.high ∈ y.interfaces) (suits : kind.Suits x y i) (st : ConnectionStore)
    (shaping : Shaping) (switch : Option String) :
    ((v.fresh kind i st).accepted shaping switch).Connects x y :=
  ⟨pair, distinct, low, high, suits⟩

theorem oriented_low (x y : NodeId) (ix iy : Interface) :
    InterfacePair.oriented ⟨x, y⟩ x ix iy = ⟨ix, iy⟩ := if_pos rfl

theorem oriented_high {x y : NodeId} (h : y ≠ x) (ix iy : Interface) :
    InterfacePair.oriented ⟨y, x⟩ x ix iy = ⟨iy, ix⟩ := if_neg (Ne.symm h)

theorem mem_product {l l' : List Interface} {ix iy : Interface}
    (h : (ix, iy) ∈ Pairing.product l l') : ix ∈ l ∧ iy ∈ l' := by
  obtain ⟨i, hi, hpairs⟩ := List.mem_flatMap.mp h
  obtain ⟨j, hj, heq⟩ := List.mem_map.mp hpairs
  obtain ⟨rfl, rfl⟩ := Prod.mk.inj heq
  exact ⟨hi, hj⟩

theorem mem_choice_pairing {choice : Pairing.Choice} {x y : Node} {ix iy : Interface}
    (h : (ix, iy) ∈ choice.pairing x y) : ix ∈ x.normalInterfaces ∧ iy ∈ y.normalInterfaces := by
  cases choice with
  | equal => exact List.of_mem_zip h
  | all => exact mem_product h

namespace Setting

variable {s : Setting σ} {nodes : SortedMap NodeId Node} {step : Nat} {l : Launch}

/-- Interfaces that may be linked belong to the two nodes and suit the kind of link. -/
theorem candidate_suits {v : Visit} {choice : Pairing.Choice} {ix iy : Interface}
    (h : (ix, iy) ∈ s.candidates v) (hp : s.pairing = choice.pairing)
    (hx : v.x.isManagement = false) (hy : v.y.isManagement = false) :
    ix ∈ v.x.interfaces ∧ iy ∈ v.y.interfaces ∧ v.kind.Suits v.x v.y ⟨ix, iy⟩ := by
  have hmem := (List.mem_filter.mp h).1
  by_cases hhub : (v.x.isCentral || v.y.isCentral) = true
  · have hkind : v.kind = .central := if_pos hhub
    rw [if_pos hkind] at hmem
    obtain ⟨hix, hiy⟩ := mem_product hmem
    obtain ⟨hix, hhubx⟩ := List.mem_filter.mp hix
    obtain ⟨hiy, hhuby⟩ := List.mem_filter.mp hiy
    rw [hkind]
    exact ⟨hix, hiy, Bool.or_eq_true_iff.mp hhub, hhubx, hhuby⟩
  · have hkind : v.kind = .user := if_neg hhub
    have hne : ¬ v.kind = .central := by
      rw [hkind]
      exact nofun
    rw [if_neg hne, hp] at hmem
    obtain ⟨hix, hiy⟩ := mem_choice_pairing hmem
    obtain ⟨hix, hnormalx⟩ := List.mem_filter.mp hix
    obtain ⟨hiy, hnormaly⟩ := List.mem_filter.mp hiy
    rw [Bool.not_eq_true, Bool.or_eq_false_iff] at hhub
    rw [hkind]
    exact ⟨hix, hiy, isEmulation_of_plain hx hhub.1, isEmulation_of_plain hy hhub.2, hnormalx,
      hnormaly⟩

/-- A link that follows a distance is wired. -/
theorem Launches.follow_wired {v : Visit} {changed : DistanceMatrix} {choice : Pairing.Choice}
    (h : s.Launches (.follow v) l) (hp : s.pairing = choice.pairing) (hk : Keyed nodes)
    (hv : v.Follows nodes step changed) (hd : changed.Proper) (st : ConnectionStore)
    (switch : Option String) :
    ((v.fresh l.kind l.interfaces st).accepted l.held switch).Wired nodes := by
  have hxid := hk _ _ hv.x
  have hyid := hk _ _ hv.y
  have hdistinct : v.x.id ≠ v.y.id := by
    rw [hxid, hyid]
    exact hd _ _ hv.changed
  have hx : nodes.get? v.x.id = some v.x := hk.self hv.x
  have hy : nodes.get? v.y.id = some v.y := hk.self hv.y
  have hpair : v.pair = ⟨v.x.id, v.y.id⟩ := by rw [hxid, hyid]
  cases h with
  | @follow v ix iy near candidate =>
    obtain ⟨hix, hiy, hsuits⟩ := candidate_suits candidate hp hv.plainX hv.plainY
    exact ⟨v.x, v.y, hx, hy, connects_fresh hpair hdistinct hix hiy hsuits st _ switch⟩

/-- A link to the management node is wired, whichever of the two nodes is the low one. -/
theorem Launches.manage_wired {v : Visit} (h : s.Launches (.manage v) l) (hk : Keyed nodes)
    (hb : ∀ id node, nodes.get? id = some node → node.Built) (hv : v.Manages nodes step)
    (st : ConnectionStore) (switch : Option String) :
    ((v.fresh l.kind l.interfaces st).accepted l.held switch).Wired nodes := by
  have hmanagement : v.y = .management := (hb _ _ hv.y).eq_management (hk _ _ hv.y)
  have hy : nodes.get? v.y.id = some v.y := hk.self hv.y
  have hx : nodes.get? v.x.id = some v.x := by
    obtain ⟨id, hid⟩ := SortedMap.mem_values_iff.mp hv.x
    exact hk.self hid
  have hof : NodePair.of? v.x.id v.y.id = some v.pair := by
    have hmake := hv.pair
    rw [NodePair.make] at hmake
    split at hmake
    · rename_i hof
      rw [hof, Except.ok.inj hmake]
    · cases hmake
  have hdistinct := NodePair.low_ne_high hof
  cases h with
  | @manage v ix iy hix hiy =>
    have hmix := managementInterface_isManagement hix
    have hmiy := managementInterface_isManagement hiy
    have hix := List.mem_of_find?_eq_some hix
    have hiy := List.mem_of_find?_eq_some hiy
    show ((v.fresh .management (.oriented v.pair v.x.id ix iy) st).accepted s.initial
      switch).Wired nodes
    rcases eq_of_of? hof with hpair | hpair
    · rw [hpair] at hdistinct
      have hsuits : ConnectionKind.management.Suits v.x v.y ⟨ix, iy⟩ :=
        ⟨Or.inl ⟨hv.emulation, hmanagement⟩, hmix, hmiy⟩
      rw [hpair, oriented_low]
      exact ⟨v.x, v.y, hx, hy, connects_fresh hpair hdistinct hix hiy hsuits st _ switch⟩
    · rw [hpair] at hdistinct
      have hsuits : ConnectionKind.management.Suits v.y v.x ⟨iy, ix⟩ :=
        ⟨Or.inr ⟨hmanagement, hv.emulation⟩, hmiy, hmix⟩
      rw [hpair, oriented_high hdistinct]
      exact ⟨v.y, v.x, hy, hx, connects_fresh hpair hdistinct hiy hix hsuits st _ switch⟩

end Setting

/-! ### Engines -/

namespace Engine

/-- The invariant of an engine. -/
structure Sound (e : Engine σ μ) : Prop where
  built : ∀ id node, e.nodes.get? id = some node → node.Built
  current : e.tracker.current.Proper
  overlay : ∀ o, e.tracker.overlay = some o → o.Proper
  wired : e.store.All fun c => c.Wired e.nodes ∧ c.stepAdded ≤ e.step

theorem Sound.changed {e : Engine σ μ} (h : e.Sound) {distances : DistanceMatrix}
    (hd : distances.Proper) : (e.changed distances).Proper := by
  have hoverlay : (e.tracker.overlay.getD (hubOverlay e.nodes.values)).Proper := by
    cases ho : e.tracker.overlay with
    | none => exact proper_hubOverlay _
    | some o => exact h.overlay o ho
  exact (hd.changesSince h.current).overlay hoverlay

/-- The links of a step are wired. -/
theorem Sound.stepped {e e' : Engine σ μ} {choice : Pairing.Choice} {distances : DistanceMatrix}
    (h : e.Sound) (hp : e.setting.pairing = choice.pairing) (hk : Keyed e.nodes)
    (hs : e.store.Numbered) (hd : distances.Proper) (hstepped : e.Stepped distances e') :
    e'.Sound := by
  have hwired : e'.store.All fun c => c.Wired e.nodes ∧ c.stepAdded ≤ e.step := by
    refine (hstepped.store.keeps hs (fun t p p' ht hn hmove hall => ?_) h.wired).2
    refine hmove.files.all hn (fun l switch hl => ?_) (fun c c' hcc' hc => ?_) hall
    · cases t with
      | manage v => exact ht.elim
      | follow v =>
        exact ⟨hl.follow_wired hp hk ht (h.changed hd) _ _, Nat.le_of_eq ht.step⟩
    · rw [hcc'.stepAdded]
      exact ⟨hcc'.wired hc.1, hc.2⟩
  refine ⟨?_, ?_, ?_, ?_⟩
  · rw [hstepped.nodes]
    exact h.built
  · rw [hstepped.tracker]
    exact hd
  · intro o ho
    rw [hstepped.tracker] at ho
    rw [← Option.some.inj ho]
    cases hover : e.tracker.overlay with
    | none => exact proper_hubOverlay _
    | some o' => exact h.overlay o' hover
  · intro pair i c hc
    obtain ⟨hc, hstep⟩ := hwired pair i c hc
    rw [hstepped.nodes, hstepped.step]
    exact ⟨hc, Nat.le_succ_of_le hstep⟩

/-- Links to the management node are wired. -/
theorem Sound.linked {e : Engine σ μ} {store : ConnectionStore} {world : σ} (h : e.Sound)
    (hk : Keyed e.nodes) (hs : e.store.Numbered)
    (hstore : e.setting.Advances (Task.DueInLinking e.nodes e.step) e.store store) :
    ({ e with store, world } : Engine σ μ).Sound := by
  refine ⟨h.built, h.current, h.overlay, ?_⟩
  refine (hstore.keeps hs (fun t p p' ht hn hmove hall => ?_) h.wired).2
  refine hmove.files.all hn (fun l switch hl => ?_) (fun c c' hcc' hc => ?_) hall
  · cases t with
    | follow v => exact ht.elim
    | manage v => exact ⟨hl.manage_wired hk h.built ht _ _, Nat.le_of_eq ht.step⟩
  · rw [hcc'.stepAdded]
    exact ⟨hcc'.wired hc.1, hc.2⟩

theorem Sound.added {e : Engine σ μ} {node : Node} (h : e.Sound) (hb : node.Built)
    (hnew : e.nodes.contains node.id = false) :
    ({ e with nodes := e.nodes.insert node.id node } : Engine σ μ).Sound := by
  refine ⟨hb.insert h.built, h.current, h.overlay, ?_⟩
  intro pair i c hc
  obtain ⟨hc, hstep⟩ := h.wired pair i c hc
  exact ⟨hc.grow (Grows.insert hnew), hstep⟩

theorem Sound.resembles {e e' : Engine σ μ} (h : e.Sound) (hsame : e.Resembles e') : e'.Sound := by
  obtain ⟨hbuilt, hcurrent, hoverlay, hwired⟩ := h
  refine ⟨?_, ?_, ?_, ?_⟩
  · rw [hsame.nodes]
    exact hbuilt
  · rw [hsame.tracker]
    exact hcurrent
  · rw [hsame.tracker]
    exact hoverlay
  · rw [hsame.nodes, hsame.store, hsame.step]
    exact hwired

/-- After a reset there is nothing to be wired. -/
theorem sound_reset {e : Engine σ μ} (h : ∀ id node, e.nodes.get? id = some node → node.Built) :
    e.reset.Sound := by
  refine ⟨h, DistanceMatrix.proper_empty, ?_, ?_⟩
  · intro o ho
    cases ho
  · intro pair i c hc
    cases hc

variable [Movement μ]

/-- Operations that take nodes and matrices as they can be made. -/
structure Admits (e : Engine σ μ) (op : Operation) : Prop where
  built : ∀ node, op = .addNode node → node.Built
  proper : ∀ distances, e.distancesOf? op = some distances → distances.Proper

theorem admits_addNode (e : Engine σ μ) {node : Node} (h : node.Built) : e.Admits (.addNode node) := by
  refine ⟨?_, ?_⟩
  · intro node' heq
    rw [← Operation.addNode.inj heq]
    exact h
  · intro distances hd
    cases hd

theorem admits_connectManagement (e : Engine σ μ) : e.Admits .connectManagement := by
  refine ⟨?_, ?_⟩
  · intro node heq
    cases heq
  · intro distances hd
    cases hd

theorem admits_apply (e : Engine σ μ) {distances : DistanceMatrix} (h : distances.Proper) :
    e.Admits (.apply distances) := by
  refine ⟨?_, ?_⟩
  · intro node heq
    cases heq
  · intro distances' hd
    rw [← Option.some.inj hd]
    exact h

theorem ReachableBy.sound {e : Engine σ μ} {choice : Pairing.Choice} (h : e.ReachableBy Admits)
    (hp : e.setting.pairing = choice.pairing) : e.Sound := by
  have hinv : e.setting.pairing = choice.pairing → e.Sound := by
    refine h.invariant (I := fun e => e.setting.pairing = choice.pairing → e.Sound) ?_ ?_ ?_ ?_
    · intro setting movement world _
      refine sound_reset (e := Engine.start setting movement world) ?_
      intro id node hnode
      cases hnode
    · intro e e' hsame hsound hp
      rw [hsame.setting] at hp
      exact (hsound hp).resembles hsame
    · intro e op e' hreach hadmits hperforms hsound hp
      rw [hperforms.setting] at hp
      have hsound := hsound hp
      cases hperforms with
      | idle same => exact hsound.resembles same
      | added new => exact hsound.added (hadmits.built _ rfl) new
      | linked hstore => exact hsound.linked hreach.keyed hreach.numbered hstore
      | stepped takes hstepped =>
        exact hsound.stepped hp hreach.keyed hreach.numbered (hadmits.proper _ takes) hstepped
    · intro e hsound hp
      exact sound_reset (hsound hp).built
  exact hinv hp

end Engine

/-- The ids of stored connections are pairwise distinct. -/
theorem ConnectionStore.Numbered.ids_nodup {st : ConnectionStore} (h : st.Numbered) :
    (st.connections.map (·.id)).Nodup := by
  refine List.Nodup.map_on ?_ h.connections_nodup
  intro c hc c' hc' hid
  obtain ⟨pair, i, hfound⟩ := h.mem_connections_iff.mp hc
  obtain ⟨pair', i', hfound'⟩ := h.mem_connections_iff.mp hc'
  obtain ⟨rfl, rfl⟩ := h.unique hfound hfound' hid
  exact Option.some.inj (hfound.symm.trans hfound')

/-- Whatever is done to an engine, a connection joins two known nodes over interfaces of theirs that
suit its kind, has an id of its own below the next one, and is not younger than the engine. -/
theorem topology_sound [Movement μ] {e : Engine σ μ} {choice : Pairing.Choice}
    (h : e.ReachableBy Engine.Admits) (hp : e.setting.pairing = choice.pairing) :
    (∀ c ∈ e.store.connections, c.Wired e.nodes ∧ c.id.value < e.store.nextNumber ∧
        c.stepAdded ≤ e.step) ∧
      (e.store.connections.map (·.id)).Nodup := by
  refine ⟨?_, h.numbered.ids_nodup⟩
  intro c hc
  obtain ⟨pair, i, hfound⟩ := h.numbered.mem_connections_iff.mp hc
  obtain ⟨hwired, hstep⟩ := (h.sound hp).wired pair i c hfound
  exact ⟨hwired, h.numbered.below hfound, hstep⟩

/-- Two nodes, a hub and the management node are made known, linked to the management node, and
come near. -/
def assembly : List Operation :=
  [.addNode ⟨⟨1⟩, .emulation, [⟨.mesh, 0⟩, ⟨.hub, 0⟩, ⟨.management, 0⟩]⟩,
    .addNode ⟨⟨2⟩, .emulation, [⟨.mesh, 0⟩, ⟨.hub, 0⟩, ⟨.management, 0⟩]⟩,
    .addNode ⟨.centralBase, .central, [⟨.hub, 0⟩]⟩, .addNode .management, .connectManagement,
    .apply (apart .zero)]

/-- The nodes are as they can be made. -/
theorem assembly_built (node : Node) (h : .addNode node ∈ assembly) : node.Built := by
  have hbuilt : ∀ id, id = (⟨1⟩ : NodeId) ∨ id = ⟨2⟩ →
      (⟨id, .emulation, [⟨.mesh, 0⟩, ⟨.hub, 0⟩, ⟨.management, 0⟩]⟩ : Node).Built := by
    intro id hid
    have hmake : Node.emulation id [.mesh, .hub, .management] =
        .ok ⟨id, .emulation, [⟨.mesh, 0⟩, ⟨.hub, 0⟩, ⟨.management, 0⟩]⟩ := by
      rcases hid with rfl | rfl <;> decide +kernel
    exact .emulation hmake
  simp only [assembly, List.mem_cons, List.not_mem_nil, or_false, Operation.addNode.injEq,
    reduceCtorEq] at h
  rcases h with rfl | rfl | rfl | rfl
  · exact hbuilt _ (Or.inl rfl)
  · exact hbuilt _ (Or.inr rfl)
  · exact .central (show Node.central 0 = _ from rfl)
  · exact .management

/-- So are the distances. -/
theorem assembly_admitted :
    ((Engine.start ⟨.unshaped .none, Pairing.equal, .silent, .local⟩ (none : Option Stationary)
      ()).run assembly).ReachableBy Engine.Admits := by
  have hapart : (apart .zero).Proper := by
    intro pair d hd
    have hentry := SortedMap.get?_eq_some_iff.mp hd
    obtain ⟨rfl, rfl⟩ := Prod.mk.inj (List.mem_singleton.mp hentry)
    decide
  refine (Engine.ReachableBy.start _ _ _).run assembly fun e op hop => ?_
  cases op with
  | addNode node => exact e.admits_addNode (assembly_built node hop)
  | connectManagement => exact e.admits_connectManagement
  | apply distances =>
    simp only [assembly, List.mem_cons, List.not_mem_nil, or_false, Operation.apply.injEq,
      reduceCtorEq, false_or] at hop
    rw [hop]
    exact e.admits_apply hapart
  | step => simp [assembly] at hop

/-- There are links of all three kinds, and all are wired. -/
theorem assembly_sound :
    let e := (Engine.start ⟨.unshaped .none, Pairing.equal, .silent, .local⟩
      (none : Option Stationary) ()).run assembly
    e.store.connections.map (·.kind) =
        [.user, .central, .management, .central, .management] ∧
      (∀ c ∈ e.store.connections, c.Wired e.nodes ∧ c.id.value < e.store.nextNumber ∧
        c.stepAdded ≤ e.step) ∧
      (e.store.connections.map (·.id)).Nodup := by
  refine ⟨by decide +kernel, ?_⟩
  exact topology_sound assembly_admitted (show _ = Pairing.Choice.equal.pairing from rfl)

end ProximityNet
