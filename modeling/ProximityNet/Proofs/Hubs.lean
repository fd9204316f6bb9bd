import Mathlib.Data.List.ProdSigma
import ProximityNet.Proofs.AlwaysOn
import ProximityNet.Proofs.Pairings

/-!
# The hub overlay

The hub overlay joins each hub with each emulation node that has a hub interface.  It is made by a
loop that drops a pair it cannot make, but there is none: hubs have reserved ids and emulation nodes
have not.  An engine makes its overlay in the first step after its start or a reset, and lays the
same one over the distances of each step from then on.

* `Built.isReserved_eq` — of the nodes that can be made, emulation nodes have the ids not reserved;
* `hubPairs_eq_product`, `nodup_hubPairs` — the loop makes every pair, and makes it once;
* `hubOverlay_perm` — the order of the nodes does not matter;
* `StepHistory`, `history_apply_hubs` — what a step tells, with the matrices it goes by;
* `Engine.GoesBy`, `goesBy_hubs` — a step lays the overlay over all that it goes by;
* `Engine.FirstApplied` — the nodes of the first step since the start or the last reset;
* `FirstApplied.overlay` — the overlay is that of these nodes;
* `hubs_exact_constant` — all of it.
-/

namespace ProximityNet

variable {σ μ : Type}

/-! ### Pairs of hubs -/

/-- An emulation node takes an id that is not reserved. -/
theorem Node.not_isReserved_of_emulation {id : NodeId} {kinds : List InterfaceKind} {node : Node}
    (h : Node.emulation id kinds = .ok node) : id.isReserved = false := by
  rw [Node.emulation] at h
  split at h
  · cases h
  · rename_i hfree
    exact Bool.eq_false_of_not_eq_true hfree

/-- A hub has one of the reserved ids. -/
theorem NodeId.isReserved_central {index : Nat} (h : index < reservedIds - 1) :
    (NodeId.central index).isReserved = true := by
  have hindex : index < 1023 := h
  have hvalue : (NodeId.central index).toNat = 4294967294 - index := by
    show (UInt32.ofNat (4294967294 - index)).toNat = _
    rw [UInt32.toNat_ofNat', Nat.mod_eq_of_lt (by omega)]
  rw [NodeId.isReserved, hvalue, decide_eq_true_eq]
  show 4294967295 - 1024 < 4294967294 - index
  omega

/-- The id of a node that can be made says whether it is an emulation node. -/
theorem Node.Built.isReserved_eq {node : Node} (h : node.Built) :
    node.id.isReserved = !node.isEmulation := by
  cases h with
  | emulation hmake =>
    have hmade := Node.made_of_emulation hmake
    rw [hmade.id_eq, Node.not_isReserved_of_emulation hmake, Node.isEmulation, hmade.role]
    rfl
  | @central index _ hmake =>
    rw [Node.central] at hmake
    split at hmake
    · rename_i hindex
      rw [← Except.ok.inj hmake]
      exact NodeId.isReserved_central hindex
    · cases hmake
  | management => decide

/-- A hub and an emulation node make a pair, and the hub is the high one. -/
theorem Node.Built.pair_of_hub {h n : Node} (hh : h.Built) (hn : n.Built)
    (hcentral : h.isCentral = true) (hemulation : n.isEmulation = true) :
    NodePair.of? h.id n.id = some ⟨n.id, h.id⟩ := by
  have hother : h.isEmulation = false := by
    rw [Node.isCentral, decide_eq_true_eq] at hcentral
    rw [Node.isEmulation, hcentral]
    rfl
  have hhigh := hh.isReserved_eq
  have hlow := hn.isReserved_eq
  rw [hother, Bool.not_false, NodeId.isReserved, decide_eq_true_eq] at hhigh
  rw [hemulation, Bool.not_true, NodeId.isReserved, decide_eq_false_iff_not] at hlow
  have hlt : n.id.toNat < h.id.toNat := by omega
  rw [NodePair.of?, if_neg (by omega), if_pos hlt]

/-- The hubs of a list of nodes. -/
def hubsOf (nodes : List Node) : List Node := nodes.filter (·.isCentral)

/-- The emulation nodes of a list that have a hub interface. -/
def attachedOf (nodes : List Node) : List Node :=
  nodes.filter fun n => n.isEmulation && n.hasHubInterface

section Pairs

variable {nodes : List Node} {pair : NodePair}

/-- No pair is dropped. -/
theorem hubPairs_eq_product (h : ∀ n ∈ nodes, n.Built) :
    hubPairs nodes = (hubsOf nodes ×ˢ attachedOf nodes).map fun p => ⟨p.2.id, p.1.id⟩ := by
  show (hubsOf nodes).flatMap (fun hub => (attachedOf nodes).filterMap fun n =>
    NodePair.of? hub.id n.id) = ((hubsOf nodes).flatMap fun hub =>
      (attachedOf nodes).map (Prod.mk hub)).map _
  rw [List.map_flatMap]
  refine List.flatMap_congr fun hub hhub => ?_
  obtain ⟨hhub, hcentral⟩ := List.mem_filter.mp hhub
  rw [List.map_map, ← List.filterMap_eq_map]
  refine List.filterMap_congr fun n hn => ?_
  obtain ⟨hn, hattached⟩ := List.mem_filter.mp hn
  exact (h hub hhub).pair_of_hub (h n hn) hcentral (Bool.and_eq_true_iff.mp hattached).1

theorem mem_hubPairs (h : ∀ n ∈ nodes, n.Built) :
    pair ∈ hubPairs nodes ↔
      ∃ hub ∈ nodes, hub.role = .central ∧ ∃ n ∈ nodes, n.role = .emulation ∧
        n.hasHubInterface = true ∧ pair = ⟨n.id, hub.id⟩ := by
  have hmem : pair ∈ hubPairs nodes ↔
      ∃ hub ∈ hubsOf nodes, ∃ n ∈ attachedOf nodes, pair = ⟨n.id, hub.id⟩ := by
    rw [hubPairs_eq_product h, List.mem_map]
    constructor
    · rintro ⟨⟨hub, n⟩, hmem, rfl⟩
      obtain ⟨hhub, hn⟩ := List.mem_product.mp hmem
      exact ⟨hub, hhub, n, hn, rfl⟩
    · rintro ⟨hub, hhub, n, hn, rfl⟩
      exact ⟨(hub, n), List.mem_product.mpr ⟨hhub, hn⟩, rfl⟩
  rw [hmem]
  simp only [hubsOf, attachedOf, List.mem_filter, Node.isCentral, Node.isEmulation,
    Bool.and_eq_true, decide_eq_true_eq, and_assoc]

/-- No pair is made twice. -/
theorem nodup_hubPairs (h : ∀ n ∈ nodes, n.Built) (hids : (nodes.map (·.id)).Nodup) :
    (hubPairs nodes).Nodup := by
  have hnodes : nodes.Nodup := hids.of_map
  have hinj := List.inj_on_of_nodup_map hids
  rw [hubPairs_eq_product h]
  refine List.Nodup.map_on ?_ ((hnodes.filter _).product (hnodes.filter _))
  rintro ⟨hub, n⟩ hmem ⟨hub', n'⟩ hmem' heq
  obtain ⟨hhub, hn⟩ := List.mem_product.mp hmem
  obtain ⟨hhub', hn'⟩ := List.mem_product.mp hmem'
  obtain ⟨hlow, hhigh⟩ := NodePair.mk.inj heq
  rw [hinj (List.mem_of_mem_filter hhub) (List.mem_of_mem_filter hhub') hhigh,
    hinj (List.mem_of_mem_filter hn) (List.mem_of_mem_filter hn') hlow]

theorem get?_hubOverlay_eq_some {d : Distance} :
    (hubOverlay nodes).get? pair = some d ↔ d = .zero ∧ pair ∈ hubPairs nodes := by
  rw [get?_hubOverlay]
  split <;> simp [*, eq_comm]

/-- The pairs of the overlay are at distance zero, whatever it is laid over. -/
theorem get?_overlay_hubs (m : DistanceMatrix) (hpair : (hubOverlay nodes).contains pair = true) :
    (m.overlay (hubOverlay nodes)).get? pair = some .zero := by
  obtain ⟨d, hd⟩ := SortedMap.contains_iff.mp hpair
  rw [SortedMap.get?_overlay, hd, (get?_hubOverlay_eq_some.mp hd).1]
  rfl

theorem size_hubOverlay (h : ∀ n ∈ nodes, n.Built) (hids : (nodes.map (·.id)).Nodup) :
    (hubOverlay nodes).size = (hubsOf nodes).length * (attachedOf nodes).length := by
  have hkeys : (((hubPairs nodes).map fun p => (p, Distance.zero)).map (·.1)).Nodup := by
    rw [List.map_map]
    exact (List.map_id (hubPairs nodes)).symm ▸ nodup_hubPairs h hids
  rw [hubOverlay, SortedMap.size_ofList hkeys, List.length_map, hubPairs_eq_product h,
    List.length_map, List.length_product]

/-- The overlay goes by the pairs only, whatever their order. -/
theorem hubOverlay_perm {nodes' : List Node} (hperm : nodes'.Perm nodes) :
    hubOverlay nodes' = hubOverlay nodes := by
  have hpairs : (hubPairs nodes').Perm (hubPairs nodes) :=
    (hperm.filter _).flatMap fun hub _ => (hperm.filter _).filterMap _
  refine SortedMap.ext_get? fun pair => ?_
  rw [get?_hubOverlay, get?_hubOverlay]
  simp only [hpairs.mem_iff]

end Pairs

/-! ### Steps with the overlay -/

/-- What is told on a visit to a pair of a matrix. -/
def ToldWithin (changed : DistanceMatrix) (x : Exchange) : Prop :=
  ∃ site c, x.link? = some (site, c) ∧ changed.contains c.pair = true

/-- What a step tells that goes by these matrices: nothing if it is skipped, and otherwise that it
begins and ends, with exchanges about links of changed pairs in between. -/
inductive StepHistory (step : Nat) (changed all : DistanceMatrix) : List Exchange → Prop
  | skipped (later : step ≠ 0) (same : changed = .empty) : StepHistory step changed all []
  | run {visits : List Exchange} {result : Except BackendError Unit}
      (within : ∀ x ∈ visits, ToldWithin changed x) :
      StepHistory step changed all
        ([.announced (.stepStarting step all), .announced (.changesPending step changed all)] ++
          visits ++ [.announced (.changesApplied step changed all),
            .performed (.finishStep step all) result])

namespace Engine

variable {e : Engine σ μ} {distances : DistanceMatrix}

/-- What is told on the visits comes behind the two announcements. -/
theorem visits_recorded (hs : e.store.Numbered) (changed all : DistanceMatrix) :
    ∃ visits, (e.recorded.visits changed all).world.2 =
        [.announced (.stepStarting e.step all), .announced (.changesPending e.step changed all)] ++
          visits ∧ ∀ x ∈ visits, ToldWithin changed x := by
  have hopened : (e.recorded.opened changed all).store.Numbered := hs
  have hproceeds := Setting.reconcileAll_entries e.setting.recorded e.nodes e.step changed hopened
  obtain ⟨visits, hvisits, htold⟩ := Setting.proceeds_told hproceeds hopened
  refine ⟨visits, hvisits, fun x hx => ?_⟩
  obtain ⟨t, ht, site, c, hlink, -, -, hpair, -⟩ := htold x hx
  cases t with
  | manage v => exact ht.elim
  | follow v =>
    refine ⟨site, c, hlink, SortedMap.contains_iff.mpr ⟨v.distance, ?_⟩⟩
    rw [hpair]
    exact ht.changed

/-- A step goes by the changes and by the distances, with the hub overlay laid over both. -/
theorem history_apply_hubs [Movement μ] (hs : e.store.Numbered) (distances : DistanceMatrix) :
    StepHistory e.step (e.changed distances) (distances.overlay e.hubs)
      (e.history [.apply distances]) := by
  by_cases hskip : ((e.changed distances).isEmpty && e.step != 0) = true
  · rw [history_skipped hskip]
    obtain ⟨hempty, hlater⟩ := Bool.and_eq_true_iff.mp hskip
    refine .skipped (bne_iff_ne.mp hlater) (SortedMap.ext_get? fun pair => ?_)
    rw [SortedMap.get?, List.isEmpty_iff.mp hempty]
    rfl
  · have hrecorded : ¬ ((e.recorded.changed distances).isEmpty && e.recorded.step != 0) = true :=
      hskip
    obtain ⟨_, -, -, hworld⟩ := applyDistances_visits_hubs hrecorded
    obtain ⟨visits, hvisits, hwithin⟩ :=
      visits_recorded hs (e.changed distances) (distances.overlay e.hubs)
    obtain ⟨result, hclosed⟩ := e.closed_recorded (e.changed distances) (distances.overlay e.hubs)
      (e.recorded.visits (e.changed distances) (distances.overlay e.hubs)).world
    rw [hvisits] at hclosed
    have hhooks : e.history [.apply distances] = (e.recorded.closed (e.changed distances)
        (distances.overlay e.hubs)
        (e.recorded.visits (e.changed distances) (distances.overlay e.hubs)).world).2 := by
      rw [history_one, perform, hworld]
      split
      · exact runHooks_recorded e.hooks _ _
      · rfl
    rw [hhooks, hclosed]
    exact .run hwithin

variable [Movement μ]

/-- An operation that comes to a step applies its distances. -/
theorem perform_of_distancesOf? {op : Operation} (h : e.distancesOf? op = some distances) :
    ∃ movement, e.perform op = ((e.moving movement).applyDistances distances).2 := by
  cases op with
  | addNode node => cases h
  | connectManagement => cases h
  | apply m =>
    obtain rfl := Option.some.inj h
    exact ⟨e.movement, rfl⟩
  | step =>
    rw [distancesOf?, nextDistances?] at h
    rw [perform, runStep]
    cases hm : e.movement with
    | none =>
      rw [hm] at h
      cases h
    | some movement =>
      rw [hm] at h
      dsimp only at h ⊢
      cases hnext : (if e.step = 0 then Except.ok movement else Movement.advance movement) with
      | error fault =>
        rw [hnext] at h
        cases h
      | ok next =>
        rw [hnext] at h
        dsimp only at h ⊢
        have hnodes : ({ e with movement := some next } : Engine σ μ).emulationNodes =
          e.emulationNodes := rfl
        rw [hnodes]
        split at h
        · cases h
        · rename_i hplenty
          rw [if_neg hplenty, Option.some.inj h]
          exact ⟨some next, rfl⟩

/-- And tells what its distances tell. -/
theorem history_of_distancesOf? {op : Operation} (h : e.distancesOf? op = some distances) :
    ∃ movement, e.history [op] = (e.moving movement).history [.apply distances] := by
  have hrecorded : e.recorded.distancesOf? op = some distances := by
    rw [← h]
    cases op <;> rfl
  obtain ⟨movement, hperform⟩ := perform_of_distancesOf? hrecorded
  exact ⟨movement, congrArg (·.world.2) hperform⟩

/-- An operation runs a step with these hubs laid over the changes and over the distances. -/
structure GoesBy (e : Engine σ μ) (op : Operation) (distances hubs : DistanceMatrix) : Prop where
  kept : (e.perform op).tracker.overlay = some hubs
  told : StepHistory e.step ((distances.changesSince e.distances).overlay hubs)
    (distances.overlay hubs) (e.history [op])
  visits : ∃ p : Progress σ, p.store = e.store ∧ (e.perform op).store =
    (e.setting.reconcileAll e.nodes e.step
      ((distances.changesSince e.distances).overlay hubs).entries p).store

theorem goesBy_hubs (hs : e.store.Numbered) {op : Operation}
    (h : e.distancesOf? op = some distances) : e.GoesBy op distances e.hubs := by
  obtain ⟨movement, hperform⟩ := perform_of_distancesOf? h
  obtain ⟨movement', hhistory⟩ := history_of_distancesOf? h
  refine ⟨?_, ?_, ?_⟩
  · rw [hperform, (applyDistances_stepped (e.moving movement) hs distances).tracker]
    rfl
  · rw [hhistory]
    exact history_apply_hubs (e := e.moving movement') hs distances
  · obtain ⟨p, hp, -, hstore, -⟩ := (e.moving movement).applyDistances_reconciles distances
    rw [hperform]
    exact ⟨p, hp, hstore⟩

/-! ### The first step since the start or the last reset -/

/-- The nodes that were known at the first step since the start or the last reset, once there is such
a step. -/
inductive FirstApplied : Engine σ μ → Option (SortedMap NodeId Node) → Prop
  | start (setting : Setting σ) (movement : Option μ) (world : σ) :
      FirstApplied (start setting movement world) none
  | onSetup {e : Engine σ μ} {first : Option (SortedMap NodeId Node)} (h : FirstApplied e first)
      (hook : ConnectionStore → σ → σ) : FirstApplied (e.onSetup hook) first
  | moving {e : Engine σ μ} {first : Option (SortedMap NodeId Node)} (h : FirstApplied e first)
      (movement : μ) : FirstApplied { e with movement := some movement } first
  /-- A step; the nodes that are known are kept in mind if it is the first. -/
  | stepped {e : Engine σ μ} {first : Option (SortedMap NodeId Node)} {op : Operation}
      {distances : DistanceMatrix} (h : FirstApplied e first)
      (takes : e.distancesOf? op = some distances) :
      FirstApplied (e.perform op) (some (first.getD e.nodes))
  /-- An operation that does not come to a step. -/
  | other {e : Engine σ μ} {first : Option (SortedMap NodeId Node)} {op : Operation}
      (h : FirstApplied e first) (idle : e.distancesOf? op = none) :
      FirstApplied (e.perform op) first
  | reset {e : Engine σ μ} {first : Option (SortedMap NodeId Node)} (h : FirstApplied e first) :
      FirstApplied e.reset none

theorem Reachable.exists_firstApplied (h : e.Reachable) : ∃ first, e.FirstApplied first := by
  induction h with
  | start setting movement world => exact ⟨none, .start setting movement world⟩
  | onSetup _ hook ih =>
    obtain ⟨first, hfirst⟩ := ih
    exact ⟨first, hfirst.onSetup hook⟩
  | moving _ movement ih =>
    obtain ⟨first, hfirst⟩ := ih
    exact ⟨first, hfirst.moving movement⟩
  | @perform e op _ _ ih =>
    obtain ⟨first, hfirst⟩ := ih
    cases htakes : e.distancesOf? op with
    | none => exact ⟨first, hfirst.other htakes⟩
    | some distances => exact ⟨_, hfirst.stepped htakes⟩
  | reset _ ih =>
    obtain ⟨first, hfirst⟩ := ih
    exact ⟨none, hfirst.reset⟩

namespace FirstApplied

variable {first : Option (SortedMap NodeId Node)}

theorem reachable (h : e.FirstApplied first) : e.Reachable := by
  induction h with
  | start setting movement world => exact .start setting movement world
  | onSetup _ hook ih => exact ih.onSetup hook
  | moving _ movement ih => exact ih.moving movement
  | stepped _ _ ih => exact ih.perform trivial
  | other _ _ ih => exact ih.perform trivial
  | reset _ ih => exact ih.reset

/-- The overlay is made of the nodes of the first step, and there is none before. -/
theorem overlay (h : e.FirstApplied first) :
    e.tracker.overlay = first.map fun nodes => hubOverlay nodes.values := by
  induction h with
  | start => rfl
  | onSetup _ _ ih => exact ih
  | moving _ _ ih => exact ih
  | @stepped e first op distances h takes ih =>
    obtain ⟨movement, hperform⟩ := perform_of_distancesOf? takes
    have htracker := (applyDistances_stepped (e.moving movement) h.reachable.numbered
      distances).tracker
    rw [hperform, htracker]
    show some (e.tracker.overlay.getD (hubOverlay e.nodes.values)) = _
    rw [ih]
    cases first <;> rfl
  | @other e first op h idle ih =>
    rw [← ih]
    have hperforms := perform_performs e h.reachable.numbered op
    generalize e.perform op = e' at hperforms
    cases hperforms with
    | idle same => rw [same.tracker]
    | added => rfl
    | linked => rfl
    | stepped takes =>
      rw [idle] at takes
      cases takes
  | reset => rfl

theorem hubs_eq (h : e.FirstApplied first) : e.hubs = hubOverlay (first.getD e.nodes).values := by
  rw [hubs, h.overlay]
  cases first <;> rfl

end FirstApplied

end Engine

/-- The overlay of nodes that can be made, with ids of their own, puts each hub at distance zero from
each emulation node with a hub interface and says nothing of other pairs, whatever the order of the
nodes.  Every step of an engine goes by the overlay of the nodes that were known at the first step
since its start or its last reset, and so by distance zero for the pairs of this overlay. -/
theorem hubs_exact_constant [Movement μ] :
    (∀ nodes : List Node, (∀ n ∈ nodes, n.Built) → (nodes.map (·.id)).Nodup →
      (∀ h ∈ nodes, ∀ n ∈ nodes, h.role = .central → n.role = .emulation →
        NodePair.make h.id n.id = .ok ⟨n.id, h.id⟩) ∧
      (∀ pair d, (hubOverlay nodes).get? pair = some d ↔
        d = .zero ∧ ∃ h ∈ nodes, h.role = .central ∧ ∃ n ∈ nodes, n.role = .emulation ∧
          n.hasHubInterface = true ∧ pair = ⟨n.id, h.id⟩) ∧
      (hubOverlay nodes).size = nodes.countP (·.isCentral) *
        nodes.countP (fun n => n.isEmulation && n.hasHubInterface) ∧
      ∀ nodes', nodes'.Perm nodes → hubOverlay nodes' = hubOverlay nodes) ∧
    (∀ e : Engine σ μ, e.Reachable ↔ ∃ first, e.FirstApplied first) ∧
    ∀ (e : Engine σ μ) first, e.FirstApplied first →
      e.tracker.overlay = first.map (fun nodes => hubOverlay nodes.values) ∧
      ∀ op distances, e.distancesOf? op = some distances →
        let hubs := hubOverlay (first.getD e.nodes).values
        e.GoesBy op distances hubs ∧
          ∀ (m : DistanceMatrix) pair, hubs.contains pair = true →
            (m.overlay hubs).get? pair = some .zero := by
  refine ⟨fun nodes hbuilt hids => ⟨?_, fun pair d => ?_, ?_, fun _ => hubOverlay_perm⟩,
    fun e => ⟨Engine.Reachable.exists_firstApplied, ?_⟩,
    fun e first hfirst => ⟨hfirst.overlay, fun op distances htakes => ?_⟩⟩
  · intro h hh n hn hcentral hemulation
    have hof := (hbuilt h hh).pair_of_hub (hbuilt n hn) (decide_eq_true hcentral)
      (decide_eq_true hemulation)
    rw [NodePair.make, hof]
  · rw [get?_hubOverlay_eq_some, mem_hubPairs hbuilt]
  · rw [size_hubOverlay hbuilt hids, hubsOf, attachedOf, List.countP_eq_length_filter,
      List.countP_eq_length_filter]
  · rintro ⟨first, hfirst⟩
    exact hfirst.reachable
  · intro hubs
    have hgoes := Engine.goesBy_hubs hfirst.reachable.numbered htakes
    rw [hfirst.hubs_eq] at hgoes
    exact ⟨hgoes, fun m pair hpair => get?_overlay_hubs m hpair⟩

/-- A node that comes after the first step is not in the overlay before a reset. -/
theorem late_node_unattached :
    let hub : Node := ⟨.centralBase, .central, [⟨.hub, 0⟩]⟩
    let early : Node := ⟨⟨1⟩, .emulation, [⟨.mesh, 0⟩, ⟨.hub, 0⟩]⟩
    let late : Node := ⟨⟨2⟩, .emulation, [⟨.hub, 0⟩]⟩
    let e := (Engine.start ⟨.unshaped .none, Pairing.equal, .silent, .local⟩
      (none : Option Stationary) ()).run [.addNode early, .addNode hub]
    let e' := e.run [.apply .empty, .addNode late]
    (∀ n ∈ [hub, early, late], n.Built) ∧ (hubOverlay [hub, early, late]).size = 2 ∧
      e'.FirstApplied (some e.nodes) ∧ e.nodes.values = [early, hub] ∧
      e'.GoesBy (.apply .empty) .empty (hubOverlay [early, hub]) ∧
      (hubOverlay [early, hub]).keys = [⟨⟨1⟩, .centralBase⟩] := by
  intro hub early late e e'
  have hhub : Node.central 0 = .ok hub := by decide +kernel
  have hearly : Node.emulation ⟨1⟩ [.mesh, .hub] = .ok early := by decide +kernel
  have hlate : Node.emulation ⟨2⟩ [.hub] = .ok late := by decide +kernel
  have hbuilt : ∀ n ∈ [hub, early, late], n.Built := by
    simp [Node.Built.central hhub, Node.Built.emulation hearly, Node.Built.emulation hlate]
  obtain ⟨hoverlay, -, hsteps⟩ := @hubs_exact_constant Unit Stationary _
  obtain ⟨-, -, hsize, -⟩ := hoverlay [hub, early, late] hbuilt (by decide)
  have hfresh : e.FirstApplied none := by
    simp only [e, Engine.run_cons, Engine.run_nil]
    exact ((Engine.FirstApplied.start _ _ _).other rfl).other rfl
  have hfirst : e'.FirstApplied (some e.nodes) := by
    simp only [e', Engine.run_cons, Engine.run_nil]
    exact (hfresh.stepped rfl).other rfl
  have hvalues : e.nodes.values = [early, hub] := by decide +kernel
  have hgoes := ((hsteps e' _ hfirst).2 (.apply .empty) .empty rfl).1
  rw [Option.getD_some, hvalues] at hgoes
  exact ⟨hbuilt, hsize, hfirst, hvalues, hgoes, by decide +kernel⟩

end ProximityNet
