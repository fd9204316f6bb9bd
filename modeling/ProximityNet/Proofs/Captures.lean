import ProximityNet.Proofs.Wiring
import ProximityNet.Snapshot

/-!
# What a snapshot shows

A snapshot holds the connections of an engine as two plain lists, and answers from them what the
store answers from its partitions.  The store reads who is next to whom off the pairs that its
connections are filed under, the snapshot off the connections themselves, so the two agree because
every connection stands under its own pair, and no pair stands without a connection.

* `NodePair.Joins`, `NextTo` — the two nodes of a pair, and what a map of neighbours says of nodes;
* `nextTo_neighbours`, `neighbours_congr` — the neighbours of a list of pairs depend on its members;
* `WellFormed.mem_active_keys_iff` — the pairs of a partition are those of its connections;
* `WellFormed.query_active`, `WellFormed.query_inactive` — the flag tells the partitions apart;
* `Engine.Loopless`, `ReachableBy.loopless` — no connection joins a node with itself;
* `captured_alike` — a snapshot of a reachable engine answers as its store does.
-/

namespace ProximityNet

variable {σ μ : Type}

/-! ### Neighbours -/

/-- The pair of two nodes, in either order. -/
def NodePair.Joins (p : NodePair) (a b : NodeId) : Prop :=
  (p.low = a ∧ p.high = b) ∨ (p.high = a ∧ p.low = b)

theorem NodePair.Joins.symm {p : NodePair} {a b : NodeId} (h : p.Joins a b) : p.Joins b a :=
  Or.symm (h.imp And.symm And.symm)

theorem NodePair.Joins.ne {p : NodePair} {a b : NodeId} (h : p.Joins a b) (hp : p.low ≠ p.high) :
    a ≠ b := by
  rcases h with ⟨rfl, rfl⟩ | ⟨rfl, rfl⟩
  · exact hp
  · exact hp.symm

/-- A map of neighbours has `b` among those of `a`. -/
def NextTo (m : SortedMap NodeId (SortedMap NodeId Unit)) (a b : NodeId) : Prop :=
  ∃ set, m.get? a = some set ∧ set.contains b = true

section Neighbours

variable {m : SortedMap NodeId (SortedMap NodeId Unit)} {l l' : List NodePair}

theorem nextTo_link (a b x y : NodeId) :
    NextTo (neighbours.link m a b) x y ↔ (a = x ∧ b = y) ∨ NextTo m x y := by
  by_cases hx : a = x
  · subst hx
    have hold : NextTo m a y ↔ ((m.get? a).getD .empty).contains y = true := by
      rw [NextTo]
      cases m.get? a <;> simp [SortedMap.contains]
    have hnew : NextTo (neighbours.link m a b) a y ↔
        (((m.get? a).getD .empty).insert b ()).contains y = true := by
      rw [NextTo, neighbours.link, SortedMap.get?_insert_self]
      simp
    rw [hnew, hold, SortedMap.contains, SortedMap.get?_insert, SortedMap.contains]
    by_cases hy : b = y <;> simp [hy]
  · rw [NextTo, neighbours.link, SortedMap.get?_insert_of_ne m _ hx]
    simp [hx, NextTo]

theorem nextTo_neighbours {a b : NodeId} :
    NextTo (neighbours l) a b ↔ ∃ p ∈ l, p.Joins a b := by
  induction l with
  | nil =>
    constructor
    · rintro ⟨set, hset, _⟩
      cases hset
    · rintro ⟨p, hp, _⟩
      cases hp
  | cons p rest ih =>
    rw [neighbours, nextTo_link, nextTo_link, ih]
    simp only [List.mem_cons, exists_eq_or_imp, NodePair.Joins]
    rw [← or_assoc, Or.comm (a := p.high = a ∧ p.low = b)]

/-- A node stands in a map of neighbours only if it has one. -/
theorem exists_nextTo {a : NodeId} {set : SortedMap NodeId Unit}
    (h : (neighbours l).get? a = some set) : ∃ b, NextTo (neighbours l) a b := by
  have link : ∀ (m : SortedMap NodeId (SortedMap NodeId Unit)) (x y : NodeId),
      (∀ set, m.get? a = some set → ∃ b, NextTo m a b) →
        ∀ set, (neighbours.link m x y).get? a = some set →
          ∃ b, NextTo (neighbours.link m x y) a b := by
    intro m x y hm set hset
    by_cases hx : x = a
    · exact ⟨y, (nextTo_link x y a y).mpr (Or.inl ⟨hx, rfl⟩)⟩
    · rw [neighbours.link, SortedMap.get?_insert_of_ne m _ hx] at hset
      obtain ⟨b, hb⟩ := hm set hset
      exact ⟨b, (nextTo_link x y a b).mpr (Or.inr hb)⟩
  induction l generalizing set with
  | nil => cases h
  | cons p rest ih => exact link _ _ _ (link _ _ _ fun _ => ih) set h

/-- Maps of neighbours that say the same of all nodes are the same map. -/
theorem neighbours_ext (h : ∀ a b, NextTo (neighbours l) a b ↔ NextTo (neighbours l') a b) :
    neighbours l = neighbours l' := by
  apply SortedMap.ext_get?
  intro a
  have hrel := h a
  cases ha : (neighbours l).get? a with
  | none =>
    cases ha' : (neighbours l').get? a with
    | none => rfl
    | some set =>
      obtain ⟨b, hb⟩ := exists_nextTo ha'
      obtain ⟨_, hset, _⟩ := (hrel b).mpr hb
      rw [ha] at hset
      cases hset
  | some set =>
    cases ha' : (neighbours l').get? a with
    | none =>
      obtain ⟨b, hb⟩ := exists_nextTo ha
      obtain ⟨_, hset, _⟩ := (hrel b).mp hb
      rw [ha'] at hset
      cases hset
    | some set' =>
      refine congrArg some (SortedMap.ext_get? fun b => Option.ext fun u => ?_)
      simp only [NextTo, ha, ha', Option.some.injEq, exists_eq_left', SortedMap.contains,
        Option.isSome_iff_exists] at hrel
      have hunit : ∀ o : Option Unit, o = some u ↔ ∃ v, o = some v := fun o => by cases o <;> simp
      rw [hunit, hunit]
      exact hrel b

theorem neighbours_congr (h : ∀ p, p ∈ l ↔ p ∈ l') : neighbours l = neighbours l' := by
  apply neighbours_ext
  intro a b
  simp only [nextTo_neighbours, h]

end Neighbours

/-! ### The store and its lists -/

namespace ConnectionStore.WellFormed

variable {st : ConnectionStore}

/-- The pairs that active connections are filed under are the pairs of these connections. -/
theorem mem_active_keys_iff (h : st.WellFormed) (pair : NodePair) :
    pair ∈ st.active.keys ↔ pair ∈ st.active.connections.map (·.pair) := by
  rw [SortedMap.mem_keys_iff, List.mem_map]
  constructor
  · rintro ⟨inner, hinner⟩
    obtain ⟨i, c, hc⟩ := h.activeFull.get?_eq_some hinner
    exact ⟨c, Partition.mem_connections_iff.mpr ⟨pair, i, hc⟩, (h.active hc).1⟩
  · rintro ⟨c, hmem, rfl⟩
    obtain ⟨pair, i, hc⟩ := Partition.mem_connections_iff.mp hmem
    obtain ⟨inner, hinner, _⟩ := Partition.get?_of_find? hc
    exact ⟨inner, by rw [(h.active hc).1, hinner]⟩

theorem connected_of_mem_active (h : st.WellFormed) {c : Connection}
    (hc : c ∈ st.active.connections) : c.connected = true := by
  obtain ⟨pair, i, hfind⟩ := Partition.mem_connections_iff.mp hc
  exact (h.active hfind).2.2

theorem connected_of_mem_inactive (h : st.WellFormed) {c : Connection}
    (hc : c ∈ st.inactive.connections) : c.connected = false := by
  obtain ⟨pair, i, hfind⟩ := Partition.mem_connections_iff.mp hc
  exact (h.inactive hfind).2.2

/-- Asking for the connections that are up gives the active partition. -/
theorem query_active (h : st.WellFormed) :
    st.query ⟨none, none, some true⟩ = st.active.connections := by
  have hup : st.active.connections.filter (ConnectionFilter.accepts ⟨none, none, some true⟩) =
      st.active.connections := by
    rw [List.filter_eq_self]
    intro c hc
    exact decide_eq_true (h.connected_of_mem_active hc)
  have hdown : st.inactive.connections.filter (ConnectionFilter.accepts ⟨none, none, some true⟩) =
      [] := by
    rw [List.filter_eq_nil_iff]
    intro c hc
    simp [ConnectionFilter.accepts, h.connected_of_mem_inactive hc]
  rw [query, connections, List.filter_append, hup, hdown, List.append_nil]

/-- Asking for the connections that are not up gives the inactive partition. -/
theorem query_inactive (h : st.WellFormed) :
    st.query ⟨none, none, some false⟩ = st.inactive.connections := by
  have hup : st.active.connections.filter (ConnectionFilter.accepts ⟨none, none, some false⟩) =
      [] := by
    rw [List.filter_eq_nil_iff]
    intro c hc
    simp [ConnectionFilter.accepts, h.connected_of_mem_active hc]
  have hdown : st.inactive.connections.filter (ConnectionFilter.accepts ⟨none, none, some false⟩) =
      st.inactive.connections := by
    rw [List.filter_eq_self]
    intro c hc
    exact decide_eq_true (h.connected_of_mem_inactive hc)
  rw [query, connections, List.filter_append, hup, hdown, List.nil_append]

end ConnectionStore.WellFormed

/-! ### No connection joins a node with itself -/

namespace Engine

/-- All distances and connections of an engine are between distinct nodes. -/
structure Loopless (e : Engine σ μ) : Prop where
  current : e.tracker.current.Proper
  hubs : e.hubs.Proper
  distinct : e.store.All fun c => c.pair.low ≠ c.pair.high

/-- Whatever is due in a step or in linking nodes to the management node is about distinct nodes. -/
theorem Loopless.advances {e : Engine σ μ} (h : e.Loopless) {due : Task → Prop}
    {st : ConnectionStore} (hs : e.store.Numbered)
    (hdue : ∀ t, due t → t.visit.pair.low ≠ t.visit.pair.high)
    (hadvances : e.setting.Advances due e.store st) :
    st.All fun c => c.pair.low ≠ c.pair.high := by
  refine (hadvances.keeps hs (fun t p p' ht hn hmove hall => ?_) h.distinct).2
  refine hmove.files.all hn (fun l switch _ => hdue t ht) (fun c c' hcc' hc => ?_) hall
  rw [hcc'.pair]
  exact hc

theorem Loopless.stepped {e e' : Engine σ μ} {distances : DistanceMatrix} (h : e.Loopless)
    (hs : e.store.Numbered) (hd : distances.Proper) (hstepped : e.Stepped distances e') :
    e'.Loopless := by
  have hhubs : e'.hubs = e.hubs := by
    rw [Engine.hubs, hstepped.tracker]
    rfl
  have hchanged : (e.changed distances).Proper := by
    rw [changed_eq]
    exact (hd.changesSince h.current).overlay h.hubs
  refine ⟨?_, ?_, ?_⟩
  · rw [hstepped.tracker]
    exact hd
  · rw [hhubs]
    exact h.hubs
  · refine h.advances hs (fun t ht => ?_) hstepped.store
    cases t with
    | manage v => exact ht.elim
    | follow v => exact hchanged _ _ ht.changed

/-- Links to the management node join it with other nodes. -/
theorem Loopless.linked {e : Engine σ μ} {store : ConnectionStore} {world : σ} (h : e.Loopless)
    (hs : e.store.Numbered)
    (hstore : e.setting.Advances (Task.DueInLinking e.nodes e.step) e.store store) :
    ({ e with store, world } : Engine σ μ).Loopless := by
  refine ⟨h.current, h.hubs, h.advances hs (fun t ht => ?_) hstore⟩
  cases t with
  | follow v => exact ht.elim
  | manage v =>
    have hmake := ht.pair
    rw [NodePair.make] at hmake
    split at hmake
    · rename_i pair hof
      have hpair : pair = v.pair := Except.ok.inj hmake
      rw [hpair] at hof
      exact NodePair.low_ne_high hof
    · cases hmake

theorem Loopless.resembles {e e' : Engine σ μ} (h : e.Loopless) (hsame : e.Resembles e') :
    e'.Loopless := by
  obtain ⟨hcurrent, hhubs, hdistinct⟩ := h
  refine ⟨?_, ?_, ?_⟩
  · rw [hsame.tracker]
    exact hcurrent
  · rw [Engine.hubs, hsame.tracker, hsame.nodes]
    exact hhubs
  · rw [hsame.store]
    exact hdistinct

theorem proper_hubs_of_none {e : Engine σ μ} (h : e.tracker.overlay = none) : e.hubs.Proper := by
  rw [hubs, h]
  exact proper_hubOverlay _

variable [Movement μ]

/-- Operations that take distances between distinct nodes. -/
def TellsApart (e : Engine σ μ) (op : Operation) : Prop :=
  ∀ distances, e.distancesOf? op = some distances → distances.Proper

theorem ReachableBy.loopless {e : Engine σ μ} (h : e.ReachableBy TellsApart) : e.Loopless := by
  refine h.invariant (I := Loopless) ?_ ?_ ?_ ?_
  · intro setting movement world
    exact ⟨DistanceMatrix.proper_empty, proper_hubs_of_none rfl, fun _ _ _ hc => by cases hc⟩
  · intro e e' hsame he
    exact he.resembles hsame
  · intro e op e' hreach happart hperforms he
    cases hperforms with
    | idle same => exact he.resembles same
    | @added node new =>
      refine ⟨he.current, ?_, he.distinct⟩
      cases ho : e.tracker.overlay with
      | none => exact proper_hubs_of_none ho
      | some o =>
        have hhubs := he.hubs
        rw [hubs, ho] at hhubs
        rw [hubs, ho]
        exact hhubs
    | linked hstore => exact he.linked hreach.numbered hstore
    | stepped takes hstepped => exact he.stepped hreach.numbered (happart _ takes) hstepped
  · intro e _
    exact ⟨DistanceMatrix.proper_empty, proper_hubs_of_none rfl, fun _ _ _ hc => by cases hc⟩

end Engine

/-- A snapshot of a reachable engine lists and finds the connections that the store does, in the
same order; the flag of a connection says in which of its lists it stands; and it knows the same
neighbours, which are the nodes that some connection of its active list joins with a node, so no
node is next to itself and no two nodes are next to each other in one direction only. -/
theorem captured_alike [Movement μ] {e : Engine σ μ} (h : e.ReachableBy Engine.TellsApart) :
    let s := Snapshot.capture e
    (∀ f, s.query f = e.store.query f) ∧ (∀ id, s.byId? id = e.store.byId? id) ∧
      s.query ⟨none, none, some true⟩ = s.active ∧ s.query ⟨none, none, some false⟩ = s.inactive ∧
      s.adjacency = e.store.adjacency ∧
      (∀ a b, NextTo s.adjacency a b ↔ ∃ c ∈ s.active, c.pair.Joins a b) ∧
      (∀ a b, NextTo s.adjacency a b → NextTo s.adjacency b a) ∧
      ∀ a, ¬ NextTo s.adjacency a a := by
  intro s
  have hw := h.numbered.toWellFormed
  have hjoins : ∀ a b, NextTo s.adjacency a b ↔ ∃ c ∈ s.active, c.pair.Joins a b := by
    intro a b
    rw [Snapshot.adjacency, nextTo_neighbours]
    simp only [List.mem_map, exists_exists_and_eq_and]
  refine ⟨fun _ => rfl, fun _ => rfl, hw.query_active, hw.query_inactive, ?_, hjoins, ?_, ?_⟩
  · exact neighbours_congr fun pair => (hw.mem_active_keys_iff pair).symm
  · intro a b hab
    obtain ⟨c, hc, hjoin⟩ := (hjoins a b).mp hab
    exact (hjoins b a).mpr ⟨c, hc, hjoin.symm⟩
  · intro a haa
    obtain ⟨c, hc, hjoin⟩ := (hjoins a a).mp haa
    obtain ⟨pair, i, hfound⟩ := Partition.mem_connections_iff.mp hc
    have hstored : e.store.find? pair i = some c := (hw.active_find?_iff.mp hfound).1
    exact hjoin.ne (h.loopless.distinct _ _ _ hstored) rfl

/-- Two nodes with links to a hub, to the management node and to each other part again: one link is
down, four are up, and the nodes are next to the hub and the management node but not to each
other. -/
theorem parted_assembly_captured :
    let e := ((Engine.start ⟨.unshaped .none, Pairing.equal, .silent, .local⟩
      (none : Option Stationary) ()).run assembly).perform (.apply .empty)
    let s := Snapshot.capture e
    s.active.length = 4 ∧ s.inactive.length = 1 ∧ (∀ f, s.query f = e.store.query f) ∧
      s.query ⟨none, none, some false⟩ = s.inactive ∧ s.adjacency = e.store.adjacency ∧
      NextTo s.adjacency ⟨1⟩ .centralBase ∧ NextTo s.adjacency .management ⟨1⟩ ∧
      ¬ NextTo s.adjacency ⟨1⟩ ⟨2⟩ := by
  intro e s
  have hadmitted : e.ReachableBy Engine.Admits :=
    assembly_admitted.perform (Engine.admits_apply _ DistanceMatrix.proper_empty)
  obtain ⟨hquery, _, _, hinactive, hadjacency, hjoins, hsymm, _⟩ :=
    captured_alike (hadmitted.mono fun _ _ hop => hop.proper)
  have hactive : s.active.map (·.pair) =
      [⟨⟨1⟩, .centralBase⟩, ⟨⟨1⟩, .management⟩, ⟨⟨2⟩, .centralBase⟩, ⟨⟨2⟩, .management⟩] := by
    decide +kernel
  have hnext : ∀ a b, NextTo s.adjacency a b ↔ ∃ p ∈ s.active.map (·.pair), p.Joins a b := by
    intro a b
    simp only [List.mem_map, exists_exists_and_eq_and]
    exact hjoins a b
  refine ⟨by decide +kernel, by decide +kernel, hquery, hinactive, hadjacency, ?_, ?_, ?_⟩
  · rw [hnext, hactive]
    exact ⟨⟨⟨1⟩, .centralBase⟩, by decide, Or.inl ⟨rfl, rfl⟩⟩
  · refine hsymm _ _ ((hnext _ _).mpr ?_)
    rw [hactive]
    exact ⟨⟨⟨1⟩, .management⟩, by decide, Or.inl ⟨rfl, rfl⟩⟩
  · rw [hnext, hactive]
    unfold NodePair.Joins
    decide

end ProximityNet
