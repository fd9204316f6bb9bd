import ProximityNet.Proofs.AlwaysOn
import ProximityNet.Proofs.Forgetting
import ProximityNet.Proofs.Routes

/-!
# Where links to the management node run

Links to the management node are set up without asking where the nodes are.  A node that belongs to
another server is linked to the management node as if it were here: without a tunnel, and with the
route of a link that does not leave the server.  Links of the same node to a hub get a tunnel and the
route between servers, although hubs and the management node belong to the same server.

* `NodePair.Managed` — pairs with the management node;
* `Unassisted`, `Setting.guardsAt_unassisted` — no link of such a pair is routed between servers and
  no such pair has a tunnel, which every visit keeps that stays on one server for such pairs;
* `Setting.keeps_unassisted` — so does everything that an engine does;
* `management_links_unassisted` — so it is for every link to the management node;
* `managed_across_servers` — also for one to a node of another server.
-/

namespace ProximityNet

variable {σ μ : Type}

/-- One of the two nodes is the management node. -/
def NodePair.Managed (pair : NodePair) : Prop := pair.low = .management ∨ pair.high = .management

/-- No link to the management node is routed between servers, and there is no tunnel to it. -/
structure Unassisted (tunnels : Part σ Ownership.Tunnels) (w : σ × List Exchange) : Prop where
  routes : ∀ x ∈ w.2, ∀ site c, x.link? = some (site, c) → c.pair.Managed →
    site.route.isRemote = false
  bare : ∀ pair, (tunnels.get w.1).contains pair = true → ¬ pair.Managed

namespace Unassisted

variable {tunnels : Part σ Ownership.Tunnels} {w w' : σ × List Exchange} {x : Exchange}

/-- It goes on with an exchange about another link, or about a link that stays on the server. -/
theorem go_on (h : Unassisted tunnels w) (htold : w'.2 = w.2 ++ [x])
    (htunnels : tunnels.get w'.1 = tunnels.get w.1)
    (hx : ∀ site c, x.link? = some (site, c) → c.pair.Managed → site.route.isRemote = false) :
    Unassisted tunnels w' := by
  refine ⟨fun y hy => ?_, fun pair hpair => h.bare pair (by rw [← htunnels]; exact hpair)⟩
  rw [htold, List.mem_append, List.mem_singleton] at hy
  rcases hy with hy | rfl
  · exact h.routes y hy
  · exact hx

end Unassisted

namespace Setting

variable {s : Setting σ} {o : Ownership} {tunnels : Part σ Ownership.Tunnels} {v : Visit}

/-- A visit to the management node that does not leave the server has nothing routed between servers
and makes no tunnel. -/
theorem guardsAt_unassisted (hs : s.Owned o tunnels) (hv : v.pair.Managed → v.isRemote = false) :
    s.recorded.GuardsAt v (Unassisted tunnels) := by
  have told : ∀ {x : Exchange} {site c}, x.link? = some (site, c) → v.Concerns site c →
      ∀ site' c', x.link? = some (site', c') → c'.pair.Managed → site'.route.isRemote = false := by
    intro x site c hlink hconcerns site' c' hlink' hmanaged
    obtain ⟨rfl, rfl⟩ := Prod.mk.inj (Option.some.inj (hlink.symm.trans hlink'))
    rw [hconcerns.1] at hmanaged
    exact hconcerns.2.trans (hv hmanaged)
  refine ⟨fun hconcerns h => ?_, fun hconcerns h => ?_, fun hlink hconcerns h => ?_,
    fun hremote h => ?_⟩
  · exact h.go_on rfl (hs.announce _ _) (told rfl hconcerns)
  · exact h.go_on rfl (hs.start _ _ _) (told rfl hconcerns)
  · refine h.go_on rfl (hs.perform _ _) (told ?_ hconcerns)
    rw [Exchange.link?, hlink]
    rfl
  · rename_i w
    refine ⟨fun x hx => h.routes x hx, fun pair hpair hmanaged => ?_⟩
    have hpair : (tunnels.get (s.policy.ensure v.pair w.1).2).contains pair = true := hpair
    rcases hs.ensure v.pair w.1 with ⟨_, _, hsame⟩ | ⟨_, _, _, hmade⟩
    · rw [hsame] at hpair
      exact h.bare pair hpair hmanaged
    · rw [hmade, SortedMap.contains_insert] at hpair
      rcases hpair with rfl | hpair
      · rw [hv hmanaged] at hremote
        cases hremote
      · exact h.bare pair hpair hmanaged

/-! ### Everything that an engine does -/

/-- Nodes as they can be made, under their own ids. -/
def Made (nodes : SortedMap NodeId Node) : Prop :=
  ∀ id node, nodes.get? id = some node → node.Built ∧ node.id = id

/-- A pair whose links follow its distance does not have the management node in it. -/
theorem unmanaged_of_follows {nodes : SortedMap NodeId Node} {step : Nat} {changed : DistanceMatrix}
    (hnodes : Made nodes) (hv : v.Follows nodes step changed) : ¬ v.pair.Managed := by
  have plain : ∀ {id : NodeId} {node : Node}, nodes.get? id = some node →
      node.isManagement = false → id ≠ .management := by
    rintro id node hnode hplain rfl
    obtain ⟨hbuilt, hid⟩ := hnodes _ _ hnode
    rw [hbuilt.eq_management hid] at hplain
    cases hplain
  rintro (hlow | hhigh)
  · exact plain hv.x hv.plainX hlow
  · exact plain hv.y hv.plainY hhigh

theorem managed_of_manages {nodes : SortedMap NodeId Node} {step : Nat} (hnodes : Made nodes)
    (hv : v.Manages nodes step) : v.pair.Managed := by
  have hy : v.y.id = .management := (hnodes _ _ hv.y).2
  have hmake := hv.pair
  rw [NodePair.make] at hmake
  split at hmake
  · rename_i hof
    obtain rfl := Except.ok.inj hmake
    rcases eq_of_of? hof with hpair | hpair
    · exact Or.inr (by rw [hpair, hy])
    · exact Or.inl (by rw [hpair, hy])
  · cases hmake

/-- Links to the management node belong to it, and none of them is routed between servers. -/
theorem keeps_unassisted (hs : s.Owned o tunnels) : s.recorded.Keeps fun nodes st w => Made nodes →
    (st.All fun c => c.kind = .management → c.pair.Managed) ∧ Unassisted tunnels w where
  move := by
    intro nodes t p p' hdue hn hmove h hnodes
    obtain ⟨hall, hw⟩ := h hnodes
    have hroute : t.visit.pair.Managed → t.visit.isRemote = false := by
      intro hmanaged
      cases hdue with
      | follow hv => exact absurd hmanaged (unmanaged_of_follows hnodes hv)
      | manage hv => exact hv.isRemote
    refine ⟨?_, (guardsAt_unassisted hs hroute).move hmove hn hw⟩
    refine hmove.files.all hn (fun l switch hlaunch hkind => ?_) (fun c c' hcc' hc hkind => ?_) hall
    · cases hdue with
      | follow hv =>
        cases hlaunch
        exact absurd hkind (Visit.kind_ne_management _)
      | manage hv => exact managed_of_manages hnodes hv
    · rw [hcc'.pair]
      exact hc (hcc'.kind.symm.trans hkind)
  announce := by
    intro nodes st w a hstep h hnodes
    obtain ⟨hall, hw⟩ := h hnodes
    refine ⟨hall, hw.go_on rfl (hs.announce _ _) fun site c hlink => ?_⟩
    cases a with
    | adjusting => cases hstep
    | stepStarting | changesPending | changesApplied => cases hlink
  finish step all h hnodes :=
    ⟨(h hnodes).1, (h hnodes).2.go_on rfl (hs.perform _ _) fun _ _ hlink => by cases hlink⟩
  grow hgrow h hnodes := h fun id node hnode => hnodes id node (hgrow id node hnode)

end Setting

/-- Whoever owns the nodes: everything that a backend is told about a link to the management node
says that it stays on the server, and no tunnel is ever made for it. -/
theorem management_links_unassisted [Movement μ] {s : Setting σ} {o : Ownership}
    {tunnels : Part σ Ownership.Tunnels} (hs : s.Owned o tunnels) (movement : Option μ) {world : σ}
    (hworld : tunnels.get world = .empty) {ops : List Operation}
    (hops : ∀ node, .addNode node ∈ ops → node.Built) :
    let e := Engine.start s movement world
    ∀ pair i c, (e.run ops).store.find? pair i = some c → c.kind = .management →
      (∀ x ∈ e.history ops, ∀ site d, x.link? = some (site, d) → d.pair = pair →
        site.route.isRemote = false) ∧
      (tunnels.get (e.run ops).world).contains pair = false := by
  intro e pair i c hc hkind
  have hstart : e.recorded.Kept fun nodes st w => Setting.Made nodes →
      (st.All fun c => c.kind = .management → c.pair.Managed) ∧ Unassisted tunnels w := by
    refine ⟨ConnectionStore.numbered_empty, fun _ => ⟨?_, ?_, ?_⟩, ?_⟩
    · intro pair i c hc
      cases hc
    · intro x hx
      cases hx
    · intro pair hpair
      have hempty : (tunnels.get world).contains pair = true := hpair
      rw [hworld] at hempty
      cases hempty
    · intro hook hmem
      cases hmem
  obtain ⟨hkept, -⟩ := Engine.run_kept (Setting.keeps_unassisted hs) hstart ops
  obtain ⟨hstore, hworld'⟩ := e.recorded_run ops
  have hreach : (e.run ops).ReachableBy Engine.Builds := by
    refine (Engine.ReachableBy.start s movement world).run ops fun e' op hmem node heq => ?_
    rw [heq] at hmem
    exact hops node hmem
  have hnodes : Setting.Made (e.recorded.run ops).nodes := by
    rw [(Engine.run_shows e.recorded_shows ops).nodes]
    exact fun id node hnode => ⟨hreach.anchored.built id node hnode, hreach.keyed id node hnode⟩
  obtain ⟨hall, hend⟩ := hkept.holds hnodes
  rw [hstore] at hall
  rw [hworld'] at hend
  have hmanaged := hall pair i c hc hkind
  rw [(hkept.numbered.keys_eq (by rw [hstore]; exact hc)).1] at hmanaged
  refine ⟨fun x hx site d hlink hpair => ?_, ?_⟩
  · exact hend.routes x hx site d hlink (by rw [hpair]; exact hmanaged)
  · exact Bool.eq_false_iff.mpr fun htunnel => hend.bare pair htunnel hmanaged

/-- The second node is on the other server and is linked to the management node as if it were here,
while its link to the hub has its tunnel. -/
theorem managed_as_if_here :
    let start : Engine Ownership.Tunnels Stationary :=
      Engine.start twoServerEngine.setting none .empty
    let managed : NodePair := ⟨⟨2⟩, .management⟩
    (start.run assembly).world.contains ⟨⟨2⟩, .centralBase⟩ = true ∧
      ∃ c, (start.run assembly).store.find? managed ⟨⟨.management, 0⟩, ⟨.management, 0⟩⟩ = some c ∧
        c.kind = .management ∧
        (∀ x ∈ start.history assembly, ∀ site d, x.link? = some (site, d) →
          d.pair = managed → site.route.isRemote = false) ∧
        (Part.whole.get (start.run assembly).world).contains managed = false := by
  intro start managed
  have hfound : ((start.run assembly).store.find? managed
      ⟨⟨.management, 0⟩, ⟨.management, 0⟩⟩).map (·.kind) = some .management := by decide +kernel
  obtain ⟨c, hc, hkind⟩ := Option.map_eq_some_iff.mp hfound
  have hworld : (Part.whole : Part Ownership.Tunnels Ownership.Tunnels).get .empty = .empty := rfl
  have hlocal := management_links_unassisted twoServerEngine_owned (none : Option Stationary) hworld
    assembly_built managed _ c hc hkind
  exact ⟨by decide +kernel, c, hc, hkind, hlocal⟩

/-- Not every link to the management node that leads to another server has a tunnel, and not
everything that is said about it says that it leads there. -/
theorem managed_across_servers :
    let start : Engine Ownership.Tunnels Stationary :=
      Engine.start twoServerEngine.setting none .empty
    ¬ ∀ pair i c, (start.run assembly).store.find? pair i = some c → c.kind = .management →
        c.connected = true → twoServers.isRemote pair.low pair.high = true →
        (start.run assembly).world.contains pair = true ∧
          ∀ x ∈ start.history assembly, ∀ site d, x.link? = some (site, d) → d.pair = pair →
            site.route.isRemote = true := by
  intro start hclaim
  have hfound : ((start.run assembly).store.find? ⟨⟨2⟩, .management⟩
      ⟨⟨.management, 0⟩, ⟨.management, 0⟩⟩).map (fun c => (c.kind, c.connected)) =
        some (.management, true) := by decide +kernel
  obtain ⟨c, hc, hsays⟩ := Option.map_eq_some_iff.mp hfound
  obtain ⟨hkind, hup⟩ := Prod.mk.inj hsays
  have htunnel : (start.run assembly).world.contains ⟨⟨2⟩, .management⟩ = false := by decide +kernel
  have hremote : twoServers.isRemote ⟨2⟩ .management = true := by decide +kernel
  obtain ⟨hmade, -⟩ := hclaim _ _ c hc hkind hup hremote
  rw [htunnel] at hmade
  cases hmade

end ProximityNet
