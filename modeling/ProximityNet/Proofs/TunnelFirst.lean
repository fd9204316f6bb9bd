import ProximityNet.Proofs.Chronicle
import ProximityNet.Proofs.Persistence

/-!
# No link between servers without a tunnel

The tunnel of a pair is seen to before anything is done about its links, and where that fails the
links stay as they are.  So the backend hears of a link between servers only after the tunnel was
there in the same step.  Owners that are settled once and for all keep the tunnels they have made, and
then a link between servers has its tunnel in every state, also when links come and go.

* `Bridged` — links between servers have their tunnels, and tunnels join nodes with known owners;
* `Encounter.bridged`, `reconcileAll_bridged`, `connectManagement_bridged` — what reconciling keeps;
* `Engine.Deployed` — engines that begin without tunnels, whose hooks leave tunnels alone;
* `Engine.Deployed.bridged` — links and tunnels of such engines, whatever they have been through;
* `tunnel_before_link` — what is told of a pair in a step, and which tunnels there are.
-/

namespace ProximityNet

open Relation (ReflTransGen)

variable {σ μ : Type}

/-- A link that follows distances and runs between servers has its tunnel. -/
def Connection.Bridged (o : Ownership) (tunnels : Ownership.Tunnels) (c : Connection) : Prop :=
  c.kind ≠ .management → o.isRemote c.pair.low c.pair.high = true → tunnels.contains c.pair = true

/-- Links between servers have their tunnels, and tunnels join nodes whose owners are known. -/
structure Bridged (o : Ownership) (st : ConnectionStore) (tunnels : Ownership.Tunnels) : Prop where
  links : st.All (·.Bridged o tunnels)
  owned : ∀ pair, tunnels.contains pair = true →
    (o.owner? pair.low).isSome = true ∧ (o.owner? pair.high).isSome = true

namespace Setting

variable {s : Setting σ} {o : Ownership} {tunnels : Part σ Ownership.Tunnels} {p : Progress σ}

/-! ### Reconciling -/

/-- No call on a visit changes the tunnels, but for the one that is to see to them. -/
theorem Owned.guardsAt (hs : s.Owned o tunnels) (s' : Setting σ) (hbackend : s'.backend = s.backend)
    (w : σ) {v : Visit} (hensure : v.isRemote = true → ∀ w',
      tunnels.get (s'.policy.ensure v.pair w').2 = tunnels.get w') :
    s'.GuardsAt v fun w' => tunnels.get w' = tunnels.get w := by
  refine ⟨fun _ h => ?_, fun _ h => ?_, fun _ _ h => ?_, fun hremote h => (hensure hremote _).trans h⟩
  all_goals rw [hbackend]
  · exact (hs.announce _ _).trans h
  · exact (hs.start _ _ _).trans h
  · exact (hs.perform _ _).trans h

/-- Once the links of a pair have their turn the tunnels stay as they are. -/
theorem Owned.settled_moves (hs : s.Owned o tunnels) {v : Visit} {p' : Progress σ}
    (h : s.settled.Moves (.follow v) p p') (hn : p.store.Numbered) :
    tunnels.get p'.world = tunnels.get p.world := by
  have hguards : s.settled.GuardsAt v fun w => tunnels.get w = tunnels.get p.world :=
    hs.guardsAt s.settled rfl _ fun _ _ => rfl
  exact hguards.moves (t := .follow v) h hn rfl

/-- The links of one pair may change if it has a tunnel or does not need one. -/
theorem bridged_of_moves {v : Visit} {p' : Progress σ} {t t' : Ownership.Tunnels}
    (h : s.settled.Moves (.follow v) p p') (hn : p.store.Numbered)
    (hb : p.store.All (·.Bridged o t)) (grow : ∀ pair, t.contains pair = true →
      t'.contains pair = true)
    (hv : o.isRemote v.pair.low v.pair.high = true → t'.contains v.pair = true) :
    p'.store.All (·.Bridged o t') := by
  intro pair i c hc hkind hremote
  by_cases hpair : c.pair = v.pair
  · rw [hpair] at hremote ⊢
    exact hv hremote
  · have hkeys : c.pair = pair := ((Moves.numbered h hn).keys_eq hc).1
    rw [Moves.find?_of_ne h hn (fun heq => hpair (hkeys.trans heq))] at hc
    exact grow _ (hb pair i c hc hkind hremote)

/-- Whatever comes of reconciling a pair, links between servers have their tunnels after it. -/
theorem Encounter.bridged {q : NodePair} {r : Except ReconcileError Unit × Progress σ}
    (h : s.Encounter q p r) (hs : s.Owned o tunnels) (hn : p.store.Numbered)
    (hb : Bridged o p.store (tunnels.get p.world)) :
    Bridged o r.2.store (tunnels.get r.2.world) := by
  cases h with
  | passed result => exact hb
  | @near v _ hv here route moves =>
    -- the pair is not remote, so its links need no tunnel
    rw [hs.settled_moves moves hn]
    refine ⟨bridged_of_moves moves hn hb.links (fun _ hpair => hpair) fun hremote => ?_, hb.owned⟩
    rw [hs.isRemote, ← hv, hremote] at here
    cases here
  | @stranded fault w remote ensure =>
    rcases hs.ensure q p.world with ⟨_, -, hsame⟩ | ⟨hok, -⟩
    · rw [ensure] at hsame
      dsimp only at hsame ⊢
      rw [hsame]
      exact hb
    · rw [ensure] at hok
      cases hok
  | @tunnelled v w _ hv remote route ensure moves =>
    rcases hs.ensure q p.world with ⟨_, herror, -⟩ | ⟨-, hlow, hhigh, hmade⟩
    · rw [ensure] at herror
      cases herror
    · -- the tunnel is there before the links change, and the others stay
      rw [ensure] at hmade
      rw [hs.settled_moves moves hn]
      dsimp only at hmade ⊢
      rw [hmade]
      refine ⟨bridged_of_moves moves hn hb.links (fun pair hpair => ?_) fun _ => ?_,
        fun pair hpair => ?_⟩
      · exact (SortedMap.contains_insert _ _ _ _).mpr (Or.inr hpair)
      · exact (SortedMap.contains_insert _ _ _ _).mpr (Or.inl hv.symm)
      · rcases (SortedMap.contains_insert _ _ _ _).mp hpair with rfl | hpair
        · exact ⟨hlow, hhigh⟩
        · exact hb.owned pair hpair

theorem reconcileAll_bridged {nodes : SortedMap NodeId Node} {step : Nat}
    {l : List (NodePair × Distance)} (hs : s.Owned o tunnels) (hk : Keyed nodes)
    (hn : p.store.Numbered) (hb : Bridged o p.store (tunnels.get p.world)) :
    Bridged o (s.reconcileAll nodes step l p).store
      (tunnels.get (s.reconcileAll nodes step l p).world) := by
  induction l generalizing p with
  | nil => exact hb
  | cons a rest ih =>
    obtain ⟨q, distance⟩ := a
    have hencounter : s.Encounter q p (s.reconcile nodes step q distance p) :=
      reconcile_encounter hn hk
    obtain ⟨hstore, hworld⟩ : (s.visited nodes step q distance p).store = _ ∧ _ :=
      visited_reconciles q distance
    rw [reconcileAll_cons]
    refine ih ?_ ?_
    · rw [hstore]
      exact (reconcile_confined hn).numbered
    · rw [hstore, hworld]
      exact hencounter.bridged hs hn hb

/-- Links to the management node are not asked about, and no tunnels are made for them. -/
theorem connectManagement_bridged {nodes : SortedMap NodeId Node} {step : Nat}
    (hs : s.Owned o tunnels) (hn : p.store.Numbered)
    (hb : Bridged o p.store (tunnels.get p.world)) :
    Bridged o (s.connectManagement nodes step p).2.store
      (tunnels.get (s.connectManagement nodes step p).2.world) := by
  have hproceeds : ReflTransGen (s.Proceeds (Task.DueInLinking nodes step)) p
      (s.connectManagement nodes step p).2 := connectManagement_proceeds hn
  refine (proceeds_keeps (I := fun st w => Bridged o st (tunnels.get w)) ?_ hproceeds hn hb).2
  intro t p p' hdue hn hmove hb
  cases t with
  | follow v => exact hdue.elim
  | manage v =>
    have hhere : v.isRemote ≠ true := by
      rw [hdue.isRemote]
      exact Bool.false_ne_true
    have hguards : s.GuardsAt v fun w => tunnels.get w = tunnels.get p.world :=
      hs.guardsAt s rfl _ fun hremote => absurd hremote hhere
    have hsame : tunnels.get p'.world = tunnels.get p.world :=
      hguards.move (t := .manage v) hmove hn rfl
    rw [hsame]
    refine ⟨hmove.files.all hn (fun l switch hlaunch hkind => ?_) (fun c c' hcc' hc => ?_) hb.links,
      hb.owned⟩
    · cases hlaunch
      exact absurd rfl hkind
    · rw [Connection.Bridged, hcc'.pair, hcc'.kind]
      exact hc

end Setting

/-! ### Engines -/

namespace Engine

variable {o : Ownership} {tunnels : Part σ Ownership.Tunnels} {e : Engine σ μ}

theorem applyDistances_bridged (hs : e.setting.Owned o tunnels) (hk : Keyed e.nodes)
    (hn : e.store.Numbered)
    (hhooks : ∀ hook ∈ e.hooks, ∀ st w, tunnels.get (hook st w) = tunnels.get w)
    (hb : Bridged o e.store (tunnels.get e.world)) (distances : DistanceMatrix) :
    Bridged o (e.applyDistances distances).2.store
      (tunnels.get (e.applyDistances distances).2.world) := by
  by_cases hskip : ((e.changed distances).isEmpty && e.step != 0) = true
  · obtain ⟨-, hstore, hworld, -⟩ := applyDistances_skipped hskip
    rw [hstore, hworld]
    exact hb
  · obtain ⟨all, -, -, hstore, hworld⟩ := applyDistances_visits hskip
    have hopened : tunnels.get (e.opened (e.changed distances) all).world = tunnels.get e.world :=
      (hs.announce _ _).trans (hs.announce _ _)
    have hvisits : Bridged o (e.visits (e.changed distances) all).store
        (tunnels.get (e.visits (e.changed distances) all).world) :=
      Setting.reconcileAll_bridged hs hk hn (by rw [hopened]; exact hb)
    have hclosed : tunnels.get (e.closed (e.changed distances) all
        (e.visits (e.changed distances) all).world) =
          tunnels.get (e.visits (e.changed distances) all).world :=
      (hs.perform _ _).trans (hs.announce _ _)
    have hhooks' : ∀ hook ∈ (if e.step = 0 then e.hooks else []), ∀ st w,
        tunnels.get (hook st w) = tunnels.get w := by
      intro hook hmem
      split at hmem
      · exact hhooks hook hmem
      · cases hmem
    have hafter : tunnels.get (e.applyDistances distances).2.world =
        tunnels.get (e.visits (e.changed distances) all).world := by
      rw [hworld]
      exact runHooks_keeps (J := fun w => tunnels.get w = tunnels.get _)
        (fun hook hmem w hw => (hhooks' hook hmem _ w).trans hw) hclosed
    rw [hstore, hafter]
    exact hvisits

theorem applyDistances_hooks (e : Engine σ μ) (distances : DistanceMatrix) :
    ∀ hook ∈ (e.applyDistances distances).2.hooks, hook ∈ e.hooks := by
  rw [applyDistances_eq]
  dsimp only
  split
  · exact fun _ hmem => hmem
  · dsimp only
    split
    · exact fun _ hmem => by cases hmem
    · exact fun _ hmem => hmem

variable [Movement μ]

/-- No operation adds anything to be done after the first step. -/
theorem perform_hooks (e : Engine σ μ) (op : Operation) :
    ∀ hook ∈ (e.perform op).hooks, hook ∈ e.hooks := by
  by_cases hop : op = .connectManagement
  · rw [hop]
    exact fun _ hmem => hmem
  · rcases e.perform_applies hop with ⟨-, _, _, hidle⟩ | ⟨movement, distances, -, happ⟩
    · rw [hidle]
      exact fun _ hmem => hmem
    · rw [happ]
      exact (e.moving movement).applyDistances_hooks distances

/-- Every operation leaves links between servers with their tunnels. -/
theorem perform_bridged (hs : e.setting.Owned o tunnels) (hk : Keyed e.nodes)
    (hn : e.store.Numbered)
    (hhooks : ∀ hook ∈ e.hooks, ∀ st w, tunnels.get (hook st w) = tunnels.get w)
    (hb : Bridged o e.store (tunnels.get e.world)) (op : Operation) :
    Bridged o (e.perform op).store (tunnels.get (e.perform op).world) := by
  by_cases hop : op = .connectManagement
  · rw [hop]
    exact Setting.connectManagement_bridged (p := e.progress (.blank e.step 0)) hs hn hb
  · rcases e.perform_applies hop with ⟨-, _, _, hidle⟩ | ⟨movement, distances, -, happ⟩
    · rw [hidle]
      exact hb
    · rw [happ]
      exact applyDistances_bridged (e := e.moving movement) hs hk hn hhooks hb distances

/-- The engines that come out of one without tunnels, with hooks that leave tunnels alone. -/
inductive Deployed (tunnels : Part σ Ownership.Tunnels) : Engine σ μ → Prop
  | start (setting : Setting σ) (movement : Option μ) {world : σ}
      (bare : tunnels.get world = .empty) : Deployed tunnels (start setting movement world)
  | onSetup {e : Engine σ μ} (h : Deployed tunnels e) {hook : ConnectionStore → σ → σ}
      (apart : ∀ st w, tunnels.get (hook st w) = tunnels.get w) : Deployed tunnels (e.onSetup hook)
  | moving {e : Engine σ μ} (h : Deployed tunnels e) (movement : μ) :
      Deployed tunnels { e with movement := some movement }
  | perform {e : Engine σ μ} (h : Deployed tunnels e) (op : Operation) :
      Deployed tunnels (e.perform op)
  | reset {e : Engine σ μ} (h : Deployed tunnels e) : Deployed tunnels e.reset

namespace Deployed

theorem reachable (h : e.Deployed tunnels) : e.Reachable := by
  induction h with
  | start setting movement => exact .start setting movement _
  | onSetup _ _ ih => exact ih.onSetup _
  | moving _ movement ih => exact ih.moving movement
  | perform _ _ ih => exact ih.perform trivial
  | reset _ ih => exact ih.reset

theorem run (h : e.Deployed tunnels) (ops : List Operation) : (e.run ops).Deployed tunnels := by
  induction ops generalizing e with
  | nil => exact h
  | cons op rest ih => exact ih (h.perform op)

theorem hooks (h : e.Deployed tunnels) :
    ∀ hook ∈ e.hooks, ∀ st w, tunnels.get (hook st w) = tunnels.get w := by
  induction h with
  | start => exact fun _ hmem => by cases hmem
  | @onSetup e _ new apart ih =>
    intro hook hmem
    rcases List.mem_append.mp hmem with hmem | hmem
    · exact ih hook hmem
    · rw [List.mem_singleton.mp hmem]
      exact apart
  | moving _ _ ih => exact ih
  | perform _ op ih => exact fun hook hmem => ih hook (perform_hooks _ op hook hmem)
  | reset _ ih => exact ih

/-- Whatever an engine has been through, its links between servers have their tunnels. -/
theorem bridged (h : e.Deployed tunnels) (hs : e.setting.Owned o tunnels) :
    Bridged o e.store (tunnels.get e.world) := by
  induction h with
  | @start setting movement world bare =>
    refine ⟨fun pair i c hc => (by cases hc), fun pair hpair => ?_⟩
    have hempty : (tunnels.get world).contains pair = true := hpair
    rw [bare] at hempty
    cases hempty
  | onSetup _ _ ih => exact ih hs
  | moving _ _ ih => exact ih hs
  | perform h op ih =>
    rw [perform_setting] at hs
    exact perform_bridged hs h.reachable.keyed h.reachable.numbered h.hooks (ih hs) op
  | reset _ ih =>
    -- the tunnels outlive the links
    exact ⟨fun pair i c hc => (by cases hc), (ih hs).owned⟩

end Deployed

end Engine

/-- In a step, a link that runs between servers is mentioned after its tunnel was there, and a pair
without its tunnel keeps its links, is not mentioned and is reported.  With owners that are settled
once and for all every link between servers that follows distances has its tunnel, and a tunnel joins
nodes with known owners. -/
theorem tunnel_before_link [Movement μ] {e : Engine σ μ} (he : e.Reachable) :
    (∀ op, op ≠ .connectManagement → ∀ q,
      let told := ofPair q (e.chronicle [op])
      (∀ m ∈ told, ∀ site c, m.link? = some (site, c) → ∃ first rest, told = first :: rest ∧
        site.route.isRemote = e.setting.policy.isRemote first.world q.low q.high ∧
        (site.route.isRemote = true → first.deed = .ensured q (.ok ()))) ∧
      ∀ m ∈ told, ∀ fault, m.deed = .ensured q (.error fault) → told = [m] ∧
        (∀ i, (e.perform op).store.find? q i = e.store.find? q i) ∧
        ∃ report d, e.reportOf? op = some report ∧ ⟨q, d, .tunnel fault⟩ ∈ report.failures) ∧
      ∀ (o : Ownership) (tunnels : Part σ Ownership.Tunnels), e.setting.Owned o tunnels →
        e.Deployed tunnels →
        (∀ pair i c, e.store.find? pair i = some c → c.kind = .user ∨ c.kind = .central →
          o.isRemote pair.low pair.high = true → (tunnels.get e.world).contains pair = true) ∧
        ∀ pair, (tunnels.get e.world).contains pair = true →
          (o.owner? pair.low).isSome = true ∧ (o.owner? pair.high).isSome = true := by
  refine ⟨?_, ?_⟩
  · intro op hop q told
    obtain ⟨hpassage, hfailed⟩ := Engine.perform_crossing q he.numbered he.keyed hop
    refine ⟨fun m hm site c hlink => hpassage.link hm hlink, fun m hm fault hdeed => ?_⟩
    exact ⟨hpassage.failed hm hdeed, hfailed m hm fault hdeed⟩
  · intro o tunnels hs hdeployed
    have hbridged := hdeployed.bridged hs
    refine ⟨fun pair i c hc hkind hremote => ?_, hbridged.owned⟩
    have hfollows : c.kind ≠ .management := by
      rcases hkind with hkind | hkind
      all_goals
        rw [hkind]
        exact ConnectionKind.noConfusion
    have hpair := (he.numbered.keys_eq hc).1
    have htunnel := hbridged.links pair i c hc hfollows
    rw [hpair] at htunnel
    exact htunnel hremote

/-- The pair whose tunnel could not be had, if there is one, and why. -/
def Deed.fault? : Deed → Option (NodePair × TunnelError)
  | .ensured pair (.error fault) => some (pair, fault)
  | _ => none

theorem Deed.eq_of_fault? {deed : Deed} {q : NodePair} {fault : TunnelError}
    (h : deed.fault? = some (q, fault)) : deed = .ensured q (.error fault) := by
  rcases deed with x | ⟨pair, fault' | _⟩
  · cases h
  · obtain ⟨rfl, rfl⟩ := Prod.mk.inj (Option.some.inj h)
    rfl
  · cases h

/-- A third node, which no server owns. -/
def unownedEngine : Engine Ownership.Tunnels Stationary :=
  twoServerEngine.perform (.addNode ⟨⟨3⟩, .emulation, [⟨.mesh, 0⟩]⟩)

theorem unownedEngine_deployed : unownedEngine.Deployed .whole :=
  (Engine.Deployed.start twoServerEngine.setting none rfl).run
    [.addNode ⟨⟨1⟩, .emulation, [⟨.mesh, 0⟩]⟩, .addNode ⟨⟨2⟩, .emulation, [⟨.mesh, 0⟩]⟩,
      .addNode ⟨⟨3⟩, .emulation, [⟨.mesh, 0⟩]⟩]

/-- The three nodes are near: two of them are linked through a tunnel, and the third one gets none. -/
theorem unowned_node_unlinked :
    let linked := ofPair ⟨⟨1⟩, ⟨2⟩⟩ (unownedEngine.chronicle [.apply together])
    let failed := ofPair ⟨⟨1⟩, ⟨3⟩⟩ (unownedEngine.chronicle [.apply together])
    (∃ m ∈ linked, ∃ site c, m.link? = some (site, c) ∧ site.route.isRemote = true ∧
        ∃ first rest, linked = first :: rest ∧ first.deed = .ensured ⟨⟨1⟩, ⟨2⟩⟩ (.ok ())) ∧
      (∃ m ∈ failed, m.deed = .ensured ⟨⟨1⟩, ⟨3⟩⟩ (.error (.unknownOwner ⟨3⟩)) ∧ failed = [m] ∧
        ∃ report d, unownedEngine.reportOf? (.apply together) = some report ∧
          ⟨⟨⟨1⟩, ⟨3⟩⟩, d, .tunnel (.unknownOwner ⟨3⟩)⟩ ∈ report.failures) ∧
      (Part.whole.get (unownedEngine.perform (.apply together)).world).contains ⟨⟨1⟩, ⟨2⟩⟩ = true := by
  intro linked failed
  obtain ⟨hsteps, -⟩ := tunnel_before_link unownedEngine_deployed.reachable
  have hlinked : linked.any (fun m => m.link?.map (·.1.route.isRemote) = some true) = true := by
    decide +kernel
  have hfailed : failed.any (fun m => m.deed.fault? = some (⟨⟨1⟩, ⟨3⟩⟩, .unknownOwner ⟨3⟩)) = true := by
    decide +kernel
  have hfound : ((unownedEngine.perform (.apply together)).store.find? ⟨⟨1⟩, ⟨2⟩⟩
    ⟨⟨.mesh, 0⟩, ⟨.mesh, 0⟩⟩).map (·.kind) = some .user := by decide +kernel
  refine ⟨?_, ?_, ?_⟩
  · obtain ⟨m, hm, hroute⟩ := List.any_eq_true.mp hlinked
    obtain ⟨⟨site, c⟩, hlink, hremote⟩ := Option.map_eq_some_iff.mp (of_decide_eq_true hroute)
    obtain ⟨first, rest, htold, -, hfirst⟩ :=
      (hsteps (.apply together) nofun ⟨⟨1⟩, ⟨2⟩⟩).1 m hm site c hlink
    exact ⟨m, hm, site, c, hlink, hremote, first, rest, htold, hfirst hremote⟩
  · obtain ⟨m, hm, hdeed⟩ := List.any_eq_true.mp hfailed
    have heq := Deed.eq_of_fault? (of_decide_eq_true hdeed)
    obtain ⟨hall, -, hreport⟩ := (hsteps (.apply together) nofun ⟨⟨1⟩, ⟨3⟩⟩).2 m hm _ heq
    exact ⟨m, hm, heq, hall, hreport⟩
  · obtain ⟨c, hc, hkind⟩ := Option.map_eq_some_iff.mp hfound
    have hdeployed := unownedEngine_deployed.perform (.apply together)
    exact ((tunnel_before_link hdeployed.reachable).2 twoServers .whole twoServerEngine_owned
      hdeployed).1 _ _ c hc (Or.inl hkind) (by decide +kernel)

end ProximityNet
