import ProximityNet.Proofs.AlwaysOn
import ProximityNet.Proofs.Visits

/-!
# In which order a backend is told of a step

A step that has anything to look at is announced, then has one block of exchanges for each changed
pair in the order of the pairs, and is finished.  A block is the dialogue of a visit; there is none
with the management node, with a node that is not known, or behind a tunnel that fails.

* `Connection.Expected`, `Engine.ReachableBy.ready` — links are of a kind that visits expect;
* `reconcileNodes_dialogue` — a visit is a dialogue, unless its tunnel fails;
* `Setting.Block`, `visited_block` — what is told of one pair;
* `reconcileAll_blocks` — one block for each pair, in their order;
* `Block.renewed`, `Engine.history_renews` — no link that is up is passed over;
* `step_told_in_order` — the whole step;
* `step_passes_over` — a step that mentions neither a link that is up nor one that could be.
-/

namespace ProximityNet

variable {σ μ : Type}

/-! ### Links of the expected kind -/

/-- Two known nodes have a link of this kind: none of them is the management node, and a visit to them
expects it. -/
structure Visit.Expects (v : Visit) (nodes : SortedMap NodeId Node) (kind : ConnectionKind) : Prop
    extends v.Joins nodes where
  plainX : v.x.isManagement = false
  plainY : v.y.isManagement = false
  same : kind = v.kind

/-- A link to the management node, or a link between known nodes of the kind that a visit to them
expects. -/
def Connection.Expected (nodes : SortedMap NodeId Node) (c : Connection) : Prop :=
  c.kind = .management ∨ ∃ v : Visit, v.pair = c.pair ∧ v.Expects nodes c.kind

section Expected

variable {nodes nodes' : SortedMap NodeId Node} {c c' : Connection} {s : Setting σ}

theorem Connection.Continues.expected (h : c.Continues c') (hc : c.Expected nodes) :
    c'.Expected nodes := by
  rw [Connection.Expected, h.pair, h.kind]
  exact hc

theorem Connection.Expected.grow (h : c.Expected nodes) (hg : Grows nodes nodes') :
    c.Expected nodes' := by
  rcases h with hmanaged | ⟨v, hpair, hv⟩
  · exact Or.inl hmanaged
  · exact Or.inr ⟨v, hpair, ⟨hg _ _ hv.x, hg _ _ hv.y⟩, hv.plainX, hv.plainY, hv.same⟩

/-- What is filed for a task that is due is as expected. -/
theorem Setting.Files.expected {t : Task} {st st' : ConnectionStore} (h : s.Files t st st')
    (hs : st.Numbered) (due : ∀ v, t = .follow v → v.Expects nodes v.kind)
    (hst : st.All (Connection.Expected nodes)) : st'.All (Connection.Expected nodes) := by
  refine h.all hs (fun l switch hl => ?_) (fun _ _ hcc' hc => hcc'.expected hc) hst
  cases t with
  | follow v =>
    cases hl
    exact Or.inr ⟨v, rfl, due v rfl⟩
  | manage v =>
    cases hl
    exact Or.inl rfl

end Expected

namespace Engine

variable {e : Engine σ μ} [Movement μ]

theorem ReachableBy.expected {allowed : Engine σ μ → Operation → Prop} (h : e.ReachableBy allowed) :
    e.store.All (Connection.Expected e.nodes) := by
  refine h.invariant (I := fun e => e.store.All (Connection.Expected e.nodes)) ?_ ?_ ?_ ?_
  · intro _ _ _ pair i c hc
    cases hc
  · intro e e' hsame hall
    rw [hsame.store, hsame.nodes]
    exact hall
  · intro e op e' hreach _ hperforms hall
    cases hperforms with
    | idle same =>
      rw [same.store, same.nodes]
      exact hall
    | added new => exact fun pair i c hc => (hall pair i c hc).grow (Grows.insert new)
    | linked hstore =>
      refine (hstore.keeps hreach.numbered (fun t p p' ht hs hmove hp => ?_) hall).2
      refine hmove.files.expected hs (fun v hv => ?_) hp
      subst hv
      exact ht.elim
    | stepped _ hstepped =>
      rw [hstepped.nodes]
      refine (hstepped.store.keeps hreach.numbered (fun t p p' ht hs hmove hp => ?_) hall).2
      refine hmove.files.expected hs (fun v hv => ?_) hp
      subst hv
      exact ⟨⟨ht.x, ht.y⟩, ht.plainX, ht.plainY, rfl⟩
  · intro e _ pair i c hc
    cases hc

/-- A visit meets links of its own kind, and links to the management node. -/
theorem ReachableBy.ready {allowed : Engine σ μ → Operation → Prop} (h : e.ReachableBy allowed)
    {v : Visit} (hv : v.Joins e.nodes) : v.Ready e.store where
  numbered := h.numbered
  kind pair i c hc hpair := by
    rcases h.expected pair i c hc with hmanaged | ⟨v', hpair', hv'⟩
    · exact Or.inr hmanaged
    · obtain ⟨hx, hy⟩ := hv.eq hv'.toJoins (hpair'.trans hpair)
      exact Or.inl (hv'.same.trans (Visit.kind_congr hx hy))

/-- Only links to the management node have the management node at an end. -/
theorem ReachableBy.plain_ends {allowed : Engine σ μ → Operation → Prop} (h : e.ReachableBy allowed)
    {pair : NodePair} {i : InterfacePair} {c : Connection} (hc : e.store.find? pair i = some c)
    (hkind : c.kind ≠ .management) :
    ∃ x y, e.nodes.get? pair.low = some x ∧ e.nodes.get? pair.high = some y ∧
      x.isManagement = false ∧ y.isManagement = false := by
  obtain ⟨hpair, _⟩ := h.numbered.keys_eq hc
  obtain ⟨v, hv, hexpects⟩ := (h.expected pair i c hc).resolve_left hkind
  rw [hpair] at hv
  subst hv
  exact ⟨v.x, v.y, hexpects.x, hexpects.y, hexpects.plainX, hexpects.plainY⟩

end Engine

/-! ### What is told of one pair -/

namespace Setting

/-- What a step tells of a pair, `st` being the links before the step.  It is nothing where a node is
not known or a tunnel fails, and where a node is the management node.  A visit that is not made because
of a failure, or that a failed call ends, is reported. -/
inductive Block (s : Setting σ) (nodes : SortedMap NodeId Node) (step : Nat) (st : ConnectionStore)
    (failures : List PairFailure) (pair : NodePair) (distance : Distance) :
    List Exchange → Prop
  | unknown {id : NodeId} (side : id = pair.low ∨ id = pair.high) (h : nodes.get? id = none)
      (reported : ⟨pair, distance, .unknownNode id⟩ ∈ failures) :
      Block s nodes step st failures pair distance []
  | managed {x y : Node} (hx : nodes.get? pair.low = some x) (hy : nodes.get? pair.high = some y)
      (h : x.isManagement = true ∨ y.isManagement = true) :
      Block s nodes step st failures pair distance []
  | stranded {fault : TunnelError} (reported : ⟨pair, distance, .tunnel fault⟩ ∈ failures) :
      Block s nodes step st failures pair distance []
  | visited {v : Visit} (joins : v.Joins nodes) (plainX : v.x.isManagement = false)
      (plainY : v.y.isManagement = false) (hpair : v.pair = pair) (hdistance : v.distance = distance)
      (hstep : v.step = step) {l : List Exchange} {b : Bool}
      (dialogue : s.Dialogue v (st.find? v.pair) l b)
      (reported : b = true → ∃ cause, ⟨pair, distance, cause⟩ ∈ failures) :
      Block s nodes step st failures pair distance l

variable {s : Setting σ} {nodes : SortedMap NodeId Node} {step : Nat} {st : ConnectionStore}
  {failures failures' : List PairFailure} {pair : NodePair} {distance : Distance}
  {l : List Exchange} {p : Progress (σ × List Exchange)}

theorem Block.mono (h : s.Block nodes step st failures pair distance l)
    (hsub : ∀ f ∈ failures, f ∈ failures') : s.Block nodes step st failures' pair distance l := by
  cases h with
  | unknown side h reported => exact .unknown side h (hsub _ reported)
  | managed hx hy h => exact .managed hx hy h
  | stranded reported => exact .stranded (hsub _ reported)
  | visited joins plainX plainY hpair hdistance hstep dialogue reported =>
    exact .visited joins plainX plainY hpair hdistance hstep dialogue fun hb =>
      (reported hb).imp fun _ => hsub _

/-- Only the links of the pair matter. -/
theorem Block.of_find? {st' : ConnectionStore} (h : s.Block nodes step st failures pair distance l)
    (same : ∀ i, st'.find? pair i = st.find? pair i) :
    s.Block nodes step st' failures pair distance l := by
  cases h with
  | unknown side h reported => exact .unknown side h reported
  | managed hx hy h => exact .managed hx hy h
  | stranded reported => exact .stranded reported
  | visited joins plainX plainY hpair hdistance hstep dialogue reported =>
    subst hpair
    rw [← funext same] at dialogue
    exact .visited joins plainX plainY rfl hdistance hstep dialogue reported

theorem Block.step_eq (h : s.Block nodes step st failures pair distance l) :
    ∀ x ∈ l, x.step = step := by
  cases h with
  | unknown | managed | stranded => exact fun _ hx => by cases hx
  | visited joins plainX plainY hpair hdistance hstep dialogue reported =>
    rw [← hstep]
    exact dialogue.step

/-- A failed call is the last of its block. -/
theorem Block.last (h : s.Block nodes step st failures pair distance l)
    {before after : List Exchange} {x : Exchange} (hl : l = before ++ x :: after)
    (hx : x.failed = true) : after = [] := by
  cases h with
  | unknown | managed | stranded => cases before <;> cases hl
  | visited joins plainX plainY hpair hdistance hstep dialogue reported =>
    exact dialogue.stops.last hl hx

/-- Links are brought up or taken down in a block, never both. -/
theorem Block.lowers_or_raises (h : s.Block nodes step st failures pair distance l) :
    (∀ x ∈ l, x.raises = false) ∨ ∀ x ∈ l, x.lowers = false := by
  cases h with
  | unknown | managed | stranded => exact Or.inl fun _ hx => by cases hx
  | visited joins plainX plainY hpair hdistance hstep dialogue reported =>
    exact dialogue.lowers_or_raises

/-- A link that is up before the step is shaped or taken down in the block of its pair, unless it is
one to the management node or the pair is reported. -/
theorem Block.renewed {x y : Node} {i : InterfacePair} {c : Connection}
    (h : s.Block nodes step st failures pair distance l) (hc : st.find? pair i = some c)
    (hup : c.connected = true) (hkind : c.kind ≠ .management) (hx : nodes.get? pair.low = some x)
    (hy : nodes.get? pair.high = some y) (plainX : x.isManagement = false)
    (plainY : y.isManagement = false) :
    (∃ f ∈ failures, f.pair = pair) ∨ ∃ l', c.Renewed l' ∧ l' <:+: l := by
  cases h with
  | unknown _ _ reported | stranded reported => exact Or.inl ⟨_, reported, rfl⟩
  | managed hx' hy' managed =>
    rw [← Option.some.inj (hx.symm.trans hx'), ← Option.some.inj (hy.symm.trans hy'), plainX,
      plainY] at managed
    simp at managed
  | @visited v _ _ _ hpair _ _ _ b dialogue reported =>
    subst hpair
    cases b with
    | true =>
      obtain ⟨cause, hmem⟩ := reported rfl
      exact Or.inl ⟨_, hmem, rfl⟩
    | false => exact Or.inr (dialogue.renewed hc hup hkind)

/-- What is told on a visit is a dialogue, unless its tunnel fails. -/
theorem reconcileNodes_dialogue {x y : Node} (hplain : (x.isManagement || y.isManagement) = false)
    (h : Visit.Ready ⟨x, y, pair, distance, false, step⟩ p.store)
    {r : Except ReconcileError Unit × Progress (σ × List Exchange)}
    (hr : s.recorded.reconcileNodes step pair distance x y p = r) :
    (∃ fault, r.1 = .error (.tunnel fault) ∧ r.2.world.2 = p.world.2) ∨
      ∃ isRemote,
        Speaks (s.Dialogue ⟨x, y, pair, distance, isRemote, step⟩ (p.store.find? pair)) p r := by
  subst hr
  rw [reconcileNodes, hplain, if_neg Bool.false_ne_true]
  dsimp only
  rw [Work.bind_connections]
  split
  · obtain ⟨hstore, hworld, hfault⟩ := ensureTunnel_recorded (s := s) (p := p) x.id y.id pair
    rcases hr : s.recorded.ensureTunnel x.id y.id pair p with ⟨cause | isRemote, q⟩
    · rw [hr] at hworld hfault
      obtain ⟨fault, rfl⟩ := hfault cause rfl
      rw [Work.bind_of_error hr]
      exact Or.inl ⟨fault, rfl, hworld⟩
    · rw [hr] at hstore hworld
      dsimp only at hstore hworld
      rw [Work.bind_of_ok hr, ← hstore]
      have hready : Visit.Ready ⟨x, y, pair, distance, isRemote, step⟩ q.store := by
        rw [hstore]
        exact ⟨h.numbered, h.kind⟩
      obtain ⟨l, hl, hdialogue⟩ := renewLinks_dialogue (s := s) hready
      refine Or.inr ⟨isRemote, l, ?_, hdialogue⟩
      rw [← hworld]
      exact hl
  · -- out of range, and there is no link that could be up
    rename_i hidle
    rw [Bool.or_eq_true, not_or] at hidle
    have hempty : Links.Lists (p.store.find? pair) true [] := by
      refine ⟨List.nodup_nil, fun i => iff_of_false List.not_mem_nil ?_⟩
      rintro ⟨c, hc, _⟩
      exact hidle.2 (h.numbered.containsPair_iff.mpr ⟨i, c, hc⟩)
    have hfar : (s.decide (Visit.kind ⟨x, y, pair, distance, false, step⟩) distance).connected =
        false := Bool.eq_false_iff.mpr hidle.1
    exact Or.inr ⟨false, [], (List.append_nil _).symm, .far hfar hempty .done⟩

/-- The links of a pair are of a kind that a visit to it expects. -/
def ReadyAt (nodes : SortedMap NodeId Node) (pair : NodePair) (st : ConnectionStore) : Prop :=
  ∀ v : Visit, v.pair = pair → v.Joins nodes → v.Ready st

theorem ReadyAt.of_find? {st' : ConnectionStore} (h : ReadyAt nodes pair st)
    (hs' : st'.Numbered) (same : ∀ i, st'.find? pair i = st.find? pair i) :
    ReadyAt nodes pair st' := by
  rintro v rfl hv
  refine ⟨hs', fun q i c hc hpair => ?_⟩
  have hq := (hs'.keys_eq hc).1.symm.trans hpair
  subst hq
  rw [same] at hc
  exact (h v rfl hv).kind _ _ _ hc hpair

theorem visited_block (hp : ReadyAt nodes pair p.store) :
    ∃ l, (s.recorded.visited nodes step pair distance p).world.2 = p.world.2 ++ l ∧
      s.Block nodes step p.store (s.recorded.visited nodes step pair distance p).report.failures pair
        distance l := by
  -- a failure is reported, whatever it is
  have reported : ∀ cause p', s.recorded.reconcile nodes step pair distance p = (.error cause, p') →
      ⟨pair, distance, cause⟩ ∈
        (s.recorded.visited nodes step pair distance p).report.failures := by
    intro cause p' hr
    rw [visited_of_error hr]
    exact List.mem_append_right _ (List.mem_singleton_self _)
  rw [(visited_reconciles pair distance).2]
  cases hx : nodes.get? pair.low with
  | none =>
    have hr : s.recorded.reconcile nodes step pair distance p = (.error (.unknownNode pair.low), p) := by
      rw [reconcile, hx]
      rfl
    rw [hr]
    exact ⟨[], (List.append_nil _).symm, .unknown (Or.inl rfl) hx (reported _ _ hr)⟩
  | some x =>
    cases hy : nodes.get? pair.high with
    | none =>
      have hr : s.recorded.reconcile nodes step pair distance p =
          (.error (.unknownNode pair.high), p) := by
        rw [reconcile, hx, hy]
        rfl
      rw [hr]
      exact ⟨[], (List.append_nil _).symm, .unknown (Or.inr rfl) hy (reported _ _ hr)⟩
    | some y =>
      obtain ⟨r, hr⟩ : ∃ r, s.recorded.reconcileNodes step pair distance x y p = r := ⟨_, rfl⟩
      have hreconcile : s.recorded.reconcile nodes step pair distance p = r := by
        rw [reconcile, hx, hy]
        exact hr
      cases hplain : x.isManagement || y.isManagement with
      | true =>
        have hidle : s.recorded.reconcileNodes step pair distance x y p = (.ok (), p) := by
          rw [reconcileNodes, if_pos hplain]
          rfl
        rw [hreconcile, ← hr, hidle]
        exact ⟨[], (List.append_nil _).symm, .managed hx hy (Bool.or_eq_true_iff.mp hplain)⟩
      | false =>
        obtain ⟨hplainx, hplainy⟩ := Bool.or_eq_false_iff.mp hplain
        have hready : Visit.Ready ⟨x, y, pair, distance, false, step⟩ p.store :=
          hp _ rfl ⟨hx, hy⟩
        rw [hreconcile]
        rcases reconcileNodes_dialogue hplain hready hr with
          ⟨fault, herror, hworld⟩ | ⟨isRemote, l, hl, hdialogue⟩
        · refine ⟨[], by rw [hworld, List.append_nil], .stranded (reported (.tunnel fault) r.2 ?_)⟩
          exact hreconcile.trans (Prod.ext herror rfl)
        · refine ⟨l, hl, .visited (v := ⟨x, y, pair, distance, isRemote, step⟩) ⟨hx, hy⟩ hplainx
            hplainy rfl rfl rfl hdialogue fun hfailed => ?_⟩
          obtain ⟨cause | u, q⟩ := r
          · exact ⟨cause, reported cause q hreconcile⟩
          · cases hfailed

/-! ### One block for each pair -/

/-- The links before the step are those that a visit to a pair meets, since the visits before it were
paid to other pairs. -/
theorem reconcileAll_blocks {es : List (NodePair × Distance)} (hes : (es.map Prod.fst).Nodup)
    (hready : ∀ pair, ReadyAt nodes pair st) (hs : p.store.Numbered)
    (same : ∀ e ∈ es, ∀ i, p.store.find? e.1 i = st.find? e.1 i) :
    ∃ blocks, (s.recorded.reconcileAll nodes step es p).world.2 = p.world.2 ++ blocks.flatten ∧
      List.Forall₂ (fun e block => s.Block nodes step st
        (s.recorded.reconcileAll nodes step es p).report.failures e.1 e.2 block) es blocks := by
  induction es generalizing p with
  | nil => exact ⟨[], (List.append_nil _).symm, .nil⟩
  | cons e rest ih =>
    obtain ⟨pair, distance⟩ := e
    obtain ⟨hpair, hrest⟩ := List.nodup_cons.mp hes
    have hsame := same (pair, distance) List.mem_cons_self
    obtain ⟨l, hl, hblock⟩ :
        ∃ l, (s.recorded.visited nodes step pair distance p).world.2 = p.world.2 ++ l ∧ _ :=
      visited_block ((hready pair).of_find? hs hsame)
    have hconfined : Confined pair p (s.recorded.reconcile nodes step pair distance p).2 :=
      reconcile_confined hs
    obtain ⟨q, hq⟩ : ∃ q, s.recorded.visited nodes step pair distance p = q := ⟨_, rfl⟩
    have hstore : (s.recorded.visited nodes step pair distance p).store =
        (s.recorded.reconcile nodes step pair distance p).2.store :=
      (visited_reconciles pair distance).1
    rw [hq] at hstore hl hblock
    have hqs : q.store.Numbered := by
      rw [hstore]
      exact hconfined.numbered
    have hothers : ∀ e ∈ rest, ∀ i, q.store.find? e.1 i = st.find? e.1 i := by
      intro e he i
      have hne : e.1 ≠ pair := fun heq => hpair (List.mem_map.mpr ⟨e, he, heq⟩)
      rw [hstore, hconfined.others _ hne, same e (List.mem_cons_of_mem _ he)]
    have hpasses : Passes pair q (s.recorded.reconcileAll nodes step rest q) :=
      reconcileAll_passes hqs hpair
    obtain ⟨blocks, hblocks, hall⟩ := ih hrest hqs hothers
    rw [reconcileAll_cons, hq]
    refine ⟨l :: blocks, ?_, .cons ?_ hall⟩
    · rw [hblocks, hl, List.flatten_cons, List.append_assoc]
    · exact (hblock.mono hpasses.failures).of_find? fun i => (hsame i).symm

end Setting

/-! ### A step -/

/-- Where two lists are related item by item, what is in one is related to something in the other. -/
theorem exists_rel_of_mem {α β : Type} {R : α → β → Prop} {as : List α} {bs : List β}
    (h : List.Forall₂ R as bs) {a : α} (ha : a ∈ as) : ∃ b ∈ bs, R a b := by
  induction h with
  | nil => cases ha
  | @cons first b as bs hfirst _ ih =>
    rcases List.mem_cons.mp ha with rfl | ha
    · exact ⟨b, List.mem_cons_self, hfirst⟩
    · obtain ⟨b', hb', hR⟩ := ih ha
      exact ⟨b', List.mem_cons_of_mem _ hb', hR⟩

/-- What is told of a step that is not silent. -/
theorem Engine.history_blocks [Movement μ] {e : Engine σ μ} (he : e.Reachable)
    {distances : DistanceMatrix} (h : ¬ ((e.changed distances).isEmpty && e.step != 0) = true) :
    ∃ all result blocks,
      e.history [.apply distances] = .announced (.stepStarting e.step all) ::
        .announced (.changesPending e.step (e.changed distances) all) :: (blocks.flatten ++
          [.announced (.changesApplied e.step (e.changed distances) all),
            .performed (.finishStep e.step all) result]) ∧
      List.Forall₂ (fun entry block => e.setting.Block e.nodes e.step e.store
        (e.applyDistances distances).1.failures entry.1 entry.2 block)
        (e.changed distances).entries blocks := by
  obtain ⟨p, all, result, _, hstore, _, hbefore, hhistory, hreport⟩ := history_apply h
  have hready : ∀ pair, Setting.ReadyAt e.nodes pair e.store :=
    fun _ v _ hv => he.ready hv
  have hs : p.store.Numbered := by
    rw [hstore]
    exact he.numbered
  obtain ⟨blocks, hblocks, hall⟩ : ∃ blocks : List (List Exchange),
      (e.setting.recorded.reconcileAll e.nodes e.step (e.changed distances).entries p).world.2 =
        p.world.2 ++ blocks.flatten ∧ _ :=
    Setting.reconcileAll_blocks (e.changed distances).keys_nodup hready hs
      fun _ _ _ => by rw [hstore]
  refine ⟨all, result, blocks, ?_, ?_⟩
  · rw [hhistory, hblocks, hbefore, List.append_assoc]
    rfl
  · rw [hreport]
    exact hall

/-- A step shapes each link that is up and whose pair has a changed distance, or takes it down, unless
it is one to the management node or the pair is reported. -/
theorem Engine.history_renews [Movement μ] {e : Engine σ μ} (he : e.Reachable)
    {distances : DistanceMatrix} {pair : NodePair} (hpair : pair ∈ (e.changed distances).keys)
    {i : InterfacePair} {c : Connection} (hc : e.store.find? pair i = some c)
    (hup : c.connected = true) (hkind : c.kind ≠ .management) :
    (∃ f ∈ (e.applyDistances distances).1.failures, f.pair = pair) ∨
      ∃ l, c.Renewed l ∧ l <:+: e.history [.apply distances] := by
  obtain ⟨entry, hentry, rfl⟩ := List.mem_map.mp hpair
  have hskip : ¬ ((e.changed distances).isEmpty && e.step != 0) = true := by
    rw [SortedMap.isEmpty_eq_false_iff.mpr
      ⟨entry.1, entry.2, SortedMap.get?_eq_some_iff.mpr hentry⟩, Bool.false_and]
    exact nofun
  obtain ⟨all, result, blocks, hhistory, hblocks⟩ := Engine.history_blocks he hskip
  obtain ⟨block, hmem, hblock⟩ := exists_rel_of_mem hblocks hentry
  obtain ⟨x, y, hx, hy, plainX, plainY⟩ := he.plain_ends hc hkind
  rcases hblock.renewed hc hup hkind hx hy plainX plainY with hreported | ⟨l, hl, hsub⟩
  · exact Or.inl hreported
  · refine Or.inr ⟨l, hl, (hsub.trans (List.infix_of_mem_flatten hmem)).trans ?_⟩
    rw [hhistory]
    exact ⟨[_, _], _, rfl⟩

/-- A step is silent if nothing has changed and it is not the first one.  Otherwise it is announced,
then the changed pairs have one block each in their order, and then it is finished.  A failed call is
the last of its block, links are brought up or taken down in a block but never both, and everything is
of the same step.  No link that is up is passed over: it is shaped or taken down, unless it is one to
the management node or its pair is reported. -/
theorem step_told_in_order [Movement μ] {e : Engine σ μ} (he : e.Reachable)
    (distances : DistanceMatrix) :
    (e.history [.apply distances] = [] ↔ (e.changed distances).isEmpty = true ∧ e.step ≠ 0) ∧
      (e.changed distances).keys.Pairwise (fun pair pair' => rank pair < rank pair') ∧
      (∀ x ∈ e.history [.apply distances], x.step = e.step) ∧
      (e.history [.apply distances] ≠ [] → ∃ all result blocks,
        e.history [.apply distances] = .announced (.stepStarting e.step all) ::
          .announced (.changesPending e.step (e.changed distances) all) :: (blocks.flatten ++
            [.announced (.changesApplied e.step (e.changed distances) all),
              .performed (.finishStep e.step all) result]) ∧
        List.Forall₂ (fun entry block => e.setting.Block e.nodes e.step e.store
          (e.applyDistances distances).1.failures entry.1 entry.2 block)
          (e.changed distances).entries blocks ∧
        ∀ block ∈ blocks,
          (∀ before x after, block = before ++ x :: after → x.failed = true → after = []) ∧
          ((∀ x ∈ block, x.raises = false) ∨ ∀ x ∈ block, x.lowers = false)) ∧
      ∀ pair ∈ (e.changed distances).keys, ∀ i c, e.store.find? pair i = some c →
        c.connected = true → c.kind ≠ .management →
        (∃ f ∈ (e.applyDistances distances).1.failures, f.pair = pair) ∨
          ∃ l, c.Renewed l ∧ l <:+: e.history [.apply distances] := by
  have ascending : (e.changed distances).keys.Pairwise fun pair pair' => rank pair < rank pair' :=
    List.pairwise_map.mpr (e.changed distances).ascending
  have renews : ∀ pair ∈ (e.changed distances).keys, ∀ i c, e.store.find? pair i = some c →
      c.connected = true → c.kind ≠ .management → _ :=
    fun pair hpair i c => Engine.history_renews he hpair
  by_cases hskip : ((e.changed distances).isEmpty && e.step != 0) = true
  · have hsilent := Engine.history_skipped hskip
    obtain ⟨hempty, hstep⟩ := Bool.and_eq_true_iff.mp hskip
    refine ⟨iff_of_true hsilent ⟨hempty, bne_iff_ne.mp hstep⟩, ascending, ?_, absurd hsilent,
      renews⟩
    rw [hsilent]
    intro x hx
    cases hx
  · obtain ⟨all, result, blocks, hhistory, hblocks⟩ := Engine.history_blocks he hskip
    refine ⟨?_, ascending, ?_, fun _ => ⟨all, result, blocks, hhistory, hblocks, ?_⟩, renews⟩
    · refine iff_of_false ?_ fun ⟨hempty, hstep⟩ => hskip ?_
      · rw [hhistory]
        exact List.cons_ne_nil _ _
      · exact Bool.and_eq_true_iff.mpr ⟨hempty, bne_iff_ne.mpr hstep⟩
    · rw [hhistory]
      intro x hx
      simp only [List.mem_cons, List.mem_append, List.mem_flatten, List.not_mem_nil, or_false] at hx
      rcases hx with rfl | rfl | ⟨block, hmem, hx⟩ | rfl | rfl
      · rfl
      · rfl
      · obtain ⟨entry, _, hblock⟩ := exists_rel_of_mem hblocks.flip hmem
        exact hblock.step_eq x hx
      · rfl
      · rfl
    · intro block hmem
      obtain ⟨entry, _, hblock⟩ := exists_rel_of_mem hblocks.flip hmem
      exact ⟨fun _ _ _ hl hx => hblock.last hl hx, hblock.lowers_or_raises⟩

/-- Where a hub, the management node and a node out of range have changed distances, there is one block
for each of the five pairs, and the link to the hub is shaped. -/
theorem assembly_told_in_order :
    let e := (Engine.start ⟨.unshaped .none, Pairing.equal, .silent, .local⟩
      (none : Option Stationary) ()).run assembly
    let hub : NodePair := ⟨⟨1⟩, .centralBase⟩
    let hubs : InterfacePair := ⟨⟨.hub, 0⟩, ⟨.hub, 0⟩⟩
    (∃ (all : DistanceMatrix) (result : Except BackendError Unit) (blocks : List (List Exchange)),
      e.history [.apply strewn] = .announced (.stepStarting 1 all) ::
        .announced (.changesPending 1 (e.changed strewn) all) :: (blocks.flatten ++
          [.announced (.changesApplied 1 (e.changed strewn) all),
            .performed (.finishStep 1 all) result]) ∧
      blocks.length = 5) ∧
    ∃ c l, e.store.find? hub hubs = some c ∧ c.Renewed l ∧
      l <:+: e.history [.apply strewn] := by
  intro e hub hubs
  obtain ⟨hsilent, _, _, htold, hrenews⟩ :=
    step_told_in_order (e := e) (assembly_admitted.mono fun _ _ _ => trivial) strewn
  have hchanged : (e.changed strewn).isEmpty = false := by decide +kernel
  have hspeaks : e.history [.apply strewn] ≠ [] := by
    intro hnone
    rw [(hsilent.mp hnone).1] at hchanged
    cases hchanged
  obtain ⟨all, result, blocks, hhistory, hblocks, _⟩ := htold hspeaks
  have hlink : (e.store.find? hub hubs).map (fun c => (c.kind, c.connected)) =
      some (.central, true) := by decide +kernel
  obtain ⟨c, hc, hsays⟩ := Option.map_eq_some_iff.mp hlink
  obtain ⟨hkind, hup⟩ := Prod.mk.inj hsays
  have hplain : c.kind ≠ .management := by
    rw [hkind]
    decide
  have hmem : hub ∈ (e.changed strewn).keys := by decide +kernel
  have hfine : (e.applyDistances strewn).1.failures = [] := by decide +kernel
  refine ⟨⟨all, result, blocks, hhistory, ?_⟩, ?_⟩
  · rw [← hblocks.length_eq]
    decide +kernel
  · rcases hrenews hub hmem hubs c hc hup hplain with ⟨f, hf, _⟩ | ⟨l, hl, hsub⟩
    · rw [hfine] at hf
      cases hf
    · exact ⟨c, l, hc, hl, hsub⟩

/-- Tunnels to all nodes, except between the first two. -/
def severedPolicy : TunnelPolicy Unit where
  isRemote _ _ _ := true
  ensure pair w := (if pair = ⟨⟨1⟩, ⟨2⟩⟩ then .error (.failed pair "down") else .ok (), w)
  isDistributed := false

/-- The first node is linked to the management node; it and the second one could be linked too, and
all distances are new. The step does not mention any link. -/
theorem step_passes_over :
    let e := (Engine.start ⟨.unshaped .none, Pairing.equal, .silent, severedPolicy⟩
      (none : Option Stationary) ()).run
        [.addNode ⟨⟨1⟩, .emulation, [⟨.mesh, 0⟩, ⟨.management, 0⟩]⟩,
          .addNode ⟨⟨2⟩, .emulation, [⟨.mesh, 0⟩]⟩, .addNode .management, .connectManagement]
    let near : DistanceMatrix :=
      SortedMap.ofList [(⟨⟨1⟩, ⟨2⟩⟩, .zero), (⟨⟨1⟩, .management⟩, .zero)]
    (∃ c, e.store.find? ⟨⟨1⟩, .management⟩ ⟨⟨.management, 0⟩, ⟨.management, 0⟩⟩ = some c ∧
        c.connected = true) ∧
      (e.changed near).get? ⟨⟨1⟩, .management⟩ = some .zero ∧
      (∃ v : Visit, v.pair = ⟨⟨1⟩, ⟨2⟩⟩ ∧ v.Joins e.nodes ∧
        (e.changed near).get? v.pair = some v.distance ∧
        (e.setting.decide v.kind v.distance).connected = true ∧
        (⟨.mesh, 0⟩, ⟨.mesh, 0⟩) ∈ e.setting.candidates v ∧
        e.store.find? v.pair ⟨⟨.mesh, 0⟩, ⟨.mesh, 0⟩⟩ = none) ∧
      ∀ x ∈ e.history [.apply near], x.link? = none := by
  intro e near
  have hlink : (e.store.find? ⟨⟨1⟩, .management⟩ ⟨⟨.management, 0⟩, ⟨.management, 0⟩⟩).map
      (·.connected) = some true := by decide +kernel
  have hsilent : (e.history [.apply near]).all (·.link?.isNone) = true := by decide +kernel
  refine ⟨Option.map_eq_some_iff.mp hlink, by decide +kernel, ?_, fun x hx => ?_⟩
  · refine ⟨⟨⟨⟨1⟩, .emulation, [⟨.mesh, 0⟩, ⟨.management, 0⟩]⟩, ⟨⟨2⟩, .emulation, [⟨.mesh, 0⟩]⟩,
      ⟨⟨1⟩, ⟨2⟩⟩, .zero, true, 0⟩, rfl, ⟨by decide +kernel, by decide +kernel⟩, by decide +kernel,
      by decide +kernel, by decide +kernel, by decide +kernel⟩
  · exact Option.isNone_iff_eq_none.mp (List.all_eq_true.mp hsilent x hx)

end ProximityNet
