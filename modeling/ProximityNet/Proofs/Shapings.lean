import ProximityNet.Proofs.Siblings

/-!
# How often a visit shapes a link

A visit sets up the links that are called for, then goes through those that are up, and then brings
up those that are down.  Each of these loops may be ended by a failure.  A link to a hub that is up
has its turn once, in the second loop, so it is shaped exactly once unless something has failed
before its turn.

* `Exchange.shapes` — the exchanges in which a link is shaped;
* `ShapedOnce` — what the record of a step shows of a link that has had its turn;
* `Delivers` — work in which a link has its turn; `Delivers.before`, `Delivers.after` and
  `Delivers.forM` put work on other links around it;
* `renewLinks_delivers`, `visited_delivers`, `reconcileAll_delivers` — the links of a pair, the visit
  to it, and all visits of a step.
-/

namespace ProximityNet

variable {σ α β : Type}

/-! ### A link that is shaped once -/

/-- Whether the backend is told that a link is about to be shaped, or is to shape it. -/
def Exchange.shapes (pair : NodePair) (i : InterfacePair) : Exchange → Bool
  | .announced (.adjusting _ c _ _) | .performed (.adjust _ c _ _) _ =>
    decide (c.pair = pair ∧ c.interfaces = i)
  | _ => false

theorem Exchange.link?_of_shapes {pair : NodePair} {i : InterfacePair} {x : Exchange}
    (h : x.shapes pair i = true) :
    ∃ site c, x.link? = some (site, c) ∧ c.pair = pair ∧ c.interfaces = i := by
  rw [shapes.eq_def] at h
  split at h
  · exact ⟨_, _, rfl, of_decide_eq_true h⟩
  · exact ⟨_, _, rfl, of_decide_eq_true h⟩
  · cases h

/-- The tunnel of a pair is among what has failed. -/
def TunnelFailed (pair : NodePair) (failures : List PairFailure) : Prop :=
  ∃ distance cause, ⟨pair, distance, .tunnel cause⟩ ∈ failures

/-- A record shapes a link exactly once, or not at all because something has failed at its pair. -/
def ShapedOnce (pair : NodePair) (i : InterfacePair) (c : Connection) (q : Shaping)
    (failures : List PairFailure) (l : List Exchange) : Prop :=
  (∃ site result, l.filter (·.shapes pair i) =
      [.announced (.adjusting site c true q), .performed (.adjust site c true q) result]) ∨
    (l.filter (·.shapes pair i) = [] ∧
      ((∃ x ∈ l, x.failed = true ∧ x.AboutPair pair) ∨ TunnelFailed pair failures))

section Records

variable {pair : NodePair} {i : InterfacePair} {c : Connection} {q : Shaping}
  {failures failures' : List PairFailure} {l : List Exchange}

/-- Exchanges about other links shape nothing of this one. -/
theorem filter_shapes_eq_nil
    (h : ∀ x ∈ l, ∀ site c, x.link? = some (site, c) → c.pair = pair → c.interfaces ≠ i) :
    l.filter (·.shapes pair i) = [] := by
  rw [List.filter_eq_nil_iff]
  intro x hx hshapes
  obtain ⟨site, c, hlink, hpair, hi⟩ := x.link?_of_shapes hshapes
  exact h x hx site c hlink hpair hi

theorem filter_shapes_of_tells {result : Except ReconcileError α} {h h' : List Exchange}
    (ht : Tells (Exchange.AboutLink pair (· ≠ i)) result h h') :
    ∃ l, h' = h ++ l ∧ l.filter (·.shapes pair i) = [] ∧
      ∀ cause, result = .error cause → ∃ x ∈ l, x.failed = true ∧ x.AboutPair pair := by
  obtain ⟨l, hl, hP, hfailed⟩ := ht
  refine ⟨l, hl, filter_shapes_eq_nil fun x hx site c hlink _ => ?_, fun cause hcause => ?_⟩
  · obtain ⟨site', c', hlink', _, hne⟩ := hP x hx
    obtain ⟨-, rfl⟩ := Prod.mk.inj (Option.some.inj (hlink.symm.trans hlink'))
    exact hne
  · obtain ⟨x, hx, hxf⟩ := hfailed cause hcause
    obtain ⟨site, c, hlink, hpair, _⟩ := hP x hx
    exact ⟨x, hx, hxf, site, c, hlink, hpair⟩

/-- What comes before and after makes no difference if it shapes nothing of the link. -/
theorem ShapedOnce.between (h : ShapedOnce pair i c q failures l) (l₀ l₁ : List Exchange)
    (h₀ : l₀.filter (·.shapes pair i) = []) (h₁ : l₁.filter (·.shapes pair i) = [])
    (hsub : ∀ f ∈ failures, f ∈ failures') :
    ShapedOnce pair i c q failures' (l₀ ++ l ++ l₁) := by
  have hfilter : (l₀ ++ l ++ l₁).filter (·.shapes pair i) = l.filter (·.shapes pair i) := by
    rw [List.filter_append, List.filter_append, h₀, h₁, List.nil_append, List.append_nil]
  rw [ShapedOnce, hfilter]
  refine h.imp id fun ⟨hnone, hwhy⟩ => ⟨hnone, hwhy.imp ?_ ?_⟩
  · rintro ⟨x, hx, hfailed⟩
    exact ⟨x, List.mem_append_left _ (List.mem_append_right _ hx), hfailed⟩
  · rintro ⟨distance, cause, hmem⟩
    exact ⟨distance, cause, hsub _ hmem⟩

end Records

/-- How work ends in which a link has its turn: it is as it was, and it has been shaped once unless
something has failed at its pair. -/
structure Delivers (pair : NodePair) (i : InterfacePair) (c : Connection) (q : Shaping)
    (p : Progress (σ × List Exchange))
    (r : Except ReconcileError α × Progress (σ × List Exchange)) : Prop where
  numbered : r.2.store.Numbered
  found : r.2.store.find? pair i = some c
  stays : ∀ j, (p.store.find? pair j).isSome = true → (r.2.store.find? pair j).isSome = true
  told : ∃ l, r.2.world.2 = p.world.2 ++ l ∧ ShapedOnce pair i c q [] l

namespace Delivers

variable {pair : NodePair} {i : InterfacePair} {c : Connection} {q : Shaping}
  {p : Progress (σ × List Exchange)} {w : Work (σ × List Exchange) α}
  {f : α → Work (σ × List Exchange) β}

/-- Work on other links may come before. -/
theorem before (hc : p.store.find? pair i = some c) (hw : Confines pair (· ≠ i) p (w p))
    (hf : ∀ a p', w p = (.ok a, p') → p'.store.Numbered → p'.store.find? pair i = some c →
      Delivers pair i c q p' (f a p')) :
    Delivers pair i c q p ((w >>= f) p) := by
  obtain ⟨l₀, hl₀, hnone, hfailed⟩ := filter_shapes_of_tells hw.tells
  have hfound : (w p).2.store.find? pair i = some c := (hw.others i fun hne => hne rfl).trans hc
  rcases hr : w p with ⟨cause | a, p'⟩
  · rw [Work.bind_of_error hr]
    rw [hr] at hw hl₀ hfailed hfound
    exact ⟨hw.numbered, hfound, hw.stays, l₀, hl₀, Or.inr ⟨hnone, Or.inl (hfailed cause rfl)⟩⟩
  · rw [Work.bind_of_ok hr]
    rw [hr] at hw hl₀ hfound
    obtain ⟨hnumbered, hfound', hstays, l, hl, honce⟩ := hf a p' hr hw.numbered hfound
    refine ⟨hnumbered, hfound', fun j hj => hstays j (hw.stays j hj), l₀ ++ l, ?_, ?_⟩
    · rw [hl, hl₀, List.append_assoc]
    · rw [← List.append_nil (l₀ ++ l)]
      exact honce.between l₀ [] hnone rfl fun _ hf => hf

/-- And so it may come after. -/
theorem after (hw : Delivers pair i c q p (w p))
    (hf : ∀ a p', w p = (.ok a, p') → p'.store.Numbered → p'.store.find? pair i = some c →
      (∀ j, (p.store.find? pair j).isSome = true → (p'.store.find? pair j).isSome = true) →
      Confines pair (· ≠ i) p' (f a p')) :
    Delivers pair i c q p ((w >>= f) p) := by
  rcases hr : w p with ⟨cause | a, p'⟩
  · rw [Work.bind_of_error hr]
    rw [hr] at hw
    exact ⟨hw.numbered, hw.found, hw.stays, hw.told⟩
  · rw [Work.bind_of_ok hr]
    rw [hr] at hw
    obtain ⟨l, hl, honce⟩ := hw.told
    have hnext := hf a p' hr hw.numbered hw.found hw.stays
    obtain ⟨l₁, hl₁, hnone, _⟩ := filter_shapes_of_tells hnext.tells
    refine ⟨hnext.numbered, (hnext.others i fun hne => hne rfl).trans hw.found,
      fun j hj => hnext.stays j (hw.stays j hj), l ++ l₁, ?_, ?_⟩
    · rw [hl₁, hl, List.append_assoc]
    · exact honce.between [] l₁ rfl hnone fun _ hf => hf

/-- A loop over distinct links, one of which is to be shaped. -/
theorem forM {l : List InterfacePair} {g : InterfacePair → Work (σ × List Exchange) Unit}
    (hl : l.Nodup) (hi : i ∈ l) (hs : p.store.Numbered) (hc : p.store.find? pair i = some c)
    (there : ∀ j ∈ l, (p.store.find? pair j).isSome = true)
    (own : ∀ p', p'.store.Numbered → p'.store.find? pair i = some c →
      Delivers pair i c q p' (g i p'))
    (others : ∀ j, j ≠ i → ∀ p', p'.store.Numbered → (p'.store.find? pair j).isSome = true →
      Confines pair (· ≠ i) p' (g j p')) :
    Delivers pair i c q p (l.forM g p) := by
  induction l generalizing p with
  | nil => cases hi
  | cons j rest ih =>
    obtain ⟨hj, hrest⟩ := List.nodup_cons.mp hl
    have there' : ∀ j' ∈ rest, (p.store.find? pair j').isSome = true :=
      fun j' hj' => there j' (List.mem_cons_of_mem j hj')
    by_cases hji : j = i
    · -- this is its turn, and the links that follow are others
      subst hji
      refine after (own p hs hc) fun _ p' _ hs' _ hstays => ?_
      refine Confines.forM hs' fun j' hj' q' hq' _ hkept => ?_
      have hne : j' ≠ j := fun heq => hj (heq ▸ hj')
      exact others j' hne q' hq' (hkept j' (hstays j' (there' j' hj')))
    · have hfirst := others j hji p hs (there j List.mem_cons_self)
      refine before hc hfirst fun _ p' hp' hs' hc' => ?_
      rw [hp'] at hfirst
      refine ih hrest ?_ hs' hc' fun j' hj' => hfirst.stays j' (there' j' hj')
      exact (List.mem_cons.mp hi).resolve_left (Ne.symm hji)

end Delivers

/-! ### The links of a pair -/

namespace Setting

variable {s : Setting σ} {v : Visit} {decision : LinkDecision} {i : InterfacePair}
  {p : Progress (σ × List Exchange)} {c : Connection}

/-- A link to a hub is shaped as it was in the beginning, and nothing else is done about it. -/
theorem renewLink_delivers (hs : p.store.Numbered) (hc : p.store.find? v.pair i = some c)
    (hkind : c.kind = .central) :
    Delivers v.pair i c s.initial p (s.recorded.renewLink v decision i p) := by
  obtain ⟨hpair, hi⟩ := hs.keys_eq hc
  have honce : ∀ result, ShapedOnce v.pair i c s.initial []
      [.announced (.adjusting (v.site c.kind i.low i.high) c true s.initial),
        .performed (.adjust (v.site c.kind i.low i.high) c true s.initial) result] := by
    intro result
    refine Or.inl ⟨v.site c.kind i.low i.high, result, ?_⟩
    simp [Exchange.shapes, hpair, hi]
  rw [renewLink, Work.bind_of_ok (Work.stored_of_some hc), hkind]
  dsimp only
  rcases hshape : v.shapeWorld s.recorded.backend c i s.recorded.initial p.world with
    ⟨e | u, world⟩
  · rw [Work.bind_of_error (shape_of_error hshape)]
    exact ⟨hs, hc, fun _ hj => hj, _, recorded_shape hshape, honce _⟩
  · rw [Work.bind_of_ok (shape_of_ok hshape)]
    exact ⟨hs, hc, fun _ hj => hj, _, recorded_shape hshape, honce _⟩

/-- On a visit that sets up links, a link to a hub that is up has its turn. -/
theorem renewLinks_delivers (hs : p.store.Numbered) (hc : p.store.find? v.pair i = some c)
    (hkind : c.kind = .central) (hup : c.connected = true) (near : decision.connected = true) :
    Delivers v.pair i c s.initial p (s.recorded.renewLinks v decision p) := by
  rw [renewLinks, if_pos near]
  -- links that do not exist yet are others
  have create : Confines v.pair (· ≠ i) p ((s.recorded.candidates v).forM
      (fun e => s.recorded.createLink v decision e.1 e.2) p) := by
    refine Confines.forM hs fun e _ q hq hothers _ => ?_
    by_cases hei : (⟨e.1, e.2⟩ : InterfacePair) = i
    · have hthere : q.store.find? v.pair ⟨e.1, e.2⟩ = some c := by
        rw [hei, hothers i fun hne => hne rfl, hc]
      rw [createLink, Work.bind_connections, hthere]
      exact .idle hq ()
    · refine (createLink_confines hq).mono ?_
      rintro j rfl
      exact hei
  refine Delivers.before hc create fun _ p₁ _ hs₁ hc₁ => ?_
  beta_reduce
  rw [Work.bind_connections]
  have hmem : ∀ j ∈ p₁.store.activeInterfaces v.pair,
      (p₁.store.find? v.pair j).isSome = true := by
    intro j hj
    obtain ⟨x, hx, _⟩ := hs₁.mem_activeInterfaces_iff.mp hj
    rw [hx]
    rfl
  have renew : Delivers v.pair i c s.initial p₁
      ((p₁.store.activeInterfaces v.pair).forM (s.recorded.renewLink v decision) p₁) := by
    refine Delivers.forM (ConnectionStore.activeInterfaces_nodup _ _)
      (hs₁.mem_activeInterfaces_iff.mpr ⟨c, hc₁, hup⟩) hs₁ hc₁ hmem
      (fun p' hs' hc' => renewLink_delivers hs' hc' hkind) fun j hj p' hs' hthere => ?_
    obtain ⟨x, hx⟩ := Option.isSome_iff_exists.mp hthere
    refine (renewLink_confines hs' hx).mono ?_
    rintro j' rfl
    exact hj
  refine Delivers.after renew fun _ p₂ _ hs₂ hc₂ _ => ?_
  rw [if_pos near, Work.bind_connections]
  refine Confines.forM hs₂ fun j hj q hq _ hkept => ?_
  obtain ⟨x, hx, hdown⟩ := hs₂.mem_inactiveInterfaces_iff.mp hj
  obtain ⟨y, hy⟩ := Option.isSome_iff_exists.mp (hkept j (by rw [hx]; rfl))
  refine (reviveLink_confines hq hy).mono ?_
  rintro j' rfl rfl
  -- the link itself is up
  rw [hc₂] at hx
  rw [← Option.some.inj hx, hup] at hdown
  cases hdown

/-! ### A visit and all visits -/

/-- Seeing to a tunnel tells the backend nothing, and an error is that of the tunnel. -/
theorem ensureTunnel_recorded (x y : NodeId) (pair : NodePair) :
    (s.recorded.ensureTunnel x y pair p).2.store = p.store ∧
      (s.recorded.ensureTunnel x y pair p).2.world.2 = p.world.2 ∧
      ∀ cause, (s.recorded.ensureTunnel x y pair p).1 = .error cause →
        ∃ fault, cause = .tunnel fault := by
  rw [ensureTunnel]
  split
  · rcases hensure : s.recorded.policy.ensure pair p.world with ⟨fault | u, world⟩
    · refine ⟨rfl, recorded_ensure hensure, fun cause hcause => ⟨fault, ?_⟩⟩
      exact (Except.error.inj hcause).symm
    · exact ⟨rfl, recorded_ensure hensure, fun cause hcause => by cases hcause⟩
  · exact ⟨rfl, rfl, fun cause hcause => by cases hcause⟩

/-- On a visit to a hub a link that is up has its turn, unless the tunnel fails. -/
theorem reconcileNodes_delivers (step : Nat) (distance : Distance) {x y : Node} {pair : NodePair}
    (hroles : x.role = .central ∧ y.role = .emulation ∨ x.role = .emulation ∧ y.role = .central)
    (hs : p.store.Numbered) (hc : p.store.find? pair i = some c) (hkind : c.kind = .central)
    (hup : c.connected = true) :
    ∃ r, s.recorded.reconcileNodes step pair distance x y p = r ∧
      ((∃ fault, r.1 = .error (.tunnel fault) ∧ r.2.world.2 = p.world.2) ∨
        ∃ l, r.2.world.2 = p.world.2 ++ l ∧ ShapedOnce pair i c s.initial [] l) := by
  have hplain : ¬ (x.isManagement || y.isManagement) = true := by
    obtain ⟨hx, hy⟩ := plain_of_roles hroles
    rw [hx, hy]
    exact Bool.false_ne_true
  have hcentral : (⟨x, y, pair, distance, false, step⟩ : Visit).kind = .central := by
    refine if_pos ?_
    rcases hroles with ⟨hx, _⟩ | ⟨_, hy⟩
    · simp [Node.isCentral, hx]
    · simp [Node.isCentral, hy]
  have hdecide : s.recorded.decide .central distance = .up s.initial := if_pos rfl
  refine ⟨_, rfl, ?_⟩
  rw [reconcileNodes, if_neg hplain]
  dsimp only
  rw [hcentral, hdecide, Work.bind_connections, if_pos (by rfl)]
  obtain ⟨hstore, hworld, hfault⟩ := ensureTunnel_recorded (s := s) (p := p) x.id y.id pair
  rcases hr : s.recorded.ensureTunnel x.id y.id pair p with ⟨cause | isRemote, p'⟩
  · rw [hr] at hworld hfault
    obtain ⟨fault, rfl⟩ := hfault cause rfl
    rw [Work.bind_of_error hr]
    exact Or.inl ⟨fault, rfl, hworld⟩
  · rw [hr] at hstore hworld
    dsimp only at hstore hworld
    rw [Work.bind_of_ok hr]
    have hturn : Delivers pair i c s.initial p' (s.recorded.renewLinks
        ⟨x, y, pair, distance, isRemote, step⟩ (.up s.initial) p') := by
      rw [← hstore] at hs hc
      exact renewLinks_delivers (v := ⟨x, y, pair, distance, isRemote, step⟩) hs hc hkind hup rfl
    obtain ⟨l, hl, honce⟩ := hturn.told
    exact Or.inr ⟨l, by rw [hl, hworld], honce⟩

section Visits

variable {nodes : SortedMap NodeId Node} {step : Nat} {pair : NodePair}

/-- What passes a pair by: its links are as they were, none of them is shaped, and failures stay. -/
structure Passes (pair : NodePair) (p p' : Progress (σ × List Exchange)) : Prop where
  numbered : p'.store.Numbered
  same : ∀ j, p'.store.find? pair j = p.store.find? pair j
  failures : ∀ f ∈ p.report.failures, f ∈ p'.report.failures
  told : ∃ l, p'.world.2 = p.world.2 ++ l ∧ ∀ i, l.filter (·.shapes pair i) = []

theorem Passes.trans {p' p'' : Progress (σ × List Exchange)} (h : Passes pair p p')
    (h' : Passes pair p' p'') : Passes pair p p'' := by
  obtain ⟨l, hl, hnone⟩ := h.told
  obtain ⟨l', hl', hnone'⟩ := h'.told
  refine ⟨h'.numbered, fun j => (h'.same j).trans (h.same j), fun f hf => h'.failures f
    (h.failures f hf), l ++ l', ?_, fun i => ?_⟩
  · rw [hl', hl, List.append_assoc]
  · rw [List.filter_append, hnone, hnone', List.nil_append]

theorem visited_passes {q : NodePair} {distance : Distance} (hs : p.store.Numbered)
    (hne : pair ≠ q) : Passes pair p (s.recorded.visited nodes step q distance p) := by
  obtain ⟨hnumbered, hsame, _⟩ : (s.recorded.visited nodes step q distance p).store.Numbered ∧ _ :=
    visited_of_ne hs hne
  obtain ⟨l, hl, habout⟩ := reconcile_told s nodes step q distance hs
  refine ⟨hnumbered, hsame, visited_failures hs, l, ?_, fun i => ?_⟩
  · rw [(visited_reconciles q distance).2, hl]
  · refine filter_shapes_eq_nil fun e he site c hlink hpair => ?_
    obtain ⟨site', c', hlink', hq⟩ := habout e he
    obtain ⟨-, rfl⟩ := Prod.mk.inj (Option.some.inj (hlink.symm.trans hlink'))
    exact absurd (hpair.symm.trans hq) hne

theorem reconcileAll_passes {l : List (NodePair × Distance)} (hs : p.store.Numbered)
    (hl : pair ∉ l.map Prod.fst) : Passes pair p (s.recorded.reconcileAll nodes step l p) := by
  induction l generalizing p with
  | nil =>
    exact ⟨hs, fun _ => rfl, fun _ hf => hf, [], (List.append_nil _).symm, fun _ => rfl⟩
  | cons a rest ih =>
    rw [List.map_cons, List.mem_cons, not_or] at hl
    have hfirst : Passes pair p (s.recorded.visited nodes step a.1 a.2 p) := visited_passes hs hl.1
    rw [reconcileAll_cons]
    exact hfirst.trans (ih hfirst.numbered hl.2)

/-- On the visit to its pair a link to a hub that is up has its turn, unless the tunnel fails. -/
theorem visited_delivers (step : Nat) (distance : Distance) (hpair : HubPair nodes pair)
    (hs : p.store.Numbered) (hc : p.store.find? pair i = some c) (hkind : c.kind = .central)
    (hup : c.connected = true) :
    ∃ l, (s.recorded.visited nodes step pair distance p).world.2 = p.world.2 ++ l ∧
      ShapedOnce pair i c s.initial
        (s.recorded.visited nodes step pair distance p).report.failures l := by
  obtain ⟨x, y, hx, hy, hroles⟩ := hpair
  obtain ⟨r, hr, hend⟩ : ∃ r, s.recorded.reconcileNodes step pair distance x y p = r ∧ _ :=
    reconcileNodes_delivers step distance hroles hs hc hkind hup
  have hreconcile : s.recorded.reconcile nodes step pair distance p = r := by
    rw [reconcile, hx, hy]
    exact hr
  rw [(visited_reconciles pair distance).2, hreconcile]
  rcases hend with ⟨fault, herror, hworld⟩ | ⟨l, hl, honce⟩
  · refine ⟨[], by rw [hworld, List.append_nil], Or.inr ⟨rfl, Or.inr ⟨distance, fault, ?_⟩⟩⟩
    have hfailed : s.recorded.reconcile nodes step pair distance p = (.error (.tunnel fault), r.2) :=
      hreconcile.trans (Prod.ext herror rfl)
    rw [visited_of_error hfailed]
    exact List.mem_append_right _ (List.mem_singleton_self _)
  · refine ⟨l, hl, ?_⟩
    rw [← List.append_nil l]
    exact honce.between [] [] rfl rfl fun f hf => by cases hf

/-- In a step with its pair a link to a hub that is up is shaped once, unless something fails. -/
theorem reconcileAll_delivers {l : List (NodePair × Distance)} (hl : (l.map Prod.fst).Nodup)
    (hmem : pair ∈ l.map Prod.fst) (hpair : HubPair nodes pair) (hs : p.store.Numbered)
    (hc : p.store.find? pair i = some c) (hkind : c.kind = .central) (hup : c.connected = true) :
    ∃ l', (s.recorded.reconcileAll nodes step l p).world.2 = p.world.2 ++ l' ∧
      ShapedOnce pair i c s.initial
        (s.recorded.reconcileAll nodes step l p).report.failures l' := by
  induction l generalizing p with
  | nil => cases hmem
  | cons a rest ih =>
    obtain ⟨q, distance⟩ := a
    rw [List.map_cons] at hl hmem
    obtain ⟨hq, hrest⟩ := List.nodup_cons.mp hl
    rw [reconcileAll_cons]
    by_cases hne : pair = q
    · -- the visits that follow pass it by
      subst hne
      obtain ⟨l₁, hl₁, honce⟩ :
          ∃ l, (s.recorded.visited nodes step pair distance p).world.2 = _ ∧ _ :=
        visited_delivers step distance hpair hs hc hkind hup
      have hnumbered : (s.recorded.visited nodes step pair distance p).store.Numbered := by
        rw [(visited_reconciles pair distance).1]
        exact (reconcile_confined hs).numbered
      have hpasses : Passes pair _ (s.recorded.reconcileAll nodes step rest
          (s.recorded.visited nodes step pair distance p)) := reconcileAll_passes hnumbered hq
      obtain ⟨l₂, hl₂, hnone⟩ := hpasses.told
      refine ⟨l₁ ++ l₂, by rw [hl₂, hl₁, List.append_assoc], ?_⟩
      exact honce.between [] l₂ rfl (hnone i) hpasses.failures
    · have hpasses : Passes pair p (s.recorded.visited nodes step q distance p) :=
        visited_passes hs hne
      obtain ⟨l₀, hl₀, hnone⟩ := hpasses.told
      obtain ⟨l₁, hl₁, honce⟩ := ih hrest ((List.mem_cons.mp hmem).resolve_left hne)
        hpasses.numbered ((hpasses.same i).trans hc)
      refine ⟨l₀ ++ l₁, by rw [hl₁, hl₀, List.append_assoc], ?_⟩
      have hwhole := honce.between l₀ [] (hnone i) rfl fun _ hf => hf
      rwa [List.append_nil] at hwhole

end Visits

end Setting

end ProximityNet
