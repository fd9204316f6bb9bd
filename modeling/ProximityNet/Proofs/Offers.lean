import ProximityNet.Proofs.Settling

/-!
# What the store holds while only emulation nodes have distances

The visits of a step are then paid to emulation nodes and to hubs at distance zero.  Such visits leave
nothing but candidates in the store, and when nothing fails a step settles every pair that it visits.

* `Visit.Joins`, `Visit.Regular` — the visits that are paid;
* `Setting.Offers` — the store holds nothing but candidates, of the kind that their nodes ask for;
* `Moves.offers` — regular visits keep that;
* `reconcile_settles`, `reconcileAll_settles` — the visited pairs are settled, the others as they were.
-/

namespace ProximityNet

variable {σ : Type}

namespace Visit

/-- The nodes of a visit are those of its pair. -/
structure Joins (v : Visit) (nodes : SortedMap NodeId Node) : Prop where
  x : nodes.get? v.pair.low = some v.x
  y : nodes.get? v.pair.high = some v.y

/-- A visit to two nodes of which none is the management node; if one is a hub they are at distance
zero. -/
structure Regular (v : Visit) (nodes : SortedMap NodeId Node) : Prop extends v.Joins nodes where
  plainX : v.x.isManagement = false
  plainY : v.y.isManagement = false
  hub : v.kind = .central → v.distance = .zero

variable {v v' : Visit} {nodes : SortedMap NodeId Node}

theorem Joins.eq (h : v.Joins nodes) (h' : v'.Joins nodes) (hpair : v'.pair = v.pair) :
    v'.x = v.x ∧ v'.y = v.y := by
  have hx := h'.x
  have hy := h'.y
  rw [hpair] at hx hy
  rw [h.x] at hx
  rw [h.y] at hy
  exact ⟨(Option.some.inj hx).symm, (Option.some.inj hy).symm⟩

theorem kind_congr (hx : v'.x = v.x) (hy : v'.y = v.y) : v'.kind = v.kind := by
  rw [kind, kind, hx, hy]

theorem candidates_congr (s : Setting σ) (hx : v'.x = v.x) (hy : v'.y = v.y) :
    s.candidates v' = s.candidates v := by
  rw [Setting.candidates, Setting.candidates, kind_congr hx hy, hx, hy]

end Visit

namespace Setting

variable {s : Setting σ} {v : Visit} {nodes : SortedMap NodeId Node} {p p' : Progress σ}
  {st st' : ConnectionStore}

/-! ### What the store holds -/

/-- Every link that exists is a candidate of its pair, of the kind that its nodes ask for. -/
structure Offers (s : Setting σ) (nodes : SortedMap NodeId Node) (st : ConnectionStore) : Prop where
  numbered : st.Numbered
  offered : ∀ {pair i c}, st.find? pair i = some c → ∃ v : Visit, v.pair = pair ∧ v.Joins nodes ∧
    (i.low, i.high) ∈ s.candidates v ∧ c.kind = v.kind ∧ (c.kind = .central → c.distance = .zero)

theorem offers_empty (s : Setting σ) (nodes : SortedMap NodeId Node) : s.Offers nodes .empty where
  numbered := ConnectionStore.numbered_empty
  offered h := by cases h

/-- What is known of a link of a pair that is visited. -/
theorem Offers.at_pair (h : s.Offers nodes st) (hv : v.Joins nodes) {i : InterfacePair}
    {c : Connection} (hc : st.find? v.pair i = some c) :
    (i.low, i.high) ∈ s.candidates v ∧ c.kind = v.kind ∧ (c.kind = .central → c.distance = .zero) := by
  obtain ⟨v', hpair, hv', hmem, hkind, hhub⟩ := h.offered hc
  obtain ⟨hx, hy⟩ := hv.eq hv' hpair
  rw [Visit.candidates_congr s hx hy] at hmem
  rw [Visit.kind_congr hx hy] at hkind
  exact ⟨hmem, hkind, hhub⟩

theorem Offers.suits (h : s.Offers nodes st) (hv : v.Regular nodes) : v.Suits st where
  wellFormed := h.numbered.toWellFormed
  kind hc := (h.at_pair hv.toJoins hc).2.1
  hub hc hcentral := by
    obtain ⟨_, hkind, hhub⟩ := h.at_pair hv.toJoins hc
    rw [hhub (hkind.trans hcentral), hv.hub hcentral]

/-- A candidate of a visit is filed. -/
theorem Offers.file (h : s.Offers nodes st) (hv : v.Regular nodes) {c x : Connection}
    {pair : NodePair} {i : InterfacePair} (hx : (st.file c).find? pair i = some x)
    (hpair : c.pair = v.pair) (hmem : (c.interfaces.low, c.interfaces.high) ∈ s.candidates v)
    (hkind : c.kind = v.kind) (hdistance : c.distance = v.distance) :
    ∃ v : Visit, v.pair = pair ∧ v.Joins nodes ∧ (i.low, i.high) ∈ s.candidates v ∧
      x.kind = v.kind ∧ (x.kind = .central → x.distance = .zero) := by
  rw [h.numbered.find?_file] at hx
  split at hx
  · rename_i heq
    obtain rfl := Option.some.inj hx
    refine ⟨v, hpair.symm.trans heq.1, hv.toJoins, ?_, hkind, fun hcentral => ?_⟩
    · rw [← heq.2]
      exact hmem
    · rw [hdistance]
      exact hv.hub (hkind.symm.trans hcentral)
  · exact h.offered hx

theorem Offers.freshId (h : s.Offers nodes st) : s.Offers nodes st.freshId.2 :=
  ⟨h.numbered.freshId, h.offered⟩

/-- A move of a visit leaves nothing but candidates in the store. -/
theorem Move.offers (hv : v.Regular nodes) (hmove : s.Move (.follow v) p p')
    (h : s.Offers nodes p.store) : s.Offers nodes p'.store := by
  have hnumbered := hmove.numbered h.numbered
  cases hmove with
  | tunnel | raiseFailed | lowerFailed | adjustFailed | hubAdjusted => exact h
  | startFailed | refused => exact h.freshId
  | createFailed launch | launchFailed launch | launched launch =>
    cases launch with
    | follow near candidate => exact ⟨hnumbered, fun hx => h.freshId.file hv hx rfl candidate rfl rfl⟩
  | raised _ found | lowered _ _ found | adjusted _ _ found =>
    obtain ⟨hmem, hkind, _⟩ := h.at_pair hv.toJoins found
    exact ⟨hnumbered, fun hx => h.file hv hx (h.numbered.keys_eq found).1 hmem hkind rfl⟩

theorem Moves.offers (hv : v.Regular nodes) (hmoves : s.Moves (.follow v) p p')
    (h : s.Offers nodes p.store) : s.Offers nodes p'.store := by
  induction hmoves with
  | refl => exact h
  | tail _ hmove ih => exact hmove.offers hv ih

/-! ### The pairs of a step -/

/-- The links of other pairs do not matter. -/
theorem Settled.of_find? {target : Option Distance} (h : s.Settled v target st)
    (hsame : ∀ i, st'.find? v.pair i = st.find? v.pair i) : s.Settled v target st' where
  near hd hconnected ix iy hmem := by
    rw [hsame]
    exact h.near hd hconnected ix iy hmem
  far hfar i c hc := by
    rw [hsame] at hc
    exact h.far hfar hc

/-- A visit succeeds, settles its pair and leaves the others alone. -/
theorem reconcile_settles (hb : s.backend.Reliable) (ht : s.policy.Reliable)
    (hv : v.Regular nodes) (h : s.Offers nodes p.store) :
    ∃ p', s.reconcile nodes v.step v.pair v.distance p = (.ok (), p') ∧
      s.Settled v (some v.distance) p'.store ∧ s.Offers nodes p'.store ∧
      ∀ pair i, pair ≠ v.pair → p'.store.find? pair i = p.store.find? pair i := by
  have hrun : s.reconcile nodes v.step v.pair v.distance p =
      s.reconcileNodes v.step v.pair v.distance v.x v.y p := by
    rw [reconcile, hv.x, hv.y]
  obtain ⟨p', hp', hsettled⟩ := reconcileNodes_settles hb ht (h.suits hv) hv.plainX hv.plainY
  have hmoves : s.Moves (.follow ⟨v.x, v.y, v.pair, v.distance,
      s.policy.isRemote p.world v.x.id v.y.id, v.step⟩) p
      (s.reconcileNodes v.step v.pair v.distance v.x v.y p).2 :=
    reconcileNodes_moves h.numbered
  rw [hp'] at hmoves
  have hv' : Visit.Regular ⟨v.x, v.y, v.pair, v.distance,
      s.policy.isRemote p.world v.x.id v.y.id, v.step⟩ nodes :=
    ⟨⟨hv.x, hv.y⟩, hv.plainX, hv.plainY, hv.hub⟩
  refine ⟨p', hrun.trans hp', hsettled, Moves.offers hv' hmoves h, fun pair i hne => ?_⟩
  exact Moves.find?_of_ne hmoves h.numbered hne

/-- When all visits of a step are regular, its pairs are settled and the others are as they were. -/
theorem reconcileAll_settles (hb : s.backend.Reliable) (ht : s.policy.Reliable) {step : Nat}
    {l : List (NodePair × Distance)} (hl : (l.map Prod.fst).Nodup)
    (regular : ∀ e ∈ l, ∃ v : Visit, v.pair = e.1 ∧ v.distance = e.2 ∧ v.step = step ∧
      v.Regular nodes) (h : s.Offers nodes p.store) :
    s.Offers nodes (s.reconcileAll nodes step l p).store ∧
      (∀ v : Visit, v.Joins nodes → ∀ d, (v.pair, d) ∈ l →
        s.Settled v (some d) (s.reconcileAll nodes step l p).store) ∧
      ∀ pair, pair ∉ l.map Prod.fst → ∀ i,
        (s.reconcileAll nodes step l p).store.find? pair i = p.store.find? pair i := by
  induction l generalizing p with
  | nil => exact ⟨h, fun v _ d hd => absurd hd List.not_mem_nil, fun _ _ _ => rfl⟩
  | cons e rest ih =>
    obtain ⟨hnot, hrest⟩ := List.nodup_cons.mp hl
    obtain ⟨v, hpair, hdistance, rfl, hv⟩ := regular e List.mem_cons_self
    obtain ⟨q, hq, hsettled, hoffers, hothers⟩ := reconcile_settles hb ht hv h
    have hrun : s.reconcileAll nodes v.step (e :: rest) p = s.reconcileAll nodes v.step rest q := by
      rw [reconcileAll, ← hpair, ← hdistance, hq]
    obtain ⟨hoffers', hall, hsame⟩ := ih (p := q) hrest
      (fun e' he' => regular e' (List.mem_cons_of_mem _ he')) hoffers
    rw [hrun]
    refine ⟨hoffers', fun v' hv' d hd => ?_, fun pair hmem i => ?_⟩
    · rcases List.mem_cons.mp hd with rfl | hd
      · -- the visits after this one are to other pairs
        obtain ⟨hx, hy⟩ := hv.toJoins.eq hv' hpair.symm
        have hsettled' : s.Settled v' (some v.distance) q.store := hsettled.congr hx hy hpair.symm
        rw [hdistance] at hsettled'
        exact hsettled'.of_find? (hsame _ hnot)
      · exact hall v' hv' d hd
    · rw [List.map_cons, List.mem_cons, not_or] at hmem
      rw [hsame pair hmem.2, hothers pair i (by rw [hpair]; exact hmem.1)]

end Setting

end ProximityNet
