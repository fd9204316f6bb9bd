import ProximityNet.Proofs.Offers
import ProximityNet.Proofs.Runs

/-!
# Reconciling step by step agrees with reconciling at once

A step looks only at the pairs whose distance has changed.  When nothing fails this comes to the same
as looking at all of them: after any sequence of matrices the links that are up, and their distances,
are those of an engine that has been given the last matrix alone.

* `Settled.unchanged`, `Settled.changed` — a pair is as a matrix asks if the change is taken account of;
* `Keyed`, `DistanceMatrix.Emulated` — which pairs a step visits;
* `Engine.Tracks` — the invariant: every pair is as the last matrix asks, the pairs of hubs excepted
  until the first step;
* `applyDistances_tracks` — a step keeps it, and afterwards the pairs of hubs are settled too;
* `active_agrees` — stores that are settled alike list the same links;
* `incremental_agrees` — every sequence of matrices agrees with its last one.
-/

namespace ProximityNet

variable {σ τ μ ν : Type}

namespace Setting

variable {s : Setting σ} {v : Visit} {st : ConnectionStore}

/-! ### Distances that compare as equal -/

theorem decide_congr (hm : s.model.Ranged) (kind : ConnectionKind) {d d' : Distance}
    (h : (d == d') = true) : (s.decide kind d).connected = (s.decide kind d').connected := by
  rw [decide, decide]
  split
  · rfl
  · exact hm.same h

/-- A pair whose distance is not reported as changed stays settled. -/
theorem Settled.unchanged (hm : s.model.Ranged) {now before : Option Distance}
    (h : s.Settled v before st) (hchange : DistanceMatrix.change now before = none) :
    s.Settled v now st := by
  cases now with
  | none =>
    cases before with
    | none => exact h
    | some d => cases hchange
  | some d =>
    cases before with
    | none => cases hchange
    | some d' =>
      have heq : (d == d') = true := by
        by_contra hne
        rw [DistanceMatrix.change, if_neg hne] at hchange
        cases hchange
      refine ⟨fun {e} he hconnected ix iy hmem => ?_, fun hfar {i c} hc => ?_⟩
      · obtain rfl := Option.some.inj he
        rw [decide_congr hm v.kind heq] at hconnected
        obtain ⟨c, hc, hup, hdistance⟩ := h.near rfl hconnected ix iy hmem
        exact ⟨c, hc, hup, Distance.beq_trans hdistance (Distance.beq_symm heq)⟩
      · refine h.far (fun e he => ?_) hc
        rw [← Option.some.inj he, ← decide_congr hm v.kind heq]
        exact hfar d rfl

/-- A pair that has been settled at its changed distance is as the matrix asks; one that is gone is
out of range. -/
theorem Settled.changed (hm : s.model.Ranged) {now before : Option Distance} {d : Distance}
    (h : s.Settled v (some d) st) (hchange : DistanceMatrix.change now before = some d)
    (hkind : now = none → v.kind = .user) : s.Settled v now st := by
  cases now with
  | none =>
    cases before with
    | none => cases hchange
    | some d' =>
      obtain rfl := Option.some.inj hchange
      refine ⟨fun he => (by cases he), fun _ {i c} hc => h.far (fun e he => ?_) hc⟩
      rw [← Option.some.inj he, hkind rfl, decide, if_neg (by simp)]
      exact hm.unlimited
  | some d' =>
    have heq : d' = d := by
      cases before with
      | none => exact Option.some.inj hchange
      | some d'' =>
        rw [DistanceMatrix.change] at hchange
        split at hchange
        · cases hchange
        · exact Option.some.inj hchange
    rw [heq]
    exact h

end Setting

/-! ### Which pairs a step visits -/

/-- Every node stands under its own id. -/
def Keyed (nodes : SortedMap NodeId Node) : Prop := ∀ id node, nodes.get? id = some node → node.id = id

theorem Keyed.insert {nodes : SortedMap NodeId Node} (h : Keyed nodes) (node : Node) :
    Keyed (nodes.insert node.id node) := by
  intro id x hx
  by_cases hid : node.id = id
  · rw [← hid, SortedMap.get?_insert_self] at hx
    rw [← Option.some.inj hx, hid]
  · rw [SortedMap.get?_insert_of_ne nodes node hid] at hx
    exact h id x hx

/-- All distances are between emulation nodes. -/
def DistanceMatrix.Emulated (m : DistanceMatrix) (nodes : SortedMap NodeId Node) : Prop :=
  ∀ pair d, m.get? pair = some d → ∃ x y, nodes.get? pair.low = some x ∧
    nodes.get? pair.high = some y ∧ x.isEmulation = true ∧ y.isEmulation = true

section Pairs

variable {nodes : SortedMap NodeId Node} {pair : NodePair}

theorem eq_of_of? {a b : NodeId} (h : NodePair.of? a b = some pair) :
    pair = ⟨a, b⟩ ∨ pair = ⟨b, a⟩ := by
  rw [NodePair.of?] at h
  split at h
  · exact Or.inl (Option.some.inj h).symm
  · split at h
    · exact Or.inr (Option.some.inj h).symm
    · cases h

theorem isEmulation_iff {x : Node} : x.isEmulation = true ↔ x.role = .emulation := by
  rw [Node.isEmulation, decide_eq_true_iff]

/-- Between emulation nodes links are for users. -/
theorem kind_of_emulation {v : Visit} (hx : v.x.isEmulation = true) (hy : v.y.isEmulation = true) :
    v.kind = .user := by
  rw [isEmulation_iff] at hx hy
  simp [Visit.kind, Node.isCentral, hx, hy]

theorem not_management_of_role {x : Node} (h : x.role ≠ .management) : x.isManagement = false :=
  decide_eq_false h

/-- A visit to emulation nodes is regular. -/
theorem regular_of_emulated {x y : Node} (hx : nodes.get? pair.low = some x)
    (hy : nodes.get? pair.high = some y) (hxe : x.isEmulation = true) (hye : y.isEmulation = true)
    (d : Distance) (step : Nat) : Visit.Regular ⟨x, y, pair, d, false, step⟩ nodes := by
  have hkind : Visit.kind ⟨x, y, pair, d, false, step⟩ = .user := kind_of_emulation hxe hye
  rw [isEmulation_iff] at hxe hye
  refine ⟨⟨hx, hy⟩, not_management_of_role (by rw [hxe]; decide),
    not_management_of_role (by rw [hye]; decide), fun hcentral => ?_⟩
  rw [hkind] at hcentral
  cases hcentral

/-- A hub and an emulation node, both of them known. -/
def HubPair (nodes : SortedMap NodeId Node) (pair : NodePair) : Prop :=
  ∃ x y, nodes.get? pair.low = some x ∧ nodes.get? pair.high = some y ∧
    (x.role = .central ∧ y.role = .emulation ∨ x.role = .emulation ∧ y.role = .central)

theorem hubPair_of_mem (hk : Keyed nodes) (h : pair ∈ hubPairs nodes.values) :
    HubPair nodes pair := by
  obtain ⟨x, hx, hpairs⟩ := List.mem_flatMap.mp h
  obtain ⟨y, hy, hof⟩ := List.mem_filterMap.mp hpairs
  obtain ⟨hx, hcentral⟩ := List.mem_filter.mp hx
  obtain ⟨hy, hemulation⟩ := List.mem_filter.mp hy
  obtain ⟨a, ha⟩ := SortedMap.mem_values_iff.mp hx
  obtain ⟨b, hb⟩ := SortedMap.mem_values_iff.mp hy
  rw [← hk a x ha] at ha
  rw [← hk b y hb] at hb
  have hxrole : x.role = .central := of_decide_eq_true hcentral
  have hyrole : y.role = .emulation := isEmulation_iff.mp (Bool.and_eq_true_iff.mp hemulation).1
  rcases eq_of_of? hof with rfl | rfl
  · exact ⟨x, y, ha, hb, Or.inl ⟨hxrole, hyrole⟩⟩
  · exact ⟨y, x, hb, ha, Or.inr ⟨hyrole, hxrole⟩⟩

/-- Neither node of a pair of a hub is the management node. -/
theorem plain_of_roles {x y : Node}
    (h : x.role = .central ∧ y.role = .emulation ∨ x.role = .emulation ∧ y.role = .central) :
    x.isManagement = false ∧ y.isManagement = false := by
  refine ⟨not_management_of_role fun hx => ?_, not_management_of_role fun hy => ?_⟩
  · rw [hx] at h
    simp at h
  · rw [hy] at h
    simp at h

/-- A visit to a hub and an emulation node at distance zero is regular. -/
theorem regular_of_hubPair (hk : Keyed nodes) (h : pair ∈ hubPairs nodes.values) (step : Nat) :
    ∃ v : Visit, v.pair = pair ∧ v.distance = .zero ∧ v.step = step ∧ v.Regular nodes := by
  obtain ⟨x, y, hx, hy, hroles⟩ := hubPair_of_mem hk h
  obtain ⟨hxplain, hyplain⟩ := plain_of_roles hroles
  exact ⟨⟨x, y, pair, .zero, false, step⟩, rfl, rfl, rfl, ⟨hx, hy⟩, hxplain, hyplain, fun _ => rfl⟩

theorem get?_hubOverlay (l : List Node) (pair : NodePair) :
    (hubOverlay l).get? pair = if pair ∈ hubPairs l then some .zero else none :=
  SortedMap.get?_ofList_const

end Pairs

/-! ### Steps -/

namespace Engine

variable {e : Engine σ μ}

/-- Every pair is as the last matrix asks; the pairs of hubs may be waiting for the first step. -/
structure Tracks (e : Engine σ μ) : Prop where
  keyed : Keyed e.nodes
  offers : e.setting.Offers e.nodes e.store
  emulated : e.tracker.current.Emulated e.nodes
  overlay : e.tracker.overlay.getD (hubOverlay e.nodes.values) = hubOverlay e.nodes.values
  settled : ∀ v : Visit, v.Joins e.nodes → v.pair ∉ hubPairs e.nodes.values →
    e.setting.Settled v (e.tracker.current.get? v.pair) e.store

/-- Every pair is as a matrix asks, hubs being at distance zero. -/
def Follows (e : Engine σ μ) (distances : DistanceMatrix) : Prop :=
  ∀ v : Visit, v.Joins e.nodes →
    e.setting.Settled v ((distances.overlay (hubOverlay e.nodes.values)).get? v.pair) e.store

/-- A step leaves every pair as its matrix asks. -/
theorem reconcileStep_follows (hb : e.setting.backend.Reliable) (ht : e.setting.policy.Reliable)
    (hm : e.setting.model.Ranged) (h : e.Tracks) {distances : DistanceMatrix}
    (hd : distances.Emulated e.nodes) (all : DistanceMatrix) {p : Progress σ}
    (hp : p = e.reconcileStep ((distances.changesSince e.tracker.current).overlay
      (hubOverlay e.nodes.values)) all) :
    e.setting.Offers e.nodes p.store ∧ ∀ v : Visit, v.Joins e.nodes →
      e.setting.Settled v ((distances.overlay (hubOverlay e.nodes.values)).get? v.pair) p.store := by
  generalize hchanged : (distances.changesSince e.tracker.current).overlay
    (hubOverlay e.nodes.values) = changed at hp
  have hget : ∀ pair, changed.get? pair = ((hubOverlay e.nodes.values).get? pair).or
      (DistanceMatrix.change (distances.get? pair) (e.tracker.current.get? pair)) := by
    intro pair
    rw [← hchanged, SortedMap.get?_overlay, DistanceMatrix.get?_changesSince]
  -- whatever has a distance now or had one before is between emulation nodes
  have hplain : ∀ {pair d}, DistanceMatrix.change (distances.get? pair)
      (e.tracker.current.get? pair) = some d → ∃ x y, e.nodes.get? pair.low = some x ∧
      e.nodes.get? pair.high = some y ∧ x.isEmulation = true ∧ y.isEmulation = true := by
    intro pair d hchange
    cases hnow : distances.get? pair with
    | some d' => exact hd pair d' hnow
    | none =>
      cases hbefore : e.tracker.current.get? pair with
      | some d' => exact h.emulated pair d' hbefore
      | none =>
        rw [hnow, hbefore] at hchange
        cases hchange
  have regular : ∀ x ∈ changed.entries, ∃ v : Visit, v.pair = x.1 ∧ v.distance = x.2 ∧
      v.step = e.step ∧ v.Regular e.nodes := by
    rintro ⟨pair, d⟩ hmem
    have hx := hget pair
    rw [SortedMap.get?_eq_some_iff.mpr hmem, get?_hubOverlay] at hx
    by_cases hhub : pair ∈ hubPairs e.nodes.values
    · rw [if_pos hhub] at hx
      obtain rfl := Option.some.inj hx
      exact regular_of_hubPair h.keyed hhub e.step
    · rw [if_neg hhub] at hx
      obtain ⟨x, y, hxn, hyn, hxe, hye⟩ := hplain hx.symm
      exact ⟨_, rfl, rfl, rfl, regular_of_emulated hxn hyn hxe hye d e.step⟩
  obtain ⟨_, hstep⟩ := e.reconcileStep_visits changed all
  have hoffers : e.setting.Offers e.nodes (e.opened changed all).store := h.offers
  obtain ⟨hoffers', hsettled, hsame⟩ := Setting.reconcileAll_settles hb ht
    (SortedMap.keys_nodup changed) regular hoffers
  rw [hp, hstep]
  refine ⟨hoffers', fun v hv => ?_⟩
  rw [SortedMap.get?_overlay, get?_hubOverlay]
  have hvget := hget v.pair
  rw [get?_hubOverlay] at hvget
  by_cases hhub : v.pair ∈ hubPairs e.nodes.values
  · rw [if_pos hhub] at hvget ⊢
    exact hsettled v hv _ (SortedMap.get?_eq_some_iff.mp hvget)
  · rw [if_neg hhub, Option.none_or] at hvget ⊢
    cases hchange : DistanceMatrix.change (distances.get? v.pair)
      (e.tracker.current.get? v.pair) with
    | some d =>
      rw [hchange] at hvget
      refine (hsettled v hv d (SortedMap.get?_eq_some_iff.mp hvget)).changed hm hchange fun _ => ?_
      obtain ⟨x, y, hx, hy, hxe, hye⟩ := hplain hchange
      rw [hv.x] at hx
      rw [hv.y] at hy
      rw [← Option.some.inj hx] at hxe
      rw [← Option.some.inj hy] at hye
      exact kind_of_emulation hxe hye
    | none =>
      rw [hchange] at hvget
      have hkeys : v.pair ∉ changed.entries.map Prod.fst := by
        intro hmem
        obtain ⟨d, hd⟩ := SortedMap.mem_keys_iff.mp hmem
        rw [hvget] at hd
        cases hd
      refine (h.settled v hv hhub).unchanged hm hchange |>.of_find? fun i => ?_
      exact hsame _ hkeys i

/-- An engine that follows the matrix it has seen last tracks it. -/
theorem Follows.tracks {distances : DistanceMatrix} (h : e.Follows distances)
    (hk : Keyed e.nodes) (ho : e.setting.Offers e.nodes e.store)
    (hd : distances.Emulated e.nodes) (hcurrent : e.tracker.current = distances)
    (hoverlay : e.tracker.overlay = some (hubOverlay e.nodes.values)) : e.Tracks where
  keyed := hk
  offers := ho
  emulated := by
    rw [hcurrent]
    exact hd
  overlay := by
    rw [hoverlay]
    rfl
  settled v hv hhub := by
    have hsettled := h v hv
    rw [SortedMap.get?_overlay, get?_hubOverlay, if_neg hhub] at hsettled
    rw [hcurrent]
    exact hsettled

/-- A step keeps the invariant, and settles the pairs of hubs too. -/
theorem applyDistances_tracks (hb : e.setting.backend.Reliable) (ht : e.setting.policy.Reliable)
    (hm : e.setting.model.Ranged) (h : e.Tracks) {distances : DistanceMatrix}
    (hd : distances.Emulated e.nodes) :
    (e.applyDistances distances).2.Tracks ∧ (e.applyDistances distances).2.Follows distances := by
  have hoverlay : (e.tracker.ensureOverlay e.nodes.values).overlay =
      some (hubOverlay e.nodes.values) :=
    congrArg some h.overlay
  have hchanged : ((e.tracker.ensureOverlay e.nodes.values).track distances).2.applyOverlay
      ((e.tracker.ensureOverlay e.nodes.values).track distances).1 =
      (distances.changesSince e.tracker.current).overlay (hubOverlay e.nodes.values) := by
    show SortedMap.overlay _ (e.tracker.overlay.getD _) = _
    rw [h.overlay]
    rfl
  rw [applyDistances]
  dsimp only
  rw [hchanged]
  split
  · rename_i hskip
    have hempty := SortedMap.isEmpty_iff.mp (Bool.and_eq_true_iff.mp hskip).1
    -- nothing has changed, and there are no hubs
    have hfollows : Follows ({ e with
        tracker := ((e.tracker.ensureOverlay e.nodes.values).track distances).2
        step := e.step + 1 } : Engine σ μ) distances := by
      intro v hv
      have hv' := hempty v.pair
      rw [SortedMap.get?_overlay, get?_hubOverlay, DistanceMatrix.get?_changesSince] at hv'
      dsimp only
      rw [SortedMap.get?_overlay, get?_hubOverlay]
      by_cases hhub : v.pair ∈ hubPairs e.nodes.values
      · rw [if_pos hhub] at hv'
        cases hv'
      · rw [if_neg hhub, Option.none_or] at hv' ⊢
        exact (h.settled v hv hhub).unchanged hm hv'
    exact ⟨hfollows.tracks h.keyed h.offers hd rfl hoverlay, hfollows⟩
  · obtain ⟨hoffers, hsettled⟩ := reconcileStep_follows hb ht hm h hd _ rfl
    exact ⟨Follows.tracks hsettled h.keyed hoffers hd rfl hoverlay, hsettled⟩

theorem applyDistances_setting (e : Engine σ μ) (distances : DistanceMatrix) :
    (e.applyDistances distances).2.setting = e.setting ∧
      (e.applyDistances distances).2.nodes = e.nodes := by
  rw [applyDistances]
  dsimp only
  split <;> exact ⟨rfl, rfl⟩

/-- Every sequence of matrices keeps the invariant. -/
theorem run_tracks [Movement μ] (hb : e.setting.backend.Reliable) (ht : e.setting.policy.Reliable)
    (hm : e.setting.model.Ranged) (h : e.Tracks) {l : List DistanceMatrix}
    (hl : ∀ m ∈ l, m.Emulated e.nodes) :
    (e.run (l.map .apply)).Tracks ∧ (e.run (l.map .apply)).setting = e.setting ∧
      (e.run (l.map .apply)).nodes = e.nodes := by
  induction l generalizing e with
  | nil => exact ⟨h, rfl, rfl⟩
  | cons m rest ih =>
    obtain ⟨htracks, _⟩ := applyDistances_tracks hb ht hm h (hl m List.mem_cons_self)
    obtain ⟨hsetting, hnodes⟩ := e.applyDistances_setting m
    have hrest : ∀ m' ∈ rest, m'.Emulated (e.applyDistances m).2.nodes := by
      intro m' hm'
      rw [hnodes]
      exact hl m' (List.mem_cons_of_mem _ hm')
    obtain ⟨h1, h2, h3⟩ := ih (e := (e.applyDistances m).2) (by rw [hsetting]; exact hb)
      (by rw [hsetting]; exact ht) (by rw [hsetting]; exact hm) htracks hrest
    exact ⟨h1, h2.trans hsetting, h3.trans hnodes⟩

/-- After a sequence of matrices every pair is as the last one asks. -/
theorem run_follows [Movement μ] (hb : e.setting.backend.Reliable) (ht : e.setting.policy.Reliable)
    (hm : e.setting.model.Ranged) (h : e.Tracks) (earlier : List DistanceMatrix)
    (last : DistanceMatrix) (hl : ∀ m ∈ earlier ++ [last], m.Emulated e.nodes) :
    e.setting.Offers e.nodes (e.run ((earlier ++ [last]).map .apply)).store ∧
      ∀ v : Visit, v.Joins e.nodes →
        e.setting.Settled v ((last.overlay (hubOverlay e.nodes.values)).get? v.pair)
          (e.run ((earlier ++ [last]).map .apply)).store := by
  obtain ⟨htracks, hsetting, hnodes⟩ := run_tracks hb ht hm h
    (fun m hm => hl m (List.mem_append_left _ hm))
  have hlast : last.Emulated (e.run (earlier.map .apply)).nodes := by
    rw [hnodes]
    exact hl last (List.mem_append_right _ List.mem_cons_self)
  obtain ⟨hsetting', hnodes'⟩ := (e.run (earlier.map .apply)).applyDistances_setting last
  obtain ⟨htracks', hfollows⟩ := applyDistances_tracks (by rw [hsetting]; exact hb)
    (by rw [hsetting]; exact ht) (by rw [hsetting]; exact hm) htracks hlast
  have hoffers := htracks'.offers
  rw [hsetting', hnodes', hsetting, hnodes] at hoffers
  rw [Follows, hsetting', hnodes', hsetting, hnodes] at hfollows
  rw [List.map_append, run_append]
  exact ⟨hoffers, hfollows⟩

/-! ### New engines -/

theorem addNodes_eq {nodes : List Node} {e' : Engine σ μ} (h : e.addNodes nodes = .ok e') :
    e' = { e with nodes := nodes.foldl (fun m n => m.insert n.id n) e.nodes } := by
  induction nodes generalizing e with
  | nil => exact (Except.ok.inj h).symm
  | cons node rest ih =>
    rw [addNodes, addNode] at h
    split at h
    · rename_i e₁ hadd
      split at hadd
      · cases hadd
      · obtain rfl := Except.ok.inj hadd
        exact ih h
    · cases h

theorem keyed_foldl {nodes : List Node} {m : SortedMap NodeId Node} (h : Keyed m) :
    Keyed (nodes.foldl (fun m n => m.insert n.id n) m) := by
  induction nodes generalizing m with
  | nil => exact h
  | cons node rest ih => exact ih (h.insert node)

/-- An engine that has only been told its nodes tracks the empty matrix. -/
theorem tracks_start {s : Setting σ} {movement : Option μ} {world : σ} {nodes : List Node}
    (h : (start s movement world).addNodes nodes = .ok e) :
    e.Tracks ∧ e.setting = s ∧ e.nodes = nodes.foldl (fun m n => m.insert n.id n) .empty := by
  rw [addNodes_eq h]
  refine ⟨⟨keyed_foldl fun id x hx => (by cases hx), Setting.offers_empty _ _, ?_, rfl, ?_⟩, rfl, rfl⟩
  · intro pair d hd
    cases hd
  · intro v _ _
    exact ⟨fun hd => (by cases hd), fun _ i c hc => (by cases hc)⟩

end Engine

/-! ### Agreement -/

/-- The same link at the same distance. -/
structure Connection.Agrees (c c' : Connection) : Prop where
  pair : c.pair = c'.pair
  interfaces : c.interfaces = c'.interfaces
  kind : c.kind = c'.kind
  distance : (c.distance == c'.distance) = true

section Agreement

variable {s : Setting σ} {s' : Setting τ} {nodes : SortedMap NodeId Node}
  {st st' : ConnectionStore} {target : NodePair → Option Distance}

/-- A link that is up in one store is up in every other one that is settled alike. -/
theorem exists_agrees (hmodel : s'.model = s.model) (hpairing : s'.pairing = s.pairing)
    (ho : s.Offers nodes st) (ho' : s'.Offers nodes st')
    (h : ∀ v : Visit, v.Joins nodes → s.Settled v (target v.pair) st)
    (h' : ∀ v : Visit, v.Joins nodes → s'.Settled v (target v.pair) st') {pair : NodePair}
    {i : InterfacePair} {c : Connection} (hc : st.active.find? pair i = some c) :
    ∃ c', st'.active.find? pair i = some c' ∧ c.Agrees c' := by
  have hw := ho.numbered.toWellFormed
  have hw' := ho'.numbered.toWellFormed
  obtain ⟨hfind, hup⟩ := hw.active_find?_iff.mp hc
  obtain ⟨v, rfl, hv, hmem, hkind, _⟩ := ho.offered hfind
  have hdecide : ∀ kind d, s'.decide kind d = s.decide kind d := by
    intro kind d
    rw [Setting.decide, Setting.decide, Setting.initial, Setting.initial, hmodel]
  have hmem' : (i.low, i.high) ∈ s'.candidates v := by
    rw [Setting.candidates, hpairing]
    exact hmem
  by_cases hnear : ∃ d, target v.pair = some d ∧ (s.decide v.kind d).connected = true
  · obtain ⟨d, hd, hconnected⟩ := hnear
    obtain ⟨x, hx, _, hdistance⟩ := (h v hv).near hd hconnected _ _ hmem
    rw [← hdecide] at hconnected
    obtain ⟨c', hc', hup', hdistance'⟩ := (h' v hv).near hd hconnected _ _ hmem'
    obtain rfl : c = x := Option.some.inj (hfind.symm.trans hx)
    obtain ⟨hpair, hi⟩ := hw.keys_eq hfind
    obtain ⟨hpair', hi'⟩ := hw'.keys_eq hc'
    exact ⟨c', hw'.active_find?_iff.mpr ⟨hc', hup'⟩, hpair.trans hpair'.symm, hi.trans hi'.symm,
      hkind.trans (ho'.at_pair hv hc').2.1.symm,
      Distance.beq_trans hdistance (Distance.beq_symm hdistance')⟩
  · have hdown := (h v hv).far (fun d hd => ?_) hfind
    · rw [hup] at hdown
      cases hdown
    · exact Bool.eq_false_iff.mpr fun hconnected => hnear ⟨d, hd, hconnected⟩

/-- Stores that are settled alike list the same links as up. -/
theorem active_agrees (hmodel : s'.model = s.model) (hpairing : s'.pairing = s.pairing)
    (ho : s.Offers nodes st) (ho' : s'.Offers nodes st')
    (h : ∀ v : Visit, v.Joins nodes → s.Settled v (target v.pair) st)
    (h' : ∀ v : Visit, v.Joins nodes → s'.Settled v (target v.pair) st') :
    List.Forall₂ Connection.Agrees st.active.connections st'.active.connections := by
  refine ho.numbered.activeFull.forall₂_connections ho'.numbered.activeFull fun pair i => ?_
  cases hc : st.active.find? pair i with
  | some c =>
    obtain ⟨c', hc', hagrees⟩ := exists_agrees hmodel hpairing ho ho' h h' hc
    rw [hc']
    exact Option.Rel.some hagrees
  | none =>
    cases hc' : st'.active.find? pair i with
    | none => exact Option.Rel.none
    | some c' =>
      obtain ⟨c, hfound, _⟩ := exists_agrees hmodel.symm hpairing.symm ho' ho h' h hc'
      rw [hc] at hfound
      cases hfound

/-- When nothing is refused and nothing fails, the links that are up after a sequence of matrices are
those of a new engine that is given the last matrix alone. -/
theorem incremental_agrees [Movement μ] [Movement ν] {initial : Shaping} {config : LinkModel.Config}
    {model : LinkModel} (hmodel : LinkModel.build initial config = .ok model) {pairing : Pairing}
    {b : Backend σ} {b' : Backend τ} (hb : b.Reliable) (hb' : b'.Reliable) {t : TunnelPolicy σ}
    {t' : TunnelPolicy τ} (ht : t.Reliable) (ht' : t'.Reliable) {movement : Option μ}
    {movement' : Option ν} {world : σ} {world' : τ} {nodes : List Node} {e : Engine σ μ}
    {e' : Engine τ ν}
    (he : (Engine.start ⟨model, pairing, b, t⟩ movement world).addNodes nodes = .ok e)
    (he' : (Engine.start ⟨model, pairing, b', t'⟩ movement' world').addNodes nodes = .ok e')
    (earlier : List DistanceMatrix) {last : DistanceMatrix}
    (hl : ∀ m ∈ earlier ++ [last], m.Emulated e.nodes) :
    List.Forall₂ Connection.Agrees (e.run ((earlier ++ [last]).map .apply)).store.active.connections
      (e'.run [.apply last]).store.active.connections := by
  have hranged := LinkModel.build_ranged hmodel
  obtain ⟨htracks, hsetting, hnodes⟩ := Engine.tracks_start he
  obtain ⟨htracks', hsetting', hnodes'⟩ := Engine.tracks_start he'
  have hsame : e'.nodes = e.nodes := hnodes'.trans hnodes.symm
  obtain ⟨hoffers, hsettled⟩ := Engine.run_follows (by rw [hsetting]; exact hb)
    (by rw [hsetting]; exact ht) (by rw [hsetting]; exact hranged) htracks earlier last hl
  obtain ⟨hoffers', hsettled'⟩ := Engine.run_follows (by rw [hsetting']; exact hb')
    (by rw [hsetting']; exact ht') (by rw [hsetting']; exact hranged) htracks' [] last
    fun m hm => by
      rw [hsame]
      exact hl m (List.mem_append_right _ hm)
  rw [hsame] at hoffers' hsettled'
  exact active_agrees (by rw [hsetting, hsetting']) (by rw [hsetting, hsetting']) hoffers hoffers'
    hsettled hsettled'

end Agreement

/-- Two nodes with an interface each. -/
def twoNodes : List Node :=
  [⟨⟨1⟩, .emulation, [⟨.mesh, 0⟩]⟩, ⟨⟨2⟩, .emulation, [⟨.mesh, 0⟩]⟩]

/-- The two nodes at a distance. -/
def apart (d : Distance) : DistanceMatrix := SortedMap.ofList [(⟨⟨1⟩, ⟨2⟩⟩, d)]

/-- An engine that knows the two nodes. -/
def twoNodeEngine : Engine Unit Stationary :=
  { Engine.start ⟨.unshaped .none, .equal, .silent, .local⟩ none () with
    nodes := twoNodes.foldl (fun m n => m.insert n.id n) .empty }

/-- The nodes are near, out of range and near again; then they are linked, as if they had been near
only once. -/
theorem return_agrees :
    List.Forall₂ Connection.Agrees
        (twoNodeEngine.run (([apart .zero, .empty] ++ [apart .zero]).map .apply)).store.active.connections
        (twoNodeEngine.run [.apply (apart .zero)]).store.active.connections ∧
      (twoNodeEngine.run [.apply (apart .zero)]).store.active.connections.length = 1 := by
  have hadd : (Engine.start ⟨.unshaped .none, .equal, .silent, .local⟩ none ()).addNodes twoNodes =
      .ok twoNodeEngine := rfl
  have hapart : (apart .zero).Emulated twoNodeEngine.nodes := by
    intro pair d hd
    have hentry := SortedMap.get?_eq_some_iff.mp hd
    obtain ⟨rfl, rfl⟩ := Prod.mk.inj (List.mem_singleton.mp hentry)
    exact ⟨_, _, rfl, rfl, rfl, rfl⟩
  have hl : ∀ m ∈ [apart .zero, .empty] ++ [apart .zero], m.Emulated twoNodeEngine.nodes := by
    intro m hm
    simp only [List.cons_append, List.nil_append, List.mem_cons, List.not_mem_nil, or_false] at hm
    rcases hm with rfl | rfl | rfl
    · exact hapart
    · intro pair d hd
      cases hd
    · exact hapart
  have hmodel : LinkModel.build .none .unshaped = .ok (.unshaped .none) := rfl
  refine ⟨?_, by decide +kernel⟩
  exact incremental_agrees hmodel reliable_silent reliable_silent reliable_local reliable_local hadd
    hadd [apart .zero, .empty] hl

end ProximityNet
