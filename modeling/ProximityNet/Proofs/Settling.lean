import ProximityNet.Proofs.Chains
import ProximityNet.Proofs.Comparisons

/-!
# What a visit achieves when nothing fails

When the backend accepts every link and neither it nor the tunnels fail, a visit to a pair of nodes
leaves the links of the pair as their distance asks: all candidates are up at that distance, or
nothing is up.

* `Backend.Reliable`, `TunnelPolicy.Reliable` — nothing is refused and nothing fails;
* `Visit.Suits` — the links of a pair are of the kind that a visit expects;
* `Visit.Turns`, `Visit.TurnsAll` — one link, or all of a list, turned up or down, the others left alone;
* `Setting.Settled` — the links of a pair are as a distance asks;
* `renewLinks_settles`, `reconcileNodes_settles` — a visit settles its pair.

The loops run over the interfaces that were up, or down, when they began, and a round changes its own
link only, so every round finds its link as it was (`loop_turns`).
-/

namespace ProximityNet

variable {σ : Type}

/-- Accepts every link, and does everything that it is asked to do. -/
structure Backend.Reliable (b : Backend σ) : Prop where
  start : ∀ site c w, ∃ answer world, b.start site c w = (.ok answer, world) ∧ answer.accepted = true
  perform : ∀ r w, ∃ world, b.perform r w = (.ok (), world)

/-- Always gets a tunnel. -/
structure TunnelPolicy.Reliable (t : TunnelPolicy σ) : Prop where
  ensure : ∀ pair w, ∃ world, t.ensure pair w = (.ok (), world)

theorem reliable_silent : (Backend.silent : Backend σ).Reliable where
  start _ _ w := ⟨.yes, w, rfl, rfl⟩
  perform _ w := ⟨w, rfl⟩

theorem reliable_local : (TunnelPolicy.local : TunnelPolicy σ).Reliable where
  ensure _ w := ⟨w, rfl⟩

theorem Backend.Reliable.shapeWorld {b : Backend σ} (h : b.Reliable) (v : Visit) (c : Connection)
    (i : InterfacePair) (shaping : Shaping) (w : σ) :
    ∃ world, v.shapeWorld b c i shaping w = (.ok (), world) :=
  h.perform _ _

namespace Visit

theorem kind_ne_management (v : Visit) : v.kind ≠ .management := by
  rw [kind]
  split <;> simp

/-- The links of a pair are of the kind that a visit expects, those to hubs at its distance. -/
structure Suits (v : Visit) (st : ConnectionStore) : Prop where
  wellFormed : st.WellFormed
  kind : ∀ {i c}, st.find? v.pair i = some c → c.kind = v.kind
  hub : ∀ {i c}, st.find? v.pair i = some c → v.kind = .central → c.distance = v.distance

/-- A link of the pair is up at the distance of the visit, or is down. -/
def Reached (v : Visit) (up : Bool) (st : ConnectionStore) (i : InterfacePair) : Prop :=
  ∃ c, st.find? v.pair i = some c ∧ c.connected = up ∧ (up = true → c.distance = v.distance)

/-- One link of the pair has been turned up or down, and the others are as they were. -/
structure Turns (v : Visit) (up : Bool) (i : InterfacePair) (st st' : ConnectionStore) : Prop where
  suits : v.Suits st'
  reached : v.Reached up st' i
  others : ∀ i', i' ≠ i → st'.find? v.pair i' = st.find? v.pair i'

/-- All links of a list have been turned up or down, and the others are as they were. -/
structure TurnsAll (v : Visit) (up : Bool) (l : List InterfacePair) (st st' : ConnectionStore) :
    Prop where
  suits : v.Suits st'
  reached : ∀ i ∈ l, v.Reached up st' i
  others : ∀ i, i ∉ l → st'.find? v.pair i = st.find? v.pair i

variable {v : Visit} {st st' st'' : ConnectionStore} {c : Connection} {i : InterfacePair} {up : Bool}

/-- When those that were up and then those that were down have been turned up, all are up. -/
theorem TurnsAll.reached_of_found (h : v.TurnsAll true (st.activeInterfaces v.pair) st st')
    (h' : v.TurnsAll true (st'.inactiveInterfaces v.pair) st' st'') (hst : st.WellFormed)
    (hc : st.find? v.pair i = some c) : v.Reached true st'' i := by
  cases hflag : c.connected with
  | true =>
    obtain ⟨x, hx, hup, hdistance⟩ :=
      h.reached i (hst.mem_activeInterfaces_iff.mpr ⟨c, hc, hflag⟩)
    have hout : i ∉ st'.inactiveInterfaces v.pair := by
      intro hin
      obtain ⟨y, hy, hdown⟩ := h.suits.wellFormed.mem_inactiveInterfaces_iff.mp hin
      rw [hx] at hy
      rw [← Option.some.inj hy, hup] at hdown
      cases hdown
    exact ⟨x, by rw [h'.others i hout, hx], hup, hdistance⟩
  | false =>
    have hout : i ∉ st.activeInterfaces v.pair := by
      intro hin
      obtain ⟨y, hy, hup⟩ := hst.mem_activeInterfaces_iff.mp hin
      rw [hc] at hy
      rw [← Option.some.inj hy, hflag] at hup
      cases hup
    have hc' : st'.find? v.pair i = some c := by rw [h.others i hout, hc]
    exact h'.reached i (h.suits.wellFormed.mem_inactiveInterfaces_iff.mpr ⟨c, hc', hflag⟩)

/-- When those that were up have been turned down, none is up. -/
theorem TurnsAll.down_of_found (h : v.TurnsAll false (st.activeInterfaces v.pair) st st')
    (hst : st.WellFormed) (hc : st'.find? v.pair i = some c) : c.connected = false := by
  by_cases hin : i ∈ st.activeInterfaces v.pair
  · obtain ⟨x, hx, hdown, _⟩ := h.reached i hin
    rw [hc] at hx
    rw [Option.some.inj hx, hdown]
  · rw [h.others i hin] at hc
    cases hflag : c.connected with
    | true => exact absurd (hst.mem_activeInterfaces_iff.mpr ⟨c, hc, hflag⟩) hin
    | false => rfl

/-- Filing a link of the pair turns it. -/
theorem Turns.file (h : v.Suits st) (hpair : c.pair = v.pair) (hi : c.interfaces = i)
    (hkind : c.kind = v.kind) (hup : c.connected = up)
    (hdistance : up = true ∨ v.kind = .central → c.distance = v.distance) :
    v.Turns up i st (st.file c) := by
  have hfind : ∀ i', (st.file c).find? v.pair i' =
      if i = i' then some c else st.find? v.pair i' := by
    intro i'
    rw [h.wellFormed.find?_file, hpair, hi]
    simp
  refine ⟨⟨h.wellFormed.file c, fun {i' x} hx => ?_, fun {i' x} hx hcentral => ?_⟩,
    ⟨c, ?_, hup, fun hyes => hdistance (Or.inl hyes)⟩, fun i' hne => ?_⟩
  · rw [hfind] at hx
    split at hx
    · rw [← Option.some.inj hx, hkind]
    · exact h.kind hx
  · rw [hfind] at hx
    split at hx
    · rw [← Option.some.inj hx, hdistance (Or.inr hcentral)]
    · exact h.hub hx hcentral
  · rw [hfind, if_pos rfl]
  · rw [hfind, if_neg hne.symm]

end Visit

namespace Setting

variable {s : Setting σ} {v : Visit} {p : Progress σ} {i : InterfacePair} {c : Connection}

/-! ### One link -/

/-- A link that does not exist is set up and comes up. -/
theorem createLink_turns (hb : s.backend.Reliable) (hv : v.Suits p.store) {ix iy : Interface}
    (decision : LinkDecision) (free : p.store.find? v.pair ⟨ix, iy⟩ = none) :
    ∃ p', s.createLink v decision ix iy p = (.ok (), p') ∧
      v.Turns true ⟨ix, iy⟩ p.store p'.store := by
  have hw := hv.wellFormed
  obtain ⟨answer, world, hstart, hyes⟩ := hb.start (v.site v.kind ix iy)
    (v.fresh v.kind ⟨ix, iy⟩ p.store) p.world
  obtain ⟨world', hcreate⟩ := hb.perform (.create (v.site v.kind ix iy)
    ((v.fresh v.kind ⟨ix, iy⟩ p.store).accepted .none answer.switch)) world
  obtain ⟨world'', hraise⟩ := hb.perform (.raise (v.site v.kind ix iy)
    ((v.fresh v.kind ⟨ix, iy⟩ p.store).accepted .none answer.switch)
    (decision.shaping.fillFrom s.initial)) world'
  have hfound : (v.established v.kind ⟨ix, iy⟩ .none answer.switch p.store).find? v.pair ⟨ix, iy⟩ =
      some ((v.fresh v.kind ⟨ix, iy⟩ p.store).accepted .none answer.switch) :=
    hw.freshId.find?_file_self rfl rfl
  have hestablished : (v.established v.kind ⟨ix, iy⟩ .none answer.switch p.store).WellFormed :=
    hw.freshId.file _
  refine ⟨⟨(v.established v.kind ⟨ix, iy⟩ .none answer.switch p.store).file
    (((v.fresh v.kind ⟨ix, iy⟩ p.store).accepted .none answer.switch).raised v.distance
      (decision.shaping.fillFrom s.initial)), p.report.countCreated.countUp, world''⟩, ?_, ?_⟩
  · rw [createLink, Work.bind_connections, free]
    dsimp only [Option.isSome]
    rw [if_neg Bool.false_ne_true, Work.bind_of_ok (setUp_of_ok hw hstart hyes hcreate), if_pos rfl]
    exact bringUp_of_ok hestablished hfound hraise
  · dsimp only
    rw [established_file hw]
    have hfresh : v.Suits p.store.freshId.2 := ⟨hw.freshId, hv.kind, hv.hub⟩
    have hturns := Visit.Turns.file (c := ((v.fresh v.kind ⟨ix, iy⟩ p.store).accepted .none
      answer.switch).raised v.distance (decision.shaping.fillFrom s.initial)) hfresh rfl rfl rfl rfl
      fun _ => rfl
    exact ⟨hturns.suits, hturns.reached, hturns.others⟩

/-- A link that is up is shaped or taken down. -/
theorem renewLink_turns (hb : s.backend.Reliable) (hv : v.Suits p.store)
    (found : p.store.find? v.pair i = some c) (up : c.connected = true) :
    ∃ p', s.renewLink v (s.decide v.kind v.distance) i p = (.ok (), p') ∧
      v.Turns (s.decide v.kind v.distance).connected i p.store p'.store := by
  obtain ⟨hpair, hi⟩ := hv.wellFormed.keys_eq found
  have hkind := hv.kind found
  rw [renewLink, Work.bind_of_ok (Work.stored_of_some found)]
  cases hv' : v.kind with
  | management => exact absurd hv' v.kind_ne_management
  | central =>
    obtain ⟨world, hshape⟩ := hb.shapeWorld v c i s.initial p.world
    rw [hkind, hv']
    dsimp only
    rw [Work.bind_of_ok (shape_of_ok hshape)]
    refine ⟨_, rfl, hv, ⟨c, found, ?_, fun _ => hv.hub found hv'⟩, fun _ _ => rfl⟩
    rw [up, decide, if_pos rfl]
    rfl
  | user =>
    rw [hkind, hv']
    dsimp only
    cases hnear : (s.decide .user v.distance).connected with
    | true =>
      rw [if_pos rfl]
      generalize (if v.step = 0 then (s.decide .user v.distance).shaping.fillFrom s.initial
        else (s.decide .user v.distance).shaping) = shaping
      obtain ⟨world, hshape⟩ := hb.shapeWorld v c i shaping p.world
      have hmodify : p.store.modify v.pair i (fun c =>
          { c with shaping := shaping.fillFrom c.shaping, distance := v.distance }) =
          p.store.file (c.adjusted v.distance shaping) :=
        hv.wellFormed.modify_eq found rfl rfl rfl
      rw [Work.bind_of_ok (shape_of_ok hshape)]
      refine ⟨⟨p.store.modify v.pair i _, p.report.countAdjusted, world⟩, rfl, ?_⟩
      rw [hmodify]
      exact .file hv hpair hi hkind up fun _ => rfl
    | false =>
      rw [if_neg Bool.false_ne_true]
      obtain ⟨world, hlower⟩ := hb.perform (.lower (v.site c.kind i.low i.high) c
        (s.decide .user v.distance).shaping) p.world
      rw [takeDown_of_ok hv.wellFormed found hlower]
      exact ⟨_, rfl, .file (c := c.lowered v.distance) hv hpair hi hkind rfl fun _ => rfl⟩

/-- A link that is down comes up. -/
theorem reviveLink_turns (hb : s.backend.Reliable) (hv : v.Suits p.store)
    (found : p.store.find? v.pair i = some c) (decision : LinkDecision) :
    ∃ p', s.reviveLink v decision i p = (.ok (), p') ∧ v.Turns true i p.store p'.store := by
  obtain ⟨hpair, hi⟩ := hv.wellFormed.keys_eq found
  obtain ⟨world, hraise⟩ := hb.perform (.raise (v.site c.kind i.low i.high) c decision.shaping)
    p.world
  have hkind := hv.kind found
  refine ⟨⟨p.store.file (c.raised v.distance decision.shaping), p.report.countUp, world⟩, ?_, ?_⟩
  · rw [reviveLink, Work.bind_of_ok (Work.stored_of_some found)]
    exact bringUp_of_ok hv.wellFormed found hraise
  · exact .file (c := c.raised v.distance decision.shaping) hv hpair hi hkind rfl fun _ => rfl

/-! ### The links of a pair -/

/-- A loop over links that are all up, or all down, when it begins turns each of them. -/
theorem loop_turns (up was : Bool) {g : InterfacePair → Work σ Unit} {l : List InterfacePair}
    (hl : l.Nodup) (hv : v.Suits p.store)
    (all : ∀ i ∈ l, ∃ c, p.store.find? v.pair i = some c ∧ c.connected = was)
    (round : ∀ i q c, v.Suits q.store → q.store.find? v.pair i = some c → c.connected = was →
      ∃ q', g i q = (.ok (), q') ∧ v.Turns up i q.store q'.store) :
    ∃ p', l.forM g p = (.ok (), p') ∧ v.TurnsAll up l p.store p'.store := by
  induction l generalizing p with
  | nil => exact ⟨p, rfl, hv, fun i hi => absurd hi List.not_mem_nil, fun _ _ => rfl⟩
  | cons i rest ih =>
    obtain ⟨hi, hrest⟩ := List.nodup_cons.mp hl
    obtain ⟨c, found, hwas⟩ := all i List.mem_cons_self
    obtain ⟨q, hq, hturns⟩ := round i p c hv found hwas
    have hother : ∀ i' ∈ rest, i' ≠ i := by
      rintro i' hi' rfl
      exact hi hi'
    obtain ⟨p', hp', hall⟩ := ih (p := q) hrest hturns.suits fun i' hi' => by
      rw [hturns.others i' (hother i' hi')]
      exact all i' (List.mem_cons_of_mem _ hi')
    refine ⟨p', (Work.forM_cons_of_ok rest hq).trans hp', hall.suits, fun i' hi' => ?_,
      fun i' hi' => ?_⟩
    · rcases List.mem_cons.mp hi' with rfl | hi'
      · -- later rounds leave this link alone
        obtain ⟨x, hx, hup, hdistance⟩ := hturns.reached
        exact ⟨x, by rw [hall.others _ hi, hx], hup, hdistance⟩
      · exact hall.reached i' hi'
    · rw [List.mem_cons, not_or] at hi'
      rw [hall.others i' hi'.2, hturns.others i' hi'.1]

/-- After the candidates have been gone through all of them exist. -/
theorem createLinks_stored (hb : s.backend.Reliable) (hv : v.Suits p.store)
    (decision : LinkDecision) (l : List (Interface × Interface)) :
    ∃ p', (l.forM (fun (ix, iy) => s.createLink v decision ix iy) : Work σ Unit) p = (.ok (), p') ∧
      v.Suits p'.store ∧ (∀ e ∈ l, ∃ c, p'.store.find? v.pair ⟨e.1, e.2⟩ = some c) ∧
      ∀ i c, p.store.find? v.pair i = some c → p'.store.find? v.pair i = some c := by
  induction l generalizing p with
  | nil => exact ⟨p, rfl, hv, fun e he => absurd he List.not_mem_nil, fun _ _ hc => hc⟩
  | cons e rest ih =>
    obtain ⟨ix, iy⟩ := e
    have hround : ∃ q, s.createLink v decision ix iy p = (.ok (), q) ∧ v.Suits q.store ∧
        (∃ c, q.store.find? v.pair ⟨ix, iy⟩ = some c) ∧
        ∀ i c, p.store.find? v.pair i = some c → q.store.find? v.pair i = some c := by
      cases hfind : p.store.find? v.pair ⟨ix, iy⟩ with
      | some c =>
        refine ⟨p, ?_, hv, ⟨c, hfind⟩, fun _ _ hc => hc⟩
        rw [createLink, Work.bind_connections, hfind]
        rfl
      | none =>
        obtain ⟨q, hq, hturns⟩ := createLink_turns hb hv decision hfind
        obtain ⟨c, hc, _⟩ := hturns.reached
        refine ⟨q, hq, hturns.suits, ⟨c, hc⟩, fun i x hx => ?_⟩
        have hne : i ≠ ⟨ix, iy⟩ := by
          rintro rfl
          rw [hfind] at hx
          cases hx
        rw [hturns.others i hne, hx]
    obtain ⟨q, hq, hsuits, ⟨c, hc⟩, hkept⟩ := hround
    obtain ⟨p', hp', hsuits', hall, hkept'⟩ := ih (p := q) hsuits
    refine ⟨p', (Work.forM_cons_of_ok rest hq).trans hp', hsuits', fun e he => ?_,
      fun i x hx => hkept' i x (hkept i x hx)⟩
    rcases List.mem_cons.mp he with rfl | he
    · exact ⟨c, hkept' _ c hc⟩
    · exact hall e he

/-- The links of a pair are as a distance asks: all candidates are up at that distance if it connects,
and otherwise, or if there is none, nothing is up. -/
structure Settled (s : Setting σ) (v : Visit) (target : Option Distance) (st : ConnectionStore) :
    Prop where
  near : ∀ {d}, target = some d → (s.decide v.kind d).connected = true →
    ∀ ix iy, (ix, iy) ∈ s.candidates v → ∃ c, st.find? v.pair ⟨ix, iy⟩ = some c ∧
      c.connected = true ∧ (c.distance == d) = true
  far : (∀ d, target = some d → (s.decide v.kind d).connected = false) →
    ∀ {i c}, st.find? v.pair i = some c → c.connected = false

/-- When nothing fails the links of a pair get as its distance asks. -/
theorem renewLinks_settles (hb : s.backend.Reliable) (hv : v.Suits p.store) :
    ∃ p', s.renewLinks v (s.decide v.kind v.distance) p = (.ok (), p') ∧
      s.Settled v (some v.distance) p'.store := by
  have renew : ∀ q : Progress σ, v.Suits q.store → ∃ q',
      (q.store.activeInterfaces v.pair).forM (s.renewLink v (s.decide v.kind v.distance)) q =
        (.ok (), q') ∧
      v.TurnsAll (s.decide v.kind v.distance).connected (q.store.activeInterfaces v.pair) q.store
        q'.store := by
    intro q hq
    refine loop_turns _ true (ConnectionStore.activeInterfaces_nodup _ _) hq (fun i hi => ?_)
      fun i q c hq found up => renewLink_turns hb hq found up
    exact hq.wellFormed.mem_activeInterfaces_iff.mp hi
  rw [renewLinks]
  cases hnear : (s.decide v.kind v.distance).connected with
  | true =>
    rw [hnear] at renew
    obtain ⟨q, hq, hqs, hstored, _⟩ := createLinks_stored hb hv (s.decide v.kind v.distance)
      (s.candidates v)
    rw [if_pos rfl, Work.bind_of_ok hq]
    beta_reduce
    rw [Work.bind_connections]
    obtain ⟨q', hq', hturned⟩ := renew q hqs
    rw [Work.bind_of_ok hq', if_pos rfl, Work.bind_connections]
    obtain ⟨p', hp', hturned'⟩ := loop_turns true false
      (ConnectionStore.inactiveInterfaces_nodup q'.store v.pair) hturned.suits
      (fun i hi => hturned.suits.wellFormed.mem_inactiveInterfaces_iff.mp hi)
      fun i q c hq found _ => reviveLink_turns hb hq found (s.decide v.kind v.distance)
    refine ⟨p', hp', fun {d} hd _ ix iy hmem => ?_, fun hfar => ?_⟩
    · obtain rfl := Option.some.inj hd
      obtain ⟨c, hc⟩ := hstored (ix, iy) hmem
      obtain ⟨x, hx, hup, hdistance⟩ := hturned.reached_of_found hturned' hqs.wellFormed hc
      refine ⟨x, hx, hup, ?_⟩
      rw [hdistance rfl]
      exact Distance.beq_self _
    · have hfar' := hfar _ rfl
      rw [hnear] at hfar'
      cases hfar'
  | false =>
    rw [hnear] at renew
    rw [if_neg Bool.false_ne_true]
    beta_reduce
    rw [Work.bind_connections]
    obtain ⟨q, hq, hturned⟩ := renew p hv
    rw [Work.bind_of_ok hq]
    refine ⟨q, rfl, fun {d} hd hconnected => ?_, fun _ {i c} hc => ?_⟩
    · rw [← Option.some.inj hd, hnear] at hconnected
      cases hconnected
    · exact hturned.down_of_found hv.wellFormed hc

/-! ### A visit -/

/-- Only the nodes and the pair of a visit matter. -/
theorem Settled.congr {v' : Visit} {target : Option Distance} {st : ConnectionStore}
    (h : s.Settled v target st) (hx : v'.x = v.x) (hy : v'.y = v.y) (hpair : v'.pair = v.pair) :
    s.Settled v' target st := by
  obtain ⟨x, y, pair, _, _, _⟩ := v
  obtain ⟨x', y', pair', _, _, _⟩ := v'
  obtain ⟨rfl, rfl, rfl⟩ : x' = x ∧ y' = y ∧ pair' = pair := ⟨hx, hy, hpair⟩
  exact ⟨h.near, h.far⟩

/-- A tunnel is there, and the links are as they were. -/
theorem ensureTunnel_of_reliable (ht : s.policy.Reliable) (x y : NodeId) (pair : NodePair)
    (p : Progress σ) :
    ∃ b p', s.ensureTunnel x y pair p = (.ok b, p') ∧ p'.store = p.store := by
  rw [ensureTunnel]
  split
  · obtain ⟨world, hensure⟩ := ht.ensure pair p.world
    rw [hensure]
    exact ⟨true, { p with world }, rfl, rfl⟩
  · exact ⟨false, p, rfl, rfl⟩

/-- A visit to two nodes settles the links between them. -/
theorem reconcileNodes_settles (hb : s.backend.Reliable) (ht : s.policy.Reliable)
    (hv : v.Suits p.store) (hx : v.x.isManagement = false) (hy : v.y.isManagement = false) :
    ∃ p', s.reconcileNodes v.step v.pair v.distance v.x v.y p = (.ok (), p') ∧
      s.Settled v (some v.distance) p'.store := by
  have hplain : ¬ (v.x.isManagement || v.y.isManagement) = true := by
    rw [hx, hy]
    exact Bool.false_ne_true
  have hrun : s.reconcileNodes v.step v.pair v.distance v.x v.y p =
      (if (s.decide v.kind v.distance).connected || p.store.containsPair v.pair then do
        let isRemote ← s.ensureTunnel v.x.id v.y.id v.pair
        s.renewLinks { v with isRemote } (s.decide v.kind v.distance)
      else pure () : Work σ Unit) p := by
    rw [reconcileNodes, if_neg hplain]
    rfl
  rw [hrun]
  by_cases hneeded : ((s.decide v.kind v.distance).connected || p.store.containsPair v.pair) = true
  · obtain ⟨b, q, hq, hstore⟩ := ensureTunnel_of_reliable ht v.x.id v.y.id v.pair p
    have hvq : ({ v with isRemote := b } : Visit).Suits q.store := by
      rw [hstore]
      exact ⟨hv.wellFormed, hv.kind, hv.hub⟩
    obtain ⟨p', hp', hsettled⟩ := renewLinks_settles hb hvq
    refine ⟨p', ?_, hsettled.congr rfl rfl rfl⟩
    rw [if_pos hneeded, Work.bind_of_ok hq]
    exact hp'
  · -- nothing is done where there is nothing to do
    rw [if_neg hneeded]
    rw [Bool.or_eq_true, not_or] at hneeded
    refine ⟨p, rfl, fun {d} hd hconnected => ?_, fun _ {i c} hc => ?_⟩
    · rw [← Option.some.inj hd] at hconnected
      exact absurd hconnected hneeded.1
    · exact absurd (hv.wellFormed.containsPair_iff.mpr ⟨i, c, hc⟩) hneeded.2

end Setting

end ProximityNet
