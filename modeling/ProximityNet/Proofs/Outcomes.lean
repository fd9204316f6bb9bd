import ProximityNet.Proofs.Blocks
import ProximityNet.Proofs.Linking
import ProximityNet.Proofs.ManagementRoutes

/-!
# What comes of a visit that is not reported

A pair of nodes may come to a step with links that are up, links that are down and links that were
never set up, as earlier steps were vetoed or failed.  A visit goes over candidates, then over what
is up, then over what is down, and writes distance and shaping in three places.  If it gets to its
end all links of the pair are as the decision of the model has them.

* `Shaping.Obeys` — a shaping that has everything another one sets;
* `LinkDecision.MetBy`, `Setting.Meets` — a link that is as the decision for a visit has it;
* `renewLink_meets`, `reviveLink_meets`, `loop_meets` — a round, and the rounds of a loop;
* `createLinks_offered` — a candidate is stored after its turn, or was vetoed;
* `Setting.Outcome`, `renewLinks_outcome`, `reconcileAll_outcome` — the visit, and the whole step;
* `ReachableBy.managed` — only pairs with the management node have links to it;
* `unreported_pair_settled` — every pair of emulation nodes that is not reported.
-/

namespace ProximityNet

variable {σ μ : Type}

/-- Everything that `b` sets is so in `a`. -/
structure Shaping.Obeys (a b : Shaping) : Prop where
  bandwidth : ∀ n, b.bandwidthKbit = some n → a.bandwidthKbit = some n
  loss : ∀ x, b.lossPercent = some x → a.lossPercent = some x
  delay : ∀ x, b.delayMs = some x → a.delayMs = some x

theorem Shaping.obeys_fillFrom (a b : Shaping) : (a.fillFrom b).Obeys a := by
  refine ⟨fun n h => ?_, fun x h => ?_, fun x h => ?_⟩ <;> simp [fillFrom, h]

/-! ### One link -/

/-- The store has unique ids, and all links of the pair are for users. -/
structure Visit.Plain (v : Visit) (st : ConnectionStore) : Prop where
  numbered : st.Numbered
  kind : ∀ i c, st.find? v.pair i = some c → c.kind = .user

/-- A link is as a decision has it at a distance: it is down, or it is up at that distance and has
everything that the shaping of the decision sets. -/
structure LinkDecision.MetBy (d : LinkDecision) (distance : Distance) (c : Connection) : Prop where
  connected : c.connected = d.connected
  near : d.connected = true → c.distance = distance ∧ c.shaping.Obeys d.shaping

namespace Setting

/-- A link is as the decision for a visit has it. -/
abbrev Meets (s : Setting σ) (v : Visit) (c : Connection) : Prop :=
  (s.decide v.kind v.distance).MetBy v.distance c

variable {s : Setting σ} {v : Visit} {p p' : Progress σ} {i : InterfacePair} {c : Connection}

theorem Moves.plain (h : s.Moves (.follow v) p p') (hv : v.kind = .user) (hp : v.Plain p.store) :
    v.Plain p'.store := by
  induction h with
  | refl => exact hp
  | @tail q q' _ hmove ih =>
    have hs' := hmove.numbered ih.numbered
    have hall : q'.store.All fun c => c.pair = v.pair → c.kind = .user := by
      refine hmove.files.all ih.numbered (fun l switch hl => ?_) (fun c c' hcc' hc => ?_) ?_
      · cases hl
        exact fun _ => hv
      · rw [hcc'.pair, hcc'.kind]
        exact hc
      · intro pair i c hc hpair
        rw [(ih.numbered.keys_eq hc).1] at hpair
        exact ih.kind i c (hpair ▸ hc)
    exact ⟨hs', fun i c hc => hall _ i c hc (hs'.keys_eq hc).1⟩

/-- A visit takes no link away. -/
theorem Moves.stays (h : s.Moves (.follow v) p p') (hs : p.store.Numbered)
    (hc : ∃ c, p.store.find? v.pair i = some c) : ∃ c, p'.store.find? v.pair i = some c := by
  induction h with
  | refl => exact hc
  | tail hmoves hmove ih =>
    obtain ⟨c, hc⟩ := ih
    obtain ⟨c', hc', -⟩ := hmove.files.persists (Moves.numbered hmoves hs) hc
    exact ⟨c', hc'⟩

/-- A link of the pair that is filed is found. -/
theorem meets_file {st : ConnectionStore} (hst : st.WellFormed) (hpair : c.pair = v.pair)
    (hi : c.interfaces = i) (hc : s.Meets v c) :
    ∃ c', (st.file c).find? v.pair i = some c' ∧ s.Meets v c' :=
  ⟨c, hst.find?_file_self hpair hi, hc⟩

/-- A link that is up is shaped, or taken down. -/
theorem renewLink_meets (hp : v.Plain p.store)
    (found : p.store.find? v.pair i = some c) (up : c.connected = true)
    (h : s.renewLink v (s.decide v.kind v.distance) i p = (.ok (), p')) :
    ∃ c', p'.store.find? v.pair i = some c' ∧ s.Meets v c' := by
  have hw := hp.numbered.toWellFormed
  obtain ⟨hpair, hi⟩ := hw.keys_eq found
  rw [renewLink, Work.bind_of_ok (Work.stored_of_some found), hp.kind i c found] at h
  dsimp only at h
  cases hnear : (s.decide v.kind v.distance).connected with
  | true =>
    rw [hnear, if_pos rfl] at h
    generalize hq : (if v.step = 0 then (s.decide v.kind v.distance).shaping.fillFrom s.initial
      else (s.decide v.kind v.distance).shaping) = shaping at h
    have hobeys : (c.adjusted v.distance shaping).shaping.Obeys
        (s.decide v.kind v.distance).shaping := by
      show (shaping.fillFrom c.shaping).Obeys _
      rw [← hq]
      split
      · rw [Shaping.fillFrom_assoc]
        exact Shaping.obeys_fillFrom _ _
      · exact Shaping.obeys_fillFrom _ _
    have hmodify : p.store.modify v.pair i (fun c =>
        { c with shaping := shaping.fillFrom c.shaping, distance := v.distance }) =
        p.store.file (c.adjusted v.distance shaping) := hw.modify_eq found rfl rfl rfl
    rcases hshape : v.shapeWorld s.backend c i shaping p.world with ⟨e | u, world⟩
    · rw [Work.bind_of_error (shape_of_error hshape)] at h
      cases h
    · rw [Work.bind_of_ok (shape_of_ok hshape)] at h
      rw [← (Prod.mk.inj h).2]
      show ∃ c', (p.store.modify v.pair i _).find? v.pair i = some c' ∧ _
      rw [hmodify]
      exact meets_file hw hpair hi ⟨up.trans hnear.symm, fun _ => ⟨rfl, hobeys⟩⟩
  | false =>
    rw [hnear, if_neg Bool.false_ne_true] at h
    rcases hlower : s.backend.perform (.lower (v.site c.kind i.low i.high) c
      (s.decide v.kind v.distance).shaping) p.world with ⟨e | u, world⟩
    · rw [takeDown_of_error hlower] at h
      cases h
    · rw [takeDown_of_ok hw found hlower] at h
      rw [← (Prod.mk.inj h).2]
      refine meets_file (c := c.lowered v.distance) hw hpair hi ⟨hnear.symm, fun hyes => ?_⟩
      rw [hnear] at hyes
      cases hyes

/-- A link that is down is brought up. -/
theorem reviveLink_meets (hp : v.Plain p.store)
    (near : (s.decide v.kind v.distance).connected = true)
    (found : p.store.find? v.pair i = some c)
    (h : s.reviveLink v (s.decide v.kind v.distance) i p = (.ok (), p')) :
    ∃ c', p'.store.find? v.pair i = some c' ∧ s.Meets v c' := by
  have hw := hp.numbered.toWellFormed
  obtain ⟨hpair, hi⟩ := hw.keys_eq found
  rw [reviveLink, Work.bind_of_ok (Work.stored_of_some found)] at h
  rcases hraise : s.backend.perform (.raise (v.site c.kind i.low i.high) c
    (s.decide v.kind v.distance).shaping) p.world with ⟨e | u, world⟩
  · rw [bringUp_of_error found hraise] at h
    cases h
  · rw [bringUp_of_ok hw found hraise] at h
    rw [← (Prod.mk.inj h).2]
    exact meets_file (c := c.raised v.distance (s.decide v.kind v.distance).shaping) hw hpair hi
      ⟨near.symm, fun _ => ⟨rfl, Shaping.obeys_fillFrom _ _⟩⟩

/-! ### The links of a pair -/

/-- A loop over links that are all up, or all down, when it begins: if it gets to its end every one
of them is as the decision has it, and the others are as they were. -/
theorem loop_meets {g : InterfacePair → Work σ Unit} {b : Bool} {l : List InterfacePair}
    (hl : l.Nodup) (hp : v.Plain p.store) (hv : v.kind = .user)
    (all : ∀ i ∈ l, ∃ c, p.store.find? v.pair i = some c ∧ c.connected = b)
    (round : ∀ i q c, v.Plain q.store → q.store.find? v.pair i = some c → c.connected = b →
      s.AtMost (.follow v) i q (g i q).2 ∧ ∀ q', g i q = (.ok (), q') →
        ∃ c', q'.store.find? v.pair i = some c' ∧ s.Meets v c')
    (h : l.forM g p = (.ok (), p')) :
    (∀ i ∈ l, ∃ c, p'.store.find? v.pair i = some c ∧ s.Meets v c) ∧
      (∀ i, i ∉ l → p'.store.find? v.pair i = p.store.find? v.pair i) ∧
      s.Moves (.follow v) p p' := by
  induction l generalizing p with
  | nil =>
    obtain rfl := (Prod.mk.inj h).2
    exact ⟨fun i hi => absurd hi List.not_mem_nil, fun _ _ => rfl, .refl⟩
  | cons i rest ih =>
    obtain ⟨hi, hrest⟩ := List.nodup_cons.mp hl
    obtain ⟨c, found, hflag⟩ := all i List.mem_cons_self
    obtain ⟨q, hfirst, hloop⟩ := Work.ok_of_forM_cons h
    obtain ⟨hmost, hmeets⟩ := round i p c hp found hflag
    have hothers : ∀ j, j ≠ i → (g i p).2.store.find? v.pair j = p.store.find? v.pair j := hmost.2
    rw [hfirst] at hmost hothers
    obtain ⟨hall, hkept, hmoves⟩ := ih hrest (Moves.plain hmost.moves hv hp) (fun j hj => by
      rw [hothers j fun heq => hi (heq ▸ hj)]
      exact all j (List.mem_cons_of_mem i hj)) hloop
    refine ⟨fun j hj => ?_, fun j hj => ?_, hmost.moves.trans hmoves⟩
    · rcases List.mem_cons.mp hj with rfl | hj
      · -- later rounds leave this link alone
        rw [hkept _ hi]
        exact hmeets q hfirst
      · exact hall j hj
    · rw [hkept j (List.not_mem_of_not_mem_cons hj), hothers j (List.ne_of_not_mem_cons hj)]

/-- What renewing comes to, if it gets to its end: links that were up are as the decision has them,
and the others are as they were. -/
theorem renewals_meet (hp : v.Plain p.store) (hv : v.kind = .user)
    (h : (p.store.activeInterfaces v.pair).forM (s.renewLink v (s.decide v.kind v.distance)) p =
      (.ok (), p')) :
    (∀ i ∈ p.store.activeInterfaces v.pair, ∃ c, p'.store.find? v.pair i = some c ∧ s.Meets v c) ∧
      (∀ i, i ∉ p.store.activeInterfaces v.pair →
        p'.store.find? v.pair i = p.store.find? v.pair i) ∧
      s.Moves (.follow v) p p' :=
  loop_meets (ConnectionStore.activeInterfaces_nodup _ _) hp hv
    (fun _ hi => hp.numbered.mem_activeInterfaces_iff.mp hi)
    (fun _ _ _ hq found up => ⟨renewLink_move hq.numbered found up,
      fun _ => renewLink_meets hq found up⟩) h

theorem revivals_meet (hp : v.Plain p.store) (hv : v.kind = .user)
    (near : (s.decide v.kind v.distance).connected = true)
    (h : (p.store.inactiveInterfaces v.pair).forM (s.reviveLink v (s.decide v.kind v.distance)) p =
      (.ok (), p')) :
    (∀ i ∈ p.store.inactiveInterfaces v.pair, ∃ c, p'.store.find? v.pair i = some c ∧ s.Meets v c) ∧
      (∀ i, i ∉ p.store.inactiveInterfaces v.pair →
        p'.store.find? v.pair i = p.store.find? v.pair i) ∧
      s.Moves (.follow v) p p' :=
  loop_meets (ConnectionStore.inactiveInterfaces_nodup _ _) hp hv
    (fun _ hi => hp.numbered.mem_inactiveInterfaces_iff.mp hi)
    (fun _ _ _ hq found down => ⟨reviveLink_move hq.numbered near found down,
      fun _ => reviveLink_meets hq near found⟩) h

/-- In range: once the candidates have been gone through, all links that there are get as the decision
has them. -/
theorem renewLinks_near (hp : v.Plain p.store) (hv : v.kind = .user)
    (near : (s.decide v.kind v.distance).connected = true)
    (h : s.renewLinks v (s.decide v.kind v.distance) p = (.ok (), p')) :
    ∃ q, (s.candidates v).forM (fun e => s.createLink v (s.decide v.kind v.distance) e.1 e.2) p =
        (.ok (), q) ∧ v.Plain q.store ∧ s.Moves (.follow v) q p' ∧
      ∀ i c, p'.store.find? v.pair i = some c → s.Meets v c := by
  rw [renewLinks, near, if_pos rfl] at h
  obtain ⟨u, q, hcreate, h⟩ := Work.ok_of_bind h
  have hq : v.Plain q.store := by
    have hmoves := createLinks_moves hp.numbered near fun _ he => he
    rw [hcreate] at hmoves
    exact Moves.plain hmoves hv hp
  beta_reduce at h
  rw [Work.bind_connections] at h
  obtain ⟨u, q', hrenew, h⟩ := Work.ok_of_bind h
  obtain ⟨hrenewed, hkept, hmoves⟩ := renewals_meet hq hv hrenew
  have hq' := Moves.plain hmoves hv hq
  rw [if_pos rfl, Work.bind_connections] at h
  obtain ⟨hrevived, hkept', hmoves'⟩ := revivals_meet hq' hv near h
  refine ⟨q, hcreate, hq, hmoves.trans hmoves', fun i c hc => ?_⟩
  by_cases hdown : i ∈ q'.store.inactiveInterfaces v.pair
  · obtain ⟨c', hc', hmeets⟩ := hrevived i hdown
    obtain rfl := Option.some.inj (hc'.symm.trans hc)
    exact hmeets
  · -- what is not down after renewing was up before it, as renewing is the same for all others
    rw [hkept' i hdown] at hc
    have hup : i ∈ q.store.activeInterfaces v.pair := by
      by_contra hout
      rw [hkept i hout] at hc
      cases hflag : c.connected with
      | true => exact hout (hq.numbered.mem_activeInterfaces_iff.mpr ⟨c, hc, hflag⟩)
      | false =>
        rw [← hkept i hout] at hc
        exact hdown (hq'.numbered.mem_inactiveInterfaces_iff.mpr ⟨c, hc, hflag⟩)
    obtain ⟨c', hc', hmeets⟩ := hrenewed i hup
    obtain rfl := Option.some.inj (hc'.symm.trans hc)
    exact hmeets

/-- Out of range: links that are up are taken down, and there are no others than before. -/
theorem renewLinks_far (hp : v.Plain p.store) (hv : v.kind = .user)
    (far : (s.decide v.kind v.distance).connected = false)
    (h : s.renewLinks v (s.decide v.kind v.distance) p = (.ok (), p')) (i : InterfacePair) :
    (∀ c, p'.store.find? v.pair i = some c → s.Meets v c) ∧
      (p.store.find? v.pair i = none → p'.store.find? v.pair i = none) := by
  rw [renewLinks, far, if_neg Bool.false_ne_true] at h
  beta_reduce at h
  rw [Work.bind_connections] at h
  obtain ⟨u, q, hrenew, hend⟩ := Work.ok_of_bind h
  obtain rfl := (Prod.mk.inj hend).2
  obtain ⟨hrenewed, hkept, -⟩ := renewals_meet hp hv hrenew
  by_cases hup : i ∈ p.store.activeInterfaces v.pair
  · obtain ⟨c', hc', hmeets⟩ := hrenewed i hup
    refine ⟨fun c hc => ?_, fun hnone => ?_⟩
    · obtain rfl := Option.some.inj (hc'.symm.trans hc)
      exact hmeets
    · obtain ⟨c, hc, -⟩ := hp.numbered.mem_activeInterfaces_iff.mp hup
      rw [hnone] at hc
      cases hc
  · rw [hkept i hup]
    refine ⟨fun c hc => ⟨?_, fun hnear => ?_⟩, id⟩
    · rw [far]
      exact Bool.eq_false_iff.mpr fun hflag =>
        hup (hp.numbered.mem_activeInterfaces_iff.mpr ⟨c, hc, hflag⟩)
    · rw [far] at hnear
      cases hnear

/-! ### Candidates -/

section Candidates

variable {s : Setting σ} {p p' : Progress (σ × List Exchange)} {ix iy : Interface}

/-- The link over two interfaces is stored, or was vetoed. -/
def Offered (v : Visit) (p : Progress (σ × List Exchange)) (ix iy : Interface) : Prop :=
  (∃ c, p.store.find? v.pair ⟨ix, iy⟩ = some c) ∨
    ∃ x ∈ p.world.2, x.vetoes = true ∧ x.key? = some ⟨v.pair, ⟨ix, iy⟩⟩

/-- Nothing takes that back while links stay and the record goes on. -/
theorem Offered.mono (h : Offered v p ix iy)
    (hstays : ∀ c, p.store.find? v.pair ⟨ix, iy⟩ = some c →
      ∃ c', p'.store.find? v.pair ⟨ix, iy⟩ = some c')
    {P : Exchange → Prop} (htold : Adds P p.world.2 p'.world.2) : Offered v p' ix iy := by
  refine h.imp (fun hc => hc.elim hstays) fun hvetoed => ?_
  obtain ⟨x, hx, hveto⟩ := hvetoed
  obtain ⟨l, hl, -⟩ := htold
  exact ⟨x, by rw [hl]; exact List.mem_append_left l hx, hveto⟩

theorem Offered.after (h : Offered v p ix iy) (hs : p.store.Numbered)
    (hmoves : s.recorded.Moves (.follow v) p p') : Offered v p' ix iy := by
  have hproceeds : Relation.ReflTransGen (s.recorded.Proceeds fun t => t = .follow v) p p' :=
    Moves.proceeds rfl hmoves
  exact h.mono (fun _ hc => Moves.stays hmoves hs ⟨_, hc⟩) (proceeds_told hproceeds hs)

theorem createLink_offered (hs : p.store.Numbered)
    (h : s.recorded.createLink v (s.decide v.kind v.distance) ix iy p = (.ok (), p')) :
    Offered v p' ix iy := by
  cases hfind : p.store.find? v.pair ⟨ix, iy⟩ with
  | some c =>
    rw [createLink, Work.bind_connections, hfind] at h
    obtain rfl := (Prod.mk.inj h).2
    exact Or.inl ⟨c, hfind⟩
  | none =>
    obtain ⟨a, ⟨l, hl, hattempt⟩, hends, hleaves⟩ := createLink_attempt (s := s) hs hfind
    rw [h] at hl hends hleaves
    cases a with
    | failed => cases hends
    | raised c => exact Or.inl ⟨c, hleaves⟩
    | refused =>
      cases hattempt with
      | refused id no =>
        refine Or.inr ⟨_, by rw [hl]; exact List.mem_append_right _ (List.mem_singleton_self _), ?_⟩
        exact ⟨by rw [Exchange.vetoes, no]; rfl, rfl⟩

/-- Every candidate is stored after its turn, or was vetoed. -/
theorem createLinks_offered (near : (s.decide v.kind v.distance).connected = true)
    {cs : List (Interface × Interface)} (hcs : ∀ e ∈ cs, e ∈ s.candidates v)
    (hs : p.store.Numbered)
    (h : cs.forM (fun e => s.recorded.createLink v (s.decide v.kind v.distance) e.1 e.2) p =
      (.ok (), p')) : ∀ e ∈ cs, Offered v p' e.1 e.2 := by
  induction cs generalizing p with
  | nil =>
    intro e he
    cases he
  | cons e rest ih =>
    obtain ⟨q, hfirst, hloop⟩ := Work.ok_of_forM_cons h
    have hrest : ∀ e ∈ rest, e ∈ s.recorded.candidates v :=
      fun e he => hcs e (List.mem_cons_of_mem _ he)
    have hround : s.recorded.Moves (.follow v) p
        (s.recorded.createLink v (s.decide v.kind v.distance) e.1 e.2 p).2 :=
      createLink_moves hs near (hcs e List.mem_cons_self)
    rw [hfirst] at hround
    have hq : q.store.Numbered := Moves.numbered hround hs
    have hmoves : s.recorded.Moves (.follow v) q (rest.forM (fun e =>
        s.recorded.createLink v (s.decide v.kind v.distance) e.1 e.2) q).2 :=
      createLinks_moves hq near hrest
    rw [hloop] at hmoves
    intro e' he'
    rcases List.mem_cons.mp he' with rfl | he'
    · exact (createLink_offered hs hfirst).after hq hmoves
    · exact ih hrest hq hloop e' he'

end Candidates

/-! ### Visits -/

/-- What comes of a visit that gets to its end: all links of the pair are as the decision has them; in
range every candidate has been seen to, and out of range there are no links but those of before. -/
structure Outcome (s : Setting σ) (v : Visit) (st : ConnectionStore)
    (p : Progress (σ × List Exchange)) : Prop where
  meets : ∀ i c, p.store.find? v.pair i = some c → s.Meets v c
  offered : (s.decide v.kind v.distance).connected = true →
    ∀ e ∈ s.candidates v, Offered v p e.1 e.2
  unmade : (s.decide v.kind v.distance).connected = false →
    ∀ i, st.find? v.pair i = none → p.store.find? v.pair i = none

section Visits

variable {s : Setting σ} {p p' : Progress (σ × List Exchange)} {nodes : SortedMap NodeId Node}
  {st st' : ConnectionStore} {changed : DistanceMatrix}

/-- Only the links of the pair matter. -/
theorem Outcome.since (h : s.Outcome v st p)
    (hsame : ∀ i, st.find? v.pair i = st'.find? v.pair i) : s.Outcome v st' p :=
  ⟨h.meets, h.offered, fun far i hi => h.unmade far i ((hsame i).trans hi)⟩

theorem Outcome.after (h : s.Outcome v st p)
    (hsame : ∀ i, p'.store.find? v.pair i = p.store.find? v.pair i) {P : Exchange → Prop}
    (htold : Adds P p.world.2 p'.world.2) : s.Outcome v st p' where
  meets i c hc := h.meets i c ((hsame i).symm.trans hc)
  offered near e he := (h.offered near e he).mono (fun c hc => ⟨c, (hsame _).trans hc⟩) htold
  unmade far i hi := (hsame i).trans (h.unmade far i hi)

theorem renewLinks_outcome (hp : v.Plain p.store) (hv : v.kind = .user)
    (h : s.recorded.renewLinks v (s.decide v.kind v.distance) p = (.ok (), p')) :
    s.Outcome v p.store p' := by
  cases hnear : (s.decide v.kind v.distance).connected with
  | true =>
    obtain ⟨q, hcreate, hq, hmoves, hmeets⟩ := renewLinks_near (s := s.recorded) hp hv hnear h
    refine ⟨hmeets, fun _ e he => ?_, fun hfar => ?_⟩
    · exact (createLinks_offered hnear (fun _ he => he) hp.numbered hcreate e he).after hq.numbered
        hmoves
    · rw [hnear] at hfar
      cases hfar
  | false =>
    have hfar := renewLinks_far (s := s.recorded) hp hv hnear h
    refine ⟨fun i => (hfar i).1, fun hyes => ?_, fun _ i => (hfar i).2⟩
    rw [hnear] at hyes
    cases hyes

/-- Wherever the tunnel leads, and also where nothing is done because there is nothing to do. -/
theorem reconcile_outcome (hp : v.Plain p.store) (hnodes : v.Joins nodes)
    (hx : v.x.isEmulation = true) (hy : v.y.isEmulation = true)
    (h : s.recorded.reconcile nodes v.step v.pair v.distance p = (.ok (), p')) :
    s.Outcome v p.store p' := by
  have hv := kind_of_emulation hx hy
  have hplain : ¬ (v.x.isManagement || v.y.isManagement) = true := by
    rw [isEmulation_iff] at hx hy
    simp [Node.isManagement, hx, hy]
  have hrun : s.recorded.reconcile nodes v.step v.pair v.distance p =
      (if (s.decide v.kind v.distance).connected || p.store.containsPair v.pair then do
        let isRemote ← s.recorded.ensureTunnel v.x.id v.y.id v.pair
        s.recorded.renewLinks { v with isRemote } (s.decide v.kind v.distance)
      else pure () : Work (σ × List Exchange) Unit) p := by
    rw [reconcile, hnodes.x, hnodes.y]
    dsimp only
    rw [reconcileNodes, if_neg hplain]
    rfl
  rw [hrun] at h
  by_cases hneeded : ((s.decide v.kind v.distance).connected || p.store.containsPair v.pair) = true
  · rw [if_pos hneeded] at h
    obtain ⟨isRemote, q, htunnel, h⟩ := Work.ok_of_bind h
    have hstore := (ensureTunnel_moves (s := s.recorded) v.x v.y v.pair v.distance v.step p).2.2
    rw [htunnel] at hstore
    have hq : ({ v with isRemote } : Visit).Plain q.store := by
      rw [show q.store = p.store from hstore]
      exact ⟨hp.numbered, hp.kind⟩
    obtain ⟨hmeets, hoffered, hunmade⟩ := renewLinks_outcome (s := s) hq hv h
    rw [show q.store = p.store from hstore] at hunmade
    exact ⟨hmeets, hoffered, hunmade⟩
  · rw [if_neg hneeded] at h
    obtain rfl := (Prod.mk.inj h).2
    rw [Bool.or_eq_true, not_or] at hneeded
    refine ⟨fun i c hc => ?_, fun hnear => absurd hnear hneeded.1, fun _ _ hi => hi⟩
    exact absurd (hp.numbered.containsPair_iff.mpr ⟨i, c, hc⟩) hneeded.2

/-- A pair that a step visits and does not report. -/
theorem reconcileAll_outcome {l : List (NodePair × Distance)} (hp : v.Plain p.store)
    (hnodes : v.Joins nodes) (hx : v.x.isEmulation = true) (hy : v.y.isEmulation = true)
    (hl : (l.map Prod.fst).Nodup) (hchanged : ∀ e ∈ l, changed.get? e.1 = some e.2)
    (hmem : (v.pair, v.distance) ∈ l)
    (hfine : v.pair ∉ (s.recorded.reconcileAll nodes v.step l p).report.failedPairs) :
    s.Outcome v p.store (s.recorded.reconcileAll nodes v.step l p) := by
  induction l generalizing p with
  | nil => cases hmem
  | cons a rest ih =>
    obtain ⟨q, distance⟩ := a
    obtain ⟨hfresh, hrest⟩ := List.nodup_cons.mp hl
    have hchanged' : ∀ e ∈ rest, changed.get? e.1 = some e.2 :=
      fun e he => hchanged e (List.mem_cons_of_mem _ he)
    rw [reconcileAll_cons] at hfine ⊢
    by_cases hne : v.pair = q
    · -- the visits that follow are to other pairs
      subst hne
      have hdistance : distance = v.distance := by
        rcases List.mem_cons.mp hmem with heq | hmem
        · exact (Prod.mk.inj heq).2.symm
        · exact absurd (List.mem_map_of_mem hmem) hfresh
      subst hdistance
      have hconfined : Confined v.pair p (s.recorded.reconcile nodes v.step v.pair v.distance p).2 :=
        reconcile_confined hp.numbered
      rcases hr : s.recorded.reconcile nodes v.step v.pair v.distance p with ⟨cause | u, q⟩
      · rw [hr] at hconfined
        rw [visited_of_error hr] at hfine
        refine absurd ((reconcileAll_of_notMem (q := v.pair) ?_ hfresh).2.2.mpr ?_) hfine
        · exact hconfined.numbered
        · rw [failedPairs_addFailure]
          exact List.mem_append_right _ (List.mem_singleton_self _)
      · rw [hr] at hconfined
        rw [visited_of_ok hr]
        have hproceeds : Relation.ReflTransGen
            (s.recorded.Proceeds (Task.DueInStep nodes v.step changed)) q
            (s.recorded.reconcileAll nodes v.step rest q) :=
          reconcileAll_proceeds hconfined.numbered hchanged'
        exact (reconcile_outcome hp hnodes hx hy hr).after
          (reconcileAll_of_notMem hconfined.numbered hfresh).2.1
          (proceeds_told hproceeds hconfined.numbered)
    · obtain ⟨hs', hsame, -⟩ : (s.recorded.visited nodes v.step q distance p).store.Numbered ∧ _ :=
        visited_of_ne hp.numbered hne
      have hp' : v.Plain (s.recorded.visited nodes v.step q distance p).store :=
        ⟨hs', fun i c hc => hp.kind i c (by rw [← hsame, hc])⟩
      have hlater := ih hp' hrest hchanged' ((List.mem_cons.mp hmem).resolve_left fun heq =>
        hne (Prod.mk.inj heq).1) hfine
      exact hlater.since hsame

end Visits

end Setting

/-! ### Engines -/

namespace Engine

variable {e : Engine σ μ} [Movement μ]

/-- Only pairs with the management node have links to it. -/
theorem ReachableBy.managed (h : e.ReachableBy Builds) :
    e.store.All fun c => c.kind = .management → c.pair.Managed := by
  refine h.invariant (I := fun e => e.store.All fun c => c.kind = .management → c.pair.Managed)
    ?_ ?_ ?_ ?_
  · intro _ _ _ pair i c hc
    cases hc
  · intro e e' hsame hall
    rw [hsame.store]
    exact hall
  · intro e op e' hreach _ hperforms hall
    have hnodes : Setting.Made e.nodes :=
      fun id node hnode => ⟨hreach.anchored.built id node hnode, hreach.keyed id node hnode⟩
    have continues : ∀ {c c' : Connection}, c.Continues c' →
        (c.kind = .management → c.pair.Managed) → c'.kind = .management → c'.pair.Managed := by
      intro c c' hcc' hc
      rw [hcc'.pair, hcc'.kind]
      exact hc
    cases hperforms with
    | idle same =>
      rw [same.store]
      exact hall
    | added => exact hall
    | linked hstore =>
      refine (hstore.keeps hreach.numbered (fun t p p' ht hs hmove hp => ?_) hall).2
      refine hmove.files.all hs (fun l switch hl _ => ?_) (fun _ _ => continues) hp
      cases hl with
      | follow => exact ht.elim
      | manage => exact Setting.managed_of_manages hnodes ht
    | stepped _ hstepped =>
      refine (hstepped.store.keeps hreach.numbered (fun t p p' ht hs hmove hp => ?_) hall).2
      refine hmove.files.all hs (fun l switch hl hkind => ?_) (fun _ _ => continues) hp
      cases hl with
      | follow => exact absurd hkind (Visit.kind_ne_management _)
      | manage => exact ht.elim
  · intro e _ pair i c hc
    cases hc

/-- All links between two emulation nodes are for users. -/
theorem ReachableBy.plain (h : e.ReachableBy Builds) {v : Visit} (hv : v.Joins e.nodes)
    (hx : v.x.isEmulation = true) (hy : v.y.isEmulation = true) : v.Plain e.store where
  numbered := h.numbered
  kind i c hc := by
    obtain ⟨hpair, -⟩ := h.numbered.keys_eq hc
    have unmanaged : ∀ {id : NodeId} {node : Node}, e.nodes.get? id = some node →
        node.isEmulation = true → id ≠ .management := by
      rintro id node hnode hemulation rfl
      rw [(h.anchored.built _ _ hnode).eq_management (h.keyed _ _ hnode)] at hemulation
      cases hemulation
    rcases (h.ready hv).kind _ _ _ hc hpair with hkind | hkind
    · exact hkind.trans (kind_of_emulation hx hy)
    · have hmanaged := h.managed _ _ _ hc hkind
      rw [hpair] at hmanaged
      rcases hmanaged with hlow | hhigh
      · exact absurd hlow (unmanaged hv.x hx)
      · exact absurd hhigh (unmanaged hv.y hy)

/-- What comes of a pair of emulation nodes that has changed and is not reported. -/
theorem applyDistances_outcome (h : e.ReachableBy Builds) {distances : DistanceMatrix} {v : Visit}
    (hv : v.Joins e.nodes) (hx : v.x.isEmulation = true) (hy : v.y.isEmulation = true)
    (hstep : v.step = e.step) (hd : (e.changed distances).get? v.pair = some v.distance)
    (hfine : v.pair ∉ (e.applyDistances distances).1.failedPairs) :
    ∃ q : Progress (σ × List Exchange), (e.applyDistances distances).2.store = q.store ∧
      (∀ z ∈ q.world.2, z ∈ e.history [.apply distances]) ∧ e.setting.Outcome v e.store q := by
  have hmem : (v.pair, v.distance) ∈ (e.changed distances).entries := SortedMap.get?_eq_some_iff.mp hd
  have hskip : ¬ ((e.changed distances).isEmpty && e.step != 0) = true := by
    rw [Bool.and_eq_true, SortedMap.isEmpty_iff]
    rintro ⟨hempty, -⟩
    rw [hempty] at hd
    cases hd
  obtain ⟨p, q, all, result, commitError, hps, -, -, hq, hhistory, hreport, hstore⟩ :=
    applyDistances_recorded hskip
  have hp : v.Plain p.store := by
    rw [hps]
    exact h.plain hv hx hy
  rw [hreport] at hfine
  rw [← hstep] at hq
  refine ⟨q, hstore, fun z hz => by rw [hhistory]; exact List.mem_append_left _ hz, ?_⟩
  rw [← hps, ← hq]
  refine Setting.reconcileAll_outcome hp hv hx hy (SortedMap.keys_nodup _)
    (fun a ha => SortedMap.get?_eq_some_iff.mpr ha) hmem ?_
  rw [hq]
  exact hfine

end Engine

/-- Neither choice of a pairing offers management interfaces. -/
theorem choice_pairing_unmanaged {choice : Pairing.Choice} {x y : Node} {ix iy : Interface}
    (h : (ix, iy) ∈ choice.pairing x y) : ix.kind ≠ .management ∧ iy.kind ≠ .management := by
  have unmanaged : ∀ {node : Node} {i : Interface}, i ∈ node.normalInterfaces →
      i.kind ≠ .management := by
    intro node i hi hkind
    have hnormal := (List.mem_filter.mp hi).2
    rw [hkind] at hnormal
    cases hnormal
  exact (mem_choice_pairing h).imp unmanaged unmanaged

/-- What comes of a pair of emulation nodes that has changed and is not reported.  If the model
connects at its distance every link of the pair is up at that distance and shaped as the model asks,
and all interfaces of the pairing are linked but those whose link was vetoed in this very step; if not
no link of the pair is up, and none is new.  Management interfaces are not for pairings to offer, and
would be passed over. -/
theorem unreported_pair_settled [Movement μ] {e : Engine σ μ} (he : e.ReachableBy Engine.Builds)
    {distances : DistanceMatrix} {pair : NodePair} {d : Distance} {x y : Node}
    (hx : e.nodes.get? pair.low = some x) (hy : e.nodes.get? pair.high = some y)
    (hxe : x.isEmulation = true) (hye : y.isEmulation = true)
    (hd : (e.changed distances).get? pair = some d)
    (hfine : pair ∉ (e.applyDistances distances).1.failedPairs) :
    let e' := (e.applyDistances distances).2
    let decision := e.setting.model.decide d
    (decision.connected = true →
        (∀ i c, e'.store.find? pair i = some c →
          c.connected = true ∧ c.distance = d ∧ c.shaping.Obeys decision.shaping) ∧
        ∀ ix iy, (ix, iy) ∈ e.setting.pairing x y → ix.kind ≠ .management →
          iy.kind ≠ .management → (∃ c, e'.store.find? pair ⟨ix, iy⟩ = some c) ∨
            ∃ z ∈ e.history [.apply distances], z.vetoes = true ∧
              z.key? = some ⟨pair, ⟨ix, iy⟩⟩) ∧
      (decision.connected = false → ∀ i,
        (∀ c, e'.store.find? pair i = some c → c.connected = false) ∧
          (e.store.find? pair i = none → e'.store.find? pair i = none)) := by
  intro e' decision
  generalize hv : (⟨x, y, pair, d, false, e.step⟩ : Visit) = v
  have hkind : v.kind = .user := by
    rw [← hv]
    exact kind_of_emulation hxe hye
  have hdecision : e.setting.decide v.kind v.distance = decision := by
    rw [hkind, ← hv]
    rfl
  have hcandidates : ∀ ix iy, (ix, iy) ∈ e.setting.pairing x y → ix.kind ≠ .management →
      iy.kind ≠ .management → (ix, iy) ∈ e.setting.candidates v := by
    intro ix iy hmem hix hiy
    rw [Setting.candidates, hkind, ← hv]
    exact List.mem_filter.mpr ⟨hmem, by simp [InterfaceKind.isManagement, hix, hiy]⟩
  subst hv
  obtain ⟨q, hstore, htold, hmeets, hoffered, hunmade⟩ :=
    Engine.applyDistances_outcome (v := ⟨x, y, pair, d, false, e.step⟩) he ⟨hx, hy⟩ hxe hye rfl hd
      hfine
  rw [hdecision] at hoffered hunmade
  rw [show e'.store = q.store from hstore]
  refine ⟨fun near => ⟨fun i c hc => ?_, fun ix iy hmem hix hiy => ?_⟩, fun far i =>
    ⟨fun c hc => ?_, hunmade far i⟩⟩
  · obtain ⟨hconnected, hnear⟩ := hmeets i c hc
    rw [hdecision] at hconnected hnear
    exact ⟨hconnected.trans near, hnear near⟩
  · refine (hoffered near _ (hcandidates ix iy hmem hix hiy)).imp_right fun hvetoed => ?_
    obtain ⟨z, hz, hveto⟩ := hvetoed
    exact ⟨z, htold z hz, hveto⟩
  · have hconnected := (hmeets i c hc).connected
    rw [hdecision] at hconnected
    exact hconnected.trans far

/-- A node with two mesh interfaces. -/
def meshNode (id : NodeId) : Node := ⟨id, .emulation, [⟨.mesh, 0⟩, ⟨.mesh, 1⟩]⟩

/-- Four links were asked for at first: one was vetoed, one came up, one did not come up, and the last
one was not tried any more.  One will be vetoed in the next step. -/
def patchy : Engine Script Stationary :=
  (Engine.start ⟨.tiered [⟨5.0, ⟨some 500, none, none⟩⟩] .none, .all, Script.backend, .local⟩ none
    [⟨.start, some 0, none, 0, some 1, none, .no⟩,
      ⟨.raise, some 0, none, 1, none, some (.timeout 5), .yes⟩,
      ⟨.start, some 1, none, 0, some 1, none, .no⟩]).run
    [.addNode (meshNode ⟨1⟩), .addNode (meshNode ⟨2⟩), .apply (apart .zero)]

/-- When the nodes have moved a little, three links are up and shaped, and the fourth was vetoed. -/
theorem patchy_settled :
    let d : Distance := ⟨1.0, by decide⟩
    let e' := (patchy.applyDistances (apart d)).2
    patchy.store.size = 2 ∧ patchy.store.activeCount = 1 ∧ e'.store.size = 3 ∧
      ⟨⟨1⟩, ⟨2⟩⟩ ∉ (patchy.applyDistances (apart d)).1.failedPairs ∧
      (∀ i c, e'.store.find? ⟨⟨1⟩, ⟨2⟩⟩ i = some c →
        c.connected = true ∧ c.distance = d ∧ c.shaping.Obeys ⟨some 500, none, none⟩) ∧
      ∀ ix iy, (ix, iy) ∈ Pairing.all (meshNode ⟨1⟩) (meshNode ⟨2⟩) →
        (∃ c, e'.store.find? ⟨⟨1⟩, ⟨2⟩⟩ ⟨ix, iy⟩ = some c) ∨
          ∃ z ∈ patchy.history [.apply (apart d)], z.vetoes = true ∧
            z.key? = some ⟨⟨⟨1⟩, ⟨2⟩⟩, ⟨ix, iy⟩⟩ := by
  intro d e'
  have hbuilt : ∀ id, id = (⟨1⟩ : NodeId) ∨ id = ⟨2⟩ → (meshNode id).Built := by
    intro id hid
    have hmake : Node.emulation id [.mesh, .mesh] = .ok (meshNode id) := by
      rcases hid with rfl | rfl <;> decide +kernel
    exact .emulation hmake
  have hreach : patchy.ReachableBy Engine.Builds := by
    refine (Engine.ReachableBy.start _ _ _).run _ fun _ op hop node heq => ?_
    subst heq
    simp only [List.mem_cons, List.not_mem_nil, or_false, Operation.addNode.injEq,
      reduceCtorEq] at hop
    rcases hop with rfl | rfl
    · exact hbuilt _ (Or.inl rfl)
    · exact hbuilt _ (Or.inr rfl)
  have hfine : ⟨⟨1⟩, ⟨2⟩⟩ ∉ (patchy.applyDistances (apart d)).1.failedPairs := by decide +kernel
  have hx : patchy.nodes.get? ⟨1⟩ = some (meshNode ⟨1⟩) := by decide +kernel
  have hy : patchy.nodes.get? ⟨2⟩ = some (meshNode ⟨2⟩) := by decide +kernel
  have hd : (patchy.changed (apart d)).get? ⟨⟨1⟩, ⟨2⟩⟩ = some d := by decide +kernel
  have hnear : patchy.setting.model.decide d = .up ⟨some 500, none, none⟩ := by decide +kernel
  obtain ⟨hall, hcandidates⟩ :=
    (unreported_pair_settled hreach hx hy rfl rfl hd hfine).1 (by rw [hnear]; rfl)
  rw [hnear] at hall
  refine ⟨by decide +kernel, by decide +kernel, by decide +kernel, hfine, hall, fun ix iy hmem => ?_⟩
  have hchoice : (ix, iy) ∈ Pairing.Choice.all.pairing (meshNode ⟨1⟩) (meshNode ⟨2⟩) := hmem
  obtain ⟨hix, hiy⟩ := choice_pairing_unmanaged hchoice
  exact hcandidates ix iy hmem hix hiy

end ProximityNet
