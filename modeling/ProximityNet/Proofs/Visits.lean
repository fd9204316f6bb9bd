import ProximityNet.Proofs.Dialogues
import ProximityNet.Proofs.Persistence

/-!
# A visit keeps to its dialogue

The three loops of a visit run over candidates, over links that are up and over links that are down,
and what a loop does decides over which links the next one runs.  A round changes the link of its own
interfaces only; so each loop meets its links as they were when it began, and the links that are down
at last are those that were down at first.

* `Speaks`, `linksAfter` — what work adds to the record, and the links that it leaves behind;
* `Visit.Ready`, `Moves.ready` — the links of the pair are of a kind that a visit expects;
* `createLink_attempt`, `createLink_turn`, `createLinks_opening` — candidates are attempted in their
  order;
* `renewLink_renewal`, `reviveLink_revival`, `loop_rounds` — links are renewed and revived in rounds;
* `renewLinks_dialogue` — all of it.
-/

namespace ProximityNet

variable {σ α β : Type}

/-- Work adds to the record what `G` allows; the flag says whether it fails. -/
def Speaks (G : List Exchange → Bool → Prop) (p : Progress (σ × List Exchange))
    (r : Except ReconcileError α × Progress (σ × List Exchange)) : Prop :=
  ∃ l, r.2.world.2 = p.world.2 ++ l ∧ G l (!r.1.isOk)

/-- The links of a pair after work, unless it fails. -/
def linksAfter (pair : NodePair) (r : Except ReconcileError α × Progress σ) : Option Links :=
  if r.1.isOk then some (r.2.store.find? pair) else none

section LinksAfter

variable {pair : NodePair} {r : Except ReconcileError α × Progress σ}

theorem linksAfter_of_isOk (h : r.1.isOk = true) :
    linksAfter pair r = some (r.2.store.find? pair) := by
  rw [linksAfter, if_pos h]

theorem linksAfter_of_not_isOk (h : r.1.isOk = false) : linksAfter pair r = none := by
  rw [linksAfter, h, if_neg Bool.false_ne_true]

end LinksAfter

/-! ### Links of one kind -/

/-- The store has unique ids, and the links of the pair are of the kind that a visit expects, or go to
the management node. -/
structure Visit.Ready (v : Visit) (st : ConnectionStore) : Prop where
  numbered : st.Numbered
  kind : st.All fun c => c.pair = v.pair → c.kind = v.kind ∨ c.kind = .management

theorem Visit.Ready.owns {v : Visit} {st : ConnectionStore} {i : InterfacePair} {c : Connection}
    (h : v.Ready st) (hc : st.find? v.pair i = some c) : v.Owns i c := by
  obtain ⟨hpair, hi⟩ := h.numbered.keys_eq hc
  exact ⟨hpair, hi, h.kind _ _ _ hc hpair⟩

theorem Visit.Ready.same_kind {v : Visit} {st : ConnectionStore} {i : InterfacePair} {c : Connection}
    (h : v.Ready st) (hc : st.find? v.pair i = some c) (plain : c.kind ≠ .management) :
    c.kind = v.kind :=
  (h.owns hc).kind.resolve_right plain

namespace Setting

section Moves

variable {s : Setting σ} {v : Visit} {p p' : Progress σ} {i : InterfacePair} {c : Connection}

/-- A visit leaves links of its own kind. -/
theorem Moves.ready (h : s.Moves (.follow v) p p') (hp : v.Ready p.store) : v.Ready p'.store := by
  induction h with
  | refl => exact hp
  | tail _ hmove ih =>
    refine ⟨hmove.numbered ih.numbered, hmove.files.all ih.numbered (fun l switch hl => ?_)
      (fun c c' hcc' hc => ?_) ih.kind⟩
    · cases hl
      exact fun _ => Or.inl rfl
    · rw [hcc'.pair, hcc'.kind]
      exact hc

/-- In range a visit leaves up what is up. -/
theorem Move.stays_up (h : s.Move (.follow v) p p') (hs : p.store.Numbered)
    (near : (s.decide v.kind v.distance).connected = true)
    (hc : ∃ c, p.store.find? v.pair i = some c ∧ c.connected = true) :
    ∃ c, p'.store.find? v.pair i = some c ∧ c.connected = true := by
  have hw := hs.toWellFormed
  have filed : ∀ {st : ConnectionStore} {d : Connection}, st.WellFormed →
      (∃ c, st.find? v.pair i = some c ∧ c.connected = true) →
      (d.pair = v.pair → d.interfaces = i → d.connected = true) →
      ∃ c, (st.file d).find? v.pair i = some c ∧ c.connected = true := by
    intro st d hst hold hnew
    rw [hst.find?_file]
    split
    · rename_i heq
      exact ⟨d, rfl, hnew heq.1 heq.2⟩
    · exact hold
  cases h with
  | tunnel | raiseFailed | lowerFailed | adjustFailed | hubAdjusted => exact hc
  | startFailed | refused => exact hc
  | createFailed launch free | launchFailed launch free =>
    obtain ⟨c, hc, hup⟩ := hc
    refine filed hw.freshId ⟨c, hc, hup⟩ fun _ hi => ?_
    -- the keys of what is added were free
    rw [← hi] at hc
    cases free.symm.trans hc
  | launched => exact filed hw.freshId hc fun _ _ => rfl
  | raised => exact filed hw hc fun _ _ => rfl
  | lowered kind far =>
    rw [near] at far
    cases far
  | adjusted kind adjust found up => exact filed hw hc fun _ _ => up

theorem Moves.stays_up (h : s.Moves (.follow v) p p') (hs : p.store.Numbered)
    (near : (s.decide v.kind v.distance).connected = true)
    (hc : ∃ c, p.store.find? v.pair i = some c ∧ c.connected = true) :
    ∃ c, p'.store.find? v.pair i = some c ∧ c.connected = true := by
  induction h with
  | refl => exact hc
  | tail hmoves hmove ih => exact hmove.stays_up (Moves.numbered hmoves hs) near ih

end Moves

variable {s : Setting σ} {v : Visit} {p : Progress (σ × List Exchange)} {i : InterfacePair}
  {c : Connection} {links : Links}

/-! ### Candidates -/

/-- What there is of a link after an attempt, unless it failed. -/
def Leaves (found : Option Connection) : Attempted → Prop
  | .refused => found = none
  | .raised c => found = some c
  | .failed => True

/-- How an attempt to link two interfaces leaves the record and the link. -/
structure Attempts (s : Setting σ) (v : Visit) (ix iy : Interface)
    (p : Progress (σ × List Exchange))
    (r : Except ReconcileError Unit × Progress (σ × List Exchange)) (a : Attempted) : Prop where
  told : ∃ l, r.2.world.2 = p.world.2 ++ l ∧ s.Attempt v ix iy l a
  ends : r.1.isOk = (a != .failed)
  leaves : Leaves (r.2.store.find? v.pair ⟨ix, iy⟩) a

theorem createLink_attempt {ix iy : Interface} (hs : p.store.Numbered)
    (free : p.store.find? v.pair ⟨ix, iy⟩ = none) :
    ∃ a, s.Attempts v ix iy p
      (s.recorded.createLink v (s.decide v.kind v.distance) ix iy p) a := by
  have hw := hs.toWellFormed
  rw [createLink, Work.bind_connections, free]
  dsimp only [Option.isSome]
  rw [if_neg Bool.false_ne_true]
  rcases hstart : s.recorded.backend.start (v.site v.kind ix iy)
    (v.fresh v.kind ⟨ix, iy⟩ p.store) p.world with ⟨e | answer, world⟩
  · rw [Work.bind_of_error (setUp_of_error hstart)]
    exact ⟨.failed, ⟨_, recorded_start hstart, .startFailed ⟨p.store.nextNumber⟩ e⟩, rfl, trivial⟩
  cases hanswer : answer.accepted with
  | false =>
    rw [Work.bind_of_ok (setUp_of_refused hstart hanswer)]
    exact ⟨.refused, ⟨_, recorded_start hstart, .refused ⟨p.store.nextNumber⟩ hanswer⟩, rfl, free⟩
  | true =>
    rcases hcreate : s.recorded.backend.perform (.create (v.site v.kind ix iy)
      ((v.fresh v.kind ⟨ix, iy⟩ p.store).accepted .none answer.switch)) world with ⟨e | u, world'⟩
    · rw [Work.bind_of_error (setUp_of_createError hw hstart hanswer hcreate)]
      refine ⟨.failed, ⟨_, ?_, .createFailed ⟨p.store.nextNumber⟩ hanswer e⟩, rfl, trivial⟩
      rw [recorded_perform hcreate, recorded_start hstart, List.append_assoc]
      rfl
    rw [Work.bind_of_ok (setUp_of_ok hw hstart hanswer hcreate), if_pos rfl]
    have hfound : (v.established v.kind ⟨ix, iy⟩ .none answer.switch p.store).find? v.pair ⟨ix, iy⟩ =
        some ((v.fresh v.kind ⟨ix, iy⟩ p.store).accepted .none answer.switch) :=
      hw.freshId.find?_file_self rfl rfl
    have hestablished := Visit.established_numbered hs v v.kind ⟨ix, iy⟩ .none answer.switch
    rcases hraise : s.recorded.backend.perform (.raise (v.site v.kind ix iy)
      ((v.fresh v.kind ⟨ix, iy⟩ p.store).accepted .none answer.switch)
      ((s.decide v.kind v.distance).shaping.fillFrom s.recorded.initial)) world' with
      ⟨e | u, world''⟩
    · rw [bringUp_of_error hfound hraise]
      refine ⟨.failed, ⟨_, ?_, .raiseFailed ⟨p.store.nextNumber⟩ hanswer e⟩, rfl, trivial⟩
      rw [recorded_perform hraise, recorded_perform hcreate, recorded_start hstart,
        List.append_assoc, List.append_assoc]
      rfl
    · rw [bringUp_of_ok hestablished.toWellFormed hfound hraise]
      refine ⟨.raised _, ⟨_, ?_, .raised ⟨p.store.nextNumber⟩ hanswer⟩, rfl,
        hestablished.toWellFormed.find?_file_self rfl rfl⟩
      rw [recorded_perform hraise, recorded_perform hcreate, recorded_start hstart,
        List.append_assoc, List.append_assoc]
      rfl

/-- The turn of a candidate. -/
theorem createLink_turn (hs : p.store.Numbered) (ix iy : Interface) :
    ∃ l, (s.recorded.createLink v (s.decide v.kind v.distance) ix iy p).2.world.2 =
        p.world.2 ++ l ∧
      s.Turn v (p.store.find? v.pair) ix iy l
        (linksAfter v.pair (s.recorded.createLink v (s.decide v.kind v.distance) ix iy p)) := by
  cases hfind : p.store.find? v.pair ⟨ix, iy⟩ with
  | some c =>
    have hknown : s.recorded.createLink v (s.decide v.kind v.distance) ix iy p = (.ok (), p) := by
      rw [createLink, Work.bind_connections, hfind]
      rfl
    rw [hknown]
    exact ⟨[], (List.append_nil _).symm, .known (Option.isSome_iff_exists.mpr ⟨c, hfind⟩)⟩
  | none =>
    obtain ⟨a, ⟨l, hl, hsaid⟩, hends, hleaves⟩ := createLink_attempt (s := s) hs hfind
    have hconfined : Confines v.pair (· = ⟨ix, iy⟩) p
        (s.recorded.createLink v (s.decide v.kind v.distance) ix iy p) :=
      createLink_confines hs
    refine ⟨l, hl, ?_⟩
    cases a with
    | failed =>
      rw [linksAfter_of_not_isOk hends]
      exact .failed hfind hsaid
    | refused =>
      have hsame : (s.recorded.createLink v (s.decide v.kind v.distance) ix iy p).2.store.find?
          v.pair = p.store.find? v.pair := by
        funext i
        by_cases hi : i = ⟨ix, iy⟩
        · rw [hi, hfind]
          exact hleaves
        · exact hconfined.others i hi
      rw [linksAfter_of_isOk hends, hsame]
      exact .refused hfind hsaid
    | raised c =>
      have hone : (s.recorded.createLink v (s.decide v.kind v.distance) ix iy p).2.store.find?
          v.pair = Function.update (p.store.find? v.pair) ⟨ix, iy⟩ (some c) :=
        Function.eq_update_iff.mpr ⟨hleaves, hconfined.others⟩
      rw [linksAfter_of_isOk hends, hone]
      exact .raised hfind hsaid

/-- Candidates that a visit has yet to go through. -/
theorem createLinks_opening (near : (s.decide v.kind v.distance).connected = true)
    {cs : List (Interface × Interface)} (hcs : ∀ e ∈ cs, e ∈ s.candidates v) (h : v.Ready p.store)
    {r : Except ReconcileError Unit × Progress (σ × List Exchange)}
    (hr : cs.forM (fun e => s.recorded.createLink v (s.decide v.kind v.distance) e.1 e.2) p = r) :
    (∃ l, r.2.world.2 = p.world.2 ++ l ∧
      s.Opening v (p.store.find? v.pair) cs l (linksAfter v.pair r)) ∧ v.Ready r.2.store := by
  subst hr
  induction cs generalizing p with
  | nil => exact ⟨⟨[], (List.append_nil _).symm, .done⟩, h⟩
  | cons e rest ih =>
    obtain ⟨l, hl, hturn⟩ := createLink_turn (s := s) (v := v) h.numbered e.1 e.2
    have hready : v.Ready
        (s.recorded.createLink v (s.decide v.kind v.distance) e.1 e.2 p).2.store :=
      Moves.ready (createLink_moves (s := s.recorded) h.numbered near (hcs e List.mem_cons_self)) h
    rcases hround : s.recorded.createLink v (s.decide v.kind v.distance) e.1 e.2 p with ⟨_ | _, q⟩
    · rw [hround] at hl hturn hready
      rw [Work.forM_cons_of_error rest hround]
      exact ⟨⟨l, hl, .stop hturn⟩, hready⟩
    · rw [hround] at hl hturn hready
      obtain ⟨⟨l', hl', hopening⟩, hend⟩ := ih (fun e he => hcs e (List.mem_cons_of_mem _ he)) hready
      rw [Work.forM_cons_of_ok rest hround]
      refine ⟨⟨l ++ l', ?_, .next hturn hopening⟩, hend⟩
      rw [hl', hl, List.append_assoc]

/-! ### Links that are up and links that are down -/

/-- Shaping a link tells nothing but that, whatever is noted down afterwards. -/
theorem shape_renewal (h : v.Ready p.store) (hc : p.store.find? v.pair i = some c)
    (found : links i = some c) (hup : c.connected = true) (hkind : c.kind = v.kind)
    (near : (s.decide v.kind v.distance).connected = true) {shaping : Shaping}
    {f : Unit → Work (σ × List Exchange) Unit}
    (hf : ∀ q, ∃ q', f () q = (.ok (), q') ∧ q'.world = q.world) :
    Speaks (s.Renewal v links i) p ((shape s.recorded.backend v c i shaping >>= f) p) := by
  have hrenewal := Renewal.shaped (s := s) found (h.owns hc) hup hkind near shaping
  rw [← hkind] at hrenewal
  rcases hshape : v.shapeWorld s.recorded.backend c i shaping p.world with ⟨e | u, world⟩
  · rw [Work.bind_of_error (shape_of_error hshape)]
    exact ⟨_, recorded_shape hshape, hrenewal (.error e)⟩
  · rw [Work.bind_of_ok (shape_of_ok hshape)]
    obtain ⟨q', hq', hworld⟩ := hf { p with world }
    rw [hq']
    exact ⟨_, (congrArg Prod.snd hworld).trans (recorded_shape hshape), hrenewal (.ok u)⟩

theorem takeDown_renewal (h : v.Ready p.store) (hc : p.store.find? v.pair i = some c)
    (found : links i = some c) (hup : c.connected = true) (hkind : c.kind = v.kind)
    (far : (s.decide v.kind v.distance).connected = false) :
    Speaks (s.Renewal v links i) p
      (takeDown s.recorded.backend v c i (s.decide v.kind v.distance).shaping p) := by
  have hrenewal := Renewal.lowered (s := s) found (h.owns hc) hup hkind far
  rw [← hkind] at hrenewal ⊢
  rcases hlower : s.recorded.backend.perform (.lower (v.site c.kind i.low i.high) c
    (s.decide c.kind v.distance).shaping) p.world with ⟨e | u, world⟩
  · rw [takeDown_of_error hlower]
    exact ⟨_, recorded_perform hlower, hrenewal (.error e)⟩
  · rw [takeDown_of_ok h.numbered.toWellFormed hc hlower]
    exact ⟨_, recorded_perform hlower, hrenewal (.ok u)⟩

theorem renewLink_renewal (h : v.Ready p.store) (hc : p.store.find? v.pair i = some c)
    (found : links i = some c) (hup : c.connected = true) :
    Speaks (s.Renewal v links i) p (s.recorded.renewLink v (s.decide v.kind v.distance) i p) := by
  rw [renewLink, Work.bind_of_ok (Work.stored_of_some hc)]
  cases hkind : c.kind with
  | management => exact ⟨[], (List.append_nil _).symm, .passed found (h.owns hc) hup hkind⟩
  | central =>
    have hsame : c.kind = v.kind := h.same_kind hc (by rw [hkind]; decide)
    have near : (s.decide v.kind v.distance).connected = true := by
      rw [decide, if_pos (hsame.symm.trans hkind)]
      rfl
    exact shape_renewal h hc found hup hsame near fun q => ⟨_, rfl, rfl⟩
  | user =>
    have hsame : c.kind = v.kind := h.same_kind hc (by rw [hkind]; decide)
    dsimp only
    split
    · rename_i near
      exact shape_renewal h hc found hup hsame near fun q => ⟨_, rfl, rfl⟩
    · rename_i far
      exact takeDown_renewal h hc found hup hsame (Bool.eq_false_iff.mpr far)

theorem reviveLink_revival (h : v.Ready p.store) (hc : p.store.find? v.pair i = some c)
    (found : links i = some c) (hdown : c.connected = false) :
    Speaks (s.Revival v links i) p (s.recorded.reviveLink v (s.decide v.kind v.distance) i p) := by
  have hown := h.owns hc
  rw [reviveLink, Work.bind_of_ok (Work.stored_of_some hc)]
  rcases hraise : s.recorded.backend.perform (.raise (v.site c.kind i.low i.high) c
    (s.decide v.kind v.distance).shaping) p.world with ⟨e | u, world⟩
  · rw [bringUp_of_error hc hraise]
    exact ⟨_, recorded_perform hraise, .raised found hown hdown (.error e)⟩
  · rw [bringUp_of_ok h.numbered.toWellFormed hc hraise]
    exact ⟨_, recorded_perform hraise, .raised found hown hdown (.ok u)⟩

/-- A loop over links that are as they are in `links` when it begins. -/
theorem loop_rounds {R : InterfacePair → List Exchange → Bool → Prop}
    {g : InterfacePair → Work (σ × List Exchange) Unit} {l : List InterfacePair}
    (hl : l.Nodup) (h : v.Ready p.store) (all : ∀ i ∈ l, p.store.find? v.pair i = links i)
    (round : ∀ i ∈ l, ∀ q, v.Ready q.store → q.store.find? v.pair i = links i →
      Speaks (R i) q (g i q) ∧ s.recorded.AtMost (.follow v) i q (g i q).2) :
    Speaks (Rounds R l) p (l.forM g p) ∧ s.recorded.Moves (.follow v) p (l.forM g p).2 ∧
      ∀ i, i ∉ l → (l.forM g p).2.store.find? v.pair i = p.store.find? v.pair i := by
  induction l generalizing p with
  | nil => exact ⟨⟨[], (List.append_nil _).symm, .done⟩, .refl, fun _ _ => rfl⟩
  | cons i rest ih =>
    obtain ⟨hi, hrest⟩ := List.nodup_cons.mp hl
    obtain ⟨⟨l₁, hl₁, hR⟩, hmost⟩ := round i List.mem_cons_self p h (all i List.mem_cons_self)
    have hothers : ∀ j, j ≠ i → (g i p).2.store.find? v.pair j = p.store.find? v.pair j := hmost.2
    rcases hround : g i p with ⟨e | u, q⟩
    · rw [hround] at hl₁ hR hmost hothers
      rw [Work.forM_cons_of_error rest hround]
      exact ⟨⟨l₁, hl₁, .stop hR⟩, hmost.moves, fun j hj => hothers j (List.ne_of_not_mem_cons hj)⟩
    · rw [hround] at hl₁ hR hmost hothers
      rw [Work.forM_cons_of_ok rest hround]
      obtain ⟨⟨l₂, hl₂, hrounds⟩, hmoves, hkept⟩ := ih hrest (Moves.ready hmost.moves h)
        (fun j hj => by
          rw [hothers j fun heq => hi (heq ▸ hj)]
          exact all j (List.mem_cons_of_mem i hj))
        fun j hj => round j (List.mem_cons_of_mem i hj)
      refine ⟨⟨l₁ ++ l₂, by rw [hl₂, hl₁, List.append_assoc], .next hR hrounds⟩,
        hmost.moves.trans hmoves, fun j hj => ?_⟩
      rw [hkept j (List.not_mem_of_not_mem_cons hj), hothers j (List.ne_of_not_mem_cons hj)]

/-! ### The links of a pair -/

theorem lists_active {st : ConnectionStore} (hs : st.Numbered) (pair : NodePair) :
    Links.Lists (st.find? pair) true (st.activeInterfaces pair) where
  nodup := ConnectionStore.activeInterfaces_nodup _ _
  mem _ := hs.mem_activeInterfaces_iff

/-- Renewing all links that are up. -/
theorem renewals_rounds (h : v.Ready p.store) :
    Speaks (Rounds (s.Renewal v (p.store.find? v.pair)) (p.store.activeInterfaces v.pair)) p
        ((p.store.activeInterfaces v.pair).forM
          (s.recorded.renewLink v (s.decide v.kind v.distance)) p) ∧
      s.recorded.Moves (.follow v) p ((p.store.activeInterfaces v.pair).forM
        (s.recorded.renewLink v (s.decide v.kind v.distance)) p).2 ∧
      ∀ i, i ∉ p.store.activeInterfaces v.pair → ((p.store.activeInterfaces v.pair).forM
        (s.recorded.renewLink v (s.decide v.kind v.distance)) p).2.store.find? v.pair i =
          p.store.find? v.pair i := by
  refine loop_rounds (ConnectionStore.activeInterfaces_nodup _ _) h (fun _ _ => rfl)
    fun i hi q hq hsame => ?_
  obtain ⟨c, found, hup⟩ := h.numbered.mem_activeInterfaces_iff.mp hi
  have hc := hsame.trans found
  exact ⟨renewLink_renewal hq hc found hup, renewLink_move (s := s.recorded) hq.numbered hc hup⟩

/-- Reviving all links that are down, as they are in `links`. -/
theorem revivals_rounds (near : (s.decide v.kind v.distance).connected = true)
    (h : v.Ready p.store)
    (same : ∀ i ∈ p.store.inactiveInterfaces v.pair, p.store.find? v.pair i = links i) :
    Speaks (Rounds (s.Revival v links) (p.store.inactiveInterfaces v.pair)) p
      ((p.store.inactiveInterfaces v.pair).forM
        (s.recorded.reviveLink v (s.decide v.kind v.distance)) p) := by
  have hrounds := loop_rounds (s := s) (R := s.Revival v links)
    (g := s.recorded.reviveLink v (s.decide v.kind v.distance))
    (ConnectionStore.inactiveInterfaces_nodup _ _) h same fun i hi q hq hsame => ?_
  · exact hrounds.1
  obtain ⟨c, hc, hdown⟩ := h.numbered.mem_inactiveInterfaces_iff.mp hi
  have found := (same i hi).symm.trans hc
  have hc' := hsame.trans found
  exact ⟨reviveLink_revival hq hc' found hdown,
    reviveLink_move (s := s.recorded) hq.numbered near hc' hdown⟩

/-- The links that are down when those that are up have been renewed: they were down before, and are
as they were. -/
theorem lists_inactive {st st' : ConnectionStore} {pair : NodePair} (hs : st.Numbered)
    (hs' : st'.Numbered)
    (kept : ∀ i, i ∉ st.activeInterfaces pair → st'.find? pair i = st.find? pair i)
    (stays : ∀ i ∈ st.activeInterfaces pair, ∃ c, st'.find? pair i = some c ∧ c.connected = true) :
    Links.Lists (st.find? pair) false (st'.inactiveInterfaces pair) ∧
      ∀ i ∈ st'.inactiveInterfaces pair, st'.find? pair i = st.find? pair i := by
  have hout : ∀ i c, st'.find? pair i = some c → c.connected = false →
      i ∉ st.activeInterfaces pair := by
    intro i c hc hdown hi
    obtain ⟨x, hx, hup⟩ := stays i hi
    rw [Option.some.inj (hx.symm.trans hc), hdown] at hup
    cases hup
  have hsame : ∀ i ∈ st'.inactiveInterfaces pair, st'.find? pair i = st.find? pair i := by
    intro i hi
    obtain ⟨c, hc, hdown⟩ := hs'.mem_inactiveInterfaces_iff.mp hi
    exact kept i (hout i c hc hdown)
  refine ⟨⟨ConnectionStore.inactiveInterfaces_nodup _ _, fun i => ⟨fun hi => ?_, ?_⟩⟩, hsame⟩
  · rw [← hsame i hi]
    exact hs'.mem_inactiveInterfaces_iff.mp hi
  · rintro ⟨c, hc, hdown⟩
    have hi : i ∉ st.activeInterfaces pair := by
      intro hi
      obtain ⟨x, hx, hup⟩ := hs.mem_activeInterfaces_iff.mp hi
      rw [Option.some.inj (hx.symm.trans hc), hdown] at hup
      cases hup
    exact hs'.mem_inactiveInterfaces_iff.mpr ⟨c, (kept i hi).trans hc, hdown⟩

/-- Out of range the links that are up are renewed, and that is all. -/
theorem renewLinks_dialogue_far (far : (s.decide v.kind v.distance).connected = false)
    (h : v.Ready p.store) :
    Speaks (s.Dialogue v (p.store.find? v.pair)) p
      (s.recorded.renewLinks v (s.decide v.kind v.distance) p) := by
  rw [renewLinks, far, if_neg Bool.false_ne_true]
  beta_reduce
  rw [Work.bind_connections]
  obtain ⟨⟨l, hl, hrounds⟩, _⟩ := renewals_rounds (s := s) h
  have hfar := Dialogue.far far (lists_active h.numbered v.pair) hrounds
  rcases hrun : (p.store.activeInterfaces v.pair).forM
    (s.recorded.renewLink v (s.decide v.kind v.distance)) p with ⟨e | u, q⟩
  · rw [hrun] at hl hfar
    rw [Work.bind_of_error hrun]
    exact ⟨l, hl, hfar⟩
  · rw [hrun] at hl hfar
    rw [Work.bind_of_ok hrun]
    exact ⟨l, hl, hfar⟩

/-- In range candidates have their turn, then links are renewed and revived; any of this may be the
end. -/
theorem renewLinks_dialogue_near (near : (s.decide v.kind v.distance).connected = true)
    (h : v.Ready p.store) :
    Speaks (s.Dialogue v (p.store.find? v.pair)) p
      (s.recorded.renewLinks v (s.decide v.kind v.distance) p) := by
  rw [renewLinks, near, if_pos rfl]
  rcases hcreate : (s.recorded.candidates v).forM
    (fun e => s.recorded.createLink v (s.decide v.kind v.distance) e.1 e.2) p with ⟨e | u, p₁⟩
  · obtain ⟨⟨l, hl, hopening⟩, _⟩ := createLinks_opening near (fun _ he => he) h hcreate
    rw [Work.bind_of_error hcreate]
    exact ⟨l, hl, .opening near hopening⟩
  obtain ⟨⟨l, hl, hopening⟩, h₁⟩ := createLinks_opening near (fun _ he => he) h hcreate
  rw [Work.bind_of_ok hcreate]
  beta_reduce
  rw [Work.bind_connections]
  obtain ⟨⟨l', hl', hrenewals⟩, hmoves, hkept⟩ := renewals_rounds (s := s) h₁
  have hactive := lists_active h₁.numbered v.pair
  rcases hrenew : (p₁.store.activeInterfaces v.pair).forM
    (s.recorded.renewLink v (s.decide v.kind v.distance)) p₁ with ⟨e | u, p₂⟩
  · rw [hrenew] at hl' hrenewals
    rw [Work.bind_of_error hrenew]
    refine ⟨l ++ l', ?_, .renewing near hopening hactive hrenewals⟩
    rw [hl', hl, List.append_assoc]
  rw [hrenew] at hl' hrenewals hmoves hkept
  have h₂ := Moves.ready hmoves h₁
  -- in range no renewal takes a link down, so what is down now was down after the candidates
  obtain ⟨hinactive, hsame⟩ := lists_inactive h₁.numbered h₂.numbered hkept fun i hi =>
    Moves.stays_up hmoves h₁.numbered near (h₁.numbered.mem_activeInterfaces_iff.mp hi)
  rw [Work.bind_of_ok hrenew, if_pos rfl, Work.bind_connections]
  obtain ⟨l'', hl'', hrevivals⟩ := revivals_rounds near h₂ hsame
  refine ⟨l ++ l' ++ l'', ?_, .reviving near hopening hactive hrenewals hinactive hrevivals⟩
  rw [hl'', hl', hl, ← List.append_assoc, ← List.append_assoc]

/-- What is told while the links of a pair are renewed is a dialogue. -/
theorem renewLinks_dialogue (h : v.Ready p.store) :
    Speaks (s.Dialogue v (p.store.find? v.pair)) p
      (s.recorded.renewLinks v (s.decide v.kind v.distance) p) := by
  cases hnear : (s.decide v.kind v.distance).connected with
  | false => exact renewLinks_dialogue_far hnear h
  | true => exact renewLinks_dialogue_near hnear h

end Setting

end ProximityNet
