import ProximityNet.Proofs.Tellings

/-!
# Work on one link leaves its siblings alone

A visit goes through the links of a pair one after another, and any of them may end it with a
failure.  Whatever is done about one of them, the others are as they were and none of them is
mentioned to the backend; and if the visit ends, a call to the backend has failed.

* `Tells` — the exchanges that work has, one of them failed if the work does;
* `Confines` — work that is about some of the links of a pair only;
* `Confines.bind`, `Confines.forM` — sequences and loops of such work;
* `createLink_confines`, `renewLink_confines`, `reviveLink_confines` — work on one link.
-/

namespace ProximityNet

variable {σ α β : Type}

/-! ### Exchanges of work that may fail -/

/-- A record goes on with exchanges that all have a property, one of which failed if the work did. -/
def Tells (P : Exchange → Prop) (result : Except ReconcileError α) (h h' : List Exchange) : Prop :=
  ∃ l, h' = h ++ l ∧ (∀ x ∈ l, P x) ∧ ∀ cause, result = .error cause → ∃ x ∈ l, x.failed = true

namespace Tells

variable {P Q : Exchange → Prop} {h h' h'' : List Exchange} {x : Exchange} {a : α}
  {cause : ReconcileError} {result : Except ReconcileError β}

theorem ok (ha : Adds P h h') : Tells P (.ok a) h h' := by
  obtain ⟨l, hl, hP⟩ := ha
  exact ⟨l, hl, hP, fun _ heq => by cases heq⟩

theorem error (ha : Adds P h h') (hlast : h'' = h' ++ [x]) (hx : P x) (hfailed : x.failed = true) :
    Tells P (.error cause : Except ReconcileError α) h h'' := by
  obtain ⟨l, rfl, hP⟩ := ha
  refine ⟨l ++ [x], by rw [hlast, List.append_assoc], fun y hy => ?_, fun _ _ => ?_⟩
  · rcases List.mem_append.mp hy with hy | hy
    · exact hP y hy
    · rwa [List.mem_singleton.mp hy]
  · exact ⟨x, List.mem_append_right l (List.mem_singleton_self x), hfailed⟩

theorem after (hw : Tells P (.ok a) h h') (hr : Tells P result h' h'') : Tells P result h h'' := by
  obtain ⟨l, rfl, hP, _⟩ := hw
  obtain ⟨l', rfl, hP', hfailed⟩ := hr
  refine ⟨l ++ l', List.append_assoc .., fun x hx => ?_, fun cause hcause => ?_⟩
  · rcases List.mem_append.mp hx with hx | hx
    · exact hP x hx
    · exact hP' x hx
  · obtain ⟨x, hx, hxf⟩ := hfailed cause hcause
    exact ⟨x, List.mem_append_right l hx, hxf⟩

theorem mono (hr : Tells P result h h') (hPQ : ∀ x, P x → Q x) : Tells Q result h h' := by
  obtain ⟨l, hl, hP, hfailed⟩ := hr
  exact ⟨l, hl, fun x hx => hPQ x (hP x hx), hfailed⟩

end Tells

/-- An exchange about a link of a pair, over interfaces that have a property. -/
def Exchange.AboutLink (pair : NodePair) (S : InterfacePair → Prop) (x : Exchange) : Prop :=
  ∃ site c, x.link? = some (site, c) ∧ c.pair = pair ∧ S c.interfaces

/-! ### Work on some of the links of a visit -/

/-- How work ends that is about the links of a pair over some interfaces only: the others are as they
were, and nothing is told about them. -/
structure Confines (pair : NodePair) (S : InterfacePair → Prop) (p : Progress (σ × List Exchange))
    (r : Except ReconcileError α × Progress (σ × List Exchange)) : Prop where
  numbered : r.2.store.Numbered
  others : ∀ j, ¬ S j → r.2.store.find? pair j = p.store.find? pair j
  stays : ∀ j, (p.store.find? pair j).isSome = true → (r.2.store.find? pair j).isSome = true
  tells : Tells (Exchange.AboutLink pair S) r.1 p.world.2 r.2.world.2

namespace Confines

variable {pair : NodePair} {S T : InterfacePair → Prop} {p : Progress (σ × List Exchange)}

theorem mono {r : Except ReconcileError α × Progress (σ × List Exchange)} (h : Confines pair S p r)
    (hST : ∀ j, S j → T j) : Confines pair T p r where
  numbered := h.numbered
  others j hj := h.others j fun hS => hj (hST j hS)
  stays := h.stays
  tells := h.tells.mono fun _ ⟨site, c, hlink, hpair, hS⟩ => ⟨site, c, hlink, hpair, hST _ hS⟩

/-- Work that does nothing. -/
theorem idle (hs : p.store.Numbered) (a : α) : Confines pair S p (.ok a, p) where
  numbered := hs
  others _ _ := rfl
  stays _ hj := hj
  tells := .ok (.refl _)

theorem bind {w : Work (σ × List Exchange) α} {f : α → Work (σ × List Exchange) β}
    (hw : Confines pair S p (w p))
    (hf : ∀ a p', w p = (.ok a, p') → p'.store.Numbered → Confines pair S p' (f a p')) :
    Confines pair S p ((w >>= f) p) := by
  rcases hr : w p with ⟨cause | a, p'⟩
  · rw [Work.bind_of_error hr]
    rw [hr] at hw
    obtain ⟨l, hl, hP, hfailed⟩ := hw.tells
    exact ⟨hw.numbered, hw.others, hw.stays, l, hl, hP, fun _ _ => hfailed cause rfl⟩
  · rw [Work.bind_of_ok hr]
    rw [hr] at hw
    have hnext := hf a p' hr hw.numbered
    refine ⟨hnext.numbered, fun j hj => ?_, fun j hj => ?_, hw.tells.after hnext.tells⟩
    · rw [hnext.others j hj]
      exact hw.others j hj
    · exact hnext.stays j (hw.stays j hj)

/-- A loop of such work; a round may count on the other links, and on links being there. -/
theorem forM {l : List α} {g : α → Work (σ × List Exchange) Unit} (hs : p.store.Numbered)
    (round : ∀ a ∈ l, ∀ q : Progress (σ × List Exchange), q.store.Numbered →
      (∀ j, ¬ S j → q.store.find? pair j = p.store.find? pair j) →
      (∀ j, (p.store.find? pair j).isSome = true → (q.store.find? pair j).isSome = true) →
      Confines pair S q (g a q)) :
    Confines pair S p (l.forM g p) := by
  induction l generalizing p with
  | nil => exact idle hs ()
  | cons a rest ih =>
    refine bind (round a List.mem_cons_self p hs (fun _ _ => rfl) fun _ hj => hj) fun u q hq hqs => ?_
    have hfirst := round a List.mem_cons_self p hs (fun _ _ => rfl) fun _ hj => hj
    rw [hq] at hfirst
    refine ih hqs fun b hb q' hq' hothers hstays => ?_
    refine round b (List.mem_cons_of_mem a hb) q' hq' (fun j hj => ?_) fun j hj => ?_
    · rw [hothers j hj]
      exact hfirst.others j hj
    · exact hstays j (hfirst.stays j hj)

/-- Work that leaves the links as they are. -/
theorem still {r : Except ReconcileError α × Progress (σ × List Exchange)} (hs : p.store.Numbered)
    (hstore : r.2.store = p.store)
    (ht : Tells (Exchange.AboutLink pair S) r.1 p.world.2 r.2.world.2) : Confines pair S p r where
  numbered := by rwa [hstore]
  others _ _ := by rw [hstore]
  stays _ hj := by rwa [hstore]
  tells := ht

/-- Work that files one link. -/
theorem filed {r : Except ReconcileError α × Progress (σ × List Exchange)} {st : ConnectionStore}
    {c : Connection} (hst : st.WellFormed) (hsame : ∀ j, st.find? pair j = p.store.find? pair j)
    (hstore : r.2.store = st.file c) (hnumbered : r.2.store.Numbered) (hi : S c.interfaces)
    (ht : Tells (Exchange.AboutLink pair S) r.1 p.world.2 r.2.world.2) :
    Confines pair S p r where
  numbered := hnumbered
  others j hj := by
    have hne : j ≠ c.interfaces := fun heq => hj (heq ▸ hi)
    rw [hstore, Setting.find?_file_of_ne hst rfl hne, hsame]
  stays j hj := by
    rw [hstore, hst.find?_file]
    split
    · rfl
    · rwa [hsame]
  tells := ht

end Confines

/-! ### Work on one link -/

section Links

variable {b : Backend σ} {v : Visit} {kind : ConnectionKind} {ix iy : Interface}
  {i : InterfacePair} {shaping : Shaping} {p : Progress (σ × List Exchange)} {c : Connection}

theorem aboutLink_self {x : Exchange} {site : LinkSite} (hlink : x.link? = some (site, c))
    (hpair : c.pair = v.pair) (hi : c.interfaces = i) : x.AboutLink v.pair (· = i) :=
  ⟨site, c, hlink, hpair, hi⟩

/-- A link that is set up is there afterwards. -/
theorem setUp_confines (b : Backend σ) (v : Visit) (kind : ConnectionKind) (ix iy : Interface)
    (i : InterfacePair) (shaping : Shaping) (hs : p.store.Numbered) :
    Confines v.pair (· = i) p (setUp b.recorded v kind ix iy i shaping p) ∧
      ∀ p', setUp b.recorded v kind ix iy i shaping p = (.ok true, p') →
        ∃ c, p'.store.find? v.pair i = some c := by
  have hw := hs.toWellFormed
  rcases hstart : b.recorded.start (v.site kind ix iy) (v.fresh kind i p.store) p.world with
    ⟨e | answer, world⟩
  · have hasked := recorded_start hstart
    rw [setUp_of_error hstart]
    refine ⟨⟨hs.freshId, fun _ _ => rfl, fun _ hj => hj, ?_⟩, fun p' heq => ?_⟩
    · exact .error (.refl _) hasked (aboutLink_self rfl rfl rfl) rfl
    · cases (Prod.mk.inj heq).1
  have hasked : Adds (Exchange.AboutLink v.pair (· = i)) p.world.2 world.2 :=
    .one (recorded_start hstart) (aboutLink_self rfl rfl rfl)
  cases hanswer : answer.accepted with
  | false =>
    rw [setUp_of_refused hstart hanswer]
    refine ⟨⟨hs.freshId, fun _ _ => rfl, fun _ hj => hj, .ok hasked⟩, fun p' heq => ?_⟩
    cases Except.ok.inj (Prod.mk.inj heq).1
  | true =>
    have hnumbered := Visit.established_numbered hs v kind i shaping answer.switch
    rcases hcreate : b.recorded.perform (.create (v.site kind ix iy)
      ((v.fresh kind i p.store).accepted shaping answer.switch)) world with ⟨e | u, world'⟩
    · rw [setUp_of_createError hw hstart hanswer hcreate]
      refine ⟨.filed (c := (v.fresh kind i p.store).accepted shaping answer.switch) hw.freshId
        (fun _ => rfl) rfl hnumbered rfl ?_, fun p' heq => ?_⟩
      · exact .error hasked (recorded_perform hcreate) (aboutLink_self rfl rfl rfl) rfl
      · cases (Prod.mk.inj heq).1
    · rw [setUp_of_ok hw hstart hanswer hcreate]
      refine ⟨.filed (c := (v.fresh kind i p.store).accepted shaping answer.switch) hw.freshId
        (fun _ => rfl) rfl hnumbered rfl (.ok ?_), fun p' heq => ?_⟩
      · exact hasked.trans (.one (recorded_perform hcreate) (aboutLink_self rfl rfl rfl))
      · rw [← (Prod.mk.inj heq).2]
        exact ⟨_, hw.freshId.find?_file_self rfl rfl⟩

theorem bringUp_confines (hs : p.store.Numbered) (hc : p.store.find? v.pair i = some c) :
    Confines v.pair (· = i) p (bringUp b.recorded v kind ix iy i shaping p) := by
  obtain ⟨hpair, hi⟩ := hs.keys_eq hc
  rcases hraise : b.recorded.perform (.raise (v.site kind ix iy) c shaping) p.world with
    ⟨e | u, world⟩
  · rw [bringUp_of_error hc hraise]
    exact .still hs rfl (.error (.refl _) (recorded_perform hraise) (aboutLink_self rfl hpair hi) rfl)
  · rw [bringUp_of_ok hs.toWellFormed hc hraise]
    have hnumbered : (p.store.file (c.raised v.distance shaping)).Numbered := hs.file hc rfl rfl rfl
    refine .filed (c := c.raised v.distance shaping) hs.toWellFormed (fun _ => rfl) rfl hnumbered hi
      (.ok ?_)
    exact .one (recorded_perform hraise) (aboutLink_self rfl hpair hi)

theorem takeDown_confines (hs : p.store.Numbered) (hc : p.store.find? v.pair i = some c) :
    Confines v.pair (· = i) p (takeDown b.recorded v c i shaping p) := by
  obtain ⟨hpair, hi⟩ := hs.keys_eq hc
  rcases hlower : b.recorded.perform (.lower (v.site c.kind i.low i.high) c shaping) p.world with
    ⟨e | u, world⟩
  · rw [takeDown_of_error hlower]
    exact .still hs rfl (.error (.refl _) (recorded_perform hlower) (aboutLink_self rfl hpair hi) rfl)
  · rw [takeDown_of_ok hs.toWellFormed hc hlower]
    have hnumbered : (p.store.file (c.lowered v.distance)).Numbered := hs.file hc rfl rfl rfl
    refine .filed (c := c.lowered v.distance) hs.toWellFormed (fun _ => rfl) rfl hnumbered hi
      (.ok ?_)
    exact .one (recorded_perform hlower) (aboutLink_self rfl hpair hi)

/-- Shaping a link leaves the store as it is. -/
theorem shape_confines (b : Backend σ) (shaping : Shaping) (hs : p.store.Numbered)
    (hc : p.store.find? v.pair i = some c) :
    Confines v.pair (· = i) p (shape b.recorded v c i shaping p) ∧
      ∀ result q, shape b.recorded v c i shaping p = (result, q) → q.store = p.store := by
  obtain ⟨hpair, hi⟩ := hs.keys_eq hc
  rcases hshape : v.shapeWorld b.recorded c i shaping p.world with ⟨e | u, world⟩
  · rw [shape_of_error hshape]
    have htold : p.world.2 ++ [.announced (.adjusting (v.site c.kind i.low i.high) c true shaping)] ++
        [.performed (.adjust (v.site c.kind i.low i.high) c true shaping) (.error e)] = world.2 := by
      rw [recorded_shape hshape, List.append_assoc]
      rfl
    refine ⟨.still hs rfl (.error (.one rfl (aboutLink_self rfl hpair hi)) htold.symm
      (aboutLink_self rfl hpair hi) rfl), fun result q heq => ?_⟩
    rw [← (Prod.mk.inj heq).2]
  · rw [shape_of_ok hshape]
    refine ⟨.still hs rfl (.ok (.two (recorded_shape hshape) (aboutLink_self rfl hpair hi)
      (aboutLink_self rfl hpair hi))), fun result q heq => ?_⟩
    rw [← (Prod.mk.inj heq).2]

end Links

namespace Setting

variable {s : Setting σ} {v : Visit} {decision : LinkDecision} {i : InterfacePair}
  {p : Progress (σ × List Exchange)} {c : Connection}

theorem createLink_confines {ix iy : Interface} (hs : p.store.Numbered) :
    Confines v.pair (· = ⟨ix, iy⟩) p (s.recorded.createLink v decision ix iy p) := by
  rw [createLink, Work.bind_connections]
  split
  · exact .idle hs ()
  obtain ⟨hset, hfound⟩ := setUp_confines s.backend v v.kind ix iy ⟨ix, iy⟩ .none hs
  refine Confines.bind hset fun accepted q hq hqs => ?_
  cases accepted with
  | false => exact .idle hqs ()
  | true =>
    obtain ⟨c, hc⟩ := hfound q hq
    exact bringUp_confines hqs hc

theorem reviveLink_confines (hs : p.store.Numbered) (hc : p.store.find? v.pair i = some c) :
    Confines v.pair (· = i) p (s.recorded.reviveLink v decision i p) := by
  rw [reviveLink, Work.bind_of_ok (Work.stored_of_some hc)]
  exact bringUp_confines hs hc

theorem renewLink_confines (hs : p.store.Numbered) (hc : p.store.find? v.pair i = some c) :
    Confines v.pair (· = i) p (s.recorded.renewLink v decision i p) := by
  obtain ⟨hpair, hi⟩ := hs.keys_eq hc
  rw [renewLink, Work.bind_of_ok (Work.stored_of_some hc)]
  cases c.kind with
  | management => exact .idle hs ()
  | central =>
    obtain ⟨hshape, _⟩ := shape_confines s.backend s.initial hs hc
    exact Confines.bind hshape fun _ q hq hqs => .still hqs rfl (.ok (.refl _))
  | user =>
    dsimp only
    split
    · generalize (if v.step = 0 then decision.shaping.fillFrom s.recorded.initial
        else decision.shaping) = shaping
      obtain ⟨hshape, hstore⟩ := shape_confines s.backend shaping hs hc
      refine Confines.bind hshape fun _ q hq hqs => ?_
      rw [← hstore _ q hq] at hc
      have hmodify : q.store.modify v.pair i (fun c =>
          { c with shaping := shaping.fillFrom c.shaping, distance := v.distance }) =
          q.store.file (c.adjusted v.distance shaping) :=
        hqs.modify_eq hc rfl rfl rfl
      have hnumbered : (q.store.file (c.adjusted v.distance shaping)).Numbered :=
        hqs.file hc rfl rfl rfl
      refine .filed (c := c.adjusted v.distance shaping) hqs.toWellFormed (fun _ => rfl) hmodify ?_ hi
        (.ok (.refl _))
      show (q.store.modify v.pair i _).Numbered
      rw [hmodify]
      exact hnumbered
    · exact takeDown_confines hs hc

end Setting

end ProximityNet
