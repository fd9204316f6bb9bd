import ProximityNet.Proofs.Moves

/-!
# Reconciling is a chain of moves

Every function that the engine runs on links is shown to be a chain of moves of one task, however it
ends: `createLink_moves`, `renewLink_move`, `reviveLink_move` for one link, `renewLinks_moves` for
the links of a pair, `reconcileNodes_moves` for a visit with its tunnel, and
`connectToManagement_moves` for a link to the management node.

The loops of a visit run over the interfaces that were up, or down, when they began.  A round
changes the link of its own interfaces only (`AtMost`), so each link still is as it was when its
round comes.

`reconcileAll_proceeds` and `connectManagement_proceeds` put the chains together: a whole step and
the whole linking to the management node are chains of moves of tasks that are due.
-/

namespace ProximityNet

open Relation (ReflTransGen)

variable {σ : Type} {s : Setting σ} {t : Task} {v : Visit} {p : Progress σ}

namespace Setting

/-! ### One link -/

/-- Of a new link the store keeps what it is when it has come up. -/
theorem established_file {st : ConnectionStore} (hst : st.WellFormed) (kind : ConnectionKind)
    (i : InterfacePair) (held first : Shaping) (switch : Option String) (distance : Distance) :
    (v.established kind i held switch st).file
        (((v.fresh kind i st).accepted held switch).raised distance first) =
      st.freshId.2.file (((v.fresh kind i st).accepted held switch).raised distance first) :=
  hst.freshId.file_file rfl rfl

/-- Setting up a new link and bringing it up is one move, however it ends. -/
theorem launch_move {l : Launch} (hl : s.Launches t l) (hs : p.store.Numbered)
    (free : p.store.find? t.visit.pair l.interfaces = none) :
    s.Move t p ((do
      let accepted ← setUp s.backend t.visit l.kind l.ix l.iy l.interfaces l.held
      if accepted then
        bringUp s.backend t.visit l.kind l.ix l.iy l.interfaces l.first : Work σ Unit) p).2 := by
  have hw := hs.toWellFormed
  rcases hstart : s.backend.start (t.visit.site l.kind l.ix l.iy)
    (t.visit.fresh l.kind l.interfaces p.store) p.world with ⟨e | answer, world⟩
  · rw [Work.bind_of_error (setUp_of_error hstart)]
    exact .startFailed hl free hstart
  cases hanswer : answer.accepted with
  | false =>
    rw [Work.bind_of_ok (setUp_of_refused hstart hanswer)]
    exact .refused hl free hstart hanswer
  | true =>
    rcases hcreate : s.backend.perform (.create (t.visit.site l.kind l.ix l.iy)
      ((t.visit.fresh l.kind l.interfaces p.store).accepted l.held answer.switch)) world with
      ⟨e | _, world'⟩
    · rw [Work.bind_of_error (setUp_of_createError hw hstart hanswer hcreate)]
      exact .createFailed hl free hstart hanswer hcreate
    rw [Work.bind_of_ok (setUp_of_ok hw hstart hanswer hcreate), if_pos rfl]
    -- the link that has just been stored is the one that is brought up
    have hfound : (t.visit.established l.kind l.interfaces l.held answer.switch p.store).find?
        t.visit.pair l.interfaces =
        some ((t.visit.fresh l.kind l.interfaces p.store).accepted l.held answer.switch) :=
      hw.freshId.find?_file_self rfl rfl
    rcases hraise : s.backend.perform (.raise (t.visit.site l.kind l.ix l.iy)
      ((t.visit.fresh l.kind l.interfaces p.store).accepted l.held answer.switch) l.first)
        world' with ⟨e | _, world''⟩
    · rw [bringUp_of_error hfound hraise]
      exact .launchFailed hl free hstart hanswer hcreate hraise
    · rw [bringUp_of_ok (Visit.established_numbered hs ..).toWellFormed hfound hraise]
      dsimp only
      rw [established_file hw]
      exact .launched hl free hstart hanswer hcreate hraise

theorem createLink_moves {ix iy : Interface} (hs : p.store.Numbered)
    (near : (s.decide v.kind v.distance).connected = true)
    (candidate : (ix, iy) ∈ s.candidates v) :
    s.Moves (.follow v) p (s.createLink v (s.decide v.kind v.distance) ix iy p).2 := by
  rw [createLink, Work.bind_connections]
  cases hfind : p.store.find? v.pair ⟨ix, iy⟩ with
  | some c => exact ReflTransGen.refl
  | none => exact .single (launch_move (.follow near candidate) hs hfind)

/-- At most one move, which leaves the links of other interfaces alone. -/
def AtMost (s : Setting σ) (t : Task) (i : InterfacePair) (p p' : Progress σ) : Prop :=
  (p' = p ∨ s.Move t p p') ∧
    ∀ i', i' ≠ i → p'.store.find? t.visit.pair i' = p.store.find? t.visit.pair i'

theorem AtMost.moves {i : InterfacePair} {p' : Progress σ} (h : s.AtMost t i p p') :
    s.Moves t p p' := by
  rcases h.1 with rfl | hmove
  · exact ReflTransGen.refl
  · exact ReflTransGen.single hmove

theorem find?_file_of_ne {st : ConnectionStore} {c : Connection} {pair : NodePair}
    {i i' : InterfacePair} (hst : st.WellFormed) (hi : c.interfaces = i) (hne : i' ≠ i) :
    (st.file c).find? pair i' = st.find? pair i' := by
  rw [hst.find?_file, if_neg (fun heq => hne (heq.2.symm.trans hi))]

/-- Bringing up a link that is down is one move. -/
theorem bringUp_move {i : InterfacePair} {c : Connection} {kind : ConnectionKind}
    {ix iy : Interface} {shaping : Shaping} (hs : p.store.Numbered)
    (found : p.store.find? t.visit.pair i = some c) (down : c.connected = false)
    (hr : s.Revives t c (t.visit.site kind ix iy) shaping) :
    s.Move t p (bringUp s.backend t.visit kind ix iy i shaping p).2 := by
  have hi := (hs.keys_eq found).2
  have found' : p.store.find? t.visit.pair c.interfaces = some c := by rw [hi, found]
  rcases hraise : s.backend.perform (.raise (t.visit.site kind ix iy) c shaping) p.world with
    ⟨e | _, world⟩
  · rw [bringUp_of_error found hraise]
    exact .raiseFailed hr found' down hraise
  · rw [bringUp_of_ok hs.toWellFormed found hraise]
    exact .raised hr found' down hraise

theorem bringUp_others {b : Backend σ} {i i' : InterfacePair} {c : Connection}
    {kind : ConnectionKind} {ix iy : Interface} {shaping : Shaping} (hs : p.store.Numbered)
    (found : p.store.find? v.pair i = some c) (hne : i' ≠ i) :
    (bringUp b v kind ix iy i shaping p).2.store.find? v.pair i' = p.store.find? v.pair i' := by
  rcases hraise : b.perform (.raise (v.site kind ix iy) c shaping) p.world with ⟨e | _, world⟩
  · rw [bringUp_of_error found hraise]
  · rw [bringUp_of_ok hs.toWellFormed found hraise]
    exact find?_file_of_ne hs.toWellFormed (hs.keys_eq found).2 hne

theorem reviveLink_move {i : InterfacePair} {c : Connection} (hs : p.store.Numbered)
    (near : (s.decide v.kind v.distance).connected = true)
    (found : p.store.find? v.pair i = some c) (down : c.connected = false) :
    s.AtMost (.follow v) i p (s.reviveLink v (s.decide v.kind v.distance) i p).2 := by
  have hi := (hs.keys_eq found).2
  rw [reviveLink, Work.bind_of_ok (Work.stored_of_some found)]
  have hr : s.Revives (.follow v) c (v.site c.kind i.low i.high)
      (s.decide v.kind v.distance).shaping := by
    rw [← hi]
    exact .follow near
  exact ⟨Or.inr (bringUp_move (t := .follow v) hs found down hr),
    fun _ hne => bringUp_others hs found hne⟩

theorem takeDown_move {i : InterfacePair} {c : Connection} (hs : p.store.Numbered)
    (kind : c.kind = .user) (far : (s.decide v.kind v.distance).connected = false)
    (found : p.store.find? v.pair i = some c) (up : c.connected = true) :
    s.AtMost (.follow v) i p
      (takeDown s.backend v c i (s.decide v.kind v.distance).shaping p).2 := by
  obtain ⟨hpair, rfl⟩ := hs.keys_eq found
  rcases hlower : s.backend.perform (.lower (v.site c.kind c.interfaces.low c.interfaces.high) c
    (s.decide v.kind v.distance).shaping) p.world with ⟨e | _, world⟩
  · rw [takeDown_of_error hlower]
    exact ⟨Or.inr (.lowerFailed kind far found up hlower), fun _ _ => rfl⟩
  · rw [takeDown_of_ok hs.toWellFormed found hlower]
    refine ⟨Or.inr (.lowered kind far found up hlower), fun i' hne => ?_⟩
    exact find?_file_of_ne hs.toWellFormed rfl hne

/-- Renewing a link that is up is at most one move. -/
theorem renewLink_move {i : InterfacePair} {c : Connection} (hs : p.store.Numbered)
    (found : p.store.find? v.pair i = some c) (up : c.connected = true) :
    s.AtMost (.follow v) i p (s.renewLink v (s.decide v.kind v.distance) i p).2 := by
  rw [renewLink, Work.bind_of_ok (Work.stored_of_some found)]
  obtain ⟨hpair, rfl⟩ := hs.keys_eq found
  cases hkind : c.kind with
  | management => exact ⟨Or.inl rfl, fun _ _ => rfl⟩
  | central =>
    dsimp only
    rcases hshape : v.shapeWorld s.backend c c.interfaces s.initial p.world with ⟨e | _, world⟩
    · rw [Work.bind_of_error (shape_of_error hshape)]
      exact ⟨Or.inr (.adjustFailed (.hub hkind) found up hshape), fun _ _ => rfl⟩
    · rw [Work.bind_of_ok (shape_of_ok hshape)]
      exact ⟨Or.inr (.hubAdjusted hkind found up hshape), fun _ _ => rfl⟩
  | user =>
    dsimp only
    split
    · rename_i near
      generalize hq : (if v.step = 0 then (s.decide v.kind v.distance).shaping.fillFrom s.initial
        else (s.decide v.kind v.distance).shaping) = shaping
      have hadjust : s.Adjusts v c shaping := hq ▸ .user hkind near
      rcases hshape : v.shapeWorld s.backend c c.interfaces shaping p.world with ⟨e | _, world⟩
      · rw [Work.bind_of_error (shape_of_error hshape)]
        exact ⟨Or.inr (.adjustFailed hadjust found up hshape), fun _ _ => rfl⟩
      · rw [Work.bind_of_ok (shape_of_ok hshape)]
        have hmodify : p.store.modify v.pair c.interfaces (fun c =>
            { c with shaping := shaping.fillFrom c.shaping, distance := v.distance }) =
            p.store.file (c.adjusted v.distance shaping) :=
          hs.modify_eq found rfl rfl rfl
        show s.AtMost _ _ _ (⟨p.store.modify v.pair c.interfaces _, _, world⟩ : Progress σ)
        rw [hmodify]
        refine ⟨Or.inr (.adjusted hkind hadjust found up hshape), fun i' hne => ?_⟩
        exact find?_file_of_ne hs.toWellFormed rfl hne
    · rename_i far
      exact takeDown_move hs hkind (Bool.eq_false_iff.mpr far) found up

/-! ### The links of a pair -/

theorem moves_bind {α β : Type} {w : Work σ α} {f : α → Work σ β}
    (hw : s.Moves t p (w p).2)
    (hf : ∀ a p', w p = (.ok a, p') → s.Moves t p' (f a p').2) :
    s.Moves t p ((w >>= f) p).2 := by
  rcases h : w p with ⟨e | a, p'⟩
  · rw [Work.bind_of_error h]
    rw [h] at hw
    exact hw
  · rw [Work.bind_of_ok h]
    rw [h] at hw
    exact hw.trans (hf a p' h)

/-- A loop over links that are all up, or all down, when it begins. -/
theorem loop_moves {g : InterfacePair → Work σ Unit} {b : Bool} {l : List InterfacePair}
    (hl : l.Nodup) (hs : p.store.Numbered)
    (all : ∀ i ∈ l, ∃ c, p.store.find? t.visit.pair i = some c ∧ c.connected = b)
    (round : ∀ i q c, q.store.Numbered → q.store.find? t.visit.pair i = some c →
      c.connected = b → s.AtMost t i q (g i q).2) :
    s.Moves t p (l.forM g p).2 := by
  refine (Work.forM_invariant (I := fun q => q.store.Numbered ∧ s.Moves t p q)
    (R := fun i q => ∃ c, q.store.find? t.visit.pair i = some c ∧ c.connected = b) hl ?_
    ⟨hs, ReflTransGen.refl⟩ all).2
  rintro i _ q ⟨hq, hmoves⟩ ⟨c, found, hflag⟩
  have hround := round i q c hq found hflag
  refine ⟨⟨Moves.numbered hround.moves hq, hmoves.trans hround.moves⟩, fun i' _ hne hi' => ?_⟩
  rw [hround.2 i' hne]
  exact hi'

theorem createLinks_moves {cs : List (Interface × Interface)} (hs : p.store.Numbered)
    (near : (s.decide v.kind v.distance).connected = true) (hcs : ∀ e ∈ cs, e ∈ s.candidates v) :
    s.Moves (.follow v) p
      (cs.forM (fun e => s.createLink v (s.decide v.kind v.distance) e.1 e.2) p).2 := by
  refine (Work.forM_keeps (I := fun q => q.store.Numbered ∧ s.Moves (.follow v) p q) ?_
    ⟨hs, ReflTransGen.refl⟩).2
  rintro ⟨ix, iy⟩ hmem q ⟨hq, hmoves⟩
  have hround := createLink_moves hq near (hcs _ hmem)
  exact ⟨Moves.numbered hround hq, hmoves.trans hround⟩

theorem renewLinks_moves (hs : p.store.Numbered) :
    s.Moves (.follow v) p (s.renewLinks v (s.decide v.kind v.distance) p).2 := by
  have active : ∀ q : Progress σ, q.store.Numbered → s.Moves (.follow v) q
      ((q.store.activeInterfaces v.pair).forM (s.renewLink v (s.decide v.kind v.distance)) q).2 := by
    intro q hq
    refine loop_moves (ConnectionStore.activeInterfaces_nodup _ _) hq (fun i hi => ?_)
      fun i q c hq found up => renewLink_move hq found up
    exact hq.mem_activeInterfaces_iff.mp hi
  rw [renewLinks]
  split
  · rename_i near
    have create : s.Moves (.follow v) p ((s.candidates v).forM
        (fun e => s.createLink v (s.decide v.kind v.distance) e.1 e.2) p).2 :=
      createLinks_moves hs near fun _ he => he
    refine moves_bind create fun _ q hq => ?_
    have hqs : q.store.Numbered := by
      rw [hq] at create
      exact Moves.numbered create hs
    beta_reduce
    rw [Work.bind_connections]
    refine moves_bind (active q hqs) fun _ q' hq' => ?_
    have hqs' : q'.store.Numbered := by
      have := active q hqs
      rw [hq'] at this
      exact Moves.numbered this hqs
    rw [Work.bind_connections]
    refine loop_moves (ConnectionStore.inactiveInterfaces_nodup _ _) hqs' (fun i hi => ?_)
      fun i q c hq found down => reviveLink_move hq near found down
    exact hqs'.mem_inactiveInterfaces_iff.mp hi
  · beta_reduce
    rw [Work.bind_connections]
    exact moves_bind (active p hs) fun _ q _ => ReflTransGen.refl

/-! ### A visit -/

/-- A tunnel is seen to in one move; the result says whether the pair is remote. -/
theorem ensureTunnel_moves (x y : Node) (pair : NodePair) (distance : Distance) (step : Nat)
    (p : Progress σ) :
    s.Moves (.follow ⟨x, y, pair, distance, s.policy.isRemote p.world x.id y.id, step⟩) p
        (s.ensureTunnel x.id y.id pair p).2 ∧
      (∀ b p', s.ensureTunnel x.id y.id pair p = (.ok b, p') →
        b = s.policy.isRemote p.world x.id y.id) ∧
      (s.ensureTunnel x.id y.id pair p).2.store = p.store := by
  cases hremote : s.policy.isRemote p.world x.id y.id with
  | false =>
    have heq : s.ensureTunnel x.id y.id pair p = (.ok false, p) := by
      rw [ensureTunnel, hremote]
      rfl
    rw [heq]
    refine ⟨ReflTransGen.refl, ?_, rfl⟩
    rintro b p' h
    cases h
    rfl
  | true =>
    rcases hensure : s.policy.ensure pair p.world with ⟨result, world⟩
    have heq : s.ensureTunnel x.id y.id pair p =
        ((result.mapError .tunnel).map fun () => true, { p with world }) := by
      rw [ensureTunnel, hremote, if_pos rfl, hensure]
    rw [heq]
    refine ⟨ReflTransGen.single (.tunnel rfl hensure), ?_, rfl⟩
    intro b p' h
    cases result with
    | error e => cases h
    | ok u => cases h; rfl

theorem reconcileNodes_moves {x y : Node} {pair : NodePair} {distance : Distance} {step : Nat}
    (hs : p.store.Numbered) :
    s.Moves (.follow ⟨x, y, pair, distance, s.policy.isRemote p.world x.id y.id, step⟩) p
      (s.reconcileNodes step pair distance x y p).2 := by
  rw [reconcileNodes]
  split
  · exact ReflTransGen.refl
  · dsimp only
    rw [Work.bind_connections]
    split
    · obtain ⟨hmoves, hresult, hstore⟩ := ensureTunnel_moves (s := s) x y pair distance step p
      refine moves_bind hmoves fun b p' h => ?_
      rw [← hresult b p' h]
      have hs' : p'.store.Numbered := by
        rw [h] at hstore
        rw [show p'.store = p.store from hstore]
        exact hs
      exact renewLinks_moves (v := ⟨x, y, pair, distance, b, step⟩) hs'
    · exact ReflTransGen.refl

end Setting

/-! ### Tasks that are due -/

/-- A visit to a pair of nodes whose distance has changed. -/
structure Visit.Follows (nodes : SortedMap NodeId Node) (step : Nat) (changed : DistanceMatrix)
    (v : Visit) : Prop where
  x : nodes.get? v.pair.low = some v.x
  y : nodes.get? v.pair.high = some v.y
  plainX : v.x.isManagement = false
  plainY : v.y.isManagement = false
  changed : changed.get? v.pair = some v.distance
  step : v.step = step

/-- A visit to an emulation node and the management node. -/
structure Visit.Manages (nodes : SortedMap NodeId Node) (step : Nat) (v : Visit) : Prop where
  x : v.x ∈ nodes.values
  emulation : v.x.isEmulation = true
  y : nodes.get? .management = some v.y
  pair : NodePair.make v.x.id v.y.id = .ok v.pair
  distance : v.distance = .zero
  isRemote : v.isRemote = false
  step : v.step = step

namespace Task

/-- What a step does when the distances in `changed` have changed. -/
def DueInStep (nodes : SortedMap NodeId Node) (step : Nat) (changed : DistanceMatrix) :
    Task → Prop
  | follow v => v.Follows nodes step changed
  | manage _ => False

/-- What linking to the management node does. -/
def DueInLinking (nodes : SortedMap NodeId Node) (step : Nat) : Task → Prop
  | follow _ => False
  | manage v => v.Manages nodes step

end Task

namespace Setting

/-- A move of a task that is due, or the report that a pair has failed. -/
inductive Proceeds (s : Setting σ) (due : Task → Prop) : Progress σ → Progress σ → Prop
  | move {t : Task} {p p' : Progress σ} (ht : due t) (h : s.Move t p p') : Proceeds s due p p'
  | failure {p : Progress σ} (f : PairFailure) :
      Proceeds s due p { p with report := p.report.addFailure f }

variable {due : Task → Prop} {p' : Progress σ} {nodes : SortedMap NodeId Node} {step : Nat}
  {changed : DistanceMatrix}

theorem Proceeds.numbered (h : s.Proceeds due p p') (hs : p.store.Numbered) :
    p'.store.Numbered := by
  cases h with
  | move _ hmove => exact hmove.numbered hs
  | failure => exact hs

theorem Moves.proceeds (ht : due t) (h : s.Moves t p p') : ReflTransGen (s.Proceeds due) p p' :=
  ReflTransGen.mono (fun _ _ hmove => Proceeds.move ht hmove) _ _ h

/-- What every due move keeps holds after any number of them. -/
theorem proceeds_keeps {I : ConnectionStore → σ → Prop}
    (move : ∀ t p p', due t → p.store.Numbered → s.Move t p p' → I p.store p.world →
      I p'.store p'.world)
    (h : ReflTransGen (s.Proceeds due) p p') (hs : p.store.Numbered) (hI : I p.store p.world) :
    p'.store.Numbered ∧ I p'.store p'.world := by
  induction h with
  | refl => exact ⟨hs, hI⟩
  | tail _ hproceeds ih =>
    refine ⟨hproceeds.numbered ih.1, ?_⟩
    cases hproceeds with
    | move ht hmove => exact move _ _ _ ht ih.1 hmove ih.2
    | failure => exact ih.2

theorem reconcile_proceeds {pair : NodePair} {distance : Distance} (hs : p.store.Numbered)
    (hchanged : changed.get? pair = some distance) :
    ReflTransGen (s.Proceeds (Task.DueInStep nodes step changed)) p
      (s.reconcile nodes step pair distance p).2 := by
  rw [reconcile]
  cases hx : nodes.get? pair.low with
  | none => exact ReflTransGen.refl
  | some x =>
    cases hy : nodes.get? pair.high with
    | none => exact ReflTransGen.refl
    | some y =>
      cases hplain : x.isManagement || y.isManagement with
      | true =>
        dsimp only
        rw [reconcileNodes, if_pos hplain]
        exact ReflTransGen.refl
      | false =>
        rw [Bool.or_eq_false_iff] at hplain
        have hv : Visit.Follows nodes step changed
            ⟨x, y, pair, distance, s.policy.isRemote p.world x.id y.id, step⟩ :=
          ⟨hx, hy, hplain.1, hplain.2, hchanged, rfl⟩
        exact Moves.proceeds (t := .follow _) hv (reconcileNodes_moves hs)

theorem reconcileAll_proceeds {l : List (NodePair × Distance)} (hs : p.store.Numbered)
    (hl : ∀ e ∈ l, changed.get? e.1 = some e.2) :
    ReflTransGen (s.Proceeds (Task.DueInStep nodes step changed)) p
      (s.reconcileAll nodes step l p) := by
  induction l generalizing p with
  | nil => exact ReflTransGen.refl
  | cons e rest ih =>
    obtain ⟨pair, distance⟩ := e
    have hpair : ReflTransGen (s.Proceeds (Task.DueInStep nodes step changed)) p
        (s.reconcile nodes step pair distance p).2 :=
      reconcile_proceeds hs (hl (pair, distance) List.mem_cons_self)
    have hrest : ∀ e ∈ rest, changed.get? e.1 = some e.2 :=
      fun e he => hl e (List.mem_cons_of_mem _ he)
    have hs' := (proceeds_keeps (I := fun _ _ => True) (fun _ _ _ _ _ _ _ => trivial) hpair hs
      trivial).1
    rw [reconcileAll]
    generalize s.reconcile nodes step pair distance p = r at hpair hs'
    obtain ⟨e | _, q⟩ := r
    · have hfailed : s.Proceeds (Task.DueInStep nodes step changed) q
          { q with report := q.report.addFailure ⟨pair, distance, e⟩ } := .failure _
      refine hpair.trans (ReflTransGen.head hfailed ?_)
      exact ih (p := { q with report := q.report.addFailure ⟨pair, distance, e⟩ }) hs' hrest
    · exact hpair.trans (ih hs' hrest)

/-! ### Links to the management node -/

/-- A link to the management node that is not up is seen to in one move. -/
theorem startManagementLink_move {ix iy : Interface} (hs : p.store.Numbered)
    (hx : v.x.managementInterface? = some ix) (hy : v.y.managementInterface? = some iy)
    (down : p.store.isActive? v.pair (.oriented v.pair v.x.id ix iy) ≠ some true) :
    s.Move (.manage v) p
      (s.startManagementLink v ix iy (.oriented v.pair v.x.id ix iy) p).2 := by
  rw [startManagementLink, Work.bind_connections]
  cases hfind : p.store.find? v.pair (.oriented v.pair v.x.id ix iy) with
  | none => exact launch_move (.manage hx hy) hs hfind
  | some c =>
    have hi := (hs.keys_eq hfind).2
    rw [hs.isActive?_eq, hfind] at down
    have hdown : c.connected = false := by
      cases hflag : c.connected with
      | false => rfl
      | true => exact absurd (by rw [Option.map_some, hflag]) down
    exact bringUp_move (t := .manage v) hs hfind hdown (.manage hx hy hi)

theorem connectToManagement_proceeds {management node : Node} {iy : Interface}
    (hs : p.store.Numbered) (hnode : node ∈ nodes.values) (hemulation : node.isEmulation = true)
    (hmanagement : nodes.get? .management = some management)
    (hy : management.managementInterface? = some iy) :
    ReflTransGen (s.Proceeds (Task.DueInLinking nodes step)) p
      (s.connectToManagement step management iy node p).2 := by
  rw [connectToManagement]
  cases hx : node.managementInterface? with
  | none => exact ReflTransGen.refl
  | some ix =>
    dsimp only
    cases hpair : NodePair.make node.id management.id with
    | error e => exact ReflTransGen.refl
    | ok pair =>
      have hpure : (Work.ofExcept ((Except.ok pair).mapError .topology) : Work σ NodePair) p =
        (.ok pair, p) := rfl
      rw [Work.bind_of_ok hpure, Work.bind_connections]
      split
      · exact ReflTransGen.refl
      · rename_i down
        have hv : Visit.Manages nodes step ⟨node, management, pair, .zero, false, step⟩ :=
          ⟨hnode, hemulation, hmanagement, hpair, rfl, rfl, rfl⟩
        exact .single (.move (t := .manage _) hv (startManagementLink_move hs hx hy down))

theorem connectManagement_proceeds (hs : p.store.Numbered) :
    ReflTransGen (s.Proceeds (Task.DueInLinking nodes step)) p
      (s.connectManagement nodes step p).2 := by
  rw [connectManagement]
  cases hmanagement : nodes.get? .management with
  | none => exact ReflTransGen.refl
  | some management =>
    dsimp only
    cases hy : management.managementInterface? with
    | none => exact ReflTransGen.refl
    | some iy =>
      refine (Work.forM_keeps (I := fun q => q.store.Numbered ∧
        ReflTransGen (s.Proceeds (Task.DueInLinking nodes step)) p q) ?_ ⟨hs, ReflTransGen.refl⟩).2
      rintro node hnode q ⟨hq, hproceeds⟩
      obtain ⟨hnode, hemulation⟩ := List.mem_filter.mp hnode
      have hround : ReflTransGen (s.Proceeds (Task.DueInLinking nodes step)) q
          (s.connectToManagement step management iy node q).2 :=
        connectToManagement_proceeds hq hnode hemulation hmanagement hy
      have hs' := (proceeds_keeps (I := fun _ _ => True) (fun _ _ _ _ _ _ _ => trivial) hround hq
        trivial).1
      exact ⟨hs', hproceeds.trans hround⟩

end Setting

end ProximityNet
