import ProximityNet.Proofs.AlwaysOn
import ProximityNet.Proofs.Playback

/-!
# Why things fail

A step is refused before it begins or not at all.  Once it has begun, what goes wrong at a pair is
reported with that pair, and what goes wrong at a link to the management node is passed over.  None
of this is ever because a connection is not where it should be: work on a link looks its connection
up under keys that were in the store when its loop began, and no round takes a key away.

* `FailsAtBackend` — work that can fail only because the backend does;
* `launch_fails`, `renewLink_fails`, `reviveLink_fails`, `renewLinks_fails` — such is all work on links;
* `ReconcileError.OfPair`, `reconcile_fails` — why a pair is reported;
* `Setting.linkToManagement`, `Setting.linkAll` — linking nodes to the management node, with all that
  is passed over;
* `runStep_error_iff`, `history_of_error` — why a step is refused, and that nothing is told then;
* `errors_stay_local` — all of it, in every engine that can be reached.
-/

namespace ProximityNet

variable {σ μ α β : Type}

/-! ### Work that fails at the backend -/

/-- If this is an error, then one of the backend. -/
def FailsAtBackend (r : Except ReconcileError α × Progress σ) : Prop :=
  ∀ cause, r.1 = .error cause → ∃ fault, cause = .backend fault

namespace FailsAtBackend

theorem ok (a : α) (p : Progress σ) : FailsAtBackend (.ok a, p) := nofun

theorem error (fault : BackendError) (p : Progress σ) :
    FailsAtBackend ((.error (.backend fault), p) : Except ReconcileError α × Progress σ) := by
  intro cause h
  exact ⟨fault, (Except.error.inj h).symm⟩

theorem bind {w : Work σ α} {f : α → Work σ β} {p : Progress σ} (hw : FailsAtBackend (w p))
    (hf : ∀ a p', w p = (.ok a, p') → FailsAtBackend (f a p')) : FailsAtBackend ((w >>= f) p) := by
  rcases h : w p with ⟨cause | a, p'⟩
  · obtain ⟨fault, rfl⟩ := hw cause (by rw [h])
    rw [Work.bind_of_error h]
    exact error fault p'
  · rw [Work.bind_of_ok h]
    exact hf a p' h

/-- A loop, where what holds of the items to come is kept by every round. -/
theorem forM {g : α → Work σ Unit} {I : List α → Progress σ → Prop}
    (round : ∀ a rest p, I (a :: rest) p → FailsAtBackend (g a p) ∧ I rest (g a p).2) {l : List α}
    {p : Progress σ} (hI : I l p) : FailsAtBackend (l.forM g p) := by
  induction l generalizing p with
  | nil => exact ok () p
  | cons a rest ih =>
    obtain ⟨hfails, hrest⟩ := round a rest p hI
    refine bind (w := g a) (f := fun _ => rest.forM g) hfails fun _ p' h => ?_
    rw [h] at hrest
    exact ih hrest

end FailsAtBackend

/-! ### One link -/

section Links

variable {b : Backend σ} {v : Visit} {kind : ConnectionKind} {ix iy : Interface}
  {i : InterfacePair} {shaping : Shaping} {p : Progress σ} {c : Connection}

theorem setUp_fails (hs : p.store.WellFormed) :
    FailsAtBackend (setUp b v kind ix iy i shaping p) := by
  rcases hstart : b.start (v.site kind ix iy) (v.fresh kind i p.store) p.world with
    ⟨fault | answer, world⟩
  · rw [setUp_of_error hstart]
    exact .error fault _
  cases hanswer : answer.accepted with
  | false =>
    rw [setUp_of_refused hstart hanswer]
    exact .ok false _
  | true =>
    rcases hcreate : b.perform (.create (v.site kind ix iy)
      ((v.fresh kind i p.store).accepted shaping answer.switch)) world with ⟨fault | u, world'⟩
    · rw [setUp_of_createError hs hstart hanswer hcreate]
      exact .error fault _
    · rw [setUp_of_ok hs hstart hanswer hcreate]
      exact .ok true _

/-- A link that has been set up is there to be brought up. -/
theorem setUp_stores (hs : p.store.Numbered) {p' : Progress σ}
    (h : setUp b v kind ix iy i shaping p = (.ok true, p')) :
    p'.store.Numbered ∧ ∃ c, p'.store.find? v.pair i = some c := by
  have hw := hs.toWellFormed
  rcases hstart : b.start (v.site kind ix iy) (v.fresh kind i p.store) p.world with
    ⟨fault | answer, world⟩
  · rw [setUp_of_error hstart] at h
    cases h
  cases hanswer : answer.accepted with
  | false =>
    rw [setUp_of_refused hstart hanswer] at h
    cases h
  | true =>
    rcases hcreate : b.perform (.create (v.site kind ix iy)
      ((v.fresh kind i p.store).accepted shaping answer.switch)) world with ⟨fault | u, world'⟩
    · rw [setUp_of_createError hw hstart hanswer hcreate] at h
      cases h
    · rw [setUp_of_ok hw hstart hanswer hcreate] at h
      rw [← (Prod.mk.inj h).2]
      exact ⟨Visit.established_numbered hs .., _, hw.freshId.find?_file_self rfl rfl⟩

theorem bringUp_fails (hs : p.store.WellFormed) (found : p.store.find? v.pair i = some c) :
    FailsAtBackend (bringUp b v kind ix iy i shaping p) := by
  rcases hraise : b.perform (.raise (v.site kind ix iy) c shaping) p.world with ⟨fault | u, world⟩
  · rw [bringUp_of_error found hraise]
    exact .error fault _
  · rw [bringUp_of_ok hs found hraise]
    exact .ok () _

theorem takeDown_fails (hs : p.store.WellFormed) (found : p.store.find? v.pair i = some c) :
    FailsAtBackend (takeDown b v c i shaping p) := by
  rcases hlower : b.perform (.lower (v.site c.kind i.low i.high) c shaping) p.world with
    ⟨fault | u, world⟩
  · rw [takeDown_of_error hlower]
    exact .error fault _
  · rw [takeDown_of_ok hs found hlower]
    exact .ok () _

theorem shape_fails : FailsAtBackend (shape b v c i shaping p) := by
  rcases hshape : v.shapeWorld b c i shaping p.world with ⟨fault | u, world⟩
  · rw [shape_of_error hshape]
    exact .error fault _
  · rw [shape_of_ok hshape]
    exact .ok () _

end Links

namespace Setting

variable {s : Setting σ} {v : Visit} {p : Progress σ} {i : InterfacePair} {c : Connection}
  {ix iy : Interface}

/-- Setting up a link and bringing it up. -/
theorem launch_fails {kind : ConnectionKind} {held first : Shaping} (hs : p.store.Numbered) :
    FailsAtBackend ((do
      let accepted ← setUp s.backend v kind ix iy i held
      if accepted then bringUp s.backend v kind ix iy i first : Work σ Unit) p) := by
  refine (setUp_fails hs.toWellFormed).bind fun accepted p' h => ?_
  cases accepted with
  | false => exact .ok () p'
  | true =>
    obtain ⟨hs', c, found⟩ := setUp_stores hs h
    exact bringUp_fails hs'.toWellFormed found

theorem createLink_fails {decision : LinkDecision} (hs : p.store.Numbered) :
    FailsAtBackend (s.createLink v decision ix iy p) := by
  rw [createLink, Work.bind_connections]
  split
  · exact .ok () p
  · exact launch_fails hs

theorem renewLink_fails {decision : LinkDecision} (hs : p.store.WellFormed)
    (found : p.store.find? v.pair i = some c) : FailsAtBackend (s.renewLink v decision i p) := by
  rw [renewLink, Work.bind_of_ok (Work.stored_of_some found)]
  cases c.kind with
  | management => exact .ok () p
  | central => exact shape_fails.bind fun _ p' _ => .ok () _
  | user =>
    dsimp only
    split
    · exact shape_fails.bind fun _ p' _ => .ok () _
    · exact takeDown_fails hs found

theorem reviveLink_fails {decision : LinkDecision} (hs : p.store.WellFormed)
    (found : p.store.find? v.pair i = some c) : FailsAtBackend (s.reviveLink v decision i p) := by
  rw [reviveLink, Work.bind_of_ok (Work.stored_of_some found)]
  exact bringUp_fails hs found

/-! ### The links of a pair -/

/-- A loop over links that are all up, or all down, when it begins. -/
theorem loop_fails {t : Task} {g : InterfacePair → Work σ Unit} {b : Bool} {l : List InterfacePair}
    (hl : l.Nodup) (hs : p.store.Numbered)
    (all : ∀ i ∈ l, ∃ c, p.store.find? t.visit.pair i = some c ∧ c.connected = b)
    (round : ∀ i q c, q.store.Numbered → q.store.find? t.visit.pair i = some c →
      c.connected = b → FailsAtBackend (g i q) ∧ s.AtMost t i q (g i q).2) :
    FailsAtBackend (l.forM g p) := by
  refine FailsAtBackend.forM (I := fun l q => q.store.Numbered ∧ l.Nodup ∧
    ∀ i ∈ l, ∃ c, q.store.find? t.visit.pair i = some c ∧ c.connected = b) ?_ ⟨hs, hl, all⟩
  rintro i rest q ⟨hq, hnodup, hfound⟩
  obtain ⟨hi, hnodup⟩ := List.nodup_cons.mp hnodup
  obtain ⟨c, found, hflag⟩ := hfound i List.mem_cons_self
  obtain ⟨hfails, hmove⟩ := round i q c hq found hflag
  refine ⟨hfails, Moves.numbered hmove.moves hq, hnodup, fun j hj => ?_⟩
  rw [hmove.2 j fun heq => hi (heq ▸ hj)]
  exact hfound j (List.mem_cons_of_mem _ hj)

theorem renewLinks_fails (hs : p.store.Numbered) :
    FailsAtBackend (s.renewLinks v (s.decide v.kind v.distance) p) := by
  have active : ∀ q : Progress σ, q.store.Numbered → FailsAtBackend
      ((q.store.activeInterfaces v.pair).forM (s.renewLink v (s.decide v.kind v.distance)) q) ∧
      ((q.store.activeInterfaces v.pair).forM
        (s.renewLink v (s.decide v.kind v.distance)) q).2.store.Numbered := by
    intro q hq
    have hnodup := ConnectionStore.activeInterfaces_nodup q.store v.pair
    have up : ∀ i ∈ q.store.activeInterfaces v.pair, ∃ c, q.store.find? v.pair i = some c ∧
        c.connected = true := fun i hi => hq.mem_activeInterfaces_iff.mp hi
    refine ⟨loop_fails (s := s) (t := .follow v) hnodup hq up fun i q c hq found up => ?_,
      Moves.numbered (loop_moves (s := s) (t := .follow v) hnodup hq up fun i q c hq found up => ?_)
        hq⟩
    · exact ⟨renewLink_fails hq.toWellFormed found, renewLink_move hq found up⟩
    · exact renewLink_move hq found up
  rw [renewLinks]
  split
  · rename_i near
    have create : FailsAtBackend ((s.candidates v).forM
        (fun e => s.createLink v (s.decide v.kind v.distance) e.1 e.2) p) := by
      refine FailsAtBackend.forM (I := fun l q => q.store.Numbered ∧ ∀ e ∈ l, e ∈ s.candidates v)
        ?_ ⟨hs, fun _ he => he⟩
      rintro e rest q ⟨hq, hmem⟩
      exact ⟨createLink_fails hq,
        Moves.numbered (createLink_moves hq near (hmem e List.mem_cons_self)) hq,
        fun e he => hmem e (List.mem_cons_of_mem _ he)⟩
    refine create.bind fun _ q h => ?_
    have hq : q.store.Numbered := by
      have hmoves := createLinks_moves hs near fun _ he => he
      rw [h] at hmoves
      exact Moves.numbered hmoves hs
    beta_reduce
    rw [Work.bind_connections]
    obtain ⟨hfails, hq'⟩ := active q hq
    refine hfails.bind fun _ q' h' => ?_
    rw [h'] at hq'
    rw [Work.bind_connections]
    refine loop_fails (s := s) (t := .follow v) (ConnectionStore.inactiveInterfaces_nodup _ _) hq'
      (fun i hi => hq'.mem_inactiveInterfaces_iff.mp hi) fun i q c hq found down => ?_
    exact ⟨reviveLink_fails hq.toWellFormed found, reviveLink_move hq near found down⟩
  · beta_reduce
    rw [Work.bind_connections]
    exact (active p hs).1.bind fun _ q _ => .ok () q

/-! ### A pair -/

end Setting

/-- Why a pair is reported: one of its nodes is not known, there is no tunnel, or the backend has
failed. -/
inductive ReconcileError.OfPair (nodes : SortedMap NodeId Node) (pair : NodePair) :
    ReconcileError → Prop
  | unknownNode {node : NodeId} (side : node = pair.low ∨ node = pair.high)
      (h : nodes.get? node = none) : OfPair nodes pair (.unknownNode node)
  | tunnel (cause : TunnelError) : OfPair nodes pair (.tunnel cause)
  | backend (cause : BackendError) : OfPair nodes pair (.backend cause)

theorem ReconcileError.OfPair.stored {nodes : SortedMap NodeId Node} {pair : NodePair}
    {cause : ReconcileError} (h : cause.OfPair nodes pair) (pair' : NodePair) (i : InterfacePair) :
    cause ≠ .missingConnection pair' i := by
  cases h <;> nofun

namespace Setting

variable {s : Setting σ} {p : Progress σ} {nodes : SortedMap NodeId Node} {step : Nat}
  {pair : NodePair} {distance : Distance}

theorem ensureTunnel_fails {x y : NodeId} {cause : ReconcileError}
    (h : (s.ensureTunnel x y pair p).1 = .error cause) : ∃ fault, cause = .tunnel fault := by
  rw [ensureTunnel] at h
  split at h
  · rcases hensure : s.policy.ensure pair p.world with ⟨fault | u, world⟩
    · rw [hensure] at h
      exact ⟨fault, (Except.error.inj h).symm⟩
    · rw [hensure] at h
      cases h
  · cases h

theorem reconcileNodes_fails {x y : Node} {cause : ReconcileError} (hs : p.store.Numbered)
    (h : (s.reconcileNodes step pair distance x y p).1 = .error cause) :
    cause.OfPair nodes pair := by
  rw [reconcileNodes] at h
  split at h
  · cases h
  · dsimp only at h
    rw [Work.bind_connections] at h
    split at h
    · rcases htunnel : s.ensureTunnel x.id y.id pair p with ⟨fault | isRemote, p'⟩
      · rw [Work.bind_of_error htunnel] at h
        obtain rfl := Except.error.inj h
        obtain ⟨fault, rfl⟩ := ensureTunnel_fails (congrArg Prod.fst htunnel)
        exact .tunnel fault
      · rw [Work.bind_of_ok htunnel] at h
        have hstore := (ensureTunnel_moves (s := s) x y pair distance step p).2.2
        rw [htunnel] at hstore
        have hs' : p'.store.Numbered := by
          rw [show p'.store = p.store from hstore]
          exact hs
        obtain ⟨fault, rfl⟩ := renewLinks_fails (v := ⟨x, y, pair, distance, isRemote, step⟩) hs' cause h
        exact .backend fault
    · cases h

theorem reconcile_fails {cause : ReconcileError} (hs : p.store.Numbered)
    (h : (s.reconcile nodes step pair distance p).1 = .error cause) : cause.OfPair nodes pair := by
  rw [reconcile] at h
  cases hx : nodes.get? pair.low with
  | none =>
    rw [hx] at h
    rw [← Except.error.inj h]
    exact .unknownNode (Or.inl rfl) hx
  | some x =>
    rw [hx] at h
    cases hy : nodes.get? pair.high with
    | none =>
      rw [hy] at h
      rw [← Except.error.inj h]
      exact .unknownNode (Or.inr rfl) hy
    | some y =>
      rw [hy] at h
      exact reconcileNodes_fails hs h

/-- All pairs that a step reports are reported for one of these reasons. -/
theorem reconcileAll_fails {l : List (NodePair × Distance)} (hs : p.store.Numbered)
    (h : ∀ f ∈ p.report.failures, f.cause.OfPair nodes f.pair) :
    ∀ f ∈ (s.reconcileAll nodes step l p).report.failures, f.cause.OfPair nodes f.pair := by
  induction l generalizing p with
  | nil => exact h
  | cons e rest ih =>
    obtain ⟨pair, distance⟩ := e
    have hconfined : Confined pair p (s.reconcile nodes step pair distance p).2 :=
      reconcile_confined hs
    have hfails : ∀ cause, (s.reconcile nodes step pair distance p).1 = .error cause →
        cause.OfPair nodes pair := fun cause hcause => reconcile_fails hs hcause
    rw [reconcileAll_cons]
    rcases hr : s.reconcile nodes step pair distance p with ⟨cause | _, p'⟩
    · rw [hr] at hconfined hfails
      rw [visited_of_error hr]
      refine ih hconfined.numbered fun f hf => ?_
      rcases List.mem_append.mp hf with hf | hf
      · rw [hconfined.failures] at hf
        exact h f hf
      · rw [List.mem_singleton.mp hf]
        exact hfails cause rfl
    · rw [hr] at hconfined
      rw [visited_of_ok hr]
      refine ih hconfined.numbered fun f hf => ?_
      rw [hconfined.failures] at hf
      exact h f hf

/-! ### Links to the management node -/

theorem startManagementLink_fails {v : Visit} {ix iy : Interface} {i : InterfacePair}
    (hs : p.store.Numbered) : FailsAtBackend (s.startManagementLink v ix iy i p) := by
  rw [startManagementLink, Work.bind_connections]
  cases hfind : p.store.find? v.pair i with
  | none => exact launch_fails hs
  | some c => exact bringUp_fails hs.toWellFormed hfind

/-- Link a node to the management node, and say so if that fails. -/
def linkToManagement (s : Setting σ) (step : Nat) (management : Node) (iy : Interface)
    (node : Node) : Work σ Unit :=
  match node.managementInterface? with
  | none => pure ()
  | some ix => do
    let pair ← Work.ofExcept ((NodePair.make node.id management.id).mapError .topology)
    let interfaces := InterfacePair.oriented pair node.id ix iy
    let store ← Work.connections
    if store.isActive? pair interfaces = some true then
      return ()
    else
      let v : Visit := ⟨node, management, pair, .zero, false, step⟩
      (s.startManagementLink v ix iy interfaces).withError (asManagementError node.id)

/-- Link nodes to the management node; what goes wrong is listed beside its node. -/
def linkAll (s : Setting σ) (step : Nat) (management : Node) (iy : Interface) :
    List Node → Progress σ → List (NodeId × ReconcileError) × Progress σ
  | [], p => ([], p)
  | node :: rest, p =>
    match s.linkToManagement step management iy node p with
    | (.ok (), p') => linkAll s step management iy rest p'
    | (.error cause, p') =>
      let (passed, p'') := linkAll s step management iy rest p'
      ((node.id, cause) :: passed, p'')

section Linking

variable {management node : Node} {iy : Interface}

/-- Two nodes are a pair. -/
theorem make_of_ne {x y : NodeId} (h : x ≠ y) : ∃ pair, NodePair.make x y = .ok pair := by
  have hvalue : x.toNat ≠ y.toNat := fun heq => h (rank_injective x y heq)
  rw [NodePair.make, NodePair.of?]
  by_cases hlt : x.toNat < y.toNat
  · rw [if_pos hlt]
    exact ⟨_, rfl⟩
  · rw [if_neg hlt, if_pos (by omega)]
    exact ⟨_, rfl⟩

theorem paired_of_make {x y : NodeId} (h : NodePair.make x y = .ok pair) :
    (Work.ofExcept ((NodePair.make x y).mapError .topology) : Work σ NodePair) p =
      (.ok pair, p) := by
  rw [h]
  rfl

theorem linkToManagement_of_none (h : node.managementInterface? = none) :
    s.linkToManagement step management iy node p = (.ok (), p) := by
  rw [linkToManagement, h]
  rfl

theorem linkToManagement_of_some {ix : Interface} (hx : node.managementInterface? = some ix)
    (hpair : NodePair.make node.id management.id = .ok pair) :
    s.linkToManagement step management iy node p =
      if p.store.isActive? pair (.oriented pair node.id ix iy) = some true then (.ok (), p)
      else (s.startManagementLink ⟨node, management, pair, .zero, false, step⟩ ix iy
        (.oriented pair node.id ix iy)).withError (asManagementError node.id) p := by
  rw [linkToManagement, hx]
  dsimp only
  rw [Work.bind_of_ok (paired_of_make hpair), Work.bind_connections]
  split
  · rfl
  · rfl

/-- A node that is not the management node is linked to it, and passed over if that fails. -/
theorem connectToManagement_eq (hne : node.id ≠ management.id) :
    s.connectToManagement step management iy node p =
      (.ok (), (s.linkToManagement step management iy node p).2) := by
  cases hx : node.managementInterface? with
  | none =>
    rw [connectToManagement, linkToManagement_of_none hx, hx]
    rfl
  | some ix =>
    obtain ⟨pair, hpair⟩ := make_of_ne hne
    rw [linkToManagement_of_some hx hpair, connectToManagement, hx]
    dsimp only
    rw [Work.bind_of_ok (paired_of_make hpair), Work.bind_connections]
    split
    · rfl
    · rfl

/-- The only error is that of the backend, under the name of the node. -/
theorem linkToManagement_fails (hne : node.id ≠ management.id) (hs : p.store.Numbered)
    {cause : ReconcileError}
    (h : (s.linkToManagement step management iy node p).1 = .error cause) :
    ∃ fault, cause = .managementLink node.id fault := by
  cases hx : node.managementInterface? with
  | none =>
    rw [linkToManagement_of_none hx] at h
    cases h
  | some ix =>
    obtain ⟨pair, hpair⟩ := make_of_ne hne
    rw [linkToManagement_of_some hx hpair] at h
    split at h
    · cases h
    · have hfails : FailsAtBackend (s.startManagementLink ⟨node, management, pair, .zero, false, step⟩
          ix iy (.oriented pair node.id ix iy) p) := startManagementLink_fails hs
      rw [Work.withError] at h
      rcases hr : s.startManagementLink ⟨node, management, pair, .zero, false, step⟩ ix iy
        (.oriented pair node.id ix iy) p with ⟨cause' | u, p'⟩
      · obtain ⟨fault, rfl⟩ := hfails cause' (by rw [hr])
        rw [hr] at h
        exact ⟨fault, (Except.error.inj h).symm⟩
      · rw [hr] at h
        cases h

/-- Nodes other than the management node are linked to it one after another. -/
theorem connectToManagement_all {l : List Node} (hne : ∀ node ∈ l, node.id ≠ management.id) :
    l.forM (s.connectToManagement step management iy) p =
      (.ok (), (s.linkAll step management iy l p).2) := by
  induction l generalizing p with
  | nil => rfl
  | cons node rest ih =>
    have hrest : ∀ node ∈ rest, node.id ≠ management.id :=
      fun node hmem => hne node (List.mem_cons_of_mem _ hmem)
    rw [Work.forM_cons_of_ok rest (connectToManagement_eq (hne node List.mem_cons_self)), linkAll]
    rcases s.linkToManagement step management iy node p with ⟨cause | u, p'⟩
    · exact ih hrest
    · exact ih hrest

theorem linkToManagement_numbered (hne : node.id ≠ management.id)
    (hy : management.managementInterface? = some iy) (hs : p.store.Numbered) :
    (s.linkToManagement step management iy node p).2.store.Numbered := by
  cases hx : node.managementInterface? with
  | none =>
    rw [linkToManagement_of_none hx]
    exact hs
  | some ix =>
    obtain ⟨pair, hpair⟩ := make_of_ne hne
    rw [linkToManagement_of_some hx hpair]
    split
    · exact hs
    · rename_i down
      exact (startManagementLink_move (v := ⟨node, management, pair, .zero, false, step⟩)
        hs hx hy down).numbered hs

/-- Nodes are passed over only because the backend has failed at their links. -/
theorem linkAll_fails {l : List Node} (hne : ∀ node ∈ l, node.id ≠ management.id)
    (hy : management.managementInterface? = some iy) (hs : p.store.Numbered) :
    ∀ f ∈ (s.linkAll step management iy l p).1, ∃ fault, f.2 = .managementLink f.1 fault := by
  induction l generalizing p with
  | nil =>
    intro f hf
    cases hf
  | cons node rest ih =>
    have hfirst := hne node List.mem_cons_self
    have hrest : ∀ node ∈ rest, node.id ≠ management.id :=
      fun node hmem => hne node (List.mem_cons_of_mem _ hmem)
    have hs' : (s.linkToManagement step management iy node p).2.store.Numbered :=
      linkToManagement_numbered hfirst hy hs
    rw [linkAll]
    rcases hr : s.linkToManagement step management iy node p with ⟨cause | u, p'⟩
    · rw [hr] at hs'
      intro f hf
      rcases List.mem_cons.mp hf with rfl | hf
      · exact linkToManagement_fails hfirst hs (congrArg Prod.fst hr)
      · exact ih hrest hs' f hf
    · rw [hr] at hs'
      exact ih hrest hs'

end Linking

end Setting

/-! ### Engines -/

namespace Engine

/-- The work of linking emulation nodes to the management node, and what is passed over in it. -/
def linking (e : Engine σ μ) : List (NodeId × ReconcileError) × Progress σ :=
  let p := e.progress (.blank e.step 0)
  match e.nodes.get? .management with
  | none => ([], p)
  | some management =>
    match management.managementInterface? with
    | none => ([], p)
    | some iy => e.setting.linkAll e.step management iy e.emulationNodes p

variable {e : Engine σ μ}

/-- No emulation node is the management node. -/
theorem Anchored.emulation_ne (h : e.Anchored) (hk : Keyed e.nodes) {management : Node}
    (hm : e.nodes.get? .management = some management) :
    ∀ node ∈ e.emulationNodes, node.id ≠ management.id := by
  intro node hnode heq
  obtain ⟨hnode, hemulation⟩ := List.mem_filter.mp hnode
  obtain ⟨id, hid⟩ := SortedMap.mem_values_iff.mp hnode
  rw [hk _ _ hm] at heq
  have hmanagement := (h.built id node hid).eq_management heq
  rw [hmanagement] at hemulation
  exact absurd hemulation (by decide)

/-- Linking to the management node comes to its end whatever goes wrong. -/
theorem linking_ends (h : e.Anchored) (hk : Keyed e.nodes) :
    e.setting.connectManagement e.nodes e.step (e.progress (.blank e.step 0)) =
      (.ok (), e.linking.2) := by
  rw [Setting.connectManagement, linking]
  cases hm : e.nodes.get? .management with
  | none => rfl
  | some management =>
    dsimp only
    cases hy : management.managementInterface? with
    | none => rfl
    | some iy => exact Setting.connectToManagement_all (h.emulation_ne hk hm)

theorem connectManagement_linking (h : e.Anchored) (hk : Keyed e.nodes) :
    e.connectManagement = (.ok e.linking.2.report.linksUp,
      { e with store := e.linking.2.store, world := e.linking.2.world }) := by
  rw [connectManagement, linking_ends h hk]
  rfl

theorem linking_fails (h : e.Anchored) (hk : Keyed e.nodes) (hs : e.store.Numbered) :
    ∀ f ∈ e.linking.1, ∃ fault, f.2 = .managementLink f.1 fault := by
  intro f hf
  rw [linking] at hf
  cases hm : e.nodes.get? .management with
  | none =>
    rw [hm] at hf
    cases hf
  | some management =>
    rw [hm] at hf
    dsimp only at hf
    cases hy : management.managementInterface? with
    | none =>
      rw [hy] at hf
      cases hf
    | some iy =>
      rw [hy] at hf
      exact Setting.linkAll_fails (p := e.progress (.blank e.step 0)) (h.emulation_ne hk hm) hy hs
        f hf

/-- What a step with a matrix reports of a pair. -/
theorem applyDistances_fails (hs : e.store.Numbered) (distances : DistanceMatrix) :
    ∀ f ∈ (e.applyDistances distances).1.failures, f.cause.OfPair e.nodes f.pair := by
  obtain ⟨p, hp, hblank, _, hfailures⟩ := e.applyDistances_reconciles distances
  rw [hfailures]
  refine Setting.reconcileAll_fails (by rw [hp]; exact hs) fun f hf => ?_
  rw [hblank] at hf
  cases hf

section Steps

variable [Movement μ]

/-- The movement that the next step takes its distances from. -/
def nextMovement? (e : Engine σ μ) : Option (Except MovementFault μ) :=
  e.movement.map fun m => if e.step = 0 then .ok m else Movement.advance m

/-- The ways in which a call for a step ends. -/
theorem runStep_cases (e : Engine σ μ) :
    (e.nextMovement? = none ∧ e.runStep = (.error (.refused .noMovementModel), e)) ∨
      (∃ fault, e.nextMovement? = some (.error fault) ∧ e.runStep = (.error (.stuck fault), e)) ∨
      ∃ m, e.nextMovement? = some (.ok m) ∧
        (e.Lacks (Movement.distances m) ∧ e.runStep =
            (.error (.refused (.emptyDistanceMatrix e.step)), e.moving (some m)) ∨
          ¬ e.Lacks (Movement.distances m) ∧ e.runStep =
            (.ok ((e.moving (some m)).applyDistances (Movement.distances m)).1,
              ((e.moving (some m)).applyDistances (Movement.distances m)).2)) := by
  rw [nextMovement?, runStep]
  cases hm : e.movement with
  | none => exact Or.inl ⟨rfl, rfl⟩
  | some movement =>
    dsimp only [Option.map_some]
    cases (if e.step = 0 then Except.ok movement else Movement.advance movement) with
    | error fault => exact Or.inr (Or.inl ⟨fault, rfl, rfl⟩)
    | ok m =>
      refine Or.inr (Or.inr ⟨m, rfl, ?_⟩)
      by_cases hlacks : e.Lacks (Movement.distances m)
      · exact Or.inl ⟨hlacks, if_pos hlacks⟩
      · exact Or.inr ⟨hlacks, if_neg hlacks⟩

/-- Why a step is not run: nothing moves the nodes, they cannot be moved on, or distances are
lacking. -/
theorem runStep_error_iff (e : Engine σ μ) (cause : StepError) :
    e.runStep.1 = .error cause ↔
      (e.movement = none ∧ cause = .refused .noMovementModel) ∨
      (∃ fault, e.nextMovement? = some (.error fault) ∧ cause = .stuck fault) ∨
      ∃ m, e.nextMovement? = some (.ok m) ∧ e.Lacks (Movement.distances m) ∧
        cause = .refused (.emptyDistanceMatrix e.step) := by
  have hnone : e.nextMovement? = none ↔ e.movement = none := Option.map_eq_none_iff
  rw [← hnone]
  rcases e.runStep_cases with ⟨hnext, hrun⟩ | ⟨fault, hnext, hrun⟩ |
    ⟨m, hnext, ⟨hlacks, hrun⟩ | ⟨hfull, hrun⟩⟩
  · simp [hnext, hrun, eq_comm]
  · simp [hnext, hrun, eq_comm]
  · simp [hnext, hrun, hlacks, eq_comm]
  · simp [hnext, hrun, hfull]

/-- Nothing is told of a step that is not run. -/
theorem history_of_error {cause : StepError} (h : e.runStep.1 = .error cause) :
    e.history [.step] = [] := by
  have hop : Operation.step ≠ .connectManagement := nofun
  have hnone : e.reportOf? .step = none := congrArg Except.toOption h
  rcases e.reportOf?_applies hop with ⟨-, hsilent⟩ | ⟨_, _, hsome, -⟩
  · exact hsilent
  · rw [hnone] at hsome
    cases hsome

end Steps

end Engine

/-- Only what makes a step impossible is an error of the step: that nothing moves the nodes, or that
there are no distances although there are several emulation nodes.  Then links, ids, distances, hub
overlay, step number and hooks are as they were and the backend has been told nothing; movement that
cannot go on leaves as much behind.  A step that has its distances is always run and linking to the
management node always comes to its end: what goes wrong in them is reported with its pair or passed
over with its node, and never because a connection is missing. -/
theorem errors_stay_local [Movement μ] {e : Engine σ μ} (he : e.ReachableBy Engine.Builds) :
    (∀ cause, e.runStep.1 = .error (.refused cause) ↔
        (e.movement = none ∧ cause = .noMovementModel) ∨
        ∃ m, e.nextMovement? = some (.ok m) ∧ (Movement.distances m).isEmpty = true ∧
          1 < e.emulationNodes.length ∧ cause = .emptyDistanceMatrix e.step) ∧
      (∀ cause, e.runStep.1 = .error cause →
        (∃ movement, e.runStep.2 = { e with movement }) ∧ e.history [.step] = []) ∧
      (∀ distances, let (report, e') := e.applyDistances distances
        report.step = e.step ∧ e'.step = e.step + 1 ∧ e'.distances = distances) ∧
      (∀ op report, e.reportOf? op = some report → ∀ f ∈ report.failures,
        f.cause.OfPair e.nodes f.pair ∧ ∀ pair i, f.cause ≠ .missingConnection pair i) ∧
      (∃ n, e.connectManagement = (.ok n,
        { e with store := e.linking.2.store, world := e.linking.2.world })) ∧
      ∀ f ∈ e.linking.1, ∃ fault, f.2 = .managementLink f.1 fault := by
  have hs := he.numbered
  have hk := he.keyed
  have hanchored := he.anchored
  refine ⟨fun cause => ?_, fun cause h => ⟨Engine.runStep_of_error (Prod.ext h rfl),
    Engine.history_of_error h⟩, fun distances => ?_, ?_,
    ⟨_, Engine.connectManagement_linking hanchored hk⟩, Engine.linking_fails hanchored hk hs⟩
  · rw [e.runStep_error_iff]
    simp [Engine.Lacks, and_assoc]
  · have hstepped := e.applyDistances_stepped hs distances
    exact ⟨Engine.applyDistances_step hs distances, hstepped.step,
      congrArg DistanceTracker.current hstepped.tracker⟩
  · intro op report hreport f hf
    have hop : op ≠ .connectManagement := by
      rintro rfl
      cases hreport
    rcases e.reportOf?_applies hop with ⟨hnone, _⟩ | ⟨movement, distances, happly, _⟩
    · rw [hnone] at hreport
      cases hreport
    · rw [← Option.some.inj (happly.symm.trans hreport)] at hf
      have hcause := Engine.applyDistances_fails (e := e.moving movement) hs distances f hf
      exact ⟨hcause, hcause.stored⟩

/-- The nodes are assembled, their links to the management node cannot be brought up, and their
movement has no distances. -/
def deadlock : Engine Script Stationary :=
  (Engine.start ⟨.unshaped .none, .equal, Script.backend, .local⟩ (some ⟨.empty⟩)
    [⟨.raise, none, some .management, 0, none, some (.timeout 5), .yes⟩]).run assembly

/-- The next step is refused, nothing comes of that, and both nodes are passed over for want of a
link to the management node. -/
theorem deadlock_stays_local :
    deadlock.runStep.1 = .error (.refused (.emptyDistanceMatrix 1)) ∧
      (∃ movement, deadlock.runStep.2 = { deadlock with movement }) ∧
      deadlock.history [.step] = [] ∧ deadlock.linking.1.map Prod.fst = [⟨1⟩, ⟨2⟩] ∧
      ∀ f ∈ deadlock.linking.1, ∃ fault, f.2 = .managementLink f.1 fault := by
  have hreach : deadlock.ReachableBy Engine.Builds := by
    refine (Engine.ReachableBy.start _ _ _).run assembly fun _ op hop node heq => ?_
    exact assembly_built node (heq ▸ hop)
  obtain ⟨hrefused, hkept, -, -, -, hpassed⟩ := errors_stay_local hreach
  have hnext : deadlock.nextMovement? = some (.ok ⟨.empty⟩) := rfl
  have herror : deadlock.runStep.1 = .error (.refused (.emptyDistanceMatrix 1)) := by
    refine (hrefused _).mpr (Or.inr ⟨_, hnext, rfl, by decide +kernel, ?_⟩)
    exact congrArg ReconcileError.emptyDistanceMatrix (by decide +kernel)
  obtain ⟨hsame, hsilent⟩ := hkept _ herror
  exact ⟨herror, hsame, hsilent, by decide +kernel, hpassed⟩

end ProximityNet
