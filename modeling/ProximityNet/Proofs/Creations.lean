import ProximityNet.Proofs.FirstRaise
import ProximityNet.Proofs.Incremental
import ProximityNet.Proofs.Overheard

/-!
# Links are created before they are used

A connection is stored before the backend is asked to create its link, so it stays behind when the
backend fails at that, and a later step brings it up.  What holds of every run is that nothing is
done to a link before its creation has been asked for, and that this is done once: the one thing that
may be missing is the success.

* `Exchange.uses`, `creations` — what is done to a link, and what became of its creation;
* `InOrder` — before every use of a link its creation has been asked for, exactly once;
* `Begun` — the invariant that ties this to the store;
* `use_follows_creation` — it holds in every run from a reset, and shows in the journal;
* `raised_uncreated` — a run in which a link whose creation failed is brought up.
-/

namespace ProximityNet

variable {σ τ μ ν : Type}

/-- Whether a link is brought up, taken down or shaped, or about to be shaped. -/
def Exchange.uses (id : ConnectionId) : Exchange → Bool
  | .announced (.adjusting _ c _ _) => c.id = id
  | .performed (.raise _ c _) _ => c.id = id
  | .performed (.lower _ c _) _ => c.id = id
  | .performed (.adjust _ c _ _) _ => c.id = id
  | _ => false

/-- What became of the creation of a link, if the exchange is about that. -/
def Exchange.creation? (id : ConnectionId) : Exchange → Option (Except BackendError Unit)
  | .performed (.create _ c) result => if c.id = id then some result else none
  | _ => none

/-- What became of the creations of a link. -/
def creations (id : ConnectionId) (history : List Exchange) : List (Except BackendError Unit) :=
  history.filterMap (Exchange.creation? id)

/-- Before every use of a link its creation has been asked for, exactly once. -/
def InOrder (history : List Exchange) : Prop :=
  ∀ before x after id, history = before ++ x :: after → x.uses id = true →
    ∃ result, creations id before = [result]

theorem creations_append (id : ConnectionId) (h h' : List Exchange) :
    creations id (h ++ h') = creations id h ++ creations id h' := List.filterMap_append

theorem creations_of_none {id : ConnectionId} {x : Exchange} (h : x.creation? id = none) :
    creations id [x] = [] := by
  rw [creations, List.filterMap_cons, h, List.filterMap_nil]

theorem creations_create (id : ConnectionId) (site : LinkSite) (c : Connection)
    (result : Except BackendError Unit) :
    creations id [.performed (.create site c) result] = if c.id = id then [result] else [] := by
  rw [creations, List.filterMap_cons, List.filterMap_nil, Exchange.creation?]
  split <;> simp_all

/-- A creation that succeeded is among the exchanges. -/
theorem mem_creations {id : ConnectionId} {history : List Exchange}
    {result : Except BackendError Unit} (h : result ∈ creations id history) :
    ∃ site c, c.id = id ∧ .performed (.create site c) result ∈ history := by
  obtain ⟨x, hx, hresult⟩ := List.mem_filterMap.mp h
  unfold Exchange.creation? at hresult
  split at hresult
  · rename_i site c result'
    split at hresult
    · rename_i hid
      rw [Option.some.inj hresult] at hx
      exact ⟨site, c, hid, hx⟩
    · cases hresult
  · cases hresult

theorem inOrder_nil : InOrder [] := by
  intro before x after id h
  exact absurd h.symm (by simp)

theorem InOrder.snoc {history : List Exchange} {x : Exchange} (h : InOrder history)
    (hx : ∀ id, x.uses id = true → ∃ result, creations id history = [result]) :
    InOrder (history ++ [x]) := by
  intro before y after id heq huses
  rcases List.eq_nil_or_concat after with rfl | ⟨rest, z, rfl⟩
  · obtain ⟨rfl, hy⟩ := List.append_inj' heq rfl
    rw [(List.cons.inj hy).1] at hx
    exact hx id huses
  · rw [List.concat_eq_append, ← List.cons_append, ← List.append_assoc] at heq
    exact h before y rest id (List.append_inj' heq rfl).1 huses

/-! ### Which ids are in use -/

namespace ConnectionStore

/-- Some connection has this id. -/
def Holds (s : ConnectionStore) (id : ConnectionId) : Prop := ∃ c, s.Named id c

variable {s : ConnectionStore} {c c' : Connection} {pair : NodePair} {i : InterfacePair}
  {id : ConnectionId}

theorem holds_of_find? (h : s.find? pair i = some c) : s.Holds c.id := ⟨c, named_of_find? h⟩

/-- Filing a changed connection brings no id in. -/
theorem Numbered.holds_of_file (h : s.Numbered) (hc : s.find? pair i = some c) (hid : c'.id = c.id)
    (hpair : c'.pair = c.pair) (hi : c'.interfaces = c.interfaces) (hholds : (s.file c').Holds id) :
    s.Holds id := by
  obtain ⟨x, hx⟩ := hholds
  rw [h.named_file hc hid hpair hi id] at hx
  split at hx
  · rename_i heq
    rw [heq]
    exact holds_of_find? hc
  · exact ⟨x, hx⟩

/-- Filing a new connection brings its own id in. -/
theorem Numbered.holds_of_fileFresh (h : s.Numbered) (hid : c.id.value = s.nextNumber)
    (free : s.find? c.pair c.interfaces = none) (hholds : (s.freshId.2.file c).Holds id) :
    id = c.id ∨ s.Holds id := by
  obtain ⟨x, hx⟩ := hholds
  rw [h.named_fileFresh hid free id] at hx
  split at hx
  · rename_i heq
    exact Or.inl heq
  · exact Or.inr ⟨x, hx⟩

theorem WellFormed.holds_fileFresh (h : s.WellFormed) (c : Connection) :
    (s.freshId.2.file c).Holds c.id :=
  holds_of_find? (h.freshId.find?_file_self rfl rfl)

end ConnectionStore

/-! ### The invariant -/

/-- Uses follow creations, of which there is one at most for a link; the creation of every stored
link has been asked for, and that of a link with an id to come has not. -/
structure Begun (history : List Exchange) (s : ConnectionStore) : Prop where
  inOrder : InOrder history
  once : ∀ id, (creations id history).length ≤ 1
  stored : ∀ id, s.Holds id → ∃ result, creations id history = [result]
  fresh : ∀ id : ConnectionId, s.nextNumber ≤ id.value → creations id history = []

variable {history : List Exchange} {s s' : ConnectionStore}

theorem begun_empty : Begun [] .empty where
  inOrder := inOrder_nil
  once _ := Nat.zero_le _
  stored id h := by
    obtain ⟨c, _, pair, i, h⟩ := h
    cases h
  fresh _ _ := rfl

/-- Ids that are used up or go out of use. -/
theorem Begun.restore (h : Begun history s) (holds : ∀ id, s'.Holds id → s.Holds id)
    (next : s.nextNumber ≤ s'.nextNumber) : Begun history s' where
  inOrder := h.inOrder
  once := h.once
  stored id hid := h.stored id (holds id hid)
  fresh id hid := h.fresh id (Nat.le_trans next hid)

/-- An exchange about stored links only, none of which is created. -/
theorem Begun.quiet (h : Begun history s) {x : Exchange} (hx : ∀ id, x.creation? id = none)
    (uses : ∀ id, x.uses id = true → s.Holds id) : Begun (history ++ [x]) s := by
  have same : ∀ id, creations id (history ++ [x]) = creations id history := by
    intro id
    rw [creations_append, creations_of_none (hx id), List.append_nil]
  refine ⟨h.inOrder.snoc fun id hid => h.stored id (uses id hid), ?_, ?_, ?_⟩
  · intro id
    rw [same]
    exact h.once id
  · intro id hid
    rw [same]
    exact h.stored id hid
  · intro id hid
    rw [same]
    exact h.fresh id hid

/-- The creation of the link with the next id, which is stored whatever comes of it. -/
theorem Begun.create (h : Begun history s) (site : LinkSite) {c : Connection}
    (result : Except BackendError Unit) (hid : c.id.value = s.nextNumber)
    (holds : ∀ id, s'.Holds id → id = c.id ∨ s.Holds id)
    (next : s'.nextNumber = s.nextNumber + 1) :
    Begun (history ++ [.performed (.create site c) result]) s' := by
  have other : ∀ id, c.id ≠ id →
      creations id (history ++ [.performed (.create site c) result]) = creations id history := by
    intro id hne
    rw [creations_append, creations_create, if_neg hne, List.append_nil]
  have own : creations c.id (history ++ [.performed (.create site c) result]) = [result] := by
    rw [creations_append, creations_create, if_pos rfl, h.fresh c.id (Nat.le_of_eq hid.symm),
      List.nil_append]
  refine ⟨h.inOrder.snoc fun id hid => (by cases hid), ?_, ?_, ?_⟩
  · intro id
    by_cases heq : c.id = id
    · rw [← heq, own]
      exact Nat.le_refl 1
    · rw [other id heq]
      exact h.once id
  · intro id hholds
    by_cases heq : c.id = id
    · exact ⟨result, heq ▸ own⟩
    · rw [other id heq]
      rcases holds id hholds with hself | hold
      · exact absurd hself.symm heq
      · exact h.stored id hold
  · intro id hle
    rw [next] at hle
    rw [other id]
    · exact h.fresh id (by omega)
    · intro heq
      rw [← heq, hid] at hle
      omega

theorem Begun.asked (h : Begun history s) (site : LinkSite) (c : Connection)
    (answer : Except BackendError StartAnswer) : Begun (history ++ [.asked site c answer]) s := by
  refine h.quiet (fun _ => rfl) ?_
  intro id hid
  cases hid

/-- A use of a stored link. -/
theorem Begun.use (h : Begun history s) {c : Connection} (hc : s.Holds c.id) {x : Exchange}
    (hx : ∀ id, x.creation? id = none) (uses : ∀ id, x.uses id = decide (c.id = id)) :
    Begun (history ++ [x]) s := by
  refine h.quiet hx ?_
  intro id hid
  rw [uses] at hid
  rw [← of_decide_eq_true hid]
  exact hc

/-- Shaping a stored link. -/
theorem Begun.shape (h : Begun history s) {c : Connection} (hc : s.Holds c.id) (site : LinkSite)
    (shaping : Shaping) (result : Except BackendError Unit) :
    Begun (history ++ [.announced (.adjusting site c true shaping),
      .performed (.adjust site c true shaping) result]) s := by
  rw [List.append_cons]
  exact (h.use hc (fun _ => rfl) (fun _ => rfl)).use hc (fun _ => rfl) (fun _ => rfl)

/-- A change of a stored link. -/
theorem Begun.file (h : Begun history s) (hs : s.Numbered) {pair : NodePair} {i : InterfacePair}
    {c c' : Connection} (hc : s.find? pair i = some c) (hid : c'.id = c.id)
    (hpair : c'.pair = c.pair) (hi : c'.interfaces = c.interfaces) : Begun history (s.file c') :=
  h.restore (fun _ hholds => hs.holds_of_file hc hid hpair hi hholds)
    (Nat.le_of_eq (ConnectionStore.file_nextNumber s c').symm)

/-- A new link, which is asked for and then created. -/
theorem Begun.launch (h : Begun history s) (hs : s.Numbered) {v : Visit} {kind : ConnectionKind}
    {i : InterfacePair} (free : s.find? v.pair i = none) (site : LinkSite) (shaping : Shaping)
    (switch : Option String) (answer : Except BackendError StartAnswer)
    (result : Except BackendError Unit) {c : Connection} (hid : c.id = ⟨s.nextNumber⟩)
    (hpair : c.pair = v.pair) (hi : c.interfaces = i) :
    Begun (history ++ [.asked site (v.fresh kind i s) answer] ++
      [.performed (.create site ((v.fresh kind i s).accepted shaping switch)) result])
      (s.freshId.2.file c) := by
  refine (h.asked _ _ _).create site result rfl ?_ (ConnectionStore.file_nextNumber _ _)
  intro id hholds
  have hnext : c.id.value = s.nextNumber := congrArg ConnectionId.value hid
  have hfree : s.find? c.pair c.interfaces = none := by
    rw [hpair, hi]
    exact free
  rcases hs.holds_of_fileFresh hnext hfree hholds with hself | hold
  · exact Or.inl (hself.trans hid)
  · exact Or.inr hold

/-- Every move keeps the order. -/
theorem Setting.Move.begun {s : Setting σ} {t : Task} {p p' : Progress (σ × List Exchange)}
    (hs : p.store.Numbered) (hmove : s.recorded.Move t p p') (h : Begun p.world.2 p.store) :
    Begun p'.world.2 p'.store := by
  have hw := hs.toWellFormed
  cases hmove with
  | tunnel _ ensure =>
    dsimp only
    rw [recorded_ensure ensure]
    exact h
  | startFailed launch free start =>
    dsimp only
    rw [recorded_start start]
    exact (h.asked _ _ _).restore (fun _ hid => hid) (Nat.le_succ _)
  | refused launch free start no =>
    dsimp only
    rw [recorded_start start]
    exact (h.asked _ _ _).restore (fun _ hid => hid) (Nat.le_succ _)
  | createFailed launch free start yes create =>
    dsimp only
    rw [recorded_perform create, recorded_start start]
    exact h.launch hs free _ _ _ _ _ rfl rfl rfl
  | launchFailed launch free start yes create raise =>
    dsimp only
    rw [recorded_perform raise, recorded_perform create, recorded_start start]
    exact (h.launch hs free _ _ _ _ _ rfl rfl rfl).use (hw.holds_fileFresh _) (fun _ => rfl)
      (fun _ => rfl)
  | launched launch free start yes create raise =>
    dsimp only
    rw [recorded_perform raise, recorded_perform create, recorded_start start]
    refine (h.launch hs free _ _ _ _ _ rfl rfl rfl).use ?_ (fun _ => rfl) (fun _ => rfl)
    exact hw.holds_fileFresh (Connection.raised _ _ _)
  | raiseFailed revive found down raise =>
    dsimp only
    rw [recorded_perform raise]
    exact h.use (ConnectionStore.holds_of_find? found) (fun _ => rfl) (fun _ => rfl)
  | raised revive found down raise =>
    dsimp only
    rw [recorded_perform raise]
    exact (h.use (ConnectionStore.holds_of_find? found) (fun _ => rfl) (fun _ => rfl)).file hs found
      rfl rfl rfl
  | lowerFailed kind far found up lower =>
    dsimp only
    rw [recorded_perform lower]
    exact h.use (ConnectionStore.holds_of_find? found) (fun _ => rfl) (fun _ => rfl)
  | lowered kind far found up lower =>
    dsimp only
    rw [recorded_perform lower]
    exact (h.use (ConnectionStore.holds_of_find? found) (fun _ => rfl) (fun _ => rfl)).file hs found
      rfl rfl rfl
  | adjustFailed adjust found up shape =>
    dsimp only
    rw [recorded_shape shape]
    exact h.shape (ConnectionStore.holds_of_find? found) _ _ _
  | adjusted kind adjust found up shape =>
    dsimp only
    rw [recorded_shape shape]
    exact (h.shape (ConnectionStore.holds_of_find? found) _ _ _).file hs found rfl rfl rfl
  | hubAdjusted kind found up shape =>
    dsimp only
    rw [recorded_shape shape]
    exact h.shape (ConnectionStore.holds_of_find? found) _ _ _

theorem Setting.keeps_begun (s : Setting σ) : s.recorded.Keeps fun _ st w => Begun w.2 st where
  move _ hs hmove h := hmove.begun hs h
  announce {_ _ _ a} ha h := by
    refine h.quiet (fun _ => rfl) fun id hid => ?_
    cases a with
    | stepStarting | changesPending | changesApplied => cases hid
    | adjusting => cases ha
  finish _ _ h := h.quiet (fun _ => rfl) fun _ hid => by cases hid
  grow _ h := h

/-! ### Every run -/

namespace LinkEvent

/-- Whether a link was brought up, taken down or shaped. -/
def uses (id : ConnectionId) : LinkEvent → Bool
  | linkUp _ c .. | linkDown _ c .. | qualityAdjusted _ c .. => c = id
  | _ => false

/-- Whether a link was created. -/
def creates (id : ConnectionId) : LinkEvent → Bool
  | linkCreated _ c .. => c = id
  | _ => false

end LinkEvent

/-- An entry about a use comes from a use. -/
theorem Exchange.uses_of_entry? {x : Exchange} {entry : LinkEvent} {id : ConnectionId}
    (h : x.entry? = some entry) (huses : entry.uses id = true) : x.uses id = true := by
  cases x with
  | announced a =>
    cases a with
    | stepStarting | changesPending =>
      rw [← Option.some.inj h] at huses
      cases huses
    | changesApplied | adjusting => cases h
  | asked => cases h
  | performed r result =>
    rw [← Option.some.inj h] at huses
    cases r with
    | finishStep | create => cases huses
    | raise | lower | adjust => exact huses

/-- In every run from a reset the creation of a link is asked for at most once, and before every use
of the link.  So in a journal among other backends every entry about a use follows one about the
creation, unless the creation failed. -/
theorem use_follows_creation [Movement μ] [Movement ν] (e : Engine σ μ) (ops : List Operation)
    {e' : Engine (Journal × τ) ν} {model : LinkModel} {pairing : Pairing}
    {before after : List (Backend τ)} {policy : TunnelPolicy τ}
    (he' : e'.setting = .overheard model pairing before after policy)
    (hooks : ∀ hook ∈ e'.hooks, ∀ st w, (hook st w).1 = w.1) (ops' : List Operation) :
    (InOrder (e.reset.history ops) ∧ ∀ id, (creations id (e.reset.history ops)).length ≤ 1) ∧
      ∃ new, (e'.reset.run ops').world.1.entries = e'.world.1.entries ++ new ∧
        ∀ earlier entry later id, new = earlier ++ entry :: later → entry.uses id = true →
          (∃ created ∈ earlier, created.creates id = true) ∨
            ∃ cause, creations id (e'.reset.history ops') = [.error cause] := by
  obtain ⟨_, hbegun⟩ := Engine.history_kept (Setting.keeps_begun e.setting) begun_empty ops
  obtain ⟨_, hbegun'⟩ := Engine.history_kept (Setting.keeps_begun e'.setting) begun_empty ops'
  obtain ⟨new, hentries, hheard⟩ := Engine.overheard_history he' hooks ops'
  refine ⟨⟨hbegun.inOrder, hbegun.once⟩, new, hentries, ?_⟩
  intro earlier entry later id hnew huses
  obtain ⟨earlier', x, later', hhistory, hheard', hentry⟩ := hheard.source hnew
  obtain ⟨result, hresult⟩ :=
    hbegun'.inOrder earlier' x later' id hhistory (Exchange.uses_of_entry? hentry huses)
  cases result with
  | ok u =>
    have hmem : .ok () ∈ creations id earlier' := by
      rw [hresult]
      exact List.mem_cons_self
    obtain ⟨site, c, hid, hcreate⟩ := mem_creations hmem
    exact Or.inl ⟨_, hheard'.mem hcreate, decide_eq_true hid⟩
  | error cause =>
    -- there is no second creation after the one that failed
    have honce := hbegun'.once id
    rw [hhistory, creations_append, hresult] at honce ⊢
    have hrest : creations id (x :: later') = [] := by
      rw [← List.length_eq_zero_iff]
      rw [List.length_append, List.length_singleton] at honce
      omega
    rw [hrest]
    exact Or.inr ⟨cause, rfl⟩

/-- Two nodes with an interface each; a script may fail before the journal is told. -/
def monitored (script : Script) : Engine (Journal × Script) Stationary :=
  { Engine.start (.overheard (.unshaped .none) .equal [Script.backend] [] .local) none
      (.empty, script) with nodes := twoNodeEngine.nodes }

/-- Once the backend fails to create a link. -/
def miscreation : Script := [⟨.create, none, none, 0, some 1, some (.timeout 5), .yes⟩]

/-- When nothing fails the journal tells of the creation before the link comes up. -/
theorem monitored_creation :
    InOrder ((monitored []).reset.history approach) ∧
      ∃ earlier entry later, ((monitored []).reset.run approach).world.1.entries =
          earlier ++ entry :: later ∧ entry.uses ⟨0⟩ = true ∧
        ∃ created ∈ earlier, created.creates ⟨0⟩ = true := by
  have hsetting : (monitored []).setting =
    .overheard (.unshaped .none) .equal [Script.backend] [] .local := rfl
  obtain ⟨⟨hinOrder, _⟩, new, hentries, horder⟩ :=
    use_follows_creation (monitored []) approach hsetting (fun hook hmem => by cases hmem) approach
  have hentries : ((monitored []).reset.run approach).world.1.entries = new := hentries
  have hany : ((monitored []).reset.run approach).world.1.entries.any (·.uses ⟨0⟩) = true := by
    decide +kernel
  have hcreated : creations ⟨0⟩ ((monitored []).reset.history approach) = [.ok ()] := by decide +kernel
  rw [hentries] at hany
  obtain ⟨entry, hmem, huses⟩ := List.any_eq_true.mp hany
  obtain ⟨earlier, later, hnew⟩ := List.append_of_mem hmem
  refine ⟨hinOrder, earlier, entry, later, hentries.trans hnew, huses, ?_⟩
  rcases horder earlier entry later ⟨0⟩ hnew huses with hfound | ⟨cause, hcause⟩
  · exact hfound
  · rw [hcreated] at hcause
    cases hcause

/-- When the creation fails the link is brought up in the next step all the same, and the journal
tells of that without a word of the creation. -/
theorem raised_uncreated :
    ¬ (∀ before x after id, (monitored miscreation).history approach = before ++ x :: after →
        x.uses id = true → .ok () ∈ creations id before) ∧
      ¬ ∀ earlier entry later id, ((monitored miscreation).run approach).world.1.entries =
        earlier ++ entry :: later → entry.uses id = true →
          ∃ created ∈ earlier, created.creates id = true := by
  have hcreation : creations ⟨0⟩ ((monitored miscreation).history approach) =
      [.error (.timeout 5)] := by decide +kernel
  have hused : ((monitored miscreation).history approach).any (·.uses ⟨0⟩) = true := by
    decide +kernel
  have hentry : ((monitored miscreation).run approach).world.1.entries.any (·.uses ⟨0⟩) = true := by
    decide +kernel
  have hnone : ((monitored miscreation).run approach).world.1.entries.any (·.creates ⟨0⟩) = false := by
    decide +kernel
  refine ⟨?_, ?_⟩
  · intro hclaim
    obtain ⟨x, hmem, huses⟩ := List.any_eq_true.mp hused
    obtain ⟨before, after, hhistory⟩ := List.append_of_mem hmem
    have hok := hclaim before x after ⟨0⟩ hhistory huses
    have hall : .ok () ∈ creations ⟨0⟩ ((monitored miscreation).history approach) := by
      rw [hhistory, creations_append]
      exact List.mem_append_left _ hok
    rw [hcreation] at hall
    cases List.mem_singleton.mp hall
  · intro hclaim
    obtain ⟨entry, hmem, huses⟩ := List.any_eq_true.mp hentry
    obtain ⟨earlier, later, hentries⟩ := List.append_of_mem hmem
    obtain ⟨created, hcreated, hcreates⟩ := hclaim earlier entry later ⟨0⟩ hentries huses
    rw [hentries] at hnone
    have hmem : created ∈ earlier ++ entry :: later := List.mem_append_left _ hcreated
    exact absurd hcreates (List.any_eq_false.mp hnone created hmem)

end ProximityNet
