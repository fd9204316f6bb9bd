import ProximityNet.Backend.Journal
import ProximityNet.Proofs.Recording

/-!
# The journal tells what the store holds

A ledger is what a reader of the journal knows of the links: `Ledger.read` enters one entry of the
journal, and `replay` reads a whole journal.  When the journal is the backend of an engine, the
ledger of its entries is what the store holds, whatever the tunnels do:

* `Connection.record` — what a ledger can know of a connection;
* `Balanced` — a ledger and a store agree;
* `Journaled` — the invariant, which adds that links to hubs are up with the initial shaping;
* `replay_perm` — after every run from a new engine the replayed journal is the store.

The journal accepts everything, so a link that is set up comes up at once.
-/

namespace ProximityNet

variable {τ μ : Type}

instance : Ranked ConnectionId where
  rank id := id.value
  rank_injective := fun ⟨_⟩ ⟨_⟩ h => congrArg ConnectionId.mk h

/-- What a ledger knows of a link. -/
structure LedgerRecord where
  kind : ConnectionKind
  low : Endpoint
  high : Endpoint
  stepAdded : Nat
  active : Bool
  shaping : Shaping
deriving DecidableEq

/-- What a ledger can know of a connection. -/
def Connection.record (c : Connection) : LedgerRecord :=
  ⟨c.kind, c.lowEnd, c.highEnd, c.stepAdded, c.connected, c.shaping⟩

/-- Links by their ids. -/
abbrev Ledger := SortedMap ConnectionId LedgerRecord

namespace Ledger

/-- Change the record of a link, if there is one. -/
def change (l : Ledger) (id : ConnectionId) (f : LedgerRecord → LedgerRecord) : Ledger :=
  match l.get? id with
  | some r => l.insert id (f r)
  | none => l

/-- Enter one entry of a journal: a link is created without shaping, and what is missing in a
shaping stays as it was. -/
def read (l : Ledger) : LinkEvent → Ledger
  | .linkCreated step id kind a b => l.insert id ⟨kind, a, b, step, false, .none⟩
  | .linkUp _ id _ _ shaping =>
    l.change id fun r => { r with active := true, shaping := shaping.fillFrom r.shaping }
  | .linkDown _ id _ _ => l.change id fun r => { r with active := false }
  | .qualityAdjusted _ id _ shaping =>
    l.change id fun r => { r with shaping := shaping.fillFrom r.shaping }
  | .stepStarted _ | .distancesChanged .. | .stepCommitted _ => l

theorem change_of_some {l : Ledger} {id : ConnectionId} {r : LedgerRecord}
    (h : l.get? id = some r) (f : LedgerRecord → LedgerRecord) :
    l.change id f = l.insert id (f r) := by
  rw [change, h]

end Ledger

/-- What the entries of a journal say of the links. -/
def replay (entries : List LinkEvent) : Ledger := entries.foldl Ledger.read .empty

theorem replay_add (j : Journal) (e : LinkEvent) :
    replay (j.add e).entries = (replay j.entries).read e := by
  rw [Journal.entries_add, replay, List.foldl_append]
  rfl

/-! ### Agreement -/

/-- The ledger knows of every stored connection, and of no other. -/
def Balanced (l : Ledger) (s : ConnectionStore) : Prop :=
  ∀ id r, l.get? id = some r ↔ ∃ c, s.Named id c ∧ c.record = r

variable {l : Ledger} {s : ConnectionStore} {c c' : Connection} {pair : NodePair}
  {i : InterfacePair}

theorem balanced_empty : Balanced .empty .empty := by
  intro id r
  constructor
  · intro h
    cases h
  · rintro ⟨c, ⟨_, pair, i, h⟩, _⟩
    cases h

theorem Balanced.get?_of_find? (h : Balanced l s) (hc : s.find? pair i = some c) :
    l.get? c.id = some c.record :=
  (h c.id c.record).mpr ⟨c, ConnectionStore.named_of_find? hc, rfl⟩

/-- Entering the record of a connection that takes the place of its id. -/
theorem Balanced.insert {s' : ConnectionStore} (h : Balanced l s)
    (hs : ∀ id x, s'.Named id x ↔ if id = c.id then x = c else s.Named id x) :
    Balanced (l.insert c.id c.record) s' := by
  intro id r
  by_cases hid : id = c.id
  · subst hid
    simp [SortedMap.get?_insert_self, hs]
  · rw [SortedMap.get?_insert_of_ne l _ (Ne.symm hid), h id r]
    simp only [hs, if_neg hid]

/-- A ledger that agrees with a store lists what the store lists. -/
theorem Balanced.perm (h : Balanced l s) (hs : s.Numbered) :
    l.entries.Perm (s.connections.map fun c => (c.id, c.record)) := by
  have hnodup : (s.connections.map fun c => (c.id, c.record)).Nodup := by
    refine (List.nodup_map_iff_inj_on hs.connections_nodup).mpr ?_
    intro c hc c' hc' heq
    have hstored := hs.mem_connections_iff.mp hc
    have hstored' := hs.mem_connections_iff.mp hc'
    exact hs.named_inj ⟨rfl, hstored⟩ ⟨(Prod.mk.inj heq).1.symm, hstored'⟩
  rw [List.perm_ext_iff_of_nodup l.entries_nodup hnodup]
  rintro ⟨id, r⟩
  rw [← SortedMap.get?_eq_some_iff, h id r, List.mem_map]
  constructor
  · rintro ⟨c, ⟨hid, hstored⟩, hr⟩
    exact ⟨c, hs.mem_connections_iff.mpr hstored, by rw [hid, hr]⟩
  · rintro ⟨c, hc, heq⟩
    obtain ⟨hid, hr⟩ := Prod.mk.inj heq
    exact ⟨c, ⟨hid, hs.mem_connections_iff.mp hc⟩, hr⟩

/-! ### An engine with a journal -/

/-- A setting whose backend is a journal; its tunnels act on a state of their own. -/
def Setting.journaled (model : LinkModel) (pairing : Pairing) (policy : TunnelPolicy τ) :
    Setting (Journal × τ) where
  model := model
  pairing := pairing
  backend := Journal.backend.within Part.first
  policy := policy.within Part.second

theorem Shaping.fillFrom_self (a : Shaping) : a.fillFrom a = a := by
  simp [Shaping.fillFrom]

/-- What a link is shaped as when it comes up for the first time does not depend on how it was
stored before. -/
theorem Setting.Launches.first_fillFrom_held {σ : Type} {s : Setting σ} {t : Task} {l : Launch}
    (h : s.Launches t l) : l.first.fillFrom l.held = l.first := by
  cases h with
  | follow => exact Shaping.fillFrom_none _
  | manage => exact Shaping.fillFrom_self _

/-- A link to a hub comes up for the first time with the initial shaping. -/
theorem Setting.Launches.first_of_central {σ : Type} {s : Setting σ} {t : Task} {l : Launch}
    (h : s.Launches t l) (hkind : l.kind = .central) : l.first = s.initial := by
  cases h with
  | follow =>
    dsimp only at hkind ⊢
    rw [hkind, Setting.decide, if_pos rfl]
    exact Shaping.fillFrom_self _
  | manage => cases hkind

theorem Ledger.read_launch (l : Ledger) (site : LinkSite) (c : Connection) (shaping : Shaping) :
    (l.read (Journal.entryOfRequest (.create site c))).read
        (Journal.entryOfRequest (.raise site c shaping)) =
      l.insert c.id ⟨c.kind, c.lowEnd, c.highEnd, site.step, true, shaping⟩ := by
  show Ledger.change (l.insert c.id ⟨c.kind, c.lowEnd, c.highEnd, site.step, false, .none⟩) c.id
    _ = _
  rw [Ledger.change_of_some (SortedMap.get?_insert_self ..), SortedMap.insert_insert]
  simp

section Journal

variable {model : LinkModel} {pairing : Pairing} {policy : TunnelPolicy τ}
  {w w' : Journal × τ}

theorem journaled_start {site : LinkSite} {c : Connection}
    {answer : Except BackendError StartAnswer}
    (h : (Setting.journaled model pairing policy).backend.start site c w = (answer, w')) :
    answer = .ok .yes ∧ w' = w := by
  obtain ⟨rfl, rfl⟩ := Prod.mk.inj h
  exact ⟨rfl, rfl⟩

theorem journaled_perform {r : Request} {result : Except BackendError Unit}
    (h : (Setting.journaled model pairing policy).backend.perform r w = (result, w')) :
    result = .ok () ∧ w' = (w.1.add (Journal.entryOfRequest r), w.2) := by
  obtain ⟨rfl, rfl⟩ := Prod.mk.inj h
  exact ⟨rfl, rfl⟩

theorem journaled_shape {v : Visit} {c : Connection} {i : InterfacePair} {shaping : Shaping}
    {result : Except BackendError Unit}
    (h : v.shapeWorld (Setting.journaled model pairing policy).backend c i shaping w =
      (result, w')) :
    result = .ok () ∧ w' = (w.1.add (.qualityAdjusted v.step c.id true shaping), w.2) := by
  obtain ⟨rfl, rfl⟩ := Prod.mk.inj h
  exact ⟨rfl, rfl⟩

/-- The journal and the store agree, and links to hubs are up with the initial shaping. -/
structure Journaled (initial : Shaping) (w : Journal × τ) (s : ConnectionStore) : Prop where
  balanced : Balanced (replay w.1.entries) s
  hubs : ∀ {id c}, s.Named id c → c.kind = .central →
    c.connected = true ∧ initial.fillFrom c.shaping = c.shaping

variable {initial : Shaping}

/-- Writing down what becomes of one connection. -/
theorem Journaled.insert {s' : ConnectionStore} {j : Journal} (h : Journaled initial w s)
    (hs : ∀ id x, s'.Named id x ↔ if id = c.id then x = c else s.Named id x)
    (hj : replay j.entries = (replay w.1.entries).insert c.id c.record)
    (hhub : c.kind = .central → c.connected = true ∧ initial.fillFrom c.shaping = c.shaping) :
    Journaled initial (j, w.2) s' := by
  refine ⟨?_, fun {id x} hx hcentral => ?_⟩
  · dsimp only
    rw [hj]
    exact h.balanced.insert hs
  · rw [hs id x] at hx
    split at hx
    · rw [hx] at hcentral ⊢
      exact hhub hcentral
    · exact h.hubs hx hcentral

/-- Writing down a change of a connection that is no link to a hub. -/
theorem Journaled.change (h : Journaled initial w s) (hs : s.Numbered)
    (hc : s.find? pair i = some c) (hkind : c.kind ≠ .central) {e : LinkEvent}
    {f : LedgerRecord → LedgerRecord} (hread : ∀ l : Ledger, l.read e = l.change c.id f)
    (c' : Connection) (hrecord : c'.record = f c.record) (hid : c'.id = c.id)
    (hpair : c'.pair = c.pair) (hi : c'.interfaces = c.interfaces) (hkind' : c'.kind = c.kind) :
    Journaled initial (w.1.add e, w.2) (s.file c') := by
  have hnamed := hs.named_file hc hid hpair hi
  rw [← hid] at hnamed
  refine h.insert hnamed ?_ (fun hcentral => absurd (hkind'.symm.trans hcentral) hkind)
  rw [replay_add, hread, Ledger.change_of_some (h.balanced.get?_of_find? hc), hrecord, hid]

/-- Every move keeps the journal and the store in agreement. -/
theorem Setting.Move.journaled {t : Task} {p p' : Progress (Journal × τ)} (hs : p.store.Numbered)
    (hmove : (Setting.journaled model pairing policy).Move t p p')
    (h : Journaled model.initial.shaping p.world p.store) :
    Journaled model.initial.shaping p'.world p'.store := by
  cases hmove with
  | tunnel _ ensure =>
    obtain ⟨_, rfl⟩ := Prod.mk.inj ensure
    exact ⟨h.balanced, h.hubs⟩
  | startFailed launch free start => cases (journaled_start start).1
  | refused launch free start no =>
    rw [Except.ok.inj (journaled_start start).1] at no
    cases no
  | createFailed launch free start yes create => cases (journaled_perform create).1
  | launchFailed launch free start yes create raise => cases (journaled_perform raise).1
  | launched launch free start yes create raise =>
    dsimp only
    rw [(journaled_perform raise).2, (journaled_perform create).2, (journaled_start start).2]
    refine h.insert (hs.named_fileFresh rfl free) ?_ (fun hcentral => ⟨rfl, ?_⟩)
    · rw [replay_add, replay_add, Ledger.read_launch, Connection.record]
      dsimp only [Connection.raised, Connection.accepted]
      rw [launch.first_fillFrom_held]
      rfl
    · dsimp only [Connection.raised, Connection.accepted]
      rw [launch.first_fillFrom_held, launch.first_of_central hcentral]
      exact Shaping.fillFrom_self _
  | raiseFailed revive found down raise => cases (journaled_perform raise).1
  | raised revive found down raise =>
    dsimp only
    rw [(journaled_perform raise).2]
    refine h.change hs found (fun hcentral => ?_) (fun _ => rfl) _ rfl rfl rfl rfl rfl
    have hup := (h.hubs (ConnectionStore.named_of_find? found) hcentral).1
    rw [down] at hup
    cases hup
  | lowerFailed kind far found up lower => cases (journaled_perform lower).1
  | lowered kind far found up lower =>
    dsimp only
    rw [(journaled_perform lower).2]
    refine h.change hs found (fun hcentral => ?_) (fun _ => rfl) _ rfl rfl rfl rfl rfl
    rw [kind] at hcentral
    cases hcentral
  | adjustFailed adjust found up shape => cases (journaled_shape shape).1
  | adjusted kind adjust found up shape =>
    dsimp only
    rw [(journaled_shape shape).2]
    refine h.change hs found (fun hcentral => ?_) (fun _ => rfl) _ rfl rfl rfl rfl rfl
    rw [kind] at hcentral
    cases hcentral
  | @hubAdjusted v _ c world kind found up shape =>
    dsimp only
    rw [(journaled_shape shape).2]
    have hhub := (h.hubs (ConnectionStore.named_of_find? found) kind).2
    have hget := h.balanced.get?_of_find? found
    -- the shaping that is written down is there already
    have hrecord : { c.record with shaping := model.initial.shaping.fillFrom c.record.shaping } =
        c.record := by
      show (⟨_, _, _, _, _, model.initial.shaping.fillFrom c.shaping⟩ : LedgerRecord) = _
      rw [hhub]
      rfl
    have hchange : (replay p.world.1.entries).change c.id (fun r =>
        { r with shaping := model.initial.shaping.fillFrom r.shaping }) =
        replay p.world.1.entries := by
      rw [Ledger.change_of_some hget, hrecord, SortedMap.insert_of_get? hget]
    refine ⟨?_, h.hubs⟩
    dsimp only
    rw [replay_add]
    show Balanced ((replay p.world.1.entries).change c.id fun r =>
      { r with shaping := model.initial.shaping.fillFrom r.shaping }) p.store
    rw [hchange]
    exact h.balanced

theorem Journaled.announce {a : Announcement} (h : Journaled initial w s)
    (ha : a.isOfStep = true) :
    Journaled initial ((Setting.journaled model pairing policy).backend.announce a w) s := by
  refine ⟨?_, h.hubs⟩
  show Balanced (replay ((Journal.entryOfAnnouncement? a).elim w.1 w.1.add).entries) s
  cases a with
  | stepStarting step all =>
    show Balanced (replay (w.1.add _).entries) s
    rw [replay_add]
    exact h.balanced
  | changesPending step changed all =>
    show Balanced (replay (w.1.add _).entries) s
    rw [replay_add]
    exact h.balanced
  | changesApplied step changed all => exact h.balanced
  | adjusting site c still shaping => cases ha

theorem Setting.keeps_journaled (model : LinkModel) (pairing : Pairing) (policy : TunnelPolicy τ) :
    (Setting.journaled model pairing policy).Keeps fun _ s w =>
      Journaled model.initial.shaping w s where
  move _ hs hmove h := hmove.journaled hs h
  announce ha h := h.announce ha
  finish {_ s w} step all h := by
    refine ⟨?_, h.hubs⟩
    show Balanced (replay (w.1.add (.stepCommitted step)).entries) s
    rw [replay_add]
    exact h.balanced
  grow _ h := h

/-- After every run from a new engine whose backend is a new journal, replaying the journal gives
the links of the store: the same ids, each with its kind, ends, step, state and shaping. -/
theorem replay_perm [Movement μ] (model : LinkModel) (pairing : Pairing) (policy : TunnelPolicy τ)
    (movement : Option μ) (world : τ) (ops : List Operation) :
    let e := (Engine.start (Setting.journaled model pairing policy) movement (.empty, world)).run ops
    (replay e.world.1.entries).entries.Perm (e.store.connections.map fun c => (c.id, c.record)) := by
  intro e
  have hstart : (Engine.start (Setting.journaled model pairing policy) movement
      (Journal.empty, world)).Kept fun _ s w => Journaled model.initial.shaping w s := by
    refine ⟨ConnectionStore.numbered_empty, ⟨balanced_empty, ?_⟩, fun hook hmem => by cases hmem⟩
    rintro id c ⟨_, pair, i, h⟩
    cases h
  obtain ⟨hrun, _⟩ := Engine.run_kept (Setting.keeps_journaled model pairing policy) hstart ops
  exact hrun.holds.balanced.perm hrun.numbered

end Journal

end ProximityNet
