import ProximityNet.Backend.Script
import ProximityNet.Proofs.Recording

/-!
# What links are shaped as when they first come up

A model has an initial shaping for links that come up for the first time.  A link that comes up right
after it was set up gets it: every field that the initial shaping sets is set.  A link whose creation
or first raise the backend failed at comes up later, by another way, and then it gets only what the
model says of a distance at which it connects, which need not set any of these fields.

* `firstRaise?` — the shaping that a link first came up with;
* `falters` — a call failed before the link first came up;
* `Setting.Bare` — what such a link comes up with;
* `Initialised` — the invariant that ties these to the store;
* `firstRaise_shaping` — what every run makes of the initial shaping;
* `initial_shaping_lost` — a run in which it is lost.
-/

namespace ProximityNet

variable {σ μ : Type}

namespace Shaping

/-- Whatever `b` sets is set in `a`. -/
def Covers (a b : Shaping) : Prop :=
  (b.bandwidthKbit.isSome → a.bandwidthKbit.isSome) ∧ (b.lossPercent.isSome → a.lossPercent.isSome) ∧
    (b.delayMs.isSome → a.delayMs.isSome)

instance (a b : Shaping) : Decidable (a.Covers b) := inferInstanceAs (Decidable (_ ∧ _ ∧ _))

theorem Covers.refl (a : Shaping) : a.Covers a := ⟨id, id, id⟩

theorem Covers.trans {a b c : Shaping} (h : a.Covers b) (h' : b.Covers c) : a.Covers c :=
  ⟨fun hc => h.1 (h'.1 hc), fun hc => h.2.1 (h'.2.1 hc), fun hc => h.2.2 (h'.2.2 hc)⟩

theorem fillFrom_covers_left (a b : Shaping) : (a.fillFrom b).Covers a := by
  refine ⟨fun h => ?_, fun h => ?_, fun h => ?_⟩ <;> simp [fillFrom, h]

theorem fillFrom_covers_right (a b : Shaping) : (a.fillFrom b).Covers b := by
  refine ⟨fun h => ?_, fun h => ?_, fun h => ?_⟩ <;> simp [fillFrom, h]

end Shaping

/-! ### The first time a link comes up -/

/-- Where and with which shaping a link was brought up, if the exchange did that. -/
def Exchange.raise? (id : ConnectionId) : Exchange → Option (LinkSite × Shaping)
  | .performed (.raise site c shaping) (.ok ()) => if c.id = id then some (site, shaping) else none
  | _ => none

/-- Whether the backend failed to create a link or to bring it up. -/
def Exchange.fails (id : ConnectionId) : Exchange → Bool
  | .performed (.create _ c) (.error _) | .performed (.raise _ c _) (.error _) => c.id = id
  | _ => false

/-- Where and with which shaping a link first came up. -/
def firstRaise? (id : ConnectionId) (history : List Exchange) : Option (LinkSite × Shaping) :=
  history.findSome? (Exchange.raise? id)

/-- Whether the backend failed at a link before it first came up. -/
def falters (id : ConnectionId) : List Exchange → Bool
  | [] => false
  | x :: rest => if (x.raise? id).isSome then false else x.fails id || falters id rest

theorem firstRaise?_cons (id : ConnectionId) (x : Exchange) (rest : List Exchange) :
    firstRaise? id (x :: rest) = (x.raise? id).or (firstRaise? id rest) := by
  rw [firstRaise?, List.findSome?_cons]
  cases x.raise? id <;> rfl

theorem firstRaise?_append (id : ConnectionId) (h h' : List Exchange) :
    firstRaise? id (h ++ h') = (firstRaise? id h).or (firstRaise? id h') :=
  List.findSome?_append

theorem falters_append (id : ConnectionId) (h h' : List Exchange) :
    falters id (h ++ h') = (falters id h || (firstRaise? id h).isNone && falters id h') := by
  induction h with
  | nil => rfl
  | cons x rest ih =>
    rw [List.cons_append, falters, falters, firstRaise?, List.findSome?_cons]
    cases hx : x.raise? id with
    | some raise => rfl
    | none =>
      rw [ih, if_neg (by simp), if_neg (by simp), Bool.or_assoc]
      rfl

/-- Exchanges in which a link neither comes up nor falters. -/
theorem silent_of_forall {id : ConnectionId} {l : List Exchange}
    (h : ∀ x ∈ l, x.raise? id = none ∧ x.fails id = false) :
    firstRaise? id l = none ∧ falters id l = false := by
  induction l with
  | nil => exact ⟨rfl, rfl⟩
  | cons x rest ih =>
    obtain ⟨hraise, hfails⟩ := h x List.mem_cons_self
    obtain ⟨hfirst, hfalters⟩ := ih fun y hy => h y (List.mem_cons_of_mem _ hy)
    rw [firstRaise?, List.findSome?_cons, falters, hraise, hfails]
    exact ⟨hfirst, hfalters⟩

/-- What a link at a site is for, as far as its nodes say. -/
def LinkSite.kind (site : LinkSite) : ConnectionKind :=
  if site.x.isCentral || site.y.isCentral then .central else .user

namespace Setting

/-- What a link that exists and is down comes up with: nothing but what is decided of some distance at
which it connects, whichever that is.  A link to the management node comes up with the initial
shaping. -/
def Bare (s : Setting σ) (site : LinkSite) (shaping : Shaping) : Prop :=
  (∃ d, (s.decide site.kind d).connected = true ∧ shaping = (s.decide site.kind d).shaping) ∨
    site.route.isManagement = true ∧ shaping = s.initial

variable {s : Setting σ} {t : Task}

theorem Launches.first_covers {l : Launch} (h : s.Launches t l) : l.first.Covers s.initial := by
  cases h with
  | follow => exact Shaping.fillFrom_covers_right _ _
  | manage => exact Shaping.Covers.refl _

theorem Revives.bare {c : Connection} {site : LinkSite} {shaping : Shaping}
    (h : s.Revives t c site shaping) : s.Bare site shaping := by
  cases h with
  | @follow v _ near => exact Or.inl ⟨v.distance, near, rfl⟩
  | manage => exact Or.inr ⟨rfl, rfl⟩

end Setting

/-! ### The invariant -/

/-- Links that have come up have the shaping of their first time, and the others have faltered. -/
structure Initialised (s : Setting σ) (history : List Exchange) (store : ConnectionStore) :
    Prop where
  raised : ∀ {id site q}, firstRaise? id history = some (site, q) →
    if falters id history then s.Bare site q else q.Covers s.initial
  shaped : ∀ {id site q c}, firstRaise? id history = some (site, q) → store.Named id c →
    c.shaping.Covers q
  waiting : ∀ {id c}, firstRaise? id history = none → store.Named id c →
    falters id history = true ∧ c.connected = false
  fresh : ∀ {id : ConnectionId}, store.nextNumber ≤ id.value →
    firstRaise? id history = none ∧ falters id history = false

variable {s : Setting σ} {history more : List Exchange} {store store' : ConnectionStore}

theorem initialised_empty (s : Setting σ) : Initialised s [] .empty where
  raised h := by cases h
  shaped h := by cases h
  waiting _ h := by
    obtain ⟨_, pair, i, h⟩ := h
    cases h
  fresh _ := ⟨rfl, rfl⟩

/-- Exchanges about one link `id`: only what becomes of that link is left to be shown. -/
theorem Initialised.extend (h : Initialised s history store) (id : ConnectionId)
    (others : ∀ id', id' ≠ id → firstRaise? id' more = none ∧ falters id' more = false)
    (kept : ∀ id' x, id' ≠ id → store'.Named id' x → store.Named id' x)
    (next : store.nextNumber ≤ store'.nextNumber) (used : id.value < store'.nextNumber)
    (raised : ∀ site q, firstRaise? id (history ++ more) = some (site, q) →
      if falters id (history ++ more) then s.Bare site q else q.Covers s.initial)
    (shaped : ∀ site q c, firstRaise? id (history ++ more) = some (site, q) → store'.Named id c →
      c.shaping.Covers q)
    (waiting : ∀ c, firstRaise? id (history ++ more) = none → store'.Named id c →
      falters id (history ++ more) = true ∧ c.connected = false) :
    Initialised s (history ++ more) store' := by
  have hfirst : ∀ id', id' ≠ id → firstRaise? id' (history ++ more) = firstRaise? id' history := by
    intro id' hne
    rw [firstRaise?_append, (others id' hne).1, Option.or_none]
  have hfalters : ∀ id', id' ≠ id → falters id' (history ++ more) = falters id' history := by
    intro id' hne
    rw [falters_append, (others id' hne).2, Bool.and_false, Bool.or_false]
  refine ⟨fun {id' site q} hq => ?_, fun {id' site q c} hq hc => ?_, fun {id' c} hq hc => ?_,
    fun {id'} hle => ?_⟩
  · by_cases hid : id' = id
    · subst hid
      exact raised site q hq
    · rw [hfirst id' hid] at hq
      rw [hfalters id' hid]
      exact h.raised hq
  · by_cases hid : id' = id
    · subst hid
      exact shaped site q c hq hc
    · rw [hfirst id' hid] at hq
      exact h.shaped hq (kept id' c hid hc)
  · by_cases hid : id' = id
    · subst hid
      exact waiting c hq hc
    · rw [hfirst id' hid] at hq
      rw [hfalters id' hid]
      exact h.waiting hq (kept id' c hid hc)
  · have hid : id' ≠ id := by
      rintro rfl
      exact Nat.lt_irrefl _ (Nat.lt_of_lt_of_le used hle)
    rw [hfirst id' hid, hfalters id' hid]
    exact h.fresh (Nat.le_trans next hle)

/-- Exchanges in which no link comes up or falters. -/
theorem Initialised.quiet (h : Initialised s history store)
    (hmore : ∀ id, firstRaise? id more = none ∧ falters id more = false)
    (kept : ∀ id x, store'.Named id x → ∃ y, store.Named id y ∧ x.shaping.Covers y.shaping ∧
      (x.connected = true → y.connected = true))
    (next : store.nextNumber ≤ store'.nextNumber) : Initialised s (history ++ more) store' := by
  have hfirst : ∀ id, firstRaise? id (history ++ more) = firstRaise? id history := by
    intro id
    rw [firstRaise?_append, (hmore id).1, Option.or_none]
  have hfalters : ∀ id, falters id (history ++ more) = falters id history := by
    intro id
    rw [falters_append, (hmore id).2, Bool.and_false, Bool.or_false]
  refine ⟨fun {id site q} hq => ?_, fun {id site q c} hq hc => ?_, fun {id c} hq hc => ?_,
    fun {id} hle => ?_⟩
  · rw [hfirst] at hq
    rw [hfalters]
    exact h.raised hq
  · rw [hfirst] at hq
    obtain ⟨y, hy, hcovers, _⟩ := kept id c hc
    exact hcovers.trans (h.shaped hq hy)
  · rw [hfirst] at hq
    rw [hfalters]
    obtain ⟨y, hy, _, hup⟩ := kept id c hc
    obtain ⟨hfalter, hdown⟩ := h.waiting hq hy
    refine ⟨hfalter, Bool.eq_false_iff.mpr fun hc => ?_⟩
    rw [hup hc] at hdown
    cases hdown
  · rw [hfirst, hfalters]
    exact h.fresh (Nat.le_trans next hle)

/-- A link that is changed keeps what it was, as `Initialised.quiet` asks for. -/
theorem refiled (hs : store.Numbered) {c c' : Connection} {pair : NodePair} {i : InterfacePair}
    (found : store.find? pair i = some c) (hid : c'.id = c.id) (hpair : c'.pair = c.pair)
    (hi : c'.interfaces = c.interfaces) (hcovers : c'.shaping.Covers c.shaping)
    (hup : c'.connected = true → c.connected = true) (id : ConnectionId) (x : Connection)
    (hx : (store.file c').Named id x) :
    ∃ y, store.Named id y ∧ x.shaping.Covers y.shaping ∧ (x.connected = true → y.connected = true) := by
  rw [hs.named_file found hid hpair hi] at hx
  split at hx
  · rename_i heq
    rw [hx]
    exact ⟨c, ⟨heq.symm, pair, i, found⟩, hcovers, hup⟩
  · exact ⟨x, hx, .refl _, fun h => h⟩

/-- A link that has just been set up: either it came up at once, or a call failed. -/
theorem Initialised.fileFresh (h : Initialised s history store) (hs : store.Numbered)
    {c : Connection} (hid : c.id.value = store.nextNumber)
    (free : store.find? c.pair c.interfaces = none)
    (others : ∀ id, id ≠ c.id → firstRaise? id more = none ∧ falters id more = false)
    (up : ∀ site q, firstRaise? c.id more = some (site, q) →
      falters c.id more = false ∧ q.Covers s.initial ∧ c.shaping.Covers q)
    (down : firstRaise? c.id more = none → falters c.id more = true ∧ c.connected = false) :
    Initialised s (history ++ more) (store.freshId.2.file c) := by
  have hnamed := hs.named_fileFresh hid free
  obtain ⟨hnone, hsmooth⟩ := h.fresh (Nat.le_of_eq hid.symm)
  have hnext : (store.freshId.2.file c).nextNumber = store.nextNumber + 1 :=
    ConnectionStore.file_nextNumber _ _
  have hfirst : firstRaise? c.id (history ++ more) = firstRaise? c.id more := by
    rw [firstRaise?_append, hnone, Option.none_or]
  have hfalters : falters c.id (history ++ more) = falters c.id more := by
    rw [falters_append, hnone, hsmooth]
    simp
  refine h.extend c.id others (fun id x hne hx => ?_) ?_ ?_ (fun site q hq => ?_)
    (fun site q x hq hx => ?_) (fun x hq hx => ?_)
  · rw [hnamed, if_neg hne] at hx
    exact hx
  · rw [hnext]
    exact Nat.le_succ _
  · rw [hnext, hid]
    exact Nat.lt_succ_self _
  · rw [hfirst] at hq
    obtain ⟨hno, hcovers, _⟩ := up site q hq
    rw [hfalters, hno]
    exact hcovers
  · rw [hfirst] at hq
    rw [hnamed, if_pos rfl] at hx
    rw [hx]
    exact (up site q hq).2.2
  · rw [hfirst] at hq
    rw [hnamed, if_pos rfl] at hx
    rw [hfalters, hx]
    exact down hq

/-- The backend fails to bring up a link that is down. -/
theorem Initialised.raiseFailed (h : Initialised s history store) (hs : store.Numbered)
    {c : Connection} {pair : NodePair} {i : InterfacePair} (found : store.find? pair i = some c)
    (down : c.connected = false) (site : LinkSite) (shaping : Shaping) (e : BackendError) :
    Initialised s (history ++ [.performed (.raise site c shaping) (.error e)]) store := by
  have hnamed : store.Named c.id c := ⟨rfl, pair, i, found⟩
  have hfirst : ∀ id, firstRaise? id [.performed (.raise site c shaping) (.error e)] = none :=
    fun _ => rfl
  have hfails : falters c.id [.performed (.raise site c shaping) (.error e)] = true := by
    simp [falters, Exchange.raise?, Exchange.fails]
  refine h.extend c.id (fun id hne => ⟨hfirst id, ?_⟩) (fun _ _ _ hx => hx) (Nat.le_refl _)
    (hs.below found) (fun site q hq => ?_) (fun site' q x hq hx => ?_) (fun x hq hx => ?_)
  · simp [falters, Exchange.raise?, Exchange.fails, hne.symm]
  · rw [firstRaise?_append, hfirst, Option.or_none] at hq
    rw [falters_append, hq]
    simpa using h.raised hq
  · rw [firstRaise?_append, hfirst, Option.or_none] at hq
    exact h.shaped hq hx
  · rw [firstRaise?_append, hfirst, Option.or_none] at hq
    rw [falters_append, hq, hfails, hs.named_inj hx hnamed]
    exact ⟨by simp, down⟩

/-- A link that is down comes up. -/
theorem Initialised.reraised (h : Initialised s history store) (hs : store.Numbered)
    {c : Connection} {pair : NodePair} {i : InterfacePair} (found : store.find? pair i = some c)
    {site : LinkSite} {shaping : Shaping} (bare : s.Bare site shaping) (d : Distance) :
    Initialised s (history ++ [.performed (.raise site c shaping) (.ok ())])
      (store.file (c.raised d shaping)) := by
  have hold : store.Named c.id c := ⟨rfl, pair, i, found⟩
  have hnamed : ∀ id x, (store.file (c.raised d shaping)).Named id x ↔
      if id = c.id then x = c.raised d shaping else store.Named id x :=
    hs.named_file found rfl rfl rfl
  have hfirst : firstRaise? c.id [.performed (.raise site c shaping) (.ok ())] =
      some (site, shaping) := by
    simp [firstRaise?, Exchange.raise?]
  have hfails : falters c.id [.performed (.raise site c shaping) (.ok ())] = false := by
    simp [falters, Exchange.raise?]
  refine h.extend c.id (fun id hne => silent_of_forall ?_) (fun id x hne hx => ?_) ?_ ?_
    (fun site q hq => ?_) (fun site' q x hq hx => ?_) (fun x hq _ => ?_)
  · simp [Exchange.raise?, Exchange.fails, hne.symm]
  · rw [hnamed, if_neg hne] at hx
    exact hx
  · exact Nat.le_of_eq (ConnectionStore.file_nextNumber _ _).symm
  · rw [ConnectionStore.file_nextNumber]
    exact hs.below found
  · rw [falters_append, hfails, Bool.and_false, Bool.or_false]
    rw [firstRaise?_append, hfirst] at hq
    cases hbefore : firstRaise? c.id history with
    | none =>
      rw [hbefore] at hq
      obtain ⟨rfl, rfl⟩ := Prod.mk.inj (Option.some.inj hq)
      rw [(h.waiting hbefore hold).1]
      exact bare
    | some r =>
      rw [hbefore] at hq
      exact h.raised (hbefore.trans hq)
  · rw [firstRaise?_append, hfirst] at hq
    rw [hnamed, if_pos rfl] at hx
    rw [hx]
    -- the shaping laid over the old one covers both
    cases hbefore : firstRaise? c.id history with
    | none =>
      rw [hbefore] at hq
      obtain ⟨rfl, rfl⟩ := Prod.mk.inj (Option.some.inj hq)
      exact Shaping.fillFrom_covers_left _ _
    | some r =>
      rw [hbefore] at hq
      exact (Shaping.fillFrom_covers_right _ _).trans (h.shaped (hbefore.trans hq) hold)
  · rw [firstRaise?_append, hfirst] at hq
    cases hbefore : firstRaise? c.id history with
    | none =>
      rw [hbefore] at hq
      cases hq
    | some r =>
      rw [hbefore] at hq
      cases hq

/-- Every move keeps the first shaping of links. -/
theorem Setting.Move.initialised {t : Task} {p p' : Progress (σ × List Exchange)}
    (hs : p.store.Numbered) (hmove : s.recorded.Move t p p')
    (h : Initialised s p.world.2 p.store) : Initialised s p'.world.2 p'.store := by
  have same : ∀ {st : ConnectionStore} id x, st.Named id x → ∃ y, st.Named id y ∧
      x.shaping.Covers y.shaping ∧ (x.connected = true → y.connected = true) :=
    fun id x hx => ⟨x, hx, .refl _, fun hup => hup⟩
  cases hmove with
  | tunnel _ ensure =>
    dsimp only
    rw [recorded_ensure ensure]
    exact h
  | startFailed launch free start =>
    dsimp only
    rw [recorded_start start]
    exact h.quiet (fun _ => ⟨rfl, rfl⟩) same (Nat.le_succ _)
  | refused launch free start no =>
    dsimp only
    rw [recorded_start start]
    exact h.quiet (fun _ => ⟨rfl, rfl⟩) same (Nat.le_succ _)
  | createFailed launch free start yes create =>
    dsimp only
    rw [recorded_perform create, recorded_start start, List.append_assoc]
    refine h.fileFresh hs rfl free (fun id hne => silent_of_forall ?_) (fun _ _ hq => by cases hq)
      fun _ => ⟨?_, rfl⟩
    · simp [Exchange.raise?, Exchange.fails, Ne.symm hne]
    · simp [falters, Exchange.raise?, Exchange.fails]
  | launchFailed launch free start yes create raise =>
    dsimp only
    rw [recorded_perform raise, recorded_perform create, recorded_start start, List.append_assoc,
      List.append_assoc]
    refine h.fileFresh hs rfl free (fun id hne => silent_of_forall ?_) (fun _ _ hq => by cases hq)
      fun _ => ⟨?_, rfl⟩
    · simp [Exchange.raise?, Exchange.fails, Ne.symm hne]
    · simp [falters, Exchange.raise?, Exchange.fails]
  | @launched _ _ l _ _ _ _ launch free start yes create raise =>
    dsimp only
    rw [recorded_perform raise, recorded_perform create, recorded_start start, List.append_assoc,
      List.append_assoc]
    refine h.fileFresh hs rfl free (fun id hne => silent_of_forall ?_) (fun site q hq => ?_)
      fun hq => ?_
    · rw [Connection.id_raised] at hne
      simp [Exchange.raise?, Exchange.fails, Ne.symm hne]
    · have hraise : (t.visit.site l.kind l.ix l.iy, l.first) = (site, q) := by
        simpa [firstRaise?_cons, Exchange.raise?] using hq
      obtain ⟨_, rfl⟩ := Prod.mk.inj hraise
      refine ⟨?_, launch.first_covers, Shaping.fillFrom_covers_left _ _⟩
      simp [falters, Exchange.raise?, Exchange.fails]
    · simp [firstRaise?_cons, Exchange.raise?] at hq
  | raiseFailed revive found down raise =>
    dsimp only
    rw [recorded_perform raise]
    exact h.raiseFailed hs found down _ _ _
  | raised revive found down raise =>
    dsimp only
    rw [recorded_perform raise]
    exact h.reraised hs found revive.bare _
  | lowerFailed kind far found up lower =>
    dsimp only
    rw [recorded_perform lower]
    exact h.quiet (fun _ => ⟨rfl, rfl⟩) same (Nat.le_refl _)
  | lowered kind far found up lower =>
    dsimp only
    rw [recorded_perform lower]
    exact h.quiet (fun _ => ⟨rfl, rfl⟩)
      (refiled hs found rfl rfl rfl (.refl _) (fun hup => by cases hup)) (by simp)
  | adjustFailed adjust found up shape =>
    dsimp only
    rw [recorded_shape shape]
    exact h.quiet (fun _ => ⟨rfl, rfl⟩) same (Nat.le_refl _)
  | adjusted kind adjust found up shape =>
    dsimp only
    rw [recorded_shape shape]
    exact h.quiet (fun _ => ⟨rfl, rfl⟩)
      (refiled hs found rfl rfl rfl (Shaping.fillFrom_covers_right _ _) id) (by simp)
  | hubAdjusted kind found up shape =>
    dsimp only
    rw [recorded_shape shape]
    exact h.quiet (fun _ => ⟨rfl, rfl⟩) same (Nat.le_refl _)

theorem Setting.keeps_initialised (s : Setting σ) :
    s.recorded.Keeps fun _ st w => Initialised s w.2 st where
  move _ hs hmove h := hmove.initialised hs h
  announce _ h := h.quiet (fun _ => ⟨rfl, rfl⟩) (fun _ x hx => ⟨x, hx, .refl _, id⟩) (Nat.le_refl _)
  finish _ _ h := h.quiet (fun _ => ⟨rfl, rfl⟩) (fun _ x hx => ⟨x, hx, .refl _, id⟩) (Nat.le_refl _)
  grow _ h := h

/-! ### Every run -/

/-- In every run from a reset a link first comes up with all that the initial shaping sets, unless a
call failed at it before: then it comes up with no more than what is decided of some distance at which
it connects, or with the initial shaping itself if it leads to the management node.  A link that is up
has come up, and keeps what its first shaping sets. -/
theorem firstRaise_shaping [Movement μ] (e : Engine σ μ) (ops : List Operation)
    (id : ConnectionId) :
    (∀ site q, firstRaise? id (e.reset.history ops) = some (site, q) →
      (falters id (e.reset.history ops) = false → q.Covers e.setting.initial) ∧
        (falters id (e.reset.history ops) = true → e.setting.Bare site q)) ∧
    ∀ c ∈ (e.reset.run ops).store.active.connections, c.id = id →
      ∃ site q, firstRaise? id (e.reset.history ops) = some (site, q) ∧ c.shaping.Covers q := by
  obtain ⟨hnumbered, hholds⟩ := Engine.history_kept (Setting.keeps_initialised e.setting)
    (initialised_empty e.setting) ops
  refine ⟨fun site q hq => ⟨fun hsmooth => ?_, fun hfalters => ?_⟩, fun c hc hid => ?_⟩
  · have hraised := hholds.raised hq
    rw [hsmooth] at hraised
    exact hraised
  · have hraised := hholds.raised hq
    rw [hfalters] at hraised
    exact hraised
  · obtain ⟨hstored, hup⟩ := hnumbered.mem_active_iff.mp hc
    have hnamed : (e.reset.run ops).store.Named id c := ⟨hid, hstored⟩
    cases hfirst : firstRaise? id (e.reset.history ops) with
    | none =>
      obtain ⟨_, hdown⟩ := hholds.waiting hfirst hnamed
      rw [hup] at hdown
      cases hdown
    | some r => exact ⟨r.1, r.2, rfl, hholds.shaped hfirst hnamed⟩

/-! ### A run in which the initial shaping is lost -/

/-- Two nodes with an interface each, and a model that shapes nothing but the first time. -/
def rehearsal (script : Script) : Engine Script Stationary where
  setting := ⟨.unshaped { Shaping.none with bandwidthKbit := some 2000 }, Pairing.equal,
    Script.backend, .local⟩
  nodes := SortedMap.ofList [(⟨1⟩, ⟨⟨1⟩, .emulation, [⟨.mesh, 0⟩]⟩),
    (⟨2⟩, ⟨⟨2⟩, .emulation, [⟨.mesh, 0⟩]⟩)]
  movement := none
  tracker := .start
  store := .empty
  step := 0
  hooks := []
  world := script

/-- The two nodes come near, and then a little less near. -/
def approach : List Operation :=
  [.apply (SortedMap.ofList [(⟨⟨1⟩, ⟨2⟩⟩, ⟨5.0, by decide⟩)]),
    .apply (SortedMap.ofList [(⟨⟨1⟩, ⟨2⟩⟩, ⟨6.0, by decide⟩)])]

/-- Once the backend fails to bring a link up. -/
def stumble : Script := [⟨.raise, none, none, 0, some 1, some (.timeout 5), .yes⟩]

/-- When nothing fails the link first comes up with the initial shaping. -/
theorem rehearsal_first_raise : ∃ site q,
    firstRaise? ⟨0⟩ ((rehearsal []).reset.history approach) = some (site, q) ∧
      q.Covers (rehearsal []).setting.initial := by
  have hsome : (firstRaise? ⟨0⟩ ((rehearsal []).reset.history approach)).isSome = true := by
    decide +kernel
  have hsmooth : falters ⟨0⟩ ((rehearsal []).reset.history approach) = false := by decide +kernel
  obtain ⟨⟨site, q⟩, hq⟩ := Option.isSome_iff_exists.mp hsome
  obtain ⟨hraised, _⟩ := firstRaise_shaping (rehearsal []) approach ⟨0⟩
  exact ⟨site, q, hq, (hraised site q hq).1 hsmooth⟩

/-- When the first attempt fails the link comes up without the initial shaping, and stays so. -/
theorem initial_shaping_lost :
    (LinkModel.build { Shaping.none with bandwidthKbit := some 2000 } .unshaped =
        .ok (rehearsal stumble).setting.model) ∧
      (∃ r, firstRaise? ⟨0⟩ ((rehearsal stumble).history approach) = some r ∧
        ¬ r.2.Covers (rehearsal stumble).setting.initial) ∧
      ∃ c ∈ ((rehearsal stumble).run approach).store.active.connections,
        ¬ c.shaping.Covers (rehearsal stumble).setting.initial := by
  have hraise : ((firstRaise? ⟨0⟩ ((rehearsal stumble).history approach)).any fun r =>
      Decidable.decide (¬ r.2.Covers (rehearsal stumble).setting.initial)) = true := by
    decide +kernel
  have hup : ∃ c ∈ ((rehearsal stumble).run approach).store.active.connections,
      ¬ c.shaping.Covers (rehearsal stumble).setting.initial := by
    decide +kernel
  obtain ⟨r, hr, hlost⟩ := (Option.any_eq_true _ _).mp hraise
  have hlost' := of_decide_eq_true hlost
  exact ⟨rfl, ⟨r, hr, hlost'⟩, hup⟩

end ProximityNet
