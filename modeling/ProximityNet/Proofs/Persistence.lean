import ProximityNet.Proofs.Reachable

/-!
# Connections stay

A connection is never taken out of the store, put under other keys or replaced by another one.  An
operation may bring it up, take it down or shape it, and does so only to the connections of the pairs
that the step looks at, or to links to the management node when these are set up.

* `Connection.Continues` — what a connection may become;
* `Setting.Files`, `Move.files` — a move adds one connection under free keys, or changes one;
* `Move.persists`, `Advances.persists` — what that means for a connection that is stored;
* `ConnectionStore.All`, `Move.all` — a property of all stored connections;
* `Engine.Touches` — which connections an operation may change;
* `connections_persist`, `connections_persist_run` — one operation, and any number of them.
-/

namespace ProximityNet

open Relation (ReflTransGen)

variable {σ μ : Type}

namespace Connection

/-- The same connection, which may have come up, gone down or been shaped. -/
def Continues (c c' : Connection) : Prop :=
  c' = { c with connected := c'.connected, shaping := c'.shaping, distance := c'.distance }

variable {c c' c'' : Connection}

@[simp] theorem Continues.refl (c : Connection) : c.Continues c := rfl

theorem Continues.trans (h : c.Continues c') (h' : c'.Continues c'') : c.Continues c'' := by
  rw [Continues] at h h' ⊢
  rw [h', h]

@[simp] theorem continues_raised (c : Connection) (distance : Distance) (shaping : Shaping) :
    c.Continues (c.raised distance shaping) := rfl

@[simp] theorem continues_lowered (c : Connection) (distance : Distance) :
    c.Continues (c.lowered distance) := rfl

@[simp] theorem continues_adjusted (c : Connection) (distance : Distance) (shaping : Shaping) :
    c.Continues (c.adjusted distance shaping) := rfl

theorem Continues.id (h : c.Continues c') : c'.id = c.id := by rw [h]

theorem Continues.pair (h : c.Continues c') : c'.pair = c.pair := by rw [h]

theorem Continues.interfaces (h : c.Continues c') : c'.interfaces = c.interfaces := by rw [h]

theorem Continues.kind (h : c.Continues c') : c'.kind = c.kind := by rw [h]

theorem Continues.stepAdded (h : c.Continues c') : c'.stepAdded = c.stepAdded := by rw [h]

end Connection

/-! ### What a move does to the store -/

/-- Whether a task may change a connection of its pair. Linking to the management node is about
management interfaces only. -/
def Task.Touches (c : Connection) : Task → Prop
  | .follow _ => True
  | .manage _ => c.interfaces.low.kind.isManagement = true

/-- What a move of a task may do to the store. -/
inductive Setting.Files (s : Setting σ) (t : Task) (st : ConnectionStore) : ConnectionStore → Prop
  | kept : Files s t st st
  /-- An id is used up. -/
  | counted : Files s t st st.freshId.2
  /-- A connection is added. -/
  | added {l : Launch} {switch : Option String} {c : Connection} (launch : s.Launches t l)
      (free : st.find? t.visit.pair l.interfaces = none)
      (continues : ((t.visit.fresh l.kind l.interfaces st).accepted l.held switch).Continues c) :
      Files s t st (st.freshId.2.file c)
  /-- A connection is changed where it stands. -/
  | changed {c c' : Connection} (touches : t.Touches c)
      (found : st.find? t.visit.pair c.interfaces = some c) (continues : c.Continues c') :
      Files s t st (st.file c')

theorem managementInterface_isManagement {x : Node} {i : Interface}
    (h : x.managementInterface? = some i) : i.kind.isManagement = true :=
  List.find?_some (p := fun i : Interface => i.kind.isManagement) h

theorem oriented_isManagement {pair : NodePair} {x : NodeId} {ix iy : Interface}
    (hx : ix.kind.isManagement = true) (hy : iy.kind.isManagement = true) :
    (InterfacePair.oriented pair x ix iy).low.kind.isManagement = true := by
  rw [InterfacePair.oriented]
  split
  · exact hx
  · exact hy

namespace Setting

variable {s : Setting σ} {t : Task} {p p' : Progress σ} {st st' : ConnectionStore}
  {pair : NodePair} {i : InterfacePair} {c : Connection}

theorem Revives.touches {site : LinkSite} {shaping : Shaping} (h : s.Revives t c site shaping) :
    t.Touches c := by
  cases h with
  | follow => exact trivial
  | manage hx hy hi =>
    rw [Task.Touches, hi]
    exact oriented_isManagement (managementInterface_isManagement hx)
      (managementInterface_isManagement hy)

theorem Move.files (h : s.Move t p p') : s.Files t p.store p'.store := by
  cases h with
  | tunnel | raiseFailed | lowerFailed | adjustFailed | hubAdjusted => exact .kept
  | startFailed | refused => exact .counted
  | createFailed launch free | launchFailed launch free => exact .added launch free (.refl _)
  | launched launch free => exact .added launch free (Connection.continues_raised _ _ _)
  | raised revive found => exact .changed revive.touches found (Connection.continues_raised _ _ _)
  | @lowered v _ _ _ kind far found =>
    exact .changed (t := .follow v) trivial found (Connection.continues_lowered _ _)
  | @adjusted v _ _ _ _ kind adjust found =>
    exact .changed (t := .follow v) trivial found (Connection.continues_adjusted _ _ _)

/-! ### A stored connection -/

/-- A stored connection stays under its keys, and is what it was unless its task changes it. -/
theorem Files.persists (h : s.Files t st st') (hs : st.Numbered)
    (hc : st.find? pair i = some c) :
    ∃ c', st'.find? pair i = some c' ∧ c.Continues c' ∧
      (c' = c ∨ (t.visit.pair = c.pair ∧ t.Touches c)) := by
  have hw := hs.toWellFormed
  cases h with
  | kept => exact ⟨c, hc, .refl c, Or.inl rfl⟩
  | counted => exact ⟨c, hc, .refl c, Or.inl rfl⟩
  | @added l _ d launch free continues =>
    -- the keys of what is added were free
    have hne : ¬ (d.pair = pair ∧ d.interfaces = i) := by
      intro heq
      rw [continues.pair, continues.interfaces] at heq
      obtain ⟨rfl, rfl⟩ := heq
      have htaken : st.find? t.visit.pair l.interfaces = some c := hc
      rw [free] at htaken
      cases htaken
    refine ⟨c, ?_, .refl c, Or.inl rfl⟩
    rw [hw.freshId.find?_file, if_neg hne]
    exact hc
  | @changed d d' touches found continues =>
    by_cases heq : d'.pair = pair ∧ d'.interfaces = i
    · rw [continues.pair, continues.interfaces] at heq
      obtain ⟨hpair, -⟩ := hs.keys_eq found
      rw [hpair] at heq
      obtain ⟨rfl, rfl⟩ := heq
      obtain rfl : d = c := Option.some.inj (found.symm.trans hc)
      refine ⟨d', ?_, continues, Or.inr ⟨hpair.symm, touches⟩⟩
      exact hw.find?_file_self (continues.pair.trans hpair) continues.interfaces
    · exact ⟨c, by rw [hw.find?_file, if_neg heq, hc], .refl c, Or.inl rfl⟩

end Setting

/-! ### All stored connections -/

/-- Every stored connection has a property. -/
def ConnectionStore.All (P : Connection → Prop) (st : ConnectionStore) : Prop :=
  ∀ pair i c, st.find? pair i = some c → P c

namespace Setting

variable {s : Setting σ} {t : Task} {p p' : Progress σ} {st st' : ConnectionStore}
  {P : Connection → Prop}

/-- A property of all stored connections is kept if new links have it and it does not depend on
whether they are up, how they are shaped and how far their nodes are apart. -/
theorem Files.all (h : s.Files t st st') (hs : st.Numbered)
    (launch : ∀ l switch, s.Launches t l →
      P ((t.visit.fresh l.kind l.interfaces st).accepted l.held switch))
    (continues : ∀ c c', c.Continues c' → P c → P c') (hP : st.All P) : st'.All P := by
  intro pair i c hc
  have hw := hs.toWellFormed
  cases h with
  | kept => exact hP pair i c hc
  | counted => exact hP pair i c hc
  | added hlaunch free hcontinues =>
    rw [hw.freshId.find?_file] at hc
    split at hc
    · rw [← Option.some.inj hc]
      exact continues _ _ hcontinues (launch _ _ hlaunch)
    · exact hP pair i c hc
  | changed touches found hcontinues =>
    rw [hw.find?_file] at hc
    split at hc
    · rw [← Option.some.inj hc]
      exact continues _ _ hcontinues (hP _ _ _ found)
    · exact hP pair i c hc

end Setting

/-- A connection at a management interface is a link to the management node. -/
def Connection.Marked (c : Connection) : Prop :=
  c.interfaces.low.kind.isManagement = true → c.kind = .management

theorem Connection.Continues.marked {c c' : Connection} (h : c.Continues c') (hc : c.Marked) :
    c'.Marked := by
  rw [Connection.Marked, h.interfaces, h.kind]
  exact hc

/-- Links that follow distances are not at management interfaces. -/
theorem Setting.Launches.marked {s : Setting σ} {t : Task} {l : Launch} (h : s.Launches t l)
    (switch : Option String) (st : ConnectionStore) :
    ((t.visit.fresh l.kind l.interfaces st).accepted l.held switch).Marked := by
  cases h with
  | @follow v ix iy near candidate =>
    intro hmanagement
    have hplain : (!(ix.kind.isManagement || iy.kind.isManagement)) = true :=
      (List.mem_filter.mp candidate).2
    have hix : ix.kind.isManagement = true := hmanagement
    rw [hix] at hplain
    cases hplain
  | manage hx hy =>
    intro _
    rfl

/-- A stored connection stays under its keys, and is what it was unless due work changes it. -/
theorem Setting.Advances.persists {s : Setting σ} {due : Task → Prop} {st st' : ConnectionStore}
    {pair : NodePair} {i : InterfacePair} {c : Connection} (h : s.Advances due st st')
    (hs : st.Numbered) (hm : st.All Connection.Marked) (hc : st.find? pair i = some c) :
    ∃ c', st'.find? pair i = some c' ∧ c.Continues c' ∧
      (c' = c ∨ ∃ t d, due t ∧ t.visit.pair = c.pair ∧ t.Touches d ∧ c.Continues d ∧ d.Marked) := by
  refine (h.keeps (I := fun st => st.All Connection.Marked ∧ ∃ c', st.find? pair i = some c' ∧
    c.Continues c' ∧ (c' = c ∨ ∃ t d, due t ∧ t.visit.pair = c.pair ∧ t.Touches d ∧
      c.Continues d ∧ d.Marked)) hs ?_ ⟨hm, c, hc, .refl c, Or.inl rfl⟩).2.2
  intro t p p' ht hn hmove hI
  obtain ⟨hall, d, hd, hcd, hor⟩ := hI
  refine ⟨hmove.files.all hn (fun l switch hl => hl.marked switch _)
    (fun _ _ hcc' hmarked => hcc'.marked hmarked) hall, ?_⟩
  obtain ⟨d', hd', hdd', htouch⟩ := hmove.files.persists hn hd
  refine ⟨d', hd', hcd.trans hdd', ?_⟩
  rcases htouch with rfl | ⟨hpair, htouches⟩
  · exact hor
  · exact Or.inr ⟨t, d, ht, hpair.trans hcd.pair, htouches, hcd, hall _ _ _ hd⟩

/-! ### Operations -/

namespace Engine

variable [Movement μ]

/-- Whether an operation may change a stored connection: its pair is among those that the step looks
at, or it is a link to the management node and these are set up. -/
def Touches (e : Engine σ μ) (c : Connection) (op : Operation) : Prop :=
  (∃ distances, e.distancesOf? op = some distances ∧ (e.changed distances).contains c.pair = true) ∨
    (op = .connectManagement ∧ c.kind = .management)

/-- Links at management interfaces are links to the management node. -/
theorem ReachableBy.marked {allowed : Engine σ μ → Operation → Prop} {e : Engine σ μ}
    (h : e.ReachableBy allowed) : e.store.All Connection.Marked := by
  have advances : ∀ {e : Engine σ μ} {due st}, e.store.Numbered → e.setting.Advances due e.store st →
      e.store.All Connection.Marked → st.All Connection.Marked := by
    intro e due st hs hadvances hall
    refine (hadvances.keeps hs (fun t p p' _ hn hmove => ?_) hall).2
    exact hmove.files.all hn (fun l switch hl => hl.marked switch _)
      (fun _ _ hcc' hmarked => hcc'.marked hmarked)
  refine h.invariant (I := fun e => e.store.All Connection.Marked) ?_ ?_ ?_ ?_
  · intro _ _ _ pair i c hc
    cases hc
  · intro _ _ hsame hall
    rw [hsame.store]
    exact hall
  · intro _ _ _ hreach _ hperforms hall
    cases hperforms with
    | idle same =>
      rw [same.store]
      exact hall
    | added => exact hall
    | linked hstore => exact advances hreach.numbered hstore hall
    | stepped _ hstepped => exact advances hreach.numbered hstepped.store hall
  · intro _ _ pair i c hc
    cases hc

theorem Performs.persists {e e' : Engine σ μ} {op : Operation} (h : e.Performs op e')
    (hs : e.store.Numbered) (hm : e.store.All Connection.Marked) {pair : NodePair}
    {i : InterfacePair} {c : Connection} (hc : e.store.find? pair i = some c) :
    ∃ c', e'.store.find? pair i = some c' ∧ c.Continues c' ∧ (c' = c ∨ e.Touches c op) := by
  cases h with
  | idle same =>
    rw [same.store]
    exact ⟨c, hc, .refl c, Or.inl rfl⟩
  | added => exact ⟨c, hc, .refl c, Or.inl rfl⟩
  | linked hstore =>
    obtain ⟨c', hc', hcc', hor⟩ := hstore.persists hs hm hc
    refine ⟨c', hc', hcc', hor.imp_right ?_⟩
    rintro ⟨t, d, ht, _, htouches, hcd, hmarked⟩
    cases t with
    | follow v => exact ht.elim
    | manage v => exact Or.inr ⟨rfl, hcd.kind.symm.trans (hmarked htouches)⟩
  | stepped takes hstepped =>
    obtain ⟨c', hc', hcc', hor⟩ := hstepped.store.persists hs hm hc
    refine ⟨c', hc', hcc', hor.imp_right ?_⟩
    rintro ⟨t, d, ht, hpair, _⟩
    cases t with
    | manage v => exact ht.elim
    | follow v =>
      refine Or.inl ⟨_, takes, SortedMap.contains_iff.mpr ⟨v.distance, ?_⟩⟩
      rw [← hpair]
      exact ht.changed

/-- A connection stays where it is, as what it is, through every run. -/
theorem connections_persist_run {e : Engine σ μ} (he : e.Reachable) (ops : List Operation)
    {pair : NodePair} {i : InterfacePair} {c : Connection} (hc : e.store.find? pair i = some c) :
    ∃ c', (e.run ops).store.find? pair i = some c' ∧ c.Continues c' := by
  induction ops generalizing e c with
  | nil => exact ⟨c, hc, .refl c⟩
  | cons op rest ih =>
    obtain ⟨d, hd, hcd, _⟩ := (perform_performs e he.numbered op).persists he.numbered he.marked hc
    obtain ⟨c', hc', hdc'⟩ := ih (he.perform trivial) hd
    exact ⟨c', hc', hcd.trans hdc'⟩

/-- Through an operation a connection stays under its keys with its id, kind, step and switch, and
if the operation does not touch it nothing about it changes. -/
theorem connections_persist {e : Engine σ μ} (he : e.Reachable) (op : Operation) {pair : NodePair}
    {i : InterfacePair} {c : Connection} (hc : e.store.find? pair i = some c) :
    ∃ c', (e.perform op).store.find? pair i = some c' ∧ c.Continues c' ∧
      (c' = c ∨ e.Touches c op) :=
  (perform_performs e he.numbered op).persists he.numbered he.marked hc

/-- Two nodes come near and part again: their link has been up, is down, and is the same link. -/
theorem parted_link_persists :
    ∃ c c', (twoNodeEngine.run [.apply (apart .zero)]).store.find? ⟨⟨1⟩, ⟨2⟩⟩
        ⟨⟨.mesh, 0⟩, ⟨.mesh, 0⟩⟩ = some c ∧ c.connected = true ∧
      ((twoNodeEngine.run [.apply (apart .zero)]).perform (.apply .empty)).store.find? ⟨⟨1⟩, ⟨2⟩⟩
        ⟨⟨.mesh, 0⟩, ⟨.mesh, 0⟩⟩ = some c' ∧ c'.connected = false ∧ c.Continues c' := by
  have hup : ((twoNodeEngine.run [.apply (apart .zero)]).store.find? ⟨⟨1⟩, ⟨2⟩⟩
      ⟨⟨.mesh, 0⟩, ⟨.mesh, 0⟩⟩).map (·.connected) = some true := by decide +kernel
  have hdown : (((twoNodeEngine.run [.apply (apart .zero)]).perform (.apply .empty)).store.find?
      ⟨⟨1⟩, ⟨2⟩⟩ ⟨⟨.mesh, 0⟩, ⟨.mesh, 0⟩⟩).map (·.connected) = some false := by decide +kernel
  obtain ⟨c, hc, hconnected⟩ := Option.map_eq_some_iff.mp hup
  have he : (twoNodeEngine.run [.apply (apart .zero)]).Reachable :=
    reachable_twoNodeEngine.run _ fun _ _ _ => trivial
  obtain ⟨c', hc', hcontinues, _⟩ := connections_persist he (.apply .empty) hc
  rw [hc'] at hdown
  exact ⟨c, c', hc, hconnected, hc', Option.some.inj hdown, hcontinues⟩

end Engine

end ProximityNet
