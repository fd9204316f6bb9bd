import ProximityNet.Backend.Script
import ProximityNet.Proofs.Chains

/-!
# Two runs side by side

Two engines work on the same pair of nodes, each with a backend and tunnels of its own.  If these
give the same answers about the pair, whatever their state, the links of the pair become the same in
both, but for their ids: an id tells how many links of other pairs have been set up before.

* `Connection.anonymous`, `ConnectionStore.AlikeAt` — links of a pair but for their ids;
* `Replies`, `Setting.Answers` — answers about a pair that depend on the call and the interfaces only;
* `Work.Alike` — two pieces of work keep the links of a pair alike and succeed or fail together, with
  a rule for everything work is made of;
* `reconcile_alike` — so does reconciling the pair.
-/

namespace ProximityNet

variable {σ τ α β γ δ : Type}

/-! ### Links but for their ids -/

/-- A connection but for its id. -/
def Connection.anonymous (c : Connection) : Connection := { c with id := ⟨0⟩ }

namespace Connection

variable {c c' : Connection}

theorem pair_of_anonymous (h : c.anonymous = c'.anonymous) : c.pair = c'.pair := by
  have hpair : c.anonymous.pair = c'.anonymous.pair := by rw [h]
  exact hpair

theorem interfaces_of_anonymous (h : c.anonymous = c'.anonymous) :
    c.interfaces = c'.interfaces := by
  have hi : c.anonymous.interfaces = c'.anonymous.interfaces := by rw [h]
  exact hi

theorem connected_of_anonymous (h : c.anonymous = c'.anonymous) : c.connected = c'.connected := by
  have hconnected : c.anonymous.connected = c'.anonymous.connected := by rw [h]
  exact hconnected

theorem kind_of_anonymous (h : c.anonymous = c'.anonymous) : c.kind = c'.kind := by
  have hkind : c.anonymous.kind = c'.anonymous.kind := by rw [h]
  exact hkind

end Connection

/-- Two stores have the same links of a pair, but for their ids. -/
def ConnectionStore.AlikeAt (pair : NodePair) (st st' : ConnectionStore) : Prop :=
  ∀ i, (st.find? pair i).map Connection.anonymous = (st'.find? pair i).map Connection.anonymous

namespace ConnectionStore

variable {pair : NodePair} {st st' : ConnectionStore} {c c' : Connection} {i : InterfacePair}

theorem AlikeAt.refl (pair : NodePair) (st : ConnectionStore) : st.AlikeAt pair st := fun _ => rfl

theorem AlikeAt.symm (h : st.AlikeAt pair st') : st'.AlikeAt pair st := fun i => (h i).symm

/-- A link of the pair has its like in the other store. -/
theorem AlikeAt.find? (h : st.AlikeAt pair st') (hc : st.find? pair i = some c) :
    ∃ c', st'.find? pair i = some c' ∧ c.anonymous = c'.anonymous := by
  have hi := h i
  rw [hc, Option.map_some] at hi
  obtain ⟨c', hc', heq⟩ := Option.map_eq_some_iff.mp hi.symm
  exact ⟨c', hc', heq.symm⟩

theorem AlikeAt.find?_eq_none (h : st.AlikeAt pair st') (hc : st.find? pair i = none) :
    st'.find? pair i = none := by
  have hi := h i
  rw [hc, Option.map_none] at hi
  exact Option.map_eq_none_iff.mp hi.symm

theorem AlikeAt.isSome (h : st.AlikeAt pair st') (i : InterfacePair) :
    (st.find? pair i).isSome = (st'.find? pair i).isSome := by
  have hi := congrArg Option.isSome (h i)
  rw [Option.isSome_map, Option.isSome_map] at hi
  exact hi

theorem AlikeAt.file (h : st.AlikeAt pair st') (hw : st.WellFormed) (hw' : st'.WellFormed)
    (hc : c.anonymous = c'.anonymous) : (st.file c).AlikeAt pair (st'.file c') := by
  intro i
  rw [hw.find?_file, hw'.find?_file, ← Connection.pair_of_anonymous hc,
    ← Connection.interfaces_of_anonymous hc]
  split
  · rw [Option.map_some, Option.map_some, hc]
  · exact h i

/-- Other pairs may change. -/
theorem AlikeAt.of_find? {st₁ st₁' : ConnectionStore} (h : st.AlikeAt pair st')
    (hst : ∀ i, st₁.find? pair i = st.find? pair i)
    (hst' : ∀ i, st₁'.find? pair i = st'.find? pair i) : st₁.AlikeAt pair st₁' := by
  intro i
  rw [hst, hst']
  exact h i

theorem AlikeAt.containsPair (h : st.AlikeAt pair st') (hw : st.WellFormed)
    (hw' : st'.WellFormed) : st.containsPair pair = st'.containsPair pair := by
  have half : ∀ {st st' : ConnectionStore}, st.AlikeAt pair st' → st.WellFormed →
      st'.WellFormed → st.containsPair pair = true → st'.containsPair pair = true := by
    intro st st' h hw hw' hcontains
    obtain ⟨i, c, hc⟩ := hw.containsPair_iff.mp hcontains
    obtain ⟨c', hc', _⟩ := h.find? hc
    exact hw'.containsPair_iff.mpr ⟨i, c', hc'⟩
  rw [Bool.eq_iff_iff]
  exact ⟨half h hw hw', half h.symm hw' hw⟩

/-- The same links are up, and the same are down. -/
theorem AlikeAt.exists_connected (h : st.AlikeAt pair st') {b : Bool}
    (hc : ∃ c, st.find? pair i = some c ∧ c.connected = b) :
    ∃ c, st'.find? pair i = some c ∧ c.connected = b := by
  obtain ⟨c, hfound, hb⟩ := hc
  obtain ⟨c', hfound', heq⟩ := h.find? hfound
  exact ⟨c', hfound', (Connection.connected_of_anonymous heq).symm.trans hb⟩

theorem AlikeAt.activeInterfaces (h : st.AlikeAt pair st') (hw : st.WellFormed)
    (hw' : st'.WellFormed) : st.activeInterfaces pair = st'.activeInterfaces pair := by
  refine SortedMap.keys_eq_of_mem fun i => ?_
  show i ∈ st.activeInterfaces pair ↔ i ∈ st'.activeInterfaces pair
  rw [hw.mem_activeInterfaces_iff, hw'.mem_activeInterfaces_iff]
  exact ⟨h.exists_connected, h.symm.exists_connected⟩

theorem AlikeAt.inactiveInterfaces (h : st.AlikeAt pair st') (hw : st.WellFormed)
    (hw' : st'.WellFormed) : st.inactiveInterfaces pair = st'.inactiveInterfaces pair := by
  refine SortedMap.keys_eq_of_mem fun i => ?_
  show i ∈ st.inactiveInterfaces pair ↔ i ∈ st'.inactiveInterfaces pair
  rw [hw.mem_inactiveInterfaces_iff, hw'.mem_inactiveInterfaces_iff]
  exact ⟨h.exists_connected, h.symm.exists_connected⟩

/-- Looking for what is up, or for what is down, tells links apart no better. -/
theorem map_filter_connected {o o' : Option Connection}
    (h : o.map Connection.anonymous = o'.map Connection.anonymous) (b : Bool) :
    (o.filter fun c => c.connected = b).map Connection.anonymous =
      (o'.filter fun c => c.connected = b).map Connection.anonymous := by
  cases o with
  | none => rw [Option.map_eq_none_iff.mp h.symm]
  | some c =>
    obtain ⟨c', rfl, heq⟩ := Option.map_eq_some_iff.mp h.symm
    have hconnected := Connection.connected_of_anonymous heq
    by_cases hb : c.connected = b
    · simp [Option.filter, hconnected, hb, heq]
    · simp [Option.filter, hconnected, hb]

theorem AlikeAt.active (h : st.AlikeAt pair st') (hw : st.WellFormed) (hw' : st'.WellFormed)
    (i : InterfacePair) : (st.active.find? pair i).map Connection.anonymous =
      (st'.active.find? pair i).map Connection.anonymous := by
  rw [hw.active_find?_eq, hw'.active_find?_eq]
  exact map_filter_connected (h i) true

theorem AlikeAt.inactive (h : st.AlikeAt pair st') (hw : st.WellFormed) (hw' : st'.WellFormed)
    (i : InterfacePair) : (st.inactive.find? pair i).map Connection.anonymous =
      (st'.inactive.find? pair i).map Connection.anonymous := by
  rw [hw.inactive_find?_eq, hw'.inactive_find?_eq]
  exact map_filter_connected (h i) false

end ConnectionStore

/-! ### Answers -/

/-- What is answered about one pair, by the call and the interfaces. -/
structure Replies where
  start : InterfacePair → Except BackendError StartAnswer
  perform : CallKind → InterfacePair → Except BackendError Unit
  isRemote : Bool
  ensure : Except TunnelError Unit

/-- The site is where the connection runs. -/
structure LinkSite.Fits (site : LinkSite) (c : Connection) : Prop where
  x : site.x.id = c.pair.low
  y : site.y.id = c.pair.high
  low : site.interfaceX = c.interfaces.low
  high : site.interfaceY = c.interfaces.high

/-- The link that a request is about. -/
def Request.link? : Request → Option (CallKind × LinkSite × Connection)
  | .finishStep .. => none
  | .create site c => some (.create, site, c)
  | .raise site c _ => some (.raise, site, c)
  | .lower site c _ => some (.lower, site, c)
  | .adjust site c _ _ => some (.adjust, site, c)

/-- All that is answered about a pair depends on the call and the interfaces only. -/
structure Setting.Answers (s : Setting σ) (pair : NodePair) (r : Replies) : Prop where
  start : ∀ {site c} w, c.pair = pair → site.Fits c →
    (s.backend.start site c w).1 = r.start c.interfaces
  perform : ∀ {request kind site c} w, Request.link? request = some (kind, site, c) →
    c.pair = pair → site.Fits c → (s.backend.perform request w).1 = r.perform kind c.interfaces
  isRemote : ∀ w, s.policy.isRemote w pair.low pair.high = r.isRemote
  ensure : ∀ w, (s.policy.ensure pair w).1 = r.ensure

/-! ### Work on two sides -/

/-- Two ends of which both are errors, or neither is. -/
inductive SameEnd (Q : α → β → Prop) : Except ReconcileError α → Except ReconcileError β → Prop
  | ok {a : α} {b : β} (h : Q a b) : SameEnd Q (.ok a) (.ok b)
  | error {e e' : ReconcileError} : SameEnd Q (.error e) (.error e')

/-- Two steps under way that have the same links of a pair. -/
structure Beside (pair : NodePair) (p : Progress σ) (p' : Progress τ) : Prop where
  left : p.store.WellFormed
  right : p'.store.WellFormed
  alike : p.store.AlikeAt pair p'.store

namespace Work

/-- Two pieces of work keep the links of a pair alike, and end alike. -/
structure Alike (pair : NodePair) (Q : α → β → Prop) (w : Work σ α) (w' : Work τ β) : Prop where
  run : ∀ {p p'}, Beside pair p p' →
    Beside pair (w p).2 (w' p').2 ∧ SameEnd Q (w p).1 (w' p').1

variable {pair : NodePair} {Q : α → β → Prop} {w : Work σ α} {w' : Work τ β}

theorem alike_pure {a : α} {b : β} (h : Q a b) :
    Alike pair Q (pure a : Work σ α) (pure b : Work τ β) := ⟨fun hp => ⟨hp, .ok h⟩⟩

theorem alike_fail (e e' : ReconcileError) :
    Alike pair Q (fail e : Work σ α) (fail e' : Work τ β) := ⟨fun hp => ⟨hp, .error⟩⟩

theorem Alike.andThen {R : γ → δ → Prop} {f : α → Work σ γ} {f' : β → Work τ δ}
    (h : Alike pair Q w w') (hf : ∀ a b, Q a b → Alike pair R (f a) (f' b)) :
    Alike pair R (w >>= f) (w' >>= f') := by
  refine ⟨fun {p p'} hp => ?_⟩
  obtain ⟨hq, hend⟩ := h.run hp
  rcases hr : w p with ⟨e | a, q⟩
  · rcases hr' : w' p' with ⟨e' | b, q'⟩
    · rw [bind_of_error hr, bind_of_error hr']
      rw [hr, hr'] at hq
      exact ⟨hq, .error⟩
    · rw [hr, hr'] at hend
      cases hend
  · rcases hr' : w' p' with ⟨e' | b, q'⟩
    · rw [hr, hr'] at hend
      cases hend
    · rw [bind_of_ok hr, bind_of_ok hr']
      rw [hr, hr'] at hq hend
      cases hend with
      | ok hQ => exact (hf a b hQ).run hq

theorem Alike.ite {c c' : Prop} [Decidable c] [Decidable c'] {v : Work σ α} {v' : Work τ β}
    (hc : c ↔ c') (h : Alike pair Q w w') (hv : Alike pair Q v v') :
    Alike pair Q (if c then w else v) (if c' then w' else v') := by
  by_cases hyes : c
  · rw [if_pos hyes, if_pos (hc.mp hyes)]
    exact h
  · rw [if_neg hyes, if_neg (fun hyes' => hyes (hc.mpr hyes'))]
    exact hv

theorem Alike.forM {g : γ → Work σ Unit} {g' : γ → Work τ Unit}
    (h : ∀ a, Alike pair (fun _ _ => True) (g a) (g' a)) (l : List γ) :
    Alike pair (fun _ _ => True) (l.forM g) (l.forM g') := by
  induction l with
  | nil => exact alike_pure trivial
  | cons a rest ih => exact (h a).andThen fun _ _ _ => ih

/-! ### The store and the report -/

/-- Work that goes on with what the store looks like. -/
theorem alike_connections {R : γ → δ → Prop} {g : ConnectionStore → Work σ γ}
    {g' : ConnectionStore → Work τ δ}
    (h : ∀ st st', st.WellFormed → st'.WellFormed → st.AlikeAt pair st' →
      Alike pair R (g st) (g' st')) :
    Alike pair R (connections >>= g) (connections >>= g') :=
  ⟨fun hp => (h _ _ hp.left hp.right hp.alike).run hp⟩

theorem alike_freshId :
    Alike pair (fun _ _ => True) (freshId : Work σ _) (freshId : Work τ _) :=
  ⟨fun hp => ⟨⟨hp.left.freshId, hp.right.freshId, hp.alike⟩, .ok trivial⟩⟩

theorem alike_count (f : StepReport → StepReport) :
    Alike pair (fun _ _ => True) (count f : Work σ _) (count f : Work τ _) :=
  ⟨fun hp => ⟨⟨hp.left, hp.right, hp.alike⟩, .ok trivial⟩⟩

theorem alike_put {c c' : Connection} (hc : c.anonymous = c'.anonymous) :
    Alike pair (fun _ _ => True) (put c : Work σ _) (put c' : Work τ _) := by
  refine ⟨fun {p p'} hp => ⟨?_, .ok trivial⟩⟩
  have hdown : ({ c with connected := false } : Connection).anonymous =
      ({ c' with connected := false } : Connection).anonymous :=
    congrArg (fun c : Connection => { c with connected := false }) hc
  rw [put, put, ConnectionStore.WellFormed.put_eq, ConnectionStore.WellFormed.put_eq]
  exact ⟨hp.left.file { c with connected := false }, hp.right.file { c' with connected := false },
    hp.alike.file hp.left hp.right hdown⟩

/-- A link of the pair and its like, both under the same keys. -/
structure Likes (pair : NodePair) (i : InterfacePair) (c c' : Connection) : Prop where
  anonymous : c.anonymous = c'.anonymous
  left : c.pair = pair ∧ c.interfaces = i
  right : c'.pair = pair ∧ c'.interfaces = i

theorem alike_stored (i : InterfacePair) :
    Alike pair (Likes pair i) (stored pair i : Work σ _) (stored pair i : Work τ _) := by
  refine ⟨fun {p p'} hp => ?_⟩
  rw [stored, stored]
  cases hc : p.store.find? pair i with
  | none =>
    rw [hp.alike.find?_eq_none hc]
    exact ⟨hp, .error⟩
  | some c =>
    obtain ⟨c', hc', heq⟩ := hp.alike.find? hc
    rw [hc']
    exact ⟨hp, .ok ⟨heq, hp.left.keys_eq hc, hp.right.keys_eq hc'⟩⟩

theorem alike_setActive (i : InterfacePair) (active : Bool) :
    Alike pair (fun _ _ => True) (setActive pair i active : Work σ _)
      (setActive pair i active : Work τ _) := by
  refine ⟨fun {p p'} hp => ?_⟩
  rw [setActive, setActive]
  cases hc : p.store.find? pair i with
  | none =>
    rw [ConnectionStore.WellFormed.setActive?_eq_none hc,
      ConnectionStore.WellFormed.setActive?_eq_none (hp.alike.find?_eq_none hc)]
    exact ⟨hp, .error⟩
  | some c =>
    obtain ⟨c', hc', heq⟩ := hp.alike.find? hc
    have hflag : ({ c with connected := active } : Connection).anonymous =
        ({ c' with connected := active } : Connection).anonymous :=
      congrArg (fun c : Connection => { c with connected := active }) heq
    rw [hp.left.setActive?_eq hc, hp.right.setActive?_eq hc']
    exact ⟨⟨hp.left.file _, hp.right.file _, hp.alike.file hp.left hp.right hflag⟩, .ok trivial⟩

theorem alike_modify (i : InterfacePair) {f : Connection → Connection}
    (hf : ∀ c, (f c).pair = c.pair ∧ (f c).interfaces = c.interfaces ∧ (f c).connected = c.connected)
    (hid : ∀ c, (f c).anonymous = f c.anonymous) :
    Alike pair (fun _ _ => True) (modify pair i f : Work σ _) (modify pair i f : Work τ _) := by
  refine ⟨fun {p p'} hp => ⟨?_, .ok trivial⟩⟩
  rw [modify, modify]
  dsimp only
  cases hc : p.store.find? pair i with
  | none =>
    rw [ConnectionStore.modify_eq_self hc,
      ConnectionStore.modify_eq_self (hp.alike.find?_eq_none hc)]
    exact hp
  | some c =>
    obtain ⟨c', hc', heq⟩ := hp.alike.find? hc
    have hchanged : (f c).anonymous = (f c').anonymous := by rw [hid, hid, heq]
    obtain ⟨h1, h2, h3⟩ := hf c
    obtain ⟨h1', h2', h3'⟩ := hf c'
    rw [hp.left.modify_eq hc h1 h2 h3, hp.right.modify_eq hc' h1' h2' h3']
    exact ⟨hp.left.file _, hp.right.file _, hp.alike.file hp.left hp.right hchanged⟩

/-! ### Calls -/

theorem alike_announce (b : Backend σ) (b' : Backend τ) (a a' : Announcement) :
    Alike pair (fun _ _ => True) (announce b a) (announce b' a') :=
  ⟨fun hp => ⟨⟨hp.left, hp.right, hp.alike⟩, .ok trivial⟩⟩

section Calls

variable {s : Setting σ} {s' : Setting τ} {r : Replies} (h : s.Answers pair r)
  (h' : s'.Answers pair r) {site site' : LinkSite} {c c' : Connection}
include h h'

theorem alike_ask (hc : c.pair = pair) (hsite : site.Fits c) (hc' : c'.pair = pair)
    (hsite' : site'.Fits c') (hi : c.interfaces = c'.interfaces) :
    Alike pair (· = ·) (ask s.backend site c) (ask s'.backend site' c') := by
  refine ⟨fun {p p'} hp => ?_⟩
  have hanswer := h.start p.world hc hsite
  have hanswer' := h'.start p'.world hc' hsite'
  rw [← hi] at hanswer'
  rw [ask, ask]
  generalize s.backend.start site c p.world = e at hanswer
  generalize s'.backend.start site' c' p'.world = e' at hanswer'
  obtain ⟨answer, world⟩ := e
  obtain ⟨answer', world'⟩ := e'
  obtain rfl : answer = r.start c.interfaces := hanswer
  obtain rfl : answer' = r.start c.interfaces := hanswer'
  refine ⟨⟨hp.left, hp.right, hp.alike⟩, ?_⟩
  dsimp only
  cases r.start c.interfaces with
  | ok answer => exact .ok rfl
  | error e => exact .error

theorem alike_perform {q q' : Request} {kind : CallKind} (hq : q.link? = some (kind, site, c))
    (hq' : q'.link? = some (kind, site', c')) (hc : c.pair = pair) (hsite : site.Fits c)
    (hc' : c'.pair = pair) (hsite' : site'.Fits c') (hi : c.interfaces = c'.interfaces) :
    Alike pair (fun _ _ => True) (perform s.backend q) (perform s'.backend q') := by
  refine ⟨fun {p p'} hp => ?_⟩
  have hresult := h.perform p.world hq hc hsite
  have hresult' := h'.perform p'.world hq' hc' hsite'
  rw [← hi] at hresult'
  rw [perform, perform]
  generalize s.backend.perform q p.world = e at hresult
  generalize s'.backend.perform q' p'.world = e' at hresult'
  obtain ⟨result, world⟩ := e
  obtain ⟨result', world'⟩ := e'
  obtain rfl : result = r.perform kind c.interfaces := hresult
  obtain rfl : result' = r.perform kind c.interfaces := hresult'
  refine ⟨⟨hp.left, hp.right, hp.alike⟩, ?_⟩
  dsimp only
  cases r.perform kind c.interfaces with
  | ok u => exact .ok trivial
  | error e => exact .error

end Calls

end Work

/-! ### Links -/

/-- The nodes of a visit are those of its pair. -/
structure Visit.Fits (v : Visit) : Prop where
  x : v.x.id = v.pair.low
  y : v.y.id = v.pair.high

theorem Visit.Fits.site {v : Visit} (hv : v.Fits) {c : Connection} {i : InterfacePair}
    (hc : c.pair = v.pair ∧ c.interfaces = i) (kind : ConnectionKind) :
    (v.site kind i.low i.high).Fits c := by
  obtain ⟨hpair, rfl⟩ := hc
  refine ⟨?_, ?_, rfl, rfl⟩
  · rw [hpair]
    exact hv.x
  · rw [hpair]
    exact hv.y

open Work

section Links

variable {s : Setting σ} {s' : Setting τ} {r : Replies} {v : Visit}
  (h : s.Answers v.pair r) (h' : s'.Answers v.pair r) (hv : v.Fits)
include h h' hv

theorem setUp_alike (kind : ConnectionKind) (i : InterfacePair) (shaping : Shaping) :
    Alike v.pair (· = ·) (setUp s.backend v kind i.low i.high i shaping)
      (setUp s'.backend v kind i.low i.high i shaping) := by
  have hsite : ∀ id, (v.site kind i.low i.high).Fits
      (.fresh id v.pair i kind v.distance v.step) := by
    intro id
    exact ⟨hv.x, hv.y, rfl, rfl⟩
  refine alike_freshId.andThen fun id id' _ => ?_
  refine (alike_ask h h' rfl (hsite id) rfl (hsite id') rfl).andThen fun answer answer' heq => ?_
  subst heq
  refine Alike.ite Iff.rfl ?_ ?_
  · refine (alike_put ?_).andThen fun _ _ _ => (alike_stored i).andThen fun c c' hc => ?_
    · rfl
    · have hi : c.interfaces = c'.interfaces := hc.left.2.trans hc.right.2.symm
      refine (alike_perform h h' rfl rfl hc.left.1 (hv.site hc.left kind) hc.right.1
        (hv.site hc.right kind) hi).andThen fun _ _ _ => ?_
      exact (alike_count _).andThen fun _ _ _ => alike_pure rfl
  · exact (alike_count _).andThen fun _ _ _ => alike_pure rfl

theorem bringUp_alike (kind : ConnectionKind) (i : InterfacePair) (shaping : Shaping) :
    Alike v.pair (fun _ _ => True) (bringUp s.backend v kind i.low i.high i shaping)
      (bringUp s'.backend v kind i.low i.high i shaping) := by
  refine (alike_stored i).andThen fun c c' hc => ?_
  have hi : c.interfaces = c'.interfaces := hc.left.2.trans hc.right.2.symm
  refine (alike_perform h h' rfl rfl hc.left.1 (hv.site hc.left kind) hc.right.1
    (hv.site hc.right kind) hi).andThen fun _ _ _ => ?_
  refine (alike_setActive i true).andThen fun _ _ _ => ?_
  refine (alike_modify i ?_ ?_).andThen fun _ _ _ => alike_count _
  · exact fun _ => ⟨rfl, rfl, rfl⟩
  · exact fun _ => rfl

theorem takeDown_alike {i : InterfacePair} {c c' : Connection} (hc : Likes v.pair i c c')
    (shaping : Shaping) :
    Alike v.pair (fun _ _ => True) (takeDown s.backend v c i shaping)
      (takeDown s'.backend v c' i shaping) := by
  have hi : c.interfaces = c'.interfaces := hc.left.2.trans hc.right.2.symm
  refine (alike_perform h h' rfl rfl hc.left.1 (hv.site hc.left _) hc.right.1
    (hv.site hc.right _) hi).andThen fun _ _ _ => ?_
  refine (alike_setActive i false).andThen fun _ _ _ => ?_
  refine (alike_modify i ?_ ?_).andThen fun _ _ _ => alike_count _
  · exact fun _ => ⟨rfl, rfl, rfl⟩
  · exact fun _ => rfl

theorem shape_alike {i : InterfacePair} {c c' : Connection} (hc : Likes v.pair i c c')
    (shaping : Shaping) :
    Alike v.pair (fun _ _ => True) (shape s.backend v c i shaping)
      (shape s'.backend v c' i shaping) := by
  have hi : c.interfaces = c'.interfaces := hc.left.2.trans hc.right.2.symm
  refine (alike_announce _ _ _ _).andThen fun _ _ _ => ?_
  exact alike_perform h h' rfl rfl hc.left.1 (hv.site hc.left _) hc.right.1 (hv.site hc.right _) hi

end Links

/-! ### A pair of nodes -/

namespace Setting

/-- Settings that decide alike; each has its own backend and tunnels. -/
structure Matches (s : Setting σ) (s' : Setting τ) : Prop where
  model : s'.model = s.model
  pairing : s'.pairing = s.pairing

variable {s : Setting σ} {s' : Setting τ} {r : Replies} {v : Visit}

theorem Matches.initial (hm : s.Matches s') : s'.initial = s.initial := by
  rw [Setting.initial, Setting.initial, hm.model]

theorem Matches.decide (hm : s.Matches s') (kind : ConnectionKind) (d : Distance) :
    s'.decide kind d = s.decide kind d := by
  rw [Setting.decide, Setting.decide, hm.initial, hm.model]

theorem Matches.candidates (hm : s.Matches s') (v : Visit) : s'.candidates v = s.candidates v := by
  rw [Setting.candidates, Setting.candidates, hm.pairing]

section Pairs

variable (h : s.Answers v.pair r) (h' : s'.Answers v.pair r) (hv : v.Fits)
include h h' hv

theorem reviveLink_alike (d : LinkDecision) (i : InterfacePair) :
    Alike v.pair (fun _ _ => True) (s.reviveLink v d i) (s'.reviveLink v d i) := by
  refine (alike_stored i).andThen fun c c' hc => ?_
  rw [← Connection.kind_of_anonymous hc.anonymous]
  exact bringUp_alike h h' hv c.kind i _

variable (hm : s.Matches s')
include hm

theorem createLink_alike (d : LinkDecision) (ix iy : Interface) :
    Alike v.pair (fun _ _ => True) (s.createLink v d ix iy) (s'.createLink v d ix iy) := by
  rw [createLink, createLink, hm.initial]
  refine alike_connections fun st st' _ _ hst => ?_
  refine Alike.ite (by rw [hst.isSome]) (alike_pure trivial) ?_
  refine (setUp_alike h h' hv v.kind ⟨ix, iy⟩ _).andThen fun accepted accepted' heq => ?_
  subst heq
  exact Alike.ite Iff.rfl (bringUp_alike h h' hv v.kind ⟨ix, iy⟩ _) (alike_pure trivial)

theorem renewLink_alike (d : LinkDecision) (i : InterfacePair) :
    Alike v.pair (fun _ _ => True) (s.renewLink v d i) (s'.renewLink v d i) := by
  rw [renewLink, renewLink, hm.initial]
  refine (alike_stored i).andThen fun c c' hc => ?_
  rw [← Connection.kind_of_anonymous hc.anonymous]
  cases c.kind with
  | management => exact alike_pure trivial
  | central => exact (shape_alike h h' hv hc _).andThen fun _ _ _ => alike_count _
  | user =>
    refine Alike.ite Iff.rfl ?_ (takeDown_alike h h' hv hc _)
    refine (shape_alike h h' hv hc _).andThen fun _ _ _ => ?_
    refine (alike_modify i ?_ ?_).andThen fun _ _ _ => alike_count _
    · exact fun _ => ⟨rfl, rfl, rfl⟩
    · exact fun _ => rfl

theorem renewLinks_alike (d : LinkDecision) :
    Alike v.pair (fun _ _ => True) (s.renewLinks v d) (s'.renewLinks v d) := by
  rw [renewLinks, renewLinks, hm.candidates]
  have active : ∀ {rest : Work σ Unit} {rest' : Work τ Unit},
      Alike v.pair (fun _ _ => True) rest rest' →
      Alike v.pair (fun _ _ => True)
        (do
          let store ← Work.connections
          (store.activeInterfaces v.pair).forM (s.renewLink v d)
          rest : Work σ Unit)
        (do
          let store ← Work.connections
          (store.activeInterfaces v.pair).forM (s'.renewLink v d)
          rest' : Work τ Unit) := by
    intro rest rest' hrest
    refine alike_connections fun st st' hw hw' hst => ?_
    rw [hst.activeInterfaces hw hw']
    exact (Alike.forM (renewLink_alike h h' hv hm d) _).andThen fun _ _ _ => hrest
  cases d.connected with
  | false => exact active (alike_pure trivial)
  | true =>
    refine (Alike.forM (fun e : Interface × Interface => createLink_alike h h' hv hm d e.1 e.2)
      _).andThen fun _ _ _ => active ?_
    refine alike_connections fun st st' hw hw' hst => ?_
    rw [hst.inactiveInterfaces hw hw']
    exact Alike.forM (reviveLink_alike h h' hv d) _

end Pairs

theorem ensureTunnel_alike {pair : NodePair} (h : s.Answers pair r) (h' : s'.Answers pair r) :
    Alike pair (· = ·) (s.ensureTunnel pair.low pair.high pair)
      (s'.ensureTunnel pair.low pair.high pair) := by
  refine ⟨fun {p p'} hp => ?_⟩
  have hensure := h.ensure p.world
  have hensure' := h'.ensure p'.world
  rw [ensureTunnel, ensureTunnel, h.isRemote, h'.isRemote]
  generalize s.policy.ensure pair p.world = e at hensure
  generalize s'.policy.ensure pair p'.world = e' at hensure'
  obtain ⟨result, world⟩ := e
  obtain ⟨result', world'⟩ := e'
  obtain rfl : result = r.ensure := hensure
  obtain rfl : result' = r.ensure := hensure'
  split
  · refine ⟨⟨hp.left, hp.right, hp.alike⟩, ?_⟩
    dsimp only
    cases r.ensure with
    | ok u => exact .ok rfl
    | error e => exact .error
  · exact ⟨hp, .ok rfl⟩

theorem reconcileNodes_alike {x y : Node} {pair : NodePair} (hm : s.Matches s')
    (h : s.Answers pair r) (h' : s'.Answers pair r) (hx : x.id = pair.low) (hy : y.id = pair.high)
    (step : Nat) (distance : Distance) :
    Alike pair (fun _ _ => True) (s.reconcileNodes step pair distance x y)
      (s'.reconcileNodes step pair distance x y) := by
  rw [reconcileNodes, reconcileNodes]
  refine Alike.ite Iff.rfl (alike_pure trivial) ?_
  dsimp only
  rw [hm.decide, hx, hy]
  refine alike_connections fun st st' hw hw' hst => ?_
  refine Alike.ite (by rw [hst.containsPair hw hw']) ?_ (alike_pure trivial)
  refine (ensureTunnel_alike h h').andThen fun isRemote isRemote' heq => ?_
  subst heq
  exact renewLinks_alike (v := ⟨x, y, pair, distance, isRemote, step⟩) h h' ⟨hx, hy⟩ hm _

/-- Reconciling a pair keeps its links alike, and fails on both sides or on neither. -/
theorem reconcile_alike {nodes : SortedMap NodeId Node} {pair : NodePair} (hm : s.Matches s')
    (h : s.Answers pair r) (h' : s'.Answers pair r)
    (hk : ∀ id node, nodes.get? id = some node → node.id = id) (step : Nat) (distance : Distance) :
    Alike pair (fun _ _ => True) (s.reconcile nodes step pair distance)
      (s'.reconcile nodes step pair distance) := by
  rw [reconcile, reconcile]
  cases hx : nodes.get? pair.low with
  | none => exact alike_fail _ _
  | some x =>
    cases hy : nodes.get? pair.high with
    | none => exact alike_fail _ _
    | some y => exact reconcileNodes_alike hm h h' (hk _ _ hx) (hk _ _ hy) step distance

end Setting

end ProximityNet
