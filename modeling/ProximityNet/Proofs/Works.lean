import ProximityNet.Engine.Reconcile
import ProximityNet.Proofs.Stores

/-!
# What each piece of work does

A piece of work runs on a step under way and may end with an error.  This file says what the pieces
that reconciling is made of do to the store, the report and the world, one equation for each way
they can end:

* `bind_of_ok`, `bind_of_error`, `ok_of_bind` — one piece of work after another;
* `setUp_of_error`, `setUp_of_refused`, `setUp_of_createError`, `setUp_of_ok` — a link is set up;
* `bringUp_of_ok`, `takeDown_of_ok`, `shape_of_ok` and their errors — a link that exists is changed;
* `forM_keeps`, `forM_invariant` — what every round of a loop keeps holds at its end.

On a well-formed store every change of a connection is a `ConnectionStore.file`.
-/

namespace ProximityNet

variable {σ α β : Type}

namespace Connection

/-- A connection that has been brought up. -/
def raised (c : Connection) (distance : Distance) (shaping : Shaping) : Connection :=
  { c with connected := true, shaping := shaping.fillFrom c.shaping, distance := distance }

@[simp] theorem id_raised (c : Connection) (distance : Distance) (shaping : Shaping) :
    (c.raised distance shaping).id = c.id := rfl

/-- A connection that has been taken down. -/
def lowered (c : Connection) (distance : Distance) : Connection :=
  { c with connected := false, distance := distance }

/-- A connection that has been shaped and stays as it is. -/
def adjusted (c : Connection) (distance : Distance) (shaping : Shaping) : Connection :=
  { c with shaping := shaping.fillFrom c.shaping, distance := distance }

/-- A new connection that the backend has accepted. -/
def accepted (c : Connection) (shaping : Shaping) (switch : Option String) : Connection :=
  { c with shaping := shaping, switch := switch }

end Connection

namespace Work

variable {w : Work σ α} {f : α → Work σ β} {p p' : Progress σ}

@[simp] theorem pure_apply (a : α) (p : Progress σ) : (pure a : Work σ α) p = (.ok a, p) := rfl

theorem bind_of_ok {a : α} (h : w p = (.ok a, p')) : (w >>= f) p = f a p' := by
  show andThen w f p = _
  rw [andThen, h]

theorem bind_of_error {e : ReconcileError} (h : w p = (.error e, p')) :
    (w >>= f) p = (.error e, p') := by
  show andThen w f p = _
  rw [andThen, h]

/-- Work that gets to its end has got to the end of its first part. -/
theorem ok_of_bind {b : β} (h : (w >>= f) p = (.ok b, p')) :
    ∃ a q, w p = (.ok a, q) ∧ f a q = (.ok b, p') := by
  rcases hw : w p with ⟨e | a, q⟩
  · rw [bind_of_error hw] at h
    cases (Prod.mk.inj h).1
  · rw [bind_of_ok hw] at h
    exact ⟨a, q, rfl, h⟩

theorem bind_connections {g : ConnectionStore → Work σ β} (p : Progress σ) :
    (connections >>= g) p = g p.store p := rfl

theorem bind_freshId {g : ConnectionId → Work σ β} (p : Progress σ) :
    (freshId >>= g) p = g ⟨p.store.nextNumber⟩ { p with store := p.store.freshId.2 } := rfl

theorem stored_of_some {pair : NodePair} {i : InterfacePair} {c : Connection}
    (h : p.store.find? pair i = some c) : stored pair i p = (.ok c, p) := by
  rw [stored, h]

theorem perform_of_ok {b : Backend σ} {r : Request} {world : σ}
    (h : b.perform r p.world = (.ok (), world)) : perform b r p = (.ok (), { p with world }) := by
  rw [perform, h]
  rfl

theorem perform_of_error {b : Backend σ} {r : Request} {world : σ} {e : BackendError}
    (h : b.perform r p.world = (.error e, world)) :
    perform b r p = (.error (.backend e), { p with world }) := by
  rw [perform, h]
  rfl

/-! ### Loops -/

@[simp] theorem forM_nil (g : α → Work σ Unit) (p : Progress σ) :
    ([] : List α).forM g p = (.ok (), p) := rfl

theorem forM_cons_of_ok {g : α → Work σ Unit} {a : α} (l : List α) (h : g a p = (.ok (), p')) :
    (a :: l).forM g p = l.forM g p' :=
  bind_of_ok h

theorem forM_cons_of_error {g : α → Work σ Unit} {a : α} (l : List α) {e : ReconcileError}
    (h : g a p = (.error e, p')) : (a :: l).forM g p = (.error e, p') :=
  bind_of_error h

theorem ok_of_forM_cons {g : α → Work σ Unit} {a : α} {l : List α}
    (h : (a :: l).forM g p = (.ok (), p')) :
    ∃ q, g a p = (.ok (), q) ∧ l.forM g q = (.ok (), p') := by
  obtain ⟨u, q, hfirst, hrest⟩ := ok_of_bind (w := g a) (f := fun _ => l.forM g) h
  exact ⟨q, hfirst, hrest⟩

/-- What every round keeps holds at the end of a loop, however it ends. -/
theorem forM_keeps {g : α → Work σ Unit} {I : Progress σ → Prop} {l : List α}
    (round : ∀ a ∈ l, ∀ p, I p → I (g a p).2) (hI : I p) : I (l.forM g p).2 := by
  induction l generalizing p with
  | nil => exact hI
  | cons a rest ih =>
    have hI' := round a List.mem_cons_self p hI
    generalize hg : g a p = q at hI'
    obtain ⟨_ | _, q⟩ := q
    · rw [forM_cons_of_error rest hg]
      exact hI'
    · rw [forM_cons_of_ok rest hg]
      exact ih (fun b hb => round b (List.mem_cons_of_mem _ hb)) hI'

/-- In a loop over distinct items a round may count on what holds of its own item `a`, if the rounds
before it keep that. -/
theorem forM_invariant {g : α → Work σ Unit} {I : Progress σ → Prop} {R : α → Progress σ → Prop}
    {l : List α} (hl : l.Nodup)
    (round : ∀ a ∈ l, ∀ p, I p → R a p →
      I (g a p).2 ∧ ∀ a' ∈ l, a' ≠ a → R a' p → R a' (g a p).2)
    (hI : I p) (hR : ∀ a ∈ l, R a p) : I (l.forM g p).2 := by
  induction l generalizing p with
  | nil => exact hI
  | cons a rest ih =>
    obtain ⟨ha, hrest⟩ := List.nodup_cons.mp hl
    obtain ⟨hI', hR'⟩ := round a List.mem_cons_self p hI (hR a List.mem_cons_self)
    have hround : ∀ b ∈ rest, ∀ p, I p → R b p →
        I (g b p).2 ∧ ∀ a' ∈ rest, a' ≠ b → R a' p → R a' (g b p).2 := by
      intro b hb q hq hRq
      obtain ⟨h1, h2⟩ := round b (List.mem_cons_of_mem _ hb) q hq hRq
      exact ⟨h1, fun a' ha' => h2 a' (List.mem_cons_of_mem _ ha')⟩
    generalize hg : g a p = q at hI' hR'
    obtain ⟨_ | _, q⟩ := q
    · rw [forM_cons_of_error rest hg]
      exact hI'
    · rw [forM_cons_of_ok rest hg]
      refine ih hrest hround hI' fun b hb => ?_
      exact hR' b (List.mem_cons_of_mem _ hb) (fun h => ha (h ▸ hb)) (hR b (List.mem_cons_of_mem _ hb))

end Work

/-! ### Setting up a link -/

section Links

variable {b : Backend σ} {v : Visit} {kind : ConnectionKind} {ix iy : Interface}
  {i : InterfacePair} {shaping : Shaping} {p : Progress σ} {c : Connection}

namespace Visit

/-- The connection that a visit asks the backend for. -/
def fresh (v : Visit) (kind : ConnectionKind) (i : InterfacePair) (s : ConnectionStore) :
    Connection :=
  .fresh ⟨s.nextNumber⟩ v.pair i kind v.distance v.step

end Visit

theorem setUp_of_error {world : σ} {e : BackendError}
    (h : b.start (v.site kind ix iy) (v.fresh kind i p.store) p.world = (.error e, world)) :
    setUp b v kind ix iy i shaping p =
      (.error (.backend e), { p with store := p.store.freshId.2, world }) := by
  have hask : Work.ask b (v.site kind ix iy) (v.fresh kind i p.store)
      { p with store := p.store.freshId.2 } =
      (.error (.backend e), { p with store := p.store.freshId.2, world }) := by
    rw [Work.ask, h]
    rfl
  rw [setUp, Work.bind_freshId]
  exact Work.bind_of_error hask

/-- What is left to do once the backend has answered. -/
theorem setUp_of_answer {world : σ} {answer : StartAnswer}
    (h : b.start (v.site kind ix iy) (v.fresh kind i p.store) p.world = (.ok answer, world)) :
    setUp b v kind ix iy i shaping p =
      (if answer.accepted then do
          Work.put ((v.fresh kind i p.store).accepted shaping answer.switch)
          let c ← Work.stored v.pair i
          Work.perform b (.create (v.site kind ix iy) c)
          Work.count .countCreated
          return true
        else do
          Work.count .countRefused
          return false : Work σ Bool)
        { p with store := p.store.freshId.2, world } := by
  have hask : Work.ask b (v.site kind ix iy) (v.fresh kind i p.store)
      { p with store := p.store.freshId.2 } =
      (.ok answer, { p with store := p.store.freshId.2, world }) := by
    rw [Work.ask, h]
    rfl
  rw [setUp, Work.bind_freshId]
  exact Work.bind_of_ok hask

theorem setUp_of_refused {world : σ} {answer : StartAnswer}
    (h : b.start (v.site kind ix iy) (v.fresh kind i p.store) p.world = (.ok answer, world))
    (hno : answer.accepted = false) :
    setUp b v kind ix iy i shaping p =
      (.ok false, ⟨p.store.freshId.2, p.report.countRefused, world⟩) := by
  rw [setUp_of_answer h, hno]
  rfl

/-- The store with a link that was accepted. -/
def Visit.established (v : Visit) (kind : ConnectionKind) (i : InterfacePair) (shaping : Shaping)
    (switch : Option String) (s : ConnectionStore) : ConnectionStore :=
  s.freshId.2.file ((v.fresh kind i s).accepted shaping switch)

theorem setUp_of_accepted {world : σ} {answer : StartAnswer} (hs : p.store.WellFormed)
    (h : b.start (v.site kind ix iy) (v.fresh kind i p.store) p.world = (.ok answer, world))
    (hyes : answer.accepted = true) :
    setUp b v kind ix iy i shaping p =
      (do
        Work.perform b (.create (v.site kind ix iy)
          ((v.fresh kind i p.store).accepted shaping answer.switch))
        Work.count .countCreated
        return true : Work σ Bool)
        { p with store := v.established kind i shaping answer.switch p.store, world } := by
  rw [setUp_of_answer h, if_pos hyes]
  have hfound : (v.established kind i shaping answer.switch p.store).find? v.pair i =
      some ((v.fresh kind i p.store).accepted shaping answer.switch) :=
    hs.freshId.find?_file_self rfl rfl
  exact Work.bind_of_ok (Work.stored_of_some hfound)

theorem setUp_of_createError {world world' : σ} {answer : StartAnswer} {e : BackendError}
    (hs : p.store.WellFormed)
    (h : b.start (v.site kind ix iy) (v.fresh kind i p.store) p.world = (.ok answer, world))
    (hyes : answer.accepted = true)
    (hcreate : b.perform (.create (v.site kind ix iy)
      ((v.fresh kind i p.store).accepted shaping answer.switch)) world = (.error e, world')) :
    setUp b v kind ix iy i shaping p =
      (.error (.backend e),
        ⟨v.established kind i shaping answer.switch p.store, p.report, world'⟩) := by
  rw [setUp_of_accepted hs h hyes]
  exact Work.bind_of_error (Work.perform_of_error hcreate)

theorem setUp_of_ok {world world' : σ} {answer : StartAnswer} (hs : p.store.WellFormed)
    (h : b.start (v.site kind ix iy) (v.fresh kind i p.store) p.world = (.ok answer, world))
    (hyes : answer.accepted = true)
    (hcreate : b.perform (.create (v.site kind ix iy)
      ((v.fresh kind i p.store).accepted shaping answer.switch)) world = (.ok (), world')) :
    setUp b v kind ix iy i shaping p =
      (.ok true, ⟨v.established kind i shaping answer.switch p.store, p.report.countCreated,
        world'⟩) := by
  rw [setUp_of_accepted hs h hyes]
  exact Work.bind_of_ok (Work.perform_of_ok hcreate)

/-! ### Changing a link -/

theorem bringUp_of_error {world : σ} {e : BackendError} (hc : p.store.find? v.pair i = some c)
    (h : b.perform (.raise (v.site kind ix iy) c shaping) p.world = (.error e, world)) :
    bringUp b v kind ix iy i shaping p = (.error (.backend e), { p with world }) := by
  rw [bringUp, Work.bind_of_ok (Work.stored_of_some hc)]
  exact Work.bind_of_error (Work.perform_of_error h)

theorem setActive_modify (hs : p.store.WellFormed) (hc : p.store.find? v.pair i = some c)
    (active : Bool) (g : Connection → Connection)
    (hg : ∀ x : Connection, (g x).pair = x.pair ∧ (g x).interfaces = x.interfaces ∧
      (g x).connected = x.connected) (count : StepReport → StepReport) :
    (do
      Work.setActive v.pair i active
      Work.modify v.pair i g
      Work.count count : Work σ Unit) p =
      (.ok (), ⟨p.store.file (g { c with connected := active }), count p.report, p.world⟩) := by
  obtain ⟨hpair, hi⟩ := hs.keys_eq hc
  have hset : Work.setActive v.pair i active p =
      (.ok (), { p with store := p.store.file { c with connected := active } }) := by
    rw [Work.setActive, hs.setActive?_eq hc]
  have hmodify : (p.store.file { c with connected := active }).modify v.pair i g =
      p.store.file (g { c with connected := active }) := by
    obtain ⟨h1, h2, h3⟩ := hg { c with connected := active }
    have hfound := hs.find?_file_self (c := { c with connected := active }) hpair hi
    rw [(hs.file _).modify_eq hfound h1 h2 h3]
    exact hs.file_file h1.symm h2.symm
  rw [Work.bind_of_ok hset]
  show (Except.ok (), (⟨_, _, _⟩ : Progress σ)) = _
  rw [hmodify]

theorem bringUp_of_ok {world : σ} (hs : p.store.WellFormed)
    (hc : p.store.find? v.pair i = some c)
    (h : b.perform (.raise (v.site kind ix iy) c shaping) p.world = (.ok (), world)) :
    bringUp b v kind ix iy i shaping p =
      (.ok (), ⟨p.store.file (c.raised v.distance shaping), p.report.countUp, world⟩) := by
  rw [bringUp, Work.bind_of_ok (Work.stored_of_some hc), Work.bind_of_ok (Work.perform_of_ok h)]
  exact setActive_modify (p := { p with world }) hs hc true
    (fun c => { c with shaping := shaping.fillFrom c.shaping, distance := v.distance })
    (fun _ => ⟨rfl, rfl, rfl⟩) _

theorem takeDown_of_error {world : σ} {e : BackendError}
    (h : b.perform (.lower (v.site c.kind i.low i.high) c shaping) p.world = (.error e, world)) :
    takeDown b v c i shaping p = (.error (.backend e), { p with world }) :=
  Work.bind_of_error (Work.perform_of_error h)

theorem takeDown_of_ok {world : σ} (hs : p.store.WellFormed)
    (hc : p.store.find? v.pair i = some c)
    (h : b.perform (.lower (v.site c.kind i.low i.high) c shaping) p.world = (.ok (), world)) :
    takeDown b v c i shaping p =
      (.ok (), ⟨p.store.file (c.lowered v.distance), p.report.countDown, world⟩) := by
  rw [takeDown, Work.bind_of_ok (Work.perform_of_ok h)]
  exact setActive_modify (p := { p with world }) hs hc false
    (fun c => { c with distance := v.distance }) (fun _ => ⟨rfl, rfl, rfl⟩) _

/-- The site at which a link that is up is shaped. -/
def Visit.shapeWorld (v : Visit) (b : Backend σ) (c : Connection) (i : InterfacePair)
    (shaping : Shaping) (world : σ) : Except BackendError Unit × σ :=
  let site := v.site c.kind i.low i.high
  b.perform (.adjust site c true shaping) (b.announce (.adjusting site c true shaping) world)

theorem shape_of_error {world : σ} {e : BackendError}
    (h : v.shapeWorld b c i shaping p.world = (.error e, world)) :
    shape b v c i shaping p = (.error (.backend e), { p with world }) :=
  Work.perform_of_error (p := { p with world := b.announce (.adjusting _ c true shaping) p.world }) h

theorem shape_of_ok {world : σ} (h : v.shapeWorld b c i shaping p.world = (.ok (), world)) :
    shape b v c i shaping p = (.ok (), { p with world }) :=
  Work.perform_of_ok (p := { p with world := b.announce (.adjusting _ c true shaping) p.world }) h

end Links

end ProximityNet
