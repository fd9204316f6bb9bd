import ProximityNet.Proofs.Views

/-!
# What passes between an engine and its backend

A recorded engine runs as the engine does and writes down every exchange with its backend: what was
announced, what was asked, what was to be done, and the answers.

* `Exchange` — one call to a backend with its answer;
* `Backend.recorded`, `Engine.recorded` — the same backend, the same engine, with a record;
* `Engine.history` — the exchanges of a run in their order;
* `Engine.recorded_run` — recording changes nothing else;
* `Engine.history_keeps`, `Engine.history_kept` — what is kept of the record and the links holds after
  every run.
-/

namespace ProximityNet

variable {σ τ μ : Type}

/-- The first component of a pair. -/
def Part.first : Part (σ × τ) σ := ⟨Prod.fst, fun a p => (a, p.2)⟩

/-- The second component of a pair. -/
def Part.second : Part (σ × τ) τ := ⟨Prod.snd, fun b p => (p.1, b)⟩

/-- The whole of a state. -/
def Part.whole : Part σ σ := ⟨id, fun a _ => a⟩

/-- What is put into a part of a state is found there. -/
def Part.Lawful (place : Part σ τ) : Prop := ∀ v w, place.get (place.set v w) = v

/-- A part of a state that another part has no share in. -/
def Part.Apart {ρ : Type} (place : Part σ τ) (other : Part σ ρ) : Prop :=
  ∀ v w, place.get (other.set v w) = place.get w

theorem TunnelPolicy.within_ensure (part : Part σ τ) (t : TunnelPolicy τ) (pair : NodePair) (w : σ) :
    (t.within part).ensure pair w =
      ((t.ensure pair (part.get w)).1, part.set (t.ensure pair (part.get w)).2 w) := rfl

/-- A call to a backend, and what came of it. -/
inductive Exchange where
  | announced (a : Announcement)
  | asked (site : LinkSite) (connection : Connection) (answer : Except BackendError StartAnswer)
  | performed (r : Request) (result : Except BackendError Unit)

/-- The same backend, which writes down every call behind its state. -/
def Backend.recorded (b : Backend σ) : Backend (σ × List Exchange) where
  announce a w := (b.announce a w.1, w.2 ++ [.announced a])
  start site c w :=
    let (answer, world) := b.start site c w.1
    (answer, (world, w.2 ++ [.asked site c answer]))
  perform r w :=
    let (result, world) := b.perform r w.1
    (result, (world, w.2 ++ [.performed r result]))

def Setting.recorded (s : Setting σ) : Setting (σ × List Exchange) where
  model := s.model
  pairing := s.pairing
  backend := s.backend.recorded
  policy := s.policy.within Part.first

namespace Engine

/-- The same engine, whose backend writes down every call from now on. -/
def recorded (e : Engine σ μ) : Engine (σ × List Exchange) μ where
  setting := e.setting.recorded
  nodes := e.nodes
  movement := e.movement
  tracker := e.tracker
  store := e.store
  step := e.step
  hooks := e.hooks.map fun hook st w => (hook st w.1, w.2)
  world := (e.world, [])

/-- All exchanges of a run. -/
def history [Movement μ] (e : Engine σ μ) (ops : List Operation) : List Exchange :=
  (e.recorded.run ops).world.2

end Engine

/-! ### Recording changes nothing else -/

theorem Setting.recorded_shows (s : Setting σ) : s.recorded.Shows Prod.fst s where
  model := rfl
  pairing := rfl
  backend := ⟨fun _ _ => rfl, fun _ _ _ => rfl, fun _ _ => rfl⟩
  policy := ⟨fun _ _ _ => rfl, fun _ _ => rfl⟩

theorem Engine.recorded_shows (e : Engine σ μ) : e.recorded.Shows Prod.fst e where
  setting := e.setting.recorded_shows
  nodes := rfl
  movement := rfl
  tracker := rfl
  store := rfl
  step := rfl
  hooks := by
    show List.Forall₂ _ (e.hooks.map _) e.hooks
    rw [List.forall₂_map_left_iff, List.forall₂_same]
    intro hook _ st w
    rfl
  world := rfl

/-- A recorded run is the run, with its history beside it. -/
theorem Engine.recorded_run [Movement μ] (e : Engine σ μ) (ops : List Operation) :
    (e.recorded.run ops).store = (e.run ops).store ∧
      (e.recorded.run ops).world = ((e.run ops).world, e.history ops) := by
  have h := Engine.run_shows e.recorded_shows ops
  exact ⟨h.store, Prod.ext h.world rfl⟩

/-- What everything done under a recorded setting keeps of the record and the links holds after
every run. -/
theorem Engine.history_keeps [Movement μ] {J : List Exchange → ConnectionStore → Prop}
    {e : Engine σ μ} (hk : e.setting.recorded.Keeps fun _ st w => J w.2 st)
    (hs : e.store.Numbered) (hJ : J [] e.store) (ops : List Operation) :
    (e.run ops).store.Numbered ∧ J (e.history ops) (e.run ops).store := by
  have hstart : e.recorded.Kept fun _ st w => J w.2 st := by
    refine ⟨hs, hJ, ?_⟩
    intro hook hmem nodes st w hw
    obtain ⟨plain, _, rfl⟩ := List.mem_map.mp hmem
    exact hw
  obtain ⟨hrun, _⟩ := Engine.run_kept hk hstart ops
  obtain ⟨hstore, _⟩ := e.recorded_run ops
  rw [← hstore]
  exact ⟨hrun.numbered, hrun.holds⟩

/-- The same of a run from a reset, before which there is nothing.  A new engine is its own reset. -/
theorem Engine.history_kept [Movement μ] {J : List Exchange → ConnectionStore → Prop}
    {e : Engine σ μ} (hk : e.setting.recorded.Keeps fun _ st w => J w.2 st) (hJ : J [] .empty)
    (ops : List Operation) :
    (e.reset.run ops).store.Numbered ∧ J (e.reset.history ops) (e.reset.run ops).store :=
  Engine.history_keeps (e := e.reset) hk ConnectionStore.numbered_empty hJ ops

example (s : Setting σ) (movement : Option μ) (w : σ) :
    (Engine.start s movement w).reset = Engine.start s movement w := rfl

/-! ### What one call adds to the record -/

section Calls

variable {b : Backend σ} {w w' : σ × List Exchange}

theorem recorded_start {site : LinkSite} {c : Connection}
    {answer : Except BackendError StartAnswer}
    (h : b.recorded.start site c w = (answer, w')) : w'.2 = w.2 ++ [.asked site c answer] := by
  obtain ⟨rfl, rfl⟩ := Prod.mk.inj h
  rfl

theorem recorded_perform {r : Request} {result : Except BackendError Unit}
    (h : b.recorded.perform r w = (result, w')) : w'.2 = w.2 ++ [.performed r result] := by
  obtain ⟨rfl, rfl⟩ := Prod.mk.inj h
  rfl

theorem recorded_shape {v : Visit} {c : Connection} {i : InterfacePair} {shaping : Shaping}
    {result : Except BackendError Unit}
    (h : v.shapeWorld b.recorded c i shaping w = (result, w')) :
    w'.2 = w.2 ++ [.announced (.adjusting (v.site c.kind i.low i.high) c true shaping),
      .performed (.adjust (v.site c.kind i.low i.high) c true shaping) result] := by
  obtain ⟨rfl, rfl⟩ := Prod.mk.inj h
  exact List.append_assoc _ _ _

theorem recorded_ensure {t : TunnelPolicy σ} {pair : NodePair} {result : Except TunnelError Unit}
    (h : (t.within Part.first).ensure pair w = (result, w')) : w'.2 = w.2 := by
  obtain ⟨rfl, rfl⟩ := Prod.mk.inj h
  rfl

end Calls

end ProximityNet
