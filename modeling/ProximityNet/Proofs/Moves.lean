import Mathlib.Logic.Relation
import ProximityNet.Proofs.Works

/-!
# The moves of reconciling

All that reconciling does to links is made of a few moves: a link is set up and brought up, is
brought up again, is taken down or is shaped, and each of these may fail at the backend.  `Move` says
once what a move does to the store, the report and the world, and under which conditions it is made.

* `Task` — what work on links is for: a pair is followed, or a node is managed;
* `Launches`, `Revives`, `Adjusts` — with which shaping a task acts on a link;
* `Move` — one move of a task;
* `Move.numbered`, `Move.find?_of_ne` — what every move keeps, and what it leaves alone;
* `renewLinks_moves`, `reconcile_moves`, `connectManagement_moves` — the functions of the engine are
  chains of moves.
-/

namespace ProximityNet

open Relation (ReflTransGen)

variable {σ : Type}

/-- What work on links is for. -/
inductive Task where
  /-- The links of a pair follow its distance. -/
  | follow (v : Visit)
  /-- A node is linked to the management node. -/
  | manage (v : Visit)

namespace Task

def visit : Task → Visit
  | follow v => v
  | manage v => v

end Task

/-- A link that is to be set up and brought up. -/
structure Launch where
  kind : ConnectionKind
  ix : Interface
  iy : Interface
  interfaces : InterfacePair
  /-- The shaping that is stored before the link is up. -/
  held : Shaping
  /-- The shaping that the link is brought up with. -/
  first : Shaping

namespace Setting

variable (s : Setting σ)

/-- The links that a task sets up. -/
inductive Launches : Task → Launch → Prop
  | follow {v : Visit} {ix iy : Interface} (near : (s.decide v.kind v.distance).connected = true)
      (candidate : (ix, iy) ∈ s.candidates v) :
      Launches (.follow v) ⟨v.kind, ix, iy, ⟨ix, iy⟩, .none,
        (s.decide v.kind v.distance).shaping.fillFrom s.initial⟩
  | manage {v : Visit} {ix iy : Interface} (hx : v.x.managementInterface? = some ix)
      (hy : v.y.managementInterface? = some iy) :
      Launches (.manage v) ⟨.management, ix, iy, .oriented v.pair v.x.id ix iy, s.initial,
        s.initial⟩

/-- How a task brings up a link that exists and is down. -/
inductive Revives : Task → Connection → LinkSite → Shaping → Prop
  | follow {v : Visit} {c : Connection} (near : (s.decide v.kind v.distance).connected = true) :
      Revives (.follow v) c (v.site c.kind c.interfaces.low c.interfaces.high)
        (s.decide v.kind v.distance).shaping
  | manage {v : Visit} {c : Connection} {ix iy : Interface}
      (hx : v.x.managementInterface? = some ix) (hy : v.y.managementInterface? = some iy)
      (hi : c.interfaces = .oriented v.pair v.x.id ix iy) :
      Revives (.manage v) c (v.site .management ix iy) s.initial

/-- How a visit shapes a link that is up. -/
inductive Adjusts (v : Visit) : Connection → Shaping → Prop
  | hub {c : Connection} (kind : c.kind = .central) : Adjusts v c s.initial
  | user {c : Connection} (kind : c.kind = .user)
      (near : (s.decide v.kind v.distance).connected = true) :
      Adjusts v c (if v.step = 0 then (s.decide v.kind v.distance).shaping.fillFrom s.initial
        else (s.decide v.kind v.distance).shaping)

/-- One move of a task, from one progress to the next. -/
inductive Move : Task → Progress σ → Progress σ → Prop
  /-- There is or is not a tunnel now. -/
  | tunnel {v : Visit} {p : Progress σ} {result : Except TunnelError Unit} {world : σ}
      (remote : v.isRemote = true) (ensure : s.policy.ensure v.pair p.world = (result, world)) :
      Move (.follow v) p { p with world }
  /-- The backend fails to say whether it accepts a new link. -/
  | startFailed {t : Task} {p : Progress σ} {l : Launch} {e : BackendError} {world : σ}
      (launch : s.Launches t l) (free : p.store.find? t.visit.pair l.interfaces = none)
      (start : s.backend.start (t.visit.site l.kind l.ix l.iy)
        (t.visit.fresh l.kind l.interfaces p.store) p.world = (.error e, world)) :
      Move t p { p with store := p.store.freshId.2, world }
  | refused {t : Task} {p : Progress σ} {l : Launch} {answer : StartAnswer} {world : σ}
      (launch : s.Launches t l) (free : p.store.find? t.visit.pair l.interfaces = none)
      (start : s.backend.start (t.visit.site l.kind l.ix l.iy)
        (t.visit.fresh l.kind l.interfaces p.store) p.world = (.ok answer, world))
      (no : answer.accepted = false) :
      Move t p ⟨p.store.freshId.2, p.report.countRefused, world⟩
  | createFailed {t : Task} {p : Progress σ} {l : Launch} {answer : StartAnswer}
      {e : BackendError} {world world' : σ}
      (launch : s.Launches t l) (free : p.store.find? t.visit.pair l.interfaces = none)
      (start : s.backend.start (t.visit.site l.kind l.ix l.iy)
        (t.visit.fresh l.kind l.interfaces p.store) p.world = (.ok answer, world))
      (yes : answer.accepted = true)
      (create : s.backend.perform (.create (t.visit.site l.kind l.ix l.iy)
        ((t.visit.fresh l.kind l.interfaces p.store).accepted l.held answer.switch)) world =
          (.error e, world')) :
      Move t p ⟨t.visit.established l.kind l.interfaces l.held answer.switch p.store, p.report,
        world'⟩
  | launchFailed {t : Task} {p : Progress σ} {l : Launch} {answer : StartAnswer}
      {e : BackendError} {world world' world'' : σ}
      (launch : s.Launches t l) (free : p.store.find? t.visit.pair l.interfaces = none)
      (start : s.backend.start (t.visit.site l.kind l.ix l.iy)
        (t.visit.fresh l.kind l.interfaces p.store) p.world = (.ok answer, world))
      (yes : answer.accepted = true)
      (create : s.backend.perform (.create (t.visit.site l.kind l.ix l.iy)
        ((t.visit.fresh l.kind l.interfaces p.store).accepted l.held answer.switch)) world =
          (.ok (), world'))
      (raise : s.backend.perform (.raise (t.visit.site l.kind l.ix l.iy)
        ((t.visit.fresh l.kind l.interfaces p.store).accepted l.held answer.switch) l.first)
          world' = (.error e, world'')) :
      Move t p ⟨t.visit.established l.kind l.interfaces l.held answer.switch p.store,
        p.report.countCreated, world''⟩
  /-- A new link is set up and comes up. -/
  | launched {t : Task} {p : Progress σ} {l : Launch} {answer : StartAnswer}
      {world world' world'' : σ}
      (launch : s.Launches t l) (free : p.store.find? t.visit.pair l.interfaces = none)
      (start : s.backend.start (t.visit.site l.kind l.ix l.iy)
        (t.visit.fresh l.kind l.interfaces p.store) p.world = (.ok answer, world))
      (yes : answer.accepted = true)
      (create : s.backend.perform (.create (t.visit.site l.kind l.ix l.iy)
        ((t.visit.fresh l.kind l.interfaces p.store).accepted l.held answer.switch)) world =
          (.ok (), world'))
      (raise : s.backend.perform (.raise (t.visit.site l.kind l.ix l.iy)
        ((t.visit.fresh l.kind l.interfaces p.store).accepted l.held answer.switch) l.first)
          world' = (.ok (), world'')) :
      Move t p ⟨p.store.freshId.2.file
        (((t.visit.fresh l.kind l.interfaces p.store).accepted l.held answer.switch).raised
          t.visit.distance l.first), p.report.countCreated.countUp, world''⟩
  | raiseFailed {t : Task} {p : Progress σ} {c : Connection} {site : LinkSite}
      {shaping : Shaping} {e : BackendError} {world : σ} (revive : s.Revives t c site shaping)
      (found : p.store.find? t.visit.pair c.interfaces = some c) (down : c.connected = false)
      (raise : s.backend.perform (.raise site c shaping) p.world = (.error e, world)) :
      Move t p { p with world }
  /-- A link that is down comes up. -/
  | raised {t : Task} {p : Progress σ} {c : Connection} {site : LinkSite} {shaping : Shaping}
      {world : σ} (revive : s.Revives t c site shaping)
      (found : p.store.find? t.visit.pair c.interfaces = some c) (down : c.connected = false)
      (raise : s.backend.perform (.raise site c shaping) p.world = (.ok (), world)) :
      Move t p ⟨p.store.file (c.raised t.visit.distance shaping), p.report.countUp, world⟩
  | lowerFailed {v : Visit} {p : Progress σ} {c : Connection} {e : BackendError} {world : σ}
      (kind : c.kind = .user) (far : (s.decide v.kind v.distance).connected = false)
      (found : p.store.find? v.pair c.interfaces = some c) (up : c.connected = true)
      (lower : s.backend.perform (.lower (v.site c.kind c.interfaces.low c.interfaces.high) c
        (s.decide v.kind v.distance).shaping) p.world = (.error e, world)) :
      Move (.follow v) p { p with world }
  /-- A link that is up is taken down. -/
  | lowered {v : Visit} {p : Progress σ} {c : Connection} {world : σ}
      (kind : c.kind = .user) (far : (s.decide v.kind v.distance).connected = false)
      (found : p.store.find? v.pair c.interfaces = some c) (up : c.connected = true)
      (lower : s.backend.perform (.lower (v.site c.kind c.interfaces.low c.interfaces.high) c
        (s.decide v.kind v.distance).shaping) p.world = (.ok (), world)) :
      Move (.follow v) p ⟨p.store.file (c.lowered v.distance), p.report.countDown, world⟩
  | adjustFailed {v : Visit} {p : Progress σ} {c : Connection} {shaping : Shaping}
      {e : BackendError} {world : σ} (adjust : s.Adjusts v c shaping)
      (found : p.store.find? v.pair c.interfaces = some c) (up : c.connected = true)
      (shape : v.shapeWorld s.backend c c.interfaces shaping p.world = (.error e, world)) :
      Move (.follow v) p { p with world }
  /-- A link that is up is shaped, and the store says so. -/
  | adjusted {v : Visit} {p : Progress σ} {c : Connection} {shaping : Shaping} {world : σ}
      (kind : c.kind = .user) (adjust : s.Adjusts v c shaping)
      (found : p.store.find? v.pair c.interfaces = some c) (up : c.connected = true)
      (shape : v.shapeWorld s.backend c c.interfaces shaping p.world = (.ok (), world)) :
      Move (.follow v) p
        ⟨p.store.file (c.adjusted v.distance shaping), p.report.countAdjusted, world⟩
  /-- A link to a hub is shaped as it was before. -/
  | hubAdjusted {v : Visit} {p : Progress σ} {c : Connection} {world : σ}
      (kind : c.kind = .central)
      (found : p.store.find? v.pair c.interfaces = some c) (up : c.connected = true)
      (shape : v.shapeWorld s.backend c c.interfaces s.initial p.world = (.ok (), world)) :
      Move (.follow v) p ⟨p.store, p.report.countAdjusted, world⟩

/-- Any number of moves of one task. -/
abbrev Moves (t : Task) : Progress σ → Progress σ → Prop := ReflTransGen (s.Move t)

end Setting

/-! ### What moves keep and what they leave alone -/

section Moves

variable {s : Setting σ} {t : Task} {p p' : Progress σ} {pair : NodePair}
  {i : InterfacePair}

theorem Visit.established_numbered {st : ConnectionStore} (hs : st.Numbered) (v : Visit)
    (kind : ConnectionKind) (i : InterfacePair) (shaping : Shaping) (switch : Option String) :
    (v.established kind i shaping switch st).Numbered :=
  hs.fileFresh (c := (v.fresh kind i st).accepted shaping switch) rfl

namespace Setting

/-- A move keeps a store well-formed with unique ids. -/
theorem Move.numbered (h : s.Move t p p') (hs : p.store.Numbered) : p'.store.Numbered := by
  cases h with
  | tunnel | raiseFailed | lowerFailed | adjustFailed | hubAdjusted => exact hs
  | startFailed | refused => exact hs.freshId
  | createFailed | launchFailed => exact Visit.established_numbered hs ..
  | launched =>
    dsimp only
    exact hs.fileFresh rfl
  | raised revive found | lowered kind far found | adjusted kind adjust found =>
    dsimp only
    exact hs.file found rfl rfl rfl

theorem Moves.numbered (h : s.Moves t p p') (hs : p.store.Numbered) : p'.store.Numbered := by
  induction h with
  | refl => exact hs
  | tail _ hmove ih => exact hmove.numbered ih

/-- A move of a task leaves the links of other pairs alone. -/
theorem Move.find?_of_ne (h : s.Move t p p') (hs : p.store.Numbered) (hne : pair ≠ t.visit.pair) :
    p'.store.find? pair i = p.store.find? pair i := by
  have other : ∀ {st : ConnectionStore} {c : Connection}, st.WellFormed → c.pair = t.visit.pair →
      (st.file c).find? pair i = st.find? pair i := by
    intro st c hst hc
    rw [hst.find?_file, if_neg (fun heq => hne (heq.1.symm.trans hc))]
  cases h with
  | tunnel | raiseFailed | lowerFailed | adjustFailed | hubAdjusted => rfl
  | startFailed | refused => rfl
  | createFailed | launchFailed | launched => exact other hs.toWellFormed.freshId rfl
  | raised revive found | lowered kind far found | adjusted kind adjust found =>
    exact other hs.toWellFormed (hs.keys_eq found).1

theorem Moves.find?_of_ne (h : s.Moves t p p') (hs : p.store.Numbered)
    (hne : pair ≠ t.visit.pair) : p'.store.find? pair i = p.store.find? pair i := by
  induction h with
  | refl => rfl
  | tail hmoves hmove ih => rw [hmove.find?_of_ne (Moves.numbered hmoves hs) hne, ih]

end Setting

end Moves

end ProximityNet
