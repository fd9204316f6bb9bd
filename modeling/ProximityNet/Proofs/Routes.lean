import ProximityNet.Proofs.Forgetting
import ProximityNet.Proofs.Incremental
import ProximityNet.Proofs.Recording
import ProximityNet.Proofs.Twins

/-!
# Where links run

All that the backend is told of a link on a visit is said of a link of the pair that is visited, and
with the route that the visit has: between servers or not.  Whether the pair is remote is found out
once, before anything is done about its links, and no more tunnels are made from then on.

* `Visit.Concerns`, `Setting.GuardsAt` — what is kept by all calls about a visit is kept by its moves;
* `Setting.settled`, `renewLinks_settled` — once the links have their turn the tunnels do not matter;
* `Setting.Encounter`, `reconcile_encounter` — a pair is passed over, refused its tunnel, or has its
  turn, with a tunnel or without one;
* `Setting.Owned`, `Owned.ensure` — owners decide about tunnels, and the backend leaves those alone.
-/

namespace ProximityNet

open Relation (ReflTransGen)

variable {σ : Type}

theorem SortedMap.contains_insert {κ ν : Type} [Ranked κ] (m : SortedMap κ ν) (k k' : κ) (a : ν) :
    (m.insert k a).contains k' = true ↔ k = k' ∨ m.contains k' = true := by
  rw [contains_iff, contains_iff]
  by_cases heq : k = k'
  · rw [← heq, get?_insert_self]
    exact iff_of_true ⟨a, rfl⟩ (Or.inl rfl)
  · rw [get?_insert_of_ne _ _ heq]
    exact (or_iff_right heq).symm

/-- A call on a visit: it is about the pair, and about a link that runs where the visit says. -/
def Visit.Concerns (v : Visit) (site : LinkSite) (c : Connection) : Prop :=
  c.pair = v.pair ∧ site.route.isRemote = v.isRemote

namespace Setting

/-- A property of the world that every call on a visit keeps. -/
structure GuardsAt (s : Setting σ) (v : Visit) (J : σ → Prop) : Prop where
  announce : ∀ {site c shaping w}, v.Concerns site c → J w →
    J (s.backend.announce (.adjusting site c true shaping) w)
  start : ∀ {site c w}, v.Concerns site c → J w → J (s.backend.start site c w).2
  perform : ∀ {r kind site c w}, r.link? = some (kind, site, c) → v.Concerns site c → J w →
    J (s.backend.perform r w).2
  ensure : ∀ {w}, v.isRemote = true → J w → J (s.policy.ensure v.pair w).2

variable {s : Setting σ} {t : Task} {v : Visit} {J : σ → Prop} {p p' : Progress σ}

theorem Revives.route {c : Connection} {site : LinkSite} {shaping : Shaping}
    (h : s.Revives t c site shaping) : site.route.isRemote = t.visit.isRemote := by
  cases h <;> rfl

theorem GuardsAt.move (hg : s.GuardsAt t.visit J) (h : s.Move t p p') (hs : p.store.Numbered)
    (hJ : J p.world) : J p'.world := by
  have starts : ∀ {kind ix iy c w answer w'},
      s.backend.start (t.visit.site kind ix iy) c w = (answer, w') → c.pair = t.visit.pair → J w →
        J w' := by
    intro kind ix iy c w answer w' hstart hpair hw
    have hend : J (s.backend.start (t.visit.site kind ix iy) c w).2 := hg.start ⟨hpair, rfl⟩ hw
    rw [hstart] at hend
    exact hend
  have performs : ∀ {r kind site c w result w'}, s.backend.perform r w = (result, w') →
      r.link? = some (kind, site, c) → c.pair = t.visit.pair →
      site.route.isRemote = t.visit.isRemote → J w → J w' := by
    intro r kind site c w result w' hperform hlink hpair hroute hw
    have hend := hg.perform hlink ⟨hpair, hroute⟩ hw
    rw [hperform] at hend
    exact hend
  cases h with
  | @tunnel v _ _ _ remote ensure =>
    have hend : J (s.policy.ensure v.pair p.world).2 := hg.ensure remote hJ
    rw [ensure] at hend
    exact hend
  | startFailed _ _ start | refused _ _ start => exact starts start rfl hJ
  | createFailed _ _ start _ create => exact performs create rfl rfl rfl (starts start rfl hJ)
  | launchFailed _ _ start _ create raise | launched _ _ start _ create raise =>
    exact performs raise rfl rfl rfl (performs create rfl rfl rfl (starts start rfl hJ))
  | raiseFailed revive found _ raise | raised revive found _ raise =>
    exact performs raise rfl (hs.keys_eq found).1 revive.route hJ
  | lowerFailed _ _ found _ lower | lowered _ _ found _ lower =>
    exact performs lower rfl (hs.keys_eq found).1 rfl hJ
  | adjustFailed _ found _ shape | adjusted _ _ found _ shape | hubAdjusted _ found _ shape =>
    have hpair := (hs.keys_eq found).1
    exact performs shape rfl hpair rfl (hg.announce ⟨hpair, rfl⟩ hJ)

theorem GuardsAt.moves (hg : s.GuardsAt t.visit J) (h : s.Moves t p p') (hs : p.store.Numbered)
    (hJ : J p.world) : J p'.world := by
  induction h with
  | refl => exact hJ
  | tail hmoves hmove ih => exact hg.move hmove (Moves.numbered hmoves hs) ih

/-! ### The links of a pair -/

/-- The same setting on a single server. -/
def settled (s : Setting σ) : Setting σ := { s with policy := .local }

/-- What is done about links has nothing to do with tunnels. -/
theorem renewLinks_settled (hs : p.store.Numbered) :
    s.settled.Moves (.follow v) p (s.renewLinks v (s.decide v.kind v.distance) p).2 :=
  renewLinks_moves (s := s.settled) hs

/-- What may come of reconciling a pair. -/
inductive Encounter (s : Setting σ) (pair : NodePair) (p : Progress σ) :
    Except ReconcileError Unit × Progress σ → Prop
  /-- Nothing is done. -/
  | passed (result : Except ReconcileError Unit) : Encounter s pair p (result, p)
  /-- The nodes are on one server, and the links have their turn. -/
  | near {v : Visit} {r : Except ReconcileError Unit × Progress σ} (hv : v.pair = pair)
      (here : s.policy.isRemote p.world pair.low pair.high = false) (route : v.isRemote = false)
      (moves : s.settled.Moves (.follow v) p r.2) : Encounter s pair p r
  /-- There is no tunnel, and the pair is given up. -/
  | stranded {fault : TunnelError} {w : σ}
      (remote : s.policy.isRemote p.world pair.low pair.high = true)
      (ensure : s.policy.ensure pair p.world = (.error fault, w)) :
      Encounter s pair p (.error (.tunnel fault), { p with world := w })
  /-- There is a tunnel, and the links have their turn. -/
  | tunnelled {v : Visit} {w : σ} {r : Except ReconcileError Unit × Progress σ} (hv : v.pair = pair)
      (remote : s.policy.isRemote p.world pair.low pair.high = true) (route : v.isRemote = true)
      (ensure : s.policy.ensure pair p.world = (.ok (), w))
      (moves : s.settled.Moves (.follow v) { p with world := w } r.2) : Encounter s pair p r

theorem reconcileNodes_encounter {x y : Node} {pair : NodePair} {distance : Distance} {step : Nat}
    (hs : p.store.Numbered) (hx : x.id = pair.low) (hy : y.id = pair.high) :
    s.Encounter pair p (s.reconcileNodes step pair distance x y p) := by
  rw [reconcileNodes]
  split
  · exact .passed _
  dsimp only
  rw [Work.bind_connections]
  split
  · rw [hx, hy]
    cases hremote : s.policy.isRemote p.world pair.low pair.high with
    | false =>
      have htunnel : s.ensureTunnel pair.low pair.high pair p = (.ok false, p) := by
        rw [ensureTunnel, hremote]
        rfl
      rw [Work.bind_of_ok htunnel]
      exact .near (v := ⟨x, y, pair, distance, false, step⟩) rfl hremote rfl (renewLinks_settled hs)
    | true =>
      rcases hensure : s.policy.ensure pair p.world with ⟨fault | _, w⟩
      · have htunnel : s.ensureTunnel pair.low pair.high pair p =
            (.error (.tunnel fault), { p with world := w }) := by
          rw [ensureTunnel, hremote, if_pos rfl, hensure]
          rfl
        rw [Work.bind_of_error htunnel]
        exact .stranded hremote hensure
      · have htunnel : s.ensureTunnel pair.low pair.high pair p =
            (.ok true, { p with world := w }) := by
          rw [ensureTunnel, hremote, if_pos rfl, hensure]
          rfl
        rw [Work.bind_of_ok htunnel]
        exact .tunnelled (v := ⟨x, y, pair, distance, true, step⟩) rfl hremote rfl hensure
          (renewLinks_settled (p := { p with world := w }) hs)
  · exact .passed _

theorem reconcile_encounter {nodes : SortedMap NodeId Node} {pair : NodePair} {distance : Distance}
    {step : Nat} (hs : p.store.Numbered) (hk : Keyed nodes) :
    s.Encounter pair p (s.reconcile nodes step pair distance p) := by
  rw [reconcile]
  cases hx : nodes.get? pair.low with
  | none => exact .passed _
  | some x =>
    cases hy : nodes.get? pair.high with
    | none => exact .passed _
    | some y => exact reconcileNodes_encounter hs (hk _ _ hx) (hk _ _ hy)

/-! ### Owners -/

/-- Owners decide about tunnels; the tunnels are kept in a part of the world that the backend leaves
alone. -/
structure Owned (s : Setting σ) (o : Ownership) (tunnels : Part σ Ownership.Tunnels) : Prop where
  policy : s.policy = o.policy.within tunnels
  lawful : tunnels.Lawful
  announce : ∀ a w, tunnels.get (s.backend.announce a w) = tunnels.get w
  start : ∀ site c w, tunnels.get (s.backend.start site c w).2 = tunnels.get w
  perform : ∀ r w, tunnels.get (s.backend.perform r w).2 = tunnels.get w

/-- It does so if it acts on another part of the world. -/
theorem owned_within {τ : Type} (model : LinkModel) (pairing : Pairing) (b : Backend τ)
    (o : Ownership) {place : Part σ τ} {tunnels : Part σ Ownership.Tunnels}
    (hlawful : tunnels.Lawful) (hapart : tunnels.Apart place) :
    (⟨model, pairing, b.within place, o.policy.within tunnels⟩ : Setting σ).Owned o tunnels where
  policy := rfl
  lawful := hlawful
  announce _ _ := hapart _ _
  start _ _ _ := hapart _ _
  perform _ _ := hapart _ _

namespace Owned

variable {o : Ownership} {tunnels : Part σ Ownership.Tunnels}

theorem isRemote (h : s.Owned o tunnels) (w : σ) (x y : NodeId) :
    s.policy.isRemote w x y = o.isRemote x y := by
  rw [h.policy, TunnelPolicy.within, Ownership.policy]

/-- A pair gets its tunnel if both nodes have an owner, and then it is the only one to get one. -/
theorem ensure (h : s.Owned o tunnels) (pair : NodePair) (w : σ) :
    (∃ fault, (s.policy.ensure pair w).1 = .error fault ∧
        tunnels.get (s.policy.ensure pair w).2 = tunnels.get w) ∨
      ((s.policy.ensure pair w).1 = .ok () ∧
        (o.owner? pair.low).isSome = true ∧ (o.owner? pair.high).isSome = true ∧
        tunnels.get (s.policy.ensure pair w).2 = (tunnels.get w).insert pair ()) := by
  have hensure : s.policy.ensure pair w = ((o.ensure pair (tunnels.get w)).1,
      tunnels.set (o.ensure pair (tunnels.get w)).2 w) := by
    rw [h.policy, TunnelPolicy.within_ensure]
    rfl
  rw [hensure, h.lawful, Ownership.ensure]
  dsimp only
  cases hlow : o.owner? pair.low with
  | none => exact .inl ⟨_, rfl, rfl⟩
  | some a =>
    cases hhigh : o.owner? pair.high with
    | none => exact .inl ⟨_, rfl, rfl⟩
    | some b => exact .inr ⟨rfl, rfl, rfl, rfl⟩

end Owned

end Setting

theorem twoServerEngine_owned : twoServerEngine.setting.Owned twoServers .whole :=
  ⟨rfl, fun _ _ => rfl, fun _ _ => rfl, fun _ _ _ => rfl, fun _ _ => rfl⟩

end ProximityNet
