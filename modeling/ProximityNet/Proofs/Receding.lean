import ProximityNet.Proofs.Incremental
import ProximityNet.Proofs.Ranges
import ProximityNet.Proofs.Reports
import ProximityNet.Proofs.Unchanged

/-!
# Nodes that move apart

When nothing fails all candidates of the pairs in range are up after a step.  If no pair is nearer in
the next matrix than in this one, then the pairs in range then are pairs in range now, and the next
step finds nothing to set up and nothing to bring up.

* `DistanceMatrix.Recedes` — no pair is nearer in a later matrix;
* `ConnectionStore.Sinks` — no link is new, and none that was down is up;
* `Setting.Raised` — the candidates of the changed pairs in range are up;
* `Setting.Calm`, `Move.calm`, `proceeds_calm` — what a visit keeps when they are;
* `Engine.raised_of_recedes` — they are, if no pair is nearer;
* `receding_raises_nothing` — then a step raises nothing, after any sequence of matrices.
-/

namespace ProximityNet

open Relation (ReflTransGen)

variable {σ μ : Type}

namespace DistanceMatrix

/-- The distance of a pair; one without an entry is out of any range. -/
def reach (m : DistanceMatrix) (pair : NodePair) : Distance := (m.get? pair).getD .unlimited

/-- No pair is nearer in the second matrix than in the first. -/
def Recedes (m next : DistanceMatrix) : Prop :=
  ∀ pair, (m.reach pair).value ≤ (next.reach pair).value

/-- What a pair has changed to is the distance that it has now. -/
theorem getD_of_change {now before : Option Distance} {d : Distance}
    (h : change now before = some d) : now.getD .unlimited = d := by
  cases now with
  | none =>
    cases before with
    | none => cases h
    | some _ => exact Option.some.inj h
  | some d' =>
    cases before with
    | none => exact Option.some.inj h
    | some d'' =>
      rw [change] at h
      split at h
      · cases h
      · exact Option.some.inj h

end DistanceMatrix

/-- Every link was there before, and if it is up it was up before. -/
def ConnectionStore.Sinks (st st' : ConnectionStore) : Prop :=
  ∀ pair i c', st'.find? pair i = some c' →
    ∃ c, st.find? pair i = some c ∧ (c'.connected = true → c.connected = true)

theorem ConnectionStore.sinks_refl (st : ConnectionStore) : st.Sinks st :=
  fun _ _ c hc => ⟨c, hc, id⟩

namespace Setting

variable {s : Setting σ} {nodes : SortedMap NodeId Node} {changed : DistanceMatrix} {step : Nat}
  {st : ConnectionStore} {v v' : Visit} {p p' : Progress σ} {c c' : Connection}

/-- All candidates of the changed pairs that are in range are up. -/
def Raised (s : Setting σ) (nodes : SortedMap NodeId Node) (changed : DistanceMatrix)
    (st : ConnectionStore) : Prop :=
  ∀ v : Visit, v.Joins nodes → changed.get? v.pair = some v.distance →
    (s.decide v.kind v.distance).connected = true → ∀ ix iy, (ix, iy) ∈ s.candidates v →
      ∃ c, st.find? v.pair ⟨ix, iy⟩ = some c ∧ c.connected = true

/-- Nothing has been raised since the store was `st`, and there is nothing to raise. -/
structure Calm (s : Setting σ) (nodes : SortedMap NodeId Node) (changed : DistanceMatrix)
    (st : ConnectionStore) (p : Progress σ) : Prop where
  created : p.report.created = 0
  linksUp : p.report.linksUp = 0
  sinks : st.Sinks p.store
  raised : s.Raised nodes changed p.store

/-! ### A visit -/

theorem joins_of_follows (hv : v.Follows nodes step changed) : v.Joins nodes := ⟨hv.x, hv.y⟩

/-- The links that a visit would set up exist. -/
theorem Calm.launched {l : Launch} (h : s.Calm nodes changed st p)
    (hv : v.Follows nodes step changed) (launch : s.Launches (.follow v) l) :
    p.store.find? v.pair l.interfaces ≠ none := by
  cases launch with
  | follow near candidate =>
    obtain ⟨c, hc, _⟩ := h.raised v (joins_of_follows hv) hv.changed near _ _ candidate
    rw [hc]
    exact nofun

/-- The links of a pair in range are up. -/
theorem Calm.connected (h : s.Calm nodes changed st p) (ho : s.Offers nodes st)
    (hv : v.Follows nodes step changed) (near : (s.decide v.kind v.distance).connected = true)
    (found : p.store.find? v.pair c.interfaces = some c) : c.connected = true := by
  obtain ⟨c₀, hfound, _⟩ := h.sinks _ _ _ found
  have hcandidate := (ho.at_pair (joins_of_follows hv) hfound).1
  obtain ⟨x, hx, hup⟩ := h.raised v (joins_of_follows hv) hv.changed near _ _ hcandidate
  obtain rfl : c = x := Option.some.inj (found.symm.trans hx)
  exact hup

/-- A link of the pair may be changed, if it does not come up and, in range, stays up. -/
theorem Calm.file (h : s.Calm nodes changed st p) (hs : p.store.WellFormed)
    (hv : v.Follows nodes step changed) (found : p.store.find? v.pair c.interfaces = some c)
    (hpair : c'.pair = v.pair) (hi : c'.interfaces = c.interfaces)
    (sinks : c'.connected = true → c.connected = true)
    (stays : (s.decide v.kind v.distance).connected = true → c'.connected = true)
    {report : StepReport} {world : σ} (created : report.created = p.report.created)
    (linksUp : report.linksUp = p.report.linksUp) :
    s.Calm nodes changed st ⟨p.store.file c', report, world⟩ := by
  refine ⟨created.trans h.created, linksUp.trans h.linksUp, fun pair i x hx => ?_,
    fun w hw hchanged near ix iy hcandidate => ?_⟩ <;> dsimp only at *
  · rw [hs.find?_file] at hx
    split at hx
    · rename_i heq
      obtain rfl := Option.some.inj hx
      obtain ⟨c₀, hfound, hup⟩ := h.sinks _ _ _ found
      refine ⟨c₀, ?_, fun hx => hup (sinks hx)⟩
      rw [← heq.1, ← heq.2, hpair, hi]
      exact hfound
    · exact h.sinks _ _ _ hx
  · rw [hs.find?_file]
    split
    · -- the visits to one pair are at one distance
      rename_i heq
      have hsame : w.pair = v.pair := heq.1.symm.trans hpair
      obtain ⟨hx, hy⟩ := (joins_of_follows hv).eq hw hsame
      have hdistance : w.distance = v.distance := by
        rw [hsame, hv.changed] at hchanged
        exact (Option.some.inj hchanged).symm
      rw [Visit.kind_congr hx hy, hdistance] at near
      exact ⟨c', rfl, stays near⟩
    · exact h.raised w hw hchanged near ix iy hcandidate

/-- No move of a visit raises anything when there is nothing to raise. -/
theorem Move.calm (hmove : s.Move (.follow v) p p') (hv : v.Follows nodes step changed)
    (hs : p.store.WellFormed) (ho : s.Offers nodes st) (h : s.Calm nodes changed st p) :
    s.Calm nodes changed st p' := by
  cases hmove with
  | tunnel | raiseFailed | lowerFailed | adjustFailed | hubAdjusted =>
    exact ⟨h.created, h.linksUp, h.sinks, h.raised⟩
  | startFailed launch free | refused launch free | createFailed launch free
  | launchFailed launch free | launched launch free => exact absurd free (h.launched hv launch)
  | raised revive found down =>
    cases revive with
    | follow near =>
      rw [h.connected ho hv near found] at down
      cases down
  | lowered kind far found up =>
    have hfar : (s.decide v.kind v.distance).connected ≠ true := Bool.eq_false_iff.mp far
    refine h.file hs hv found ?_ ?_ ?_ ?_ ?_ ?_
    exacts [(hs.keys_eq found).1, rfl, fun _ => up, fun near => absurd near hfar, rfl, rfl]
  | adjusted kind adjust found up =>
    refine h.file hs hv found ?_ ?_ ?_ ?_ ?_ ?_
    exacts [(hs.keys_eq found).1, rfl, id, fun _ => up, rfl, rfl]

/-- Nor does any work of a step. -/
theorem proceeds_calm (hproceeds : ReflTransGen (s.Proceeds (Task.DueInStep nodes step changed)) p p')
    (hs : p.store.Numbered) (ho : s.Offers nodes st) (h : s.Calm nodes changed st p) :
    p'.store.Numbered ∧ s.Calm nodes changed st p' := by
  induction hproceeds with
  | refl => exact ⟨hs, h⟩
  | tail _ hnext ih =>
    refine ⟨hnext.numbered ih.1, ?_⟩
    cases hnext with
    | @move t _ _ ht hmove =>
      cases t with
      | follow v => exact hmove.calm ht ih.1.toWellFormed ho ih.2
      | manage v => exact ht.elim
    | failure => exact ⟨ih.2.created, ih.2.linksUp, ih.2.sinks, ih.2.raised⟩

end Setting

/-! ### Steps -/

namespace Engine

variable {e : Engine σ μ} {next : DistanceMatrix}

/-- The hub overlay of an engine that tracks its matrices is the one that its nodes ask for. -/
theorem Tracks.changed_eq (h : e.Tracks) (next : DistanceMatrix) :
    e.changed next = (next.changesSince e.distances).overlay (hubOverlay e.nodes.values) := by
  rw [Engine.changed_eq, hubs, h.overlay]

/-- If every pair is as the last matrix asks and no pair is nearer in the next one, the candidates of
the pairs that are in range next are up. -/
theorem raised_of_recedes (hm : e.setting.model.Ranged) (hfalls : e.setting.model.FallsOff)
    (h : e.Tracks) (hfollows : e.Follows e.distances) (hd : next.Emulated e.nodes)
    (hrecedes : e.distances.Recedes next) :
    e.setting.Raised e.nodes (e.changed next) e.store := by
  intro v hv hchanged near ix iy hcandidate
  suffices hlast : ∃ d, (e.distances.overlay (hubOverlay e.nodes.values)).get? v.pair = some d ∧
      (e.setting.decide v.kind d).connected = true by
    obtain ⟨d, hget, hconnected⟩ := hlast
    obtain ⟨c, hc, hup, _⟩ := (hfollows v hv).near hget hconnected ix iy hcandidate
    exact ⟨c, hc, hup⟩
  rw [h.changed_eq, SortedMap.get?_overlay, get?_hubOverlay, DistanceMatrix.get?_changesSince]
    at hchanged
  rw [SortedMap.get?_overlay, get?_hubOverlay]
  by_cases hhub : v.pair ∈ hubPairs e.nodes.values
  · rw [if_pos hhub] at hchanged ⊢
    exact ⟨.zero, rfl, by rw [Option.some.inj hchanged]; exact near⟩
  rw [if_neg hhub, Option.none_or] at hchanged ⊢
  have hkind : v.kind = .user := by
    have hplain : ∃ m d, DistanceMatrix.Emulated m e.nodes ∧ m.get? v.pair = some d := by
      cases hnow : next.get? v.pair with
      | some d => exact ⟨next, d, hd, hnow⟩
      | none =>
        cases hbefore : e.distances.get? v.pair with
        | some d => exact ⟨e.distances, d, h.emulated, hbefore⟩
        | none =>
          rw [hnow, hbefore] at hchanged
          cases hchanged
    obtain ⟨m, d, hemulated, hget⟩ := hplain
    obtain ⟨x, y, hx, hy, hxe, hye⟩ := hemulated v.pair d hget
    rw [hv.x] at hx
    rw [hv.y] at hy
    rw [← Option.some.inj hx] at hxe
    rw [← Option.some.inj hy] at hye
    exact kind_of_emulation hxe hye
  have hdecide : ∀ d, e.setting.decide v.kind d = e.setting.model.decide d := by
    intro d
    rw [Setting.decide, hkind, if_neg (by simp)]
  rw [hdecide] at near
  -- in range next, so in range now
  have hnow : (e.setting.model.decide (e.distances.reach v.pair)).connected = true := by
    rw [← DistanceMatrix.getD_of_change hchanged] at near
    exact hfalls _ _ (hrecedes v.pair) near
  rw [DistanceMatrix.reach] at hnow
  cases hbefore : e.distances.get? v.pair with
  | none =>
    rw [hbefore, Option.getD_none, hm.unlimited] at hnow
    cases hnow
  | some d =>
    rw [hbefore, Option.getD_some] at hnow
    exact ⟨d, rfl, by rw [hdecide]; exact hnow⟩

/-- Then a step sets up no link and brings none up. -/
theorem applyDistances_recedes (hm : e.setting.model.Ranged) (hfalls : e.setting.model.FallsOff)
    (h : e.Tracks) (hfollows : e.Follows e.distances) (hd : next.Emulated e.nodes)
    (hrecedes : e.distances.Recedes next) :
    (e.applyDistances next).1.created = 0 ∧ (e.applyDistances next).1.linksUp = 0 ∧
      e.store.Sinks (e.applyDistances next).2.store := by
  obtain ⟨p, q, hworks⟩ := applyDistances_works h.offers.numbered next
  have hstart : e.setting.Calm e.nodes (e.changed next) e.store p := by
    refine ⟨by rw [hworks.blank]; rfl, by rw [hworks.blank]; rfl, ?_, ?_⟩
    · rw [hworks.store]
      exact e.store.sinks_refl
    · rw [hworks.store]
      exact raised_of_recedes hm hfalls h hfollows hd hrecedes
  have hnumbered : p.store.Numbered := by
    rw [hworks.store]
    exact h.offers.numbered
  have hcalm := (Setting.proceeds_calm hworks.proceeds hnumbered h.offers hstart).2
  obtain ⟨_, _, hreport⟩ := hworks.report
  rw [hreport, hworks.result]
  exact ⟨hcalm.created, hcalm.linksUp, hcalm.sinks⟩

/-- After a sequence of matrices an engine tracks and follows the last one. -/
theorem run_settled [Movement μ] (hb : e.setting.backend.Reliable) (ht : e.setting.policy.Reliable)
    (hm : e.setting.model.Ranged) (h : e.Tracks) (earlier : List DistanceMatrix)
    (last : DistanceMatrix) (hl : ∀ m ∈ earlier ++ [last], m.Emulated e.nodes) :
    (e.run ((earlier ++ [last]).map .apply)).Tracks ∧
      (e.run ((earlier ++ [last]).map .apply)).Follows last ∧
      (e.run ((earlier ++ [last]).map .apply)).distances = last := by
  obtain ⟨htracks, hsetting, hnodes⟩ := run_tracks hb ht hm h hl
  refine ⟨htracks, ?_, ?_⟩
  · rw [Follows, hsetting, hnodes]
    exact (run_follows hb ht hm h earlier last hl).2
  · have hearlier := (run_tracks hb ht hm h fun m hmem => hl m (List.mem_append_left _ hmem)).1
    rw [List.map_append, run_append]
    exact congrArg DistanceTracker.current
      (applyDistances_stepped _ hearlier.offers.numbered last).tracker

end Engine

/-- When nothing is refused and nothing fails, a matrix in which no pair is nearer than in the last one
has no link set up and none brought up, whatever the matrices before were. -/
theorem receding_raises_nothing [Movement μ] {initial : Shaping} {config : LinkModel.Config}
    {model : LinkModel} (hmodel : LinkModel.build initial config = .ok model) {pairing : Pairing}
    {b : Backend σ} (hb : b.Reliable) {t : TunnelPolicy σ} (ht : t.Reliable) {movement : Option μ}
    {world : σ} {nodes : List Node} {e : Engine σ μ}
    (he : (Engine.start ⟨model, pairing, b, t⟩ movement world).addNodes nodes = .ok e)
    (earlier : List DistanceMatrix) {last next : DistanceMatrix}
    (hl : ∀ m ∈ earlier ++ [last], m.Emulated e.nodes) (hnext : next.Emulated e.nodes)
    (hrecedes : last.Recedes next) :
    ((e.run ((earlier ++ [last]).map .apply)).applyDistances next).1.created = 0 ∧
      ((e.run ((earlier ++ [last]).map .apply)).applyDistances next).1.linksUp = 0 ∧
      (e.run ((earlier ++ [last]).map .apply)).store.Sinks
        ((e.run ((earlier ++ [last]).map .apply)).applyDistances next).2.store := by
  have hranged := LinkModel.build_ranged hmodel
  have hfalls := LinkModel.build_fallsOff hmodel
  obtain ⟨htracks, hsetting, hnodes⟩ := Engine.tracks_start he
  have hrun := Engine.run_tracks (l := earlier ++ [last]) (by rw [hsetting]; exact hb)
    (by rw [hsetting]; exact ht) (by rw [hsetting]; exact hranged) htracks hl
  obtain ⟨htracks', hfollows, hdistances⟩ := Engine.run_settled (by rw [hsetting]; exact hb)
    (by rw [hsetting]; exact ht) (by rw [hsetting]; exact hranged) htracks earlier last hl
  obtain ⟨_, hsetting', hnodes'⟩ := hrun
  refine Engine.applyDistances_recedes ?_ ?_ htracks' ?_ ?_ ?_
  · rw [hsetting', hsetting]
    exact hranged
  · rw [hsetting', hsetting]
    exact hfalls
  · rw [hdistances]
    exact hfollows
  · rw [hnodes']
    exact hnext
  · rw [hdistances]
    exact hrecedes

/-- The two nodes get out of range, and their link goes down. -/
theorem parting_raises_nothing :
    ((twoNodeEngine.run (([] ++ [apart .zero]).map .apply)).applyDistances .empty).1.created = 0 ∧
      ((twoNodeEngine.run (([] ++ [apart .zero]).map .apply)).applyDistances .empty).1.linksUp = 0 ∧
      ((twoNodeEngine.run (([] ++ [apart .zero]).map .apply)).applyDistances .empty).1.linksDown =
        1 := by
  have hadd : (Engine.start ⟨.unshaped .none, .equal, .silent, .local⟩ none ()).addNodes twoNodes =
      .ok twoNodeEngine := rfl
  have hmodel : LinkModel.build .none .unshaped = .ok (.unshaped .none) := rfl
  have hl : ∀ m ∈ [] ++ [apart .zero], m.Emulated twoNodeEngine.nodes := by
    intro m hm pair d hd
    rw [List.mem_singleton.mp hm, get?_apart] at hd
    split at hd
    · rename_i hpair
      rw [hpair]
      exact ⟨_, _, rfl, rfl, rfl, rfl⟩
    · cases hd
  have hnext : DistanceMatrix.Emulated .empty twoNodeEngine.nodes := by
    intro pair d hd
    cases hd
  have hrecedes : (apart .zero).Recedes .empty := by
    intro pair
    have hzero : Distance.zero.value ≤ Distance.unlimited.value := by decide
    have hunlimited : Distance.unlimited.value ≤ Distance.unlimited.value := by decide
    rw [DistanceMatrix.reach, get?_apart]
    split
    · exact hzero
    · exact hunlimited
  obtain ⟨hcreated, hup, _⟩ := receding_raises_nothing hmodel reliable_silent reliable_local hadd []
    hl hnext hrecedes
  exact ⟨hcreated, hup, by decide +kernel⟩

end ProximityNet
