import ProximityNet.Proofs.FirstRaise
import ProximityNet.Proofs.Tellings

/-!
# Steps in which no distance changes

After the first step a matrix that says what the last one said has nothing to be reconciled but the
pairs of hubs, whatever has failed or been refused before.  Without hubs the step is skipped.

* `DistanceMatrix.Equals` — the same pairs, at distances that are equal as numbers;
* `changesSince_of_equals` — between such matrices nothing changes;
* `ReachableBy.overlay_made` — the hub overlay is there after the first step;
* `unchanged_matrix_idle` — what a step with such a matrix looks at, tells, stores and reports.
-/

namespace ProximityNet

variable {σ μ : Type}

namespace DistanceMatrix

/-- The same pairs, at distances that are equal as numbers. -/
def Equals (m m' : DistanceMatrix) : Prop :=
  ∀ pair, Option.Rel (fun d d' => (d == d') = true) (m.get? pair) (m'.get? pair)

theorem change_of_rel {now before : Option Distance}
    (h : Option.Rel (fun d d' => (d == d') = true) now before) : change now before = none := by
  cases h with
  | none => rfl
  | some h => exact if_pos h

theorem changesSince_of_equals {m m' : DistanceMatrix} (h : m.Equals m') :
    m.changesSince m' = .empty := by
  apply SortedMap.ext_get?
  intro pair
  rw [get?_changesSince, change_of_rel (h pair)]
  rfl

end DistanceMatrix

theorem SortedMap.overlay_empty {κ ν : Type} [Ranked κ] (m : SortedMap κ ν) :
    SortedMap.overlay .empty m = m := by
  apply SortedMap.ext_get?
  intro k
  rw [SortedMap.get?_overlay, SortedMap.get?_empty, Option.or_none]

/-! ### Reports -/

namespace Setting

variable {s : Setting σ} {t : Task} {p p' : Progress σ}

theorem Move.changedPairs (h : s.Move t p p') : p'.report.changedPairs = p.report.changedPairs := by
  cases h <;> rfl

theorem proceeds_changedPairs {due : Task → Prop}
    (h : Relation.ReflTransGen (s.Proceeds due) p p') :
    p'.report.changedPairs = p.report.changedPairs := by
  induction h with
  | refl => rfl
  | tail _ hproceeds ih =>
    cases hproceeds with
    | move _ hmove => exact hmove.changedPairs.trans ih
    | failure => exact ih

end Setting

namespace Engine

variable {e : Engine σ μ}

/-! ### Single steps -/

/-- Once there is an overlay, what a step looks at are the changes with the overlay laid over. -/
theorem changed_of_overlay {o : DistanceMatrix} (ho : e.tracker.overlay = some o)
    (distances : DistanceMatrix) :
    e.changed distances = (distances.changesSince e.distances).overlay o := by
  rw [changed_eq, hubs, ho, Option.getD_some]

/-- The pairs that a step does not look at keep their links. -/
theorem applyDistances_find?_of_unchanged (hs : e.store.Numbered) {distances : DistanceMatrix}
    {pair : NodePair} (hpair : (e.changed distances).contains pair = false) (i : InterfacePair) :
    (e.applyDistances distances).2.store.find? pair i = e.store.find? pair i := by
  refine ((applyDistances_stepped e hs distances).store.keeps
    (I := fun st => st.find? pair i = e.store.find? pair i) hs (fun t p p' ht hn hmove hI => ?_)
    rfl).2
  cases t with
  | manage v => exact ht.elim
  | follow v =>
    refine (hmove.find?_of_ne hn fun heq => ?_).trans hI
    have hv : (e.changed distances).contains pair = true :=
      SortedMap.contains_iff.mpr ⟨v.distance, heq ▸ ht.changed⟩
    rw [hpair] at hv
    cases hv

/-- A step that has nothing to look at only counts. -/
theorem applyDistances_of_empty {o distances : DistanceMatrix} (ho : e.tracker.overlay = some o)
    (hempty : (e.changed distances).isEmpty = true) (hstep : e.step ≠ 0) :
    e.applyDistances distances = ({ StepReport.blank e.step 0 with unchanged := true },
      { e with tracker := ⟨distances, some o⟩, step := e.step + 1 }) := by
  have hskip : ((e.changed distances).isEmpty && e.step != 0) = true := by
    rw [hempty, Bool.true_and, bne_iff_ne]
    exact hstep
  rw [changed] at hskip
  rw [applyDistances]
  dsimp only at hskip ⊢
  rw [if_pos hskip, DistanceTracker.ensureOverlay, ho]
  rfl

variable [Movement μ]

/-- A step reports how many pairs have changed. -/
theorem changedPairs_apply (hs : e.store.Numbered) (distances : DistanceMatrix) :
    (e.applyDistances distances).1.changedPairs = (e.changed distances).size := by
  by_cases hskip : ((e.changed distances).isEmpty && e.step != 0) = true
  · have hempty : (e.changed distances).entries = [] :=
      List.isEmpty_iff.mp (Bool.and_eq_true_iff.mp hskip).1
    rw [SortedMap.size, hempty]
    rw [changed] at hskip
    rw [applyDistances]
    dsimp only at hskip ⊢
    rw [if_pos hskip]
    rfl
  · obtain ⟨p, _, _, _, hstore, hblank, _, _, hreport⟩ := history_apply hskip
    have hps : p.store.Numbered := by
      rw [hstore]
      exact hs
    rw [hreport]
    dsimp only
    rw [Setting.proceeds_changedPairs (Setting.reconcileAll_entries _ _ _ _ hps), hblank]
    rfl

/-- The hub overlay is there after the first step. -/
theorem ReachableBy.overlay_made {allowed : Engine σ μ → Operation → Prop}
    (h : e.ReachableBy allowed) (hstep : e.step ≠ 0) : ∃ o, e.tracker.overlay = some o := by
  have hinv : e.step ≠ 0 → ∃ o, e.tracker.overlay = some o := by
    refine h.invariant (I := fun e => e.step ≠ 0 → ∃ o, e.tracker.overlay = some o) ?_ ?_ ?_ ?_
    · intro _ _ _ hzero
      exact absurd rfl hzero
    · intro _ _ hsame hI hstep
      rw [hsame.step] at hstep
      rw [hsame.tracker]
      exact hI hstep
    · intro _ _ _ _ _ hperforms hI
      cases hperforms with
      | idle same =>
        intro hstep
        rw [same.step] at hstep
        rw [same.tracker]
        exact hI hstep
      | added => exact hI
      | linked => exact hI
      | stepped _ hstepped =>
        intro _
        rw [hstepped.tracker]
        exact ⟨_, rfl⟩
    · intro _ _ hzero
      exact absurd rfl hzero
  exact hinv hstep

/-- After the first step, a matrix with the distances of the last one has the step look at the pairs of
hubs alone, whatever has failed before: it tells of no other link and changes none.  If there are no
hubs nothing is told, the report says so, and only the step is counted. -/
theorem unchanged_matrix_idle (he : e.Reachable) (hstep : e.step ≠ 0) {m : DistanceMatrix}
    (hm : m.Equals e.distances) :
    ∃ o, e.tracker.overlay = some o ∧ e.changed m = o ∧
      (e.applyDistances m).1.changedPairs = o.size ∧
      (o.isEmpty = false → ∃ all rest, e.history [.apply m] =
        .announced (.stepStarting e.step all) :: .announced (.changesPending e.step o all) :: rest) ∧
      (∀ x ∈ e.history [.apply m], ∀ site c, x.link? = some (site, c) → o.contains c.pair = true) ∧
      (∀ pair, o.contains pair = false → ∀ i,
        (e.applyDistances m).2.store.find? pair i = e.store.find? pair i) ∧
      (o.isEmpty = true → e.history [.apply m] = [] ∧
        e.applyDistances m = ({ StepReport.blank e.step 0 with unchanged := true },
          { e with tracker := ⟨m, some o⟩, step := e.step + 1 })) := by
  obtain ⟨o, ho⟩ := he.overlay_made hstep
  have hchanged : e.changed m = o := by
    rw [changed_of_overlay ho, DistanceMatrix.changesSince_of_equals hm, SortedMap.overlay_empty]
  refine ⟨o, ho, hchanged, ?_, fun hfull => ?_, fun x hx site c hlink => ?_, fun pair hpair i => ?_,
    fun hempty => ⟨?_, ?_⟩⟩
  · rw [changedPairs_apply he.numbered, hchanged]
  · have hskip : ¬ ((e.changed m).isEmpty && e.step != 0) = true := by
      rw [hchanged, hfull, Bool.false_and]
      exact nofun
    obtain ⟨p, all, result, _, hstore, _, hbefore, hhistory, _⟩ := history_apply hskip
    have hps : p.store.Numbered := by
      rw [hstore]
      exact he.numbered
    obtain ⟨l, hl, _⟩ := Setting.proceeds_told
      (Setting.reconcileAll_entries e.setting.recorded e.nodes e.step (e.changed m) hps) hps
    rw [hhistory, hl, hbefore, hchanged]
    exact ⟨all, _, rfl⟩
  · rcases history_told he.numbered m x hx with hnone | ⟨v, hv, _, c', hlink', _, _, hpair, _⟩
    · rw [hnone] at hlink
      cases hlink
    · rw [hlink] at hlink'
      obtain ⟨-, rfl⟩ := Prod.mk.inj (Option.some.inj hlink')
      rw [hpair, ← hchanged]
      exact SortedMap.contains_iff.mpr ⟨v.distance, hv.changed⟩
  · exact applyDistances_find?_of_unchanged he.numbered (by rw [hchanged, hpair]) i
  · refine history_skipped ?_
    rw [hchanged, hempty, Bool.true_and, bne_iff_ne]
    exact hstep
  · exact applyDistances_of_empty ho (by rw [hchanged, hempty]) hstep

end Engine

/-! ### A link that stays down -/

/-- Two nodes have come near, and the backend has failed to bring their link up. -/
def stumbled : Engine Script Stationary :=
  (Engine.start ⟨.unshaped .none, Pairing.equal, Script.backend, .local⟩ none stumble).run
    (twoNodes.map .addNode ++ [.apply (apart .zero)])

/-- The other zero. -/
def Distance.negativeZero : Distance := ⟨-0.0, by decide⟩

theorem get?_apart (d : Distance) (pair : NodePair) :
    (apart d).get? pair = if pair = ⟨⟨1⟩, ⟨2⟩⟩ then some d else none := by
  have hlist : apart d = SortedMap.ofList ([⟨⟨1⟩, ⟨2⟩⟩].map fun pair => (pair, d)) := rfl
  rw [hlist, SortedMap.get?_ofList_const]
  simp only [List.mem_singleton]

/-- The link is not tried again when the nodes stay where they are, the distance being written with
the other zero. -/
theorem stumbled_stays_down :
    (apart .negativeZero).Equals stumbled.distances ∧ .negativeZero ≠ Distance.zero ∧
      ((stumbled.store.find? ⟨⟨1⟩, ⟨2⟩⟩ ⟨⟨.mesh, 0⟩, ⟨.mesh, 0⟩⟩).map (·.connected)) = some false ∧
      stumbled.history [.apply (apart .negativeZero)] = [] ∧
      (stumbled.applyDistances (apart .negativeZero)).1 =
        { StepReport.blank 1 0 with unchanged := true } ∧
      (stumbled.applyDistances (apart .negativeZero)).2.store = stumbled.store := by
  have hbefore : ((Engine.start ⟨.unshaped .none, Pairing.equal, Script.backend, .local⟩
      (none : Option Stationary) stumble).run (twoNodes.map .addNode)).Reachable :=
    (Engine.ReachableBy.start _ _ _).run _ fun _ _ _ => trivial
  have he : stumbled.Reachable :=
    Engine.ReachableBy.run (.start _ _ _) (twoNodes.map .addNode ++ [.apply (apart .zero)])
      fun _ _ _ => trivial
  have hstep : stumbled.step = 1 := by decide +kernel
  have hcurrent : stumbled.distances = apart .zero := congrArg DistanceTracker.current
    (Engine.applyDistances_stepped _ hbefore.numbered (apart .zero)).tracker
  have hequals : (apart .negativeZero).Equals stumbled.distances := by
    intro pair
    rw [hcurrent, get?_apart, get?_apart]
    split
    · exact .some (by decide +kernel)
    · exact .none
  obtain ⟨o, ho, _, _, _, _, _, hidle⟩ :=
    Engine.unchanged_matrix_idle he (by rw [hstep]; decide) hequals
  have hempty : o.isEmpty = true := by
    have hoverlay : stumbled.tracker.overlay.map (·.isEmpty) = some true := by decide +kernel
    rw [ho] at hoverlay
    exact Option.some.inj hoverlay
  obtain ⟨hhistory, happly⟩ := hidle hempty
  refine ⟨hequals, by decide +kernel, by decide +kernel, hhistory, ?_, ?_⟩
  · rw [happly, hstep]
  · rw [happly]

end ProximityNet
