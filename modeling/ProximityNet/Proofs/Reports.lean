import ProximityNet.Proofs.Tellings

/-!
# What a step reports

A step starts from a blank report, has its changed pairs reconciled one after another, and returns
what these have counted.  A step that is skipped is no exception: it has no pairs.

* `Engine.Works`, `applyDistances_works` — the work between the blank report and the one returned;
* `Move.reportStep`, `applyDistances_step` — a report carries the number of its step.
-/

namespace ProximityNet

open Relation (ReflTransGen)

variable {σ μ : Type}

namespace Setting

variable {s : Setting σ} {t : Task} {p p' : Progress σ}

/-- A move does not renumber the report. -/
theorem Move.reportStep (h : s.Move t p p') : p'.report.step = p.report.step := by
  cases h <;> rfl

theorem proceeds_reportStep {due : Task → Prop} (h : ReflTransGen (s.Proceeds due) p p') :
    p'.report.step = p.report.step := by
  induction h with
  | refl => rfl
  | tail _ hproceeds ih =>
    cases hproceeds with
    | move _ hmove => exact hmove.reportStep.trans ih
    | failure => exact ih

end Setting

namespace Engine

variable {e : Engine σ μ}

/-- The work of a step, from `p` to `q`: what is counted in it is what the step reports. -/
structure Works (e : Engine σ μ) (distances : DistanceMatrix) (p q : Progress σ) : Prop where
  store : p.store = e.store
  blank : p.report = .blank e.step (e.changed distances).size
  proceeds : ReflTransGen (e.setting.Proceeds
    (Task.DueInStep e.nodes e.step (e.changed distances))) p q
  result : (e.applyDistances distances).2.store = q.store
  report : ∃ unchanged commitError,
    (e.applyDistances distances).1 = { q.report with unchanged, commitError }

/-- Every step comes to some work. -/
theorem applyDistances_works (hs : e.store.Numbered) (distances : DistanceMatrix) :
    ∃ p q, e.Works distances p q := by
  by_cases hskip : ((e.changed distances).isEmpty && e.step != 0) = true
  · -- a step that is skipped has no pairs
    obtain ⟨hreport, hstore, -, hempty⟩ := applyDistances_skipped hskip
    have hsize : (e.changed distances).size = 0 := by rw [SortedMap.size, hempty]; rfl
    refine ⟨e.progress (.blank e.step 0), e.progress (.blank e.step 0), rfl, ?_, ReflTransGen.refl,
      hstore, true, none, hreport⟩
    rw [hsize]
    rfl
  · obtain ⟨all, commitError, hreport, hstore, -⟩ := applyDistances_visits hskip
    exact ⟨e.opened (e.changed distances) all, e.visits (e.changed distances) all, rfl, rfl,
      Setting.reconcileAll_entries _ _ _ _ hs, hstore, _, commitError, hreport⟩

/-- A report carries the number of its step. -/
theorem applyDistances_step (hs : e.store.Numbered) (distances : DistanceMatrix) :
    (e.applyDistances distances).1.step = e.step := by
  obtain ⟨p, q, hworks⟩ := applyDistances_works hs distances
  obtain ⟨_, _, hreport⟩ := hworks.report
  rw [hreport]
  dsimp only
  rw [Setting.proceeds_reportStep hworks.proceeds, hworks.blank]
  rfl

end Engine

end ProximityNet
