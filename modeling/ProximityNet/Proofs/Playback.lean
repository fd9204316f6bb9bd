import ProximityNet.Movement.Replay
import ProximityNet.Proofs.Reports

/-!
# Steps and the script that is replayed

Every call for a step but the first has a replay go on to its next matrix, before anything is checked,
and only a step that succeeds is counted.  So the matrix keeps pace with the calls and the number of a
step with the calls that succeed; each call that fails puts the script one matrix ahead of the steps.

* `Engine.stepped`, `Engine.failedSteps` — the engine after some calls, and how many of them failed;
* `Engine.runStep_replay` — one call: the two ways it ends;
* `Engine.Plays` — the invariant: how far script and steps have come after some calls;
* `report_keeps_script` — which matrix a step that succeeds has been run with;
* `script_runs_ahead` — a run in which the script is ahead of the steps.
-/

namespace ProximityNet

variable {σ μ : Type}

namespace Engine

section Calls

variable [Movement μ]

/-- The engine after a number of calls for a step. -/
def stepped (e : Engine σ μ) (calls : Nat) : Engine σ μ := e.run (List.replicate calls .step)

@[simp] theorem stepped_zero (e : Engine σ μ) : e.stepped 0 = e := rfl

theorem stepped_succ (e : Engine σ μ) (calls : Nat) :
    e.stepped (calls + 1) = (e.stepped calls).runStep.2 := by
  rw [stepped, List.replicate_succ', run_append]
  rfl

/-- How many of a number of calls for a step fail. -/
def failedSteps (e : Engine σ μ) : Nat → Nat
  | 0 => 0
  | calls + 1 => e.failedSteps calls + if (e.stepped calls).runStep.1.isOk then 0 else 1

end Calls

/-! ### One call -/

/-- There have to be distances, and a matrix has none. -/
def Lacks (e : Engine σ μ) (distances : DistanceMatrix) : Prop :=
  (distances.isEmpty && decide (e.emulationNodes.length > 1)) = true

/-- A call has the replay go on, unless no step has been run; it fails if distances are lacking, and
otherwise it is a step with the matrix that is played. -/
theorem runStep_replay {e : Engine σ Replay} {r r' : Replay} (hr : e.movement = some r)
    (hnext : r' = if e.step = 0 then r else r.advance) :
    (e.Lacks r'.distances ∧ e.runStep =
        (.error (.refused (.emptyDistanceMatrix e.step)), e.moving (some r'))) ∨
      (¬ e.Lacks r'.distances ∧ e.runStep =
        (.ok ((e.moving (some r')).applyDistances r'.distances).1,
          ((e.moving (some r')).applyDistances r'.distances).2)) := by
  have hmove : (if e.step = 0 then Except.ok r else Movement.advance r) =
      (.ok r' : Except MovementFault Replay) := by
    rw [hnext]
    split <;> rfl
  rw [runStep, hr]
  dsimp only
  rw [hmove]
  dsimp only
  by_cases hlacks : e.Lacks r'.distances
  · exact Or.inl ⟨hlacks, if_pos hlacks⟩
  · exact Or.inr ⟨hlacks, if_neg hlacks⟩

/-- What a step leaves of an engine. -/
theorem applyDistances_movement (e : Engine σ μ) (distances : DistanceMatrix) :
    (e.applyDistances distances).2.movement = e.movement := by
  rw [applyDistances]
  dsimp only
  split <;> rfl

/-! ### All calls -/

/-- How far a script and the steps have come after some calls.  As long as no step has succeeded the
replay stands at its first matrix, and if a call was made then distances were lacking in that. -/
structure Plays (e : Engine σ Replay) (script : List DistanceMatrix) (calls failed : Nat) :
    Prop where
  numbered : e.store.Numbered
  replay : ∃ position, e.movement = some ⟨script, position⟩ ∧
    position = if e.step = 0 then 0 else min (calls - 1) (script.length - 1)
  stuck : e.step = 0 → 0 < calls → e.Lacks (Replay.start script).distances
  count : e.step + failed = calls

/-- The place of the replay after the next call. -/
theorem Plays.next {e : Engine σ Replay} {script : List DistanceMatrix} {calls failed : Nat}
    (h : e.Plays script calls failed) (hscript : script ≠ []) {r : Replay}
    (hr : e.movement = some r) (hfirst : e.step = 0 → calls = 0) :
    (if e.step = 0 then r else r.advance) = ⟨script, min calls (script.length - 1)⟩ := by
  obtain ⟨position, hposition, hplace⟩ := h.replay
  obtain rfl := Option.some.inj (hr.symm.trans hposition)
  have hlength : 0 < script.length := List.length_pos_iff.mpr hscript
  split
  · rename_i hstep
    rw [hplace, if_pos hstep, hfirst hstep, Nat.zero_min]
  · rename_i hstep
    have hcalls : e.step ≤ calls := by
      rw [← h.count]
      exact Nat.le_add_right _ _
    rw [if_neg hstep] at hplace
    rw [Replay.advance]
    split
    · rename_i hmore
      dsimp only at hmore ⊢
      rw [show position + 1 = min calls (script.length - 1) by omega]
    · rename_i hlast
      dsimp only at hlast ⊢
      rw [show position = min calls (script.length - 1) by omega]

/-- What one more call does to the script and the steps. -/
theorem Plays.call {e : Engine σ Replay} {script : List DistanceMatrix} {calls failed : Nat}
    (h : e.Plays script calls failed) (hscript : script ≠ []) :
    e.runStep.2.Plays script (calls + 1) (failed + if e.runStep.1.isOk then 0 else 1) ∧
      ∀ report, e.runStep.1 = .ok report → report.step = e.step ∧
        script[min calls (script.length - 1)]? = some e.runStep.2.distances := by
  obtain ⟨position, hposition, hplace⟩ := h.replay
  obtain ⟨r', hr'⟩ : ∃ r', r' = if e.step = 0 then (⟨script, position⟩ : Replay)
    else Replay.advance ⟨script, position⟩ := ⟨_, rfl⟩
  have hstart : e.step = 0 → r' = Replay.start script := by
    intro hstep
    rw [hr', if_pos hstep, hplace, if_pos hstep, Replay.start]
  have hlater : e.step ≠ 0 → r' = ⟨script, min calls (script.length - 1)⟩ := fun hstep =>
    hr'.trans (h.next hscript hposition fun hzero => absurd hzero hstep)
  rcases runStep_replay hposition hr' with ⟨hlacks, hrun⟩ | ⟨hfull, hrun⟩
  · rw [hrun]
    refine ⟨⟨h.numbered, ?_, fun hstep _ => ?_, ?_⟩, fun report heq => by cases heq⟩
    · by_cases hstep : e.step = 0
      · exact ⟨0, by rw [hstart hstep]; rfl, (if_pos hstep).symm⟩
      · exact ⟨_, by rw [hlater hstep]; rfl, (if_neg hstep).symm⟩
    · rw [← hstart hstep]
      exact hlacks
    · show e.step + (failed + 1) = calls + 1
      rw [← h.count, Nat.add_assoc]
  · rw [hrun]
    -- before the first success every call has found the same matrix, so this is the first call
    have hfirst : e.step = 0 → calls = 0 := by
      intro hstep
      by_contra hcalls
      exact hfull (hstart hstep ▸ h.stuck hstep (Nat.pos_of_ne_zero hcalls))
    have hplayed : r' = ⟨script, min calls (script.length - 1)⟩ :=
      hr'.trans (h.next hscript hposition hfirst)
    have hstepped := applyDistances_stepped (e.moving (some r')) h.numbered r'.distances
    have hnumbered : ((e.moving (some r')).applyDistances r'.distances).2.store.Numbered :=
      (hstepped.store.keeps (I := fun _ => True) h.numbered (fun _ _ _ _ _ _ _ => trivial)
        trivial).1
    have hcount : ((e.moving (some r')).applyDistances r'.distances).2.step = e.step + 1 :=
      hstepped.step
    refine ⟨⟨hnumbered, ⟨min calls (script.length - 1), ?_, ?_⟩, fun hzero => ?_, ?_⟩,
      fun report heq => ⟨?_, ?_⟩⟩
    · rw [applyDistances_movement, hplayed]
      rfl
    · rw [hcount, if_neg (Nat.succ_ne_zero _), Nat.add_sub_cancel]
    · rw [hcount] at hzero
      exact absurd hzero (Nat.succ_ne_zero _)
    · show _ + failed = calls + 1
      rw [hcount, ← h.count]
      omega
    · rw [← Except.ok.inj heq]
      exact applyDistances_step (e := e.moving (some r')) h.numbered r'.distances
    · have hcurrent : ((e.moving (some r')).applyDistances r'.distances).2.distances =
          r'.distances :=
        congrArg DistanceTracker.current hstepped.tracker
      have hbound : min calls (script.length - 1) < script.length := by
        have hlength := List.length_pos_iff.mpr hscript
        omega
      rw [hcurrent, hplayed, Replay.distances, List.getElem?_eq_getElem hbound]
      rfl

/-- Every number of calls keeps the invariant. -/
theorem plays_stepped {e : Engine σ Replay} {script : List DistanceMatrix}
    (h : e.Plays script 0 0) (hscript : script ≠ []) (calls : Nat) :
    (e.stepped calls).Plays script calls (e.failedSteps calls) := by
  induction calls with
  | zero => exact h
  | succ calls ih =>
    rw [stepped_succ]
    exact (ih.call hscript).1

/-- An engine that is about to run its first step with a replay that has not begun. -/
theorem plays_start {e : Engine σ Replay} (hs : e.store.Numbered) (hstep : e.step = 0)
    {script : List DistanceMatrix} (hmovement : e.movement = some (.start script)) :
    e.Plays script 0 0 where
  numbered := hs
  replay := ⟨0, hmovement, (if_pos hstep).symm⟩
  stuck _ hcalls := absurd hcalls (Nat.lt_irrefl 0)
  count := by rw [hstep]

end Engine

/-- When a call for a step succeeds after some others, it has been run with the matrix that the script
has for that many calls, the last one staying for good; its number is that of the calls that have
succeeded before.  So number and matrix belong together as long as no call has failed. -/
theorem report_keeps_script {e : Engine σ Replay} (he : e.Reachable) (hstep : e.step = 0)
    {script : List DistanceMatrix} (hmovement : e.movement = some (.start script))
    (hscript : script ≠ []) {calls : Nat} {report : StepReport}
    (h : (e.stepped calls).runStep.1 = .ok report) :
    script[min (report.step + e.failedSteps calls) (script.length - 1)]? =
        some (e.stepped (calls + 1)).distances ∧
      report.step + e.failedSteps calls = calls := by
  have hplays := Engine.plays_stepped (Engine.plays_start he.numbered hstep hmovement) hscript calls
  obtain ⟨hnumber, hmatrix⟩ := (hplays.call hscript).2 report h
  have hcount : report.step + e.failedSteps calls = calls := by rw [hnumber, hplays.count]
  refine ⟨?_, hcount⟩
  rw [hcount, Engine.stepped_succ, hmatrix]

/-- Two nodes near each other, without distances, and a little less near. -/
def interruption : List DistanceMatrix :=
  [apart ⟨2.0, by decide⟩, .empty, apart ⟨3.0, by decide⟩]

/-- An engine that replays distances of the two nodes. -/
def replayEngine (script : List DistanceMatrix) : Engine Unit Replay :=
  (Engine.start ⟨.unshaped .none, .equal, .silent, .local⟩ (some (.start script)) ()).run
    (twoNodes.map .addNode)

/-- The second call fails for want of distances, so the third one is step 1. -/
theorem interruption_report : ∃ report,
    ((replayEngine interruption).stepped 2).runStep.1 = .ok report ∧ report.step = 1 := by
  have hreport : (((replayEngine interruption).stepped 2).runStep.1.toOption.map (·.step)) =
      some 1 := by
    decide +kernel
  cases hresult : ((replayEngine interruption).stepped 2).runStep.1 with
  | error cause =>
    rw [hresult] at hreport
    cases hreport
  | ok report =>
    rw [hresult] at hreport
    exact ⟨report, rfl, Option.some.inj hreport⟩

/-- After the interruption the script is one matrix ahead of the steps. -/
theorem interrupted_script : ∃ report,
    ((replayEngine interruption).stepped 2).runStep.1 = .ok report ∧
      (replayEngine interruption).failedSteps 2 = 1 ∧
      interruption[min (report.step + 1) 2]? =
        some ((replayEngine interruption).stepped 3).distances := by
  obtain ⟨report, hreport, _⟩ := interruption_report
  have he : (replayEngine interruption).Reachable :=
    (Engine.ReachableBy.start _ _ _).run (twoNodes.map .addNode) fun _ _ _ => trivial
  have hfailed : (replayEngine interruption).failedSteps 2 = 1 := by decide +kernel
  have hmovement : (replayEngine interruption).movement = some (.start interruption) := rfl
  have hkeeps := report_keeps_script he (by decide +kernel) hmovement (List.cons_ne_nil _ _) hreport
  rw [hfailed] at hkeeps
  exact ⟨report, hreport, hfailed, hkeeps.1⟩

/-- A step that follows a failed call is not run with the matrix that the script has for its number. -/
theorem script_runs_ahead : ∃ report,
    ((replayEngine interruption).stepped 2).runStep.1 = .ok report ∧ report.step = 1 ∧
      interruption[min report.step (interruption.length - 1)]? ≠
        some ((replayEngine interruption).stepped 3).distances := by
  obtain ⟨report, hreport, hstep⟩ := interruption_report
  refine ⟨report, hreport, hstep, fun heq => ?_⟩
  rw [hstep] at heq
  have hempty : ((replayEngine interruption).stepped 3).distances.isEmpty = false := by
    decide +kernel
  rw [← Option.some.inj heq] at hempty
  exact absurd hempty (by decide)

end ProximityNet
