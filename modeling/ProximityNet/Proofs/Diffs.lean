import ProximityNet.Proofs.Receding

/-!
# Differences add up

A tracker is fed one matrix after another and returns what each of them changes.  Whoever only sees
the differences, and lays them over each other in their order, knows every distance of the last
matrix.  A pair that is gone is returned at the unlimited distance, so what is known of it then is
the same as of a pair that never was there.

* `TrackerCall`, `DistanceTracker.after` — what is done with a tracker, and what it is afterwards;
* `DistanceMatrix.total` — the differences returned since the last reset, laid over each other;
* `DistanceMatrix.lastFed` — the last matrix fed since then;
* `DistanceMatrix.Shows` — what one matrix shows of the distances of another;
* `Shows.overlay_changes` — laying a difference over a matrix keeps it in step;
* `diffs_add_up` — after any calls the differences add up to the last matrix.
-/

namespace ProximityNet

/-- What is done with a tracker. -/
inductive TrackerCall where
  | track (next : DistanceMatrix)
  | ensureOverlay (nodes : List Node)
  | reset

namespace DistanceTracker

/-- The tracker that a call leaves. -/
def act (t : DistanceTracker) : TrackerCall → DistanceTracker
  | .track next => (t.track next).2
  | .ensureOverlay nodes => t.ensureOverlay nodes
  | .reset => start

/-- The tracker that calls leave. -/
def after (t : DistanceTracker) (calls : List TrackerCall) : DistanceTracker := calls.foldl act t

end DistanceTracker

namespace DistanceMatrix

/-- The differences that a tracker returns, laid over `sum` in their order; a reset begins anew. -/
def total (sum : DistanceMatrix) (t : DistanceTracker) : List TrackerCall → DistanceMatrix
  | [] => sum
  | .track next :: rest => total (sum.overlay (t.track next).1) (t.act (.track next)) rest
  | .ensureOverlay nodes :: rest => total sum (t.act (.ensureOverlay nodes)) rest
  | .reset :: rest => total .empty (t.act .reset) rest

/-- The last matrix that a tracker is fed, `m` before the first one; a reset begins anew. -/
def lastFed (m : DistanceMatrix) : List TrackerCall → DistanceMatrix
  | [] => m
  | .track next :: rest => lastFed next rest
  | .ensureOverlay _ :: rest => lastFed m rest
  | .reset :: rest => lastFed .empty rest

/-- Every pair is as far apart in one matrix as in the other, as a number. -/
def Shows (sum m : DistanceMatrix) : Prop := ∀ pair, (sum.reach pair == m.reach pair) = true

theorem shows_self (m : DistanceMatrix) : m.Shows m := fun _ => Distance.beq_self _

theorem reach_overlay (sum m : DistanceMatrix) (pair : NodePair) :
    reach (sum.overlay m) pair = (m.get? pair).getD (sum.reach pair) := by
  rw [reach, SortedMap.get?_overlay, reach]
  cases m.get? pair <;> rfl

/-- A pair that has not changed is as far apart as before. -/
theorem beq_of_change_eq_none {now before : Option Distance} (h : change now before = none) :
    (before.getD .unlimited == now.getD .unlimited) = true := by
  cases now with
  | none =>
    cases before with
    | none => exact Distance.beq_self _
    | some _ => cases h
  | some d =>
    cases before with
    | none => cases h
    | some d' =>
      rw [change] at h
      split at h
      · rename_i heq
        exact Distance.beq_symm heq
      · cases h

/-- What shows an earlier matrix shows the next one once the changes are laid over it. -/
theorem Shows.overlay_changes {sum m : DistanceMatrix} (h : sum.Shows m) (next : DistanceMatrix) :
    Shows (sum.overlay (next.changesSince m)) next := by
  intro pair
  rw [reach_overlay, get?_changesSince]
  cases hchange : change (next.get? pair) (m.get? pair) with
  | none => exact Distance.beq_trans (h pair) (beq_of_change_eq_none hchange)
  | some d =>
    have hnow : next.reach pair = d := getD_of_change hchange
    rw [hnow]
    exact Distance.beq_self d

/-- What shows the current matrix of a tracker goes on showing it, whatever is done. -/
theorem Shows.total {t : DistanceTracker} {sum : DistanceMatrix} (h : sum.Shows t.current)
    (calls : List TrackerCall) :
    Shows (DistanceMatrix.total sum t calls) (t.after calls).current := by
  induction calls generalizing t sum with
  | nil => exact h
  | cons call rest ih =>
    cases call with
    | track next => exact ih (h.overlay_changes next)
    | ensureOverlay nodes => exact ih (t := t.ensureOverlay nodes) h
    | reset => exact ih (shows_self .empty)

end DistanceMatrix

/-- A tracker remembers the last matrix that it was fed. -/
theorem DistanceTracker.current_after (t : DistanceTracker) (calls : List TrackerCall) :
    (t.after calls).current = DistanceMatrix.lastFed t.current calls := by
  induction calls generalizing t with
  | nil => rfl
  | cons call rest ih =>
    cases call with
    | track next => exact ih _
    | ensureOverlay nodes => exact ih _
    | reset => exact ih _

/-- Whatever is done with a new tracker, it remembers the last matrix fed since the last reset, and
the differences returned since then, laid over each other from an empty matrix, give every two nodes
the distance that this matrix gives them, where a missing distance is the unlimited one. -/
theorem diffs_add_up (calls : List TrackerCall) :
    let last := DistanceMatrix.lastFed .empty calls
    let sum := DistanceMatrix.total .empty .start calls
    (DistanceTracker.start.after calls).current = last ∧
      ∀ a b,
        ((sum.between? a b).getD .unlimited == (last.between? a b).getD .unlimited) = true := by
  have hstart : DistanceMatrix.Shows .empty DistanceTracker.start.current :=
    DistanceMatrix.shows_self .empty
  have hcurrent := DistanceTracker.start.current_after calls
  have hshows := hstart.total calls
  rw [hcurrent] at hshows
  refine ⟨hcurrent, fun a b => ?_⟩
  rw [DistanceMatrix.between?, DistanceMatrix.between?]
  cases NodePair.of? a b with
  | none => exact Distance.beq_self _
  | some pair => exact hshows pair

/-- The sum keeps a pair that is gone, out of any range, which the last matrix does not mention. -/
example :
    let calls := [.track (apart .zero), .track .empty]
    (DistanceMatrix.total .empty .start calls).values = [Distance.unlimited] ∧
      (DistanceMatrix.lastFed .empty calls).values = [] := by
  decide +kernel

end ProximityNet
