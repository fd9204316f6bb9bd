import ProximityNet.Distance.Json
import ProximityNet.Engine.Error

/-!
# Reports of steps

A `StepReport` counts what a step did and lists the pairs of nodes at which it failed.  It is filled
in while the step is under way, so a pair that fails half way has its share in the counts.
-/

namespace ProximityNet

/-- A pair of nodes that could not be reconciled, and why. -/
structure PairFailure where
  pair : NodePair
  distance : Distance
  cause : ReconcileError
deriving DecidableEq

/-- What a step did. -/
structure StepReport where
  step : Nat
  /-- How many pairs were looked at, those of the hub overlay included. -/
  changedPairs : Nat
  /-- Whether there was nothing to look at. -/
  unchanged : Bool
  created : Nat
  linksUp : Nat
  linksDown : Nat
  adjusted : Nat
  /-- How many new links the backend did not accept. -/
  refused : Nat
  failures : List PairFailure
  /-- What the backend reported when the step was finished. -/
  commitError : Option BackendError
deriving DecidableEq

namespace StepReport

/-- A step that has not done anything yet. -/
def blank (step : Nat) (changedPairs : Nat) : StepReport where
  step := step
  changedPairs := changedPairs
  unchanged := false
  created := 0
  linksUp := 0
  linksDown := 0
  adjusted := 0
  refused := 0
  failures := []
  commitError := none

instance : Inhabited StepReport := ⟨blank 0 0⟩

/-- How many links were brought up or taken down. -/
def transitions (r : StepReport) : Nat := r.linksUp + r.linksDown

/-! ### Counting -/

def countCreated (r : StepReport) : StepReport := { r with created := r.created + 1 }

def countUp (r : StepReport) : StepReport := { r with linksUp := r.linksUp + 1 }

def countDown (r : StepReport) : StepReport := { r with linksDown := r.linksDown + 1 }

def countAdjusted (r : StepReport) : StepReport := { r with adjusted := r.adjusted + 1 }

def countRefused (r : StepReport) : StepReport := { r with refused := r.refused + 1 }

def addFailure (r : StepReport) (f : PairFailure) : StepReport :=
  { r with failures := r.failures ++ [f] }

end StepReport

/-! ### In JSON texts -/

def PairFailure.toJson (f : PairFailure) : Json :=
  .record [("pair", f.pair.toJson), ("distance", f.distance.toJson),
    ("error", .text f.cause.message)]

/-- The fields of a report. -/
def StepReport.toEntries (r : StepReport) : List (String × Json) :=
  [("step", .natural r.step), ("changed_pairs", .natural r.changedPairs),
    ("unchanged", .bool r.unchanged), ("created", .natural r.created),
    ("links_up", .natural r.linksUp), ("links_down", .natural r.linksDown),
    ("adjusted", .natural r.adjusted), ("refused", .natural r.refused),
    ("failures", .array (r.failures.map PairFailure.toJson)),
    ("commit_error", Json.orNull (fun e : BackendError => .text e.message) r.commitError)]

def StepReport.toJson (r : StepReport) : Json := .record r.toEntries

end ProximityNet
