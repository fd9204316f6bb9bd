import ProximityNet.Backend.Journal
import ProximityNet.Scenario.Variables
import ProximityNet.Simulation.Basic

/-!
# The command line

The first argument names a scenario file and the second says how many steps are run after the first
one.  Without arguments the scenario comes from variables.  The result is the last snapshot as a
text.

Where steps are run by themselves, the number of steps is the number of intervals to wait.
-/

namespace ProximityNet

namespace CommandLine

/-- What the backend and the tunnels of a run act on. -/
structure Surroundings where
  journal : Journal
  tunnels : Ownership.Tunnels

def Surroundings.start : Surroundings := ⟨.empty, .empty⟩

def journalPart : Part Surroundings Journal :=
  ⟨Surroundings.journal, fun j w => { w with journal := j }⟩

def tunnelsPart : Part Surroundings Ownership.Tunnels :=
  ⟨Surroundings.tunnels, fun t w => { w with tunnels := t }⟩

/-- How many steps are run when the argument is missing or is no number. -/
def standardSteps : Nat := 10

/-- How many steps the arguments ask for. -/
def steps (args : List String) : Nat :=
  ((args[1]?.bind fun s => Numeral.natural? 18446744073709551616 s.toList)).getD standardSteps

/-- The file that the scenario is read from, if it is read from one. -/
def scenarioFile? (lookup : String → Option String) (args : List String) : Option String :=
  args.head?.or (lookup Scenario.fileVariable)

/-- The scenario that arguments and variables describe. -/
def scenario (readFile lookup : String → Option String) (args : List String) :
    Except SimulationError Scenario :=
  match args.head? with
  | some path => Scenario.load (readFile path)
  | none => Scenario.ofVariables readFile lookup

/-- The most intervals that are waited for. -/
def mostIntervals : Nat := 4294967295

/-- Run a scenario: the last snapshot. -/
def run (s : Scenario) (steps : Nat) : Except SimulationError Snapshot := do
  let sim ← Simulation.make s tunnelsPart Surroundings.start
  let (started, sim) := sim.start (Journal.backend.within journalPart) id
  let _ ← started
  match s.autoStepMs with
  | some _ => return (sim.elapse (min steps mostIntervals)).snapshot
  | none =>
    let (reports, sim) := sim.run steps
    let _ ← reports
    return sim.snapshot

/-- How long a run takes, in milliseconds. -/
def duration (s : Scenario) (steps : Nat) : Nat :=
  match s.autoStepMs with
  | some ms => ms * min steps mostIntervals
  | none => 0

/-- The text that a run prints. -/
def output (s : Scenario) (steps : Nat) : Except SimulationError String :=
  (run s steps).map fun snapshot => snapshot.text ++ "\n"

end CommandLine

end ProximityNet
