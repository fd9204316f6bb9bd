import ProximityNet.CommandLine

/-!
# The program

Reads arguments, variables and the scenario file, and prints what the run comes to.
-/

open ProximityNet

/-- The text of a file that can be read. -/
def readFile? (path : String) : IO (Option String) := do
  try
    return some (← IO.FS.readFile path)
  catch _ =>
    return none

/-- The variables that a scenario can be given by, as far as they are there. -/
def readVariables : IO (List (String × String)) :=
  Scenario.variableNames.filterMapM fun name => do
    return (← IO.getEnv name).map fun value => (name, value)

/-- Print the last snapshot, or the reason why there is none. -/
def main (args : List String) : IO UInt32 := do
  let found ← readVariables
  let lookup (name : String) : Option String := found.lookup name
  let text ← match CommandLine.scenarioFile? lookup args with
    | some path => readFile? path
    | none => pure none
  let steps := CommandLine.steps args
  let outcome := do
    let s ← CommandLine.scenario (fun _ => text) lookup args
    return (CommandLine.duration s steps, ← CommandLine.output s steps)
  match outcome with
  | .ok (duration, text) =>
    IO.sleep (UInt32.ofNat (min duration 4294967295))
    IO.print text
    return 0
  | .error cause =>
    IO.eprintln ("Error: " ++ cause.message)
    return 1
