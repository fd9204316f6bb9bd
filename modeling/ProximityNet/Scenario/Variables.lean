import ProximityNet.Scenario.Json
import ProximityNet.Text.Blank
import ProximityNet.Text.Numeral

/-!
# Scenarios from variables

A scenario can be given by variables.  One names a scenario file; each of the others sets one field,
whatever the file says.  They are looked at in a fixed order, and the first that cannot be read is
reported.
-/

namespace ProximityNet

namespace Scenario

/-- A value with blanks around it, or the fault of a variable that should hold one. -/
def parse {α : Type} (name : String) (read : List Char → Option α) (value : String) :
    Except ScenarioFault α :=
  match read (Text.trim value.toList) with
  | some a => .ok a
  | none => .error (.badVariable name value)

/-- A value as a JSON text, or the fault of a variable that should hold one. -/
def parseJson {α : Type} (name : String) (read : Json → Option α) (text : String) :
    Except ScenarioFault α :=
  match (Json.read? text).bind read with
  | some a => .ok a
  | none => .error (.malformedVariable name)

/-- A name as a JSON text. -/
def nameText (cs : List Char) : String := "\"" ++ String.ofList cs ++ "\""

/-- Interface kinds between commas. -/
def parseInterfaces (name value : String) : Except ScenarioFault (List InterfaceKind) :=
  let names := ((Text.splitOn ',' value.toList).map Text.trim).filter fun cs => !cs.isEmpty
  names.mapM fun cs => parseJson name (InterfaceKind.ofJson? .plain) (nameText cs)

/-- Another seed for a random walk; no other movement has one. -/
def withSeed (s : Scenario) (seed : Nat) : Scenario :=
  match s.movement with
  | .randomWalk area _ => { s with movement := .randomWalk area seed }
  | .replay _ => s

/-- Change a scenario by a variable, if the variable is there. -/
def set (lookup : String → Option String) (name : String)
    (change : String → String → Except ScenarioFault Scenario) (s : Scenario) :
    Except ScenarioFault Scenario :=
  match lookup name with
  | some value => change name value
  | none => .ok s

/-- The number of a variable of 64 bits. -/
def parseWord (name value : String) : Except ScenarioFault Nat :=
  parse name (Numeral.natural? 18446744073709551616) value

/-- Set the fields that variables are there for. -/
def override (lookup : String → Option String) (s : Scenario) : Except ScenarioFault Scenario := do
  let s ← set lookup "MESHEMU_NODE_COUNT" (fun name value => do
    return { s with nodeCount := ← parse name (Numeral.natural? 4294967296) value }) s
  let s ← set lookup "MESHEMU_INTERFACES" (fun name value => do
    return { s with interfaces := ← parseInterfaces name value }) s
  let s ← set lookup "MESHEMU_INTERFACE_FILTER" (fun name value => do
    let text := nameText (Text.trim value.toList)
    return { s with pairing := ← parseJson name Pairing.Choice.ofJson? text }) s
  let s ← set lookup "MESHEMU_LINK_QUALITY" (fun name value => do
    return { s with model := ← parseJson name (LinkModel.Config.ofJson? 0) value }) s
  let s ← set lookup "MESHEMU_BANDWIDTH_KBIT" (fun name value => do
    return { s with bandwidthKbit := some (← parseWord name value) }) s
  let s ← set lookup "MESHEMU_LOSS_PERCENT" (fun name value => do
    return { s with lossPercent := some (← parse name Numeral.float? value) }) s
  let s ← set lookup "MESHEMU_CENTRAL_HUB" (fun name value => do
    return { s with centralHub := ← parse name Numeral.truth? value }) s
  let s ← set lookup "MESHEMU_MANAGEMENT" (fun name value => do
    return { s with management := ← parse name Numeral.truth? value }) s
  let s ← set lookup "MESHEMU_SEED" (fun name value => do
    return s.withSeed (← parseWord name value)) s
  set lookup "MESHEMU_AUTO_STEP_MS" (fun name value => do
    return { s with autoStepMs := some (← parseWord name value) }) s

/-- The variable that names a scenario file. -/
def fileVariable : String := "MESHEMU_CONFIG"

/-- All variables that are looked at. -/
def variableNames : List String :=
  [fileVariable, "MESHEMU_NODE_COUNT", "MESHEMU_INTERFACES", "MESHEMU_INTERFACE_FILTER",
    "MESHEMU_LINK_QUALITY", "MESHEMU_BANDWIDTH_KBIT", "MESHEMU_LOSS_PERCENT",
    "MESHEMU_CENTRAL_HUB", "MESHEMU_MANAGEMENT", "MESHEMU_SEED", "MESHEMU_AUTO_STEP_MS"]

/-- The scenario that variables describe; `readFile` gives the text of a file that can be read. -/
def ofVariables (readFile : String → Option String) (lookup : String → Option String) :
    Except SimulationError Scenario := do
  let s ← match lookup fileVariable with
    | some path => ofFile (readFile path)
    | none => .ok standard
  let s ← (s.override lookup).mapError .scenario
  s.validate
  return s

end Scenario

end ProximityNet
