import ProximityNet.Json.Reader
import ProximityNet.Scenario.Basic
import ProximityNet.Snapshot

/-!
# Scenarios in JSON texts

A scenario is a record in which every field may be left out; what is left out is as in the standard
scenario.  Owners are an object from decimal node ids to server names.
-/

namespace ProximityNet

namespace MovementPlan

def toJson : MovementPlan → Json
  | randomWalk area seed =>
    .record [("type", .text "random_walk"), ("width", .float area.width),
      ("height", .float area.height), ("max_step", .float area.maxStep), ("seed", .natural seed)]
  | replay steps =>
    .record [("type", .text "replay"),
      ("steps", .array (steps.map fun l => .array (l.map DistanceEntry.toJson)))]

/-- A movement plan inside `outer` arrays and objects. -/
def ofJson? (outer : Nat) (v : Json) : Option MovementPlan := do
  let (name, body) ← v.tagged? "type" outer
  match name with
  | "random_walk" =>
    let f ← body.fields? ["width", "height", "max_step", "seed"]
    let width ← f.required? "width" Json.asFloat?
    let height ← f.required? "height" Json.asFloat?
    let maxStep ← f.required? "max_step" Json.asFloat?
    let seed ← f.default? "seed" 0 Json.asWord?
    some (randomWalk ⟨width, height, maxStep⟩ seed)
  | "replay" =>
    let f ← body.fields? ["steps"]
    (f.required? "steps" (Json.asList? (Json.asList? DistanceEntry.ofJson?))).map replay
  | _ => none

end MovementPlan

namespace Ownership

def toJson (o : Ownership) : Json :=
  .record [("local", .text o.here),
    ("owners", .record (o.owners.entries.map fun e => (e.1.toNat.repr, .text e.2)))]

/-- A node id in decimal digits, without a sign or a leading zero. -/
def readOwnedId? (key : String) : Option NodeId :=
  let cs := key.toList
  if cs.isEmpty || !cs.all Char.isDigit then none
  else
    let n := NumberText.valueOf (NumberText.digits cs)
    if n.repr = key ∧ n < 4294967296 then some (.ofNat n) else none

/-- An owner and the node it owns; the id may not be written with escapes. -/
def readOwner? : JsonSpelling × Json → Option (NodeId × String)
  | (.plain key, server) => do
    let id ← readOwnedId? key
    let owner ← server.asText?
    some (id, owner)
  | (.escaped _, _) => none

/-- Owners by node id; of two entries for one node the later stays. -/
def readOwners? : Json → Option (SortedMap NodeId String)
  | .object entries => (entries.mapM readOwner?).map SortedMap.ofList
  | _ => none

def ofJson? (v : Json) : Option Ownership := do
  let f ← v.fields? ["local", "owners"]
  let here ← f.required? "local" Json.asText?
  let owners ← f.required? "owners" readOwners?
  some ⟨here, owners⟩

end Ownership

def Pairing.Choice.toJson (c : Pairing.Choice) : Json := .text c.name

def Pairing.Choice.ofJson? : Json → Option Pairing.Choice := Json.choice? .plain name [equal, all]

namespace Scenario

def toJson (s : Scenario) : Json :=
  .record [("node_count", .natural s.nodeCount),
    ("interfaces", .array (s.interfaces.map InterfaceKind.toJson)),
    ("interface_filter", s.pairing.toJson), ("link_quality", s.model.toJson),
    ("bandwidth_kbit", Json.orNull .natural s.bandwidthKbit),
    ("loss_percent", Json.orNull .float s.lossPercent), ("central_hub", .bool s.centralHub),
    ("management", .bool s.management), ("movement", s.movement.toJson),
    ("auto_step_interval_ms", Json.orNull .natural s.autoStepMs),
    ("distributed", Json.orNull Ownership.toJson s.distribution)]

def fieldNames : List String :=
  ["node_count", "interfaces", "interface_filter", "link_quality", "bandwidth_kbit", "loss_percent",
    "central_hub", "management", "movement", "auto_step_interval_ms", "distributed"]

def ofJson? (v : Json) : Option Scenario := do
  let f ← v.fields? fieldNames
  let nodeCount ← f.default? "node_count" standard.nodeCount (Json.asNatural? 4294967296)
  let interfaces ←
    f.default? "interfaces" standard.interfaces (Json.asList? (InterfaceKind.ofJson? .plain))
  let pairing ← f.default? "interface_filter" standard.pairing Pairing.Choice.ofJson?
  let model ← f.default? "link_quality" standard.model (LinkModel.Config.ofJson? 1)
  let bandwidthKbit ←
    f.default? "bandwidth_kbit" standard.bandwidthKbit (Json.asOption? Json.asWord?)
  let lossPercent ← f.default? "loss_percent" standard.lossPercent (Json.asOption? Json.asFloat?)
  let centralHub ← f.default? "central_hub" standard.centralHub Json.asBool?
  let management ← f.default? "management" standard.management Json.asBool?
  let movement ← f.default? "movement" standard.movement (MovementPlan.ofJson? 1)
  let autoStepMs ←
    f.default? "auto_step_interval_ms" standard.autoStepMs (Json.asOption? Json.asWord?)
  let distribution ←
    f.default? "distributed" standard.distribution (Json.asOption? Ownership.ofJson?)
  some ⟨nodeCount, interfaces, pairing, model, bandwidthKbit, lossPercent, centralHub, management,
    movement, autoStepMs, distribution⟩

/-- The scenario of a file with this text, or of one that cannot be read. -/
def ofFile : Option String → Except SimulationError Scenario
  | none => .error .noFile
  | some text =>
    match (Json.read? text).bind ofJson? with
    | some s => .ok s
    | none => .error .malformed

/-- The scenario of a file, if it makes sense. -/
def load (file : Option String) : Except SimulationError Scenario := do
  let s ← ofFile file
  s.validate
  return s

end Scenario

end ProximityNet
