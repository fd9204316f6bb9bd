import ProximityNet.Backend.Basic

/-!
# The journal

The journal is a backend that accepts every link and writes down as a `LinkEvent` what it was told:
that steps begin and end, how many pairs changed, and which links were created, brought up, taken
down and shaped.
-/

namespace ProximityNet

/-- An entry of the journal. -/
inductive LinkEvent where
  | stepStarted (step : Nat)
  | distancesChanged (step changed : Nat)
  | linkCreated (step : Nat) (connection : ConnectionId) (kind : ConnectionKind) (a b : Endpoint)
  | linkUp (step : Nat) (connection : ConnectionId) (a b : Endpoint) (shaping : Shaping)
  | linkDown (step : Nat) (connection : ConnectionId) (a b : Endpoint)
  | qualityAdjusted (step : Nat) (connection : ConnectionId) (still : Bool) (shaping : Shaping)
  | stepCommitted (step : Nat)
deriving DecidableEq

namespace LinkEvent

/-- The step that an entry belongs to. -/
def step : LinkEvent → Nat
  | stepStarted step | distancesChanged step _ | linkCreated step .. | linkUp step ..
  | linkDown step .. | qualityAdjusted step .. | stepCommitted step => step

/-- The connection that an entry is about, if it is about one. -/
def connection? : LinkEvent → Option ConnectionId
  | linkCreated _ c .. | linkUp _ c .. | linkDown _ c .. | qualityAdjusted _ c .. => some c
  | _ => none

/-- Whether a link was brought up or taken down. -/
def isTransition : LinkEvent → Bool
  | linkUp .. | linkDown .. => true
  | _ => false

/-! ### In JSON texts -/

/-- The name of the kind of entry. -/
def tag : LinkEvent → String
  | stepStarted .. => "StepStarted"
  | distancesChanged .. => "DistancesChanged"
  | linkCreated .. => "LinkCreated"
  | linkUp .. => "LinkUp"
  | linkDown .. => "LinkDown"
  | qualityAdjusted .. => "QualityAdjusted"
  | stepCommitted .. => "StepCommitted"

/-- The fields of an entry beside its tag. -/
def toEntries : LinkEvent → List (String × Json)
  | stepStarted step => [("step", .natural step)]
  | distancesChanged step changed => [("step", .natural step), ("changed", .natural changed)]
  | linkCreated step c kind a b =>
    [("step", .natural step), ("connection", c.toJson), ("kind", kind.toJson), ("a", a.toJson),
      ("b", b.toJson)]
  | linkUp step c a b shaping =>
    [("step", .natural step), ("connection", c.toJson), ("a", a.toJson), ("b", b.toJson),
      ("params", shaping.toJson)]
  | linkDown step c a b =>
    [("step", .natural step), ("connection", c.toJson), ("a", a.toJson), ("b", b.toJson)]
  | qualityAdjusted step c still shaping =>
    [("step", .natural step), ("connection", c.toJson), ("still_connected", .bool still),
      ("params", shaping.toJson)]
  | stepCommitted step => [("step", .natural step)]

def toJson (e : LinkEvent) : Json := .record (("type", .text e.tag) :: e.toEntries)

/-- An entry, inside `outer` arrays and objects. -/
def ofJson? (outer : Nat) (v : Json) : Option LinkEvent := do
  let (name, body) ← v.tagged? "type" outer
  match name with
  | "StepStarted" =>
    let f ← body.fields? ["step"]
    (f.required? "step" Json.asWord?).map stepStarted
  | "DistancesChanged" =>
    let f ← body.fields? ["step", "changed"]
    let step ← f.required? "step" Json.asWord?
    let changed ← f.required? "changed" Json.asWord?
    some (distancesChanged step changed)
  | "LinkCreated" =>
    let f ← body.fields? ["step", "connection", "kind", "a", "b"]
    let step ← f.required? "step" Json.asWord?
    let c ← f.required? "connection" ConnectionId.ofJson?
    let kind ← f.required? "kind" (ConnectionKind.ofJson? .buffered)
    let a ← f.required? "a" (Endpoint.ofJson? .buffered)
    let b ← f.required? "b" (Endpoint.ofJson? .buffered)
    some (linkCreated step c kind a b)
  | "LinkUp" =>
    let f ← body.fields? ["step", "connection", "a", "b", "params"]
    let step ← f.required? "step" Json.asWord?
    let c ← f.required? "connection" ConnectionId.ofJson?
    let a ← f.required? "a" (Endpoint.ofJson? .buffered)
    let b ← f.required? "b" (Endpoint.ofJson? .buffered)
    let shaping ← f.required? "params" Shaping.ofJson?
    some (linkUp step c a b shaping)
  | "LinkDown" =>
    let f ← body.fields? ["step", "connection", "a", "b"]
    let step ← f.required? "step" Json.asWord?
    let c ← f.required? "connection" ConnectionId.ofJson?
    let a ← f.required? "a" (Endpoint.ofJson? .buffered)
    let b ← f.required? "b" (Endpoint.ofJson? .buffered)
    some (linkDown step c a b)
  | "QualityAdjusted" =>
    let f ← body.fields? ["step", "connection", "still_connected", "params"]
    let step ← f.required? "step" Json.asWord?
    let c ← f.required? "connection" ConnectionId.ofJson?
    let still ← f.required? "still_connected" Json.asBool?
    let shaping ← f.required? "params" Shaping.ofJson?
    some (qualityAdjusted step c still shaping)
  | "StepCommitted" =>
    let f ← body.fields? ["step"]
    (f.required? "step" Json.asWord?).map stepCommitted
  | _ => none

end LinkEvent

/-- What a backend was told. -/
structure Journal where
  /-- The entries, the last one first. -/
  reversed : List LinkEvent

namespace Journal

def empty : Journal := ⟨[]⟩

instance : Inhabited Journal := ⟨empty⟩

/-- The entries, the first one first. -/
def entries (j : Journal) : List LinkEvent := j.reversed.reverse

def size (j : Journal) : Nat := j.reversed.length

/-- Write an entry down. -/
def add (j : Journal) (e : LinkEvent) : Journal := ⟨e :: j.reversed⟩

@[simp] theorem entries_empty : empty.entries = [] := rfl

@[simp] theorem entries_add (j : Journal) (e : LinkEvent) :
    (j.add e).entries = j.entries ++ [e] := by
  simp [entries, add]

@[simp] theorem length_entries (j : Journal) : j.entries.length = j.size := by
  simp [entries, size]

/-- The entries of one step. -/
def ofStep (j : Journal) (step : Nat) : List LinkEvent := j.entries.filter fun e => e.step = step

/-- The entry that an announcement leaves in the journal, if it leaves one. -/
def entryOfAnnouncement? : Announcement → Option LinkEvent
  | .stepStarting step _ => some (.stepStarted step)
  | .changesPending step changed _ => some (.distancesChanged step changed.size)
  | .changesApplied .. | .adjusting .. => none

/-- The entry that a request leaves in the journal. -/
def entryOfRequest : Request → LinkEvent
  | .finishStep step _ => .stepCommitted step
  | .create site c => .linkCreated site.step c.id c.kind c.lowEnd c.highEnd
  | .raise site c shaping => .linkUp site.step c.id c.lowEnd c.highEnd shaping
  | .lower site c _ => .linkDown site.step c.id c.lowEnd c.highEnd
  | .adjust site c still shaping => .qualityAdjusted site.step c.id still shaping

/-- Accepts everything and writes it down. -/
def backend : Backend Journal where
  announce a j := (entryOfAnnouncement? a).elim j j.add
  start _ _ j := (.ok .yes, j)
  perform r j := (.ok (), j.add (entryOfRequest r))

end Journal

end ProximityNet
