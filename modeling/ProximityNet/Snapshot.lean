import ProximityNet.Engine.Basic
import ProximityNet.Json.Writer

/-!
# Snapshots

A `Snapshot` is what an engine shows of itself after a step: its distances and its connections as
plain lists.  It can be written as a JSON text and read from one, and it answers the same questions
as the store.
-/

namespace ProximityNet

namespace DistanceEntry

def toJson (e : DistanceEntry) : Json :=
  .record [("a", e.a.toJson), ("b", e.b.toJson), ("distance", e.distance.toJson)]

def ofJson? (v : Json) : Option DistanceEntry := do
  let f ← v.fields? ["a", "b", "distance"]
  let a ← f.required? "a" NodeId.ofJson?
  let b ← f.required? "b" NodeId.ofJson?
  let distance ← f.distance? "distance"
  some ⟨a, b, distance⟩

end DistanceEntry

/-- The distances and connections after a step. -/
structure Snapshot where
  /-- How many steps have been run. -/
  step : Nat
  distances : List DistanceEntry
  active : List Connection
  inactive : List Connection
deriving DecidableEq

namespace Snapshot

/-- The snapshot before the first step. -/
def empty : Snapshot := ⟨0, [], [], []⟩

instance : Inhabited Snapshot := ⟨empty⟩

/-- What an engine shows of itself. -/
def capture {σ μ : Type} (e : Engine σ μ) : Snapshot where
  step := e.step
  distances := e.distances.toEntries
  active := e.store.active.connections
  inactive := e.store.inactive.connections

/-- All connections, those that are up first. -/
def connections (s : Snapshot) : List Connection := s.active ++ s.inactive

/-- The connection with this id. -/
def byId? (s : Snapshot) (id : ConnectionId) : Option Connection :=
  s.connections.find? fun c => c.id = id

/-- The connections that a filter asks for. -/
def query (s : Snapshot) (f : ConnectionFilter) : List Connection := s.connections.filter f.accepts

/-- For every node the nodes that a link which is up leads to. -/
def adjacency (s : Snapshot) : SortedMap NodeId (SortedMap NodeId Unit) :=
  neighbours (s.active.map (·.pair))

/-! ### In JSON texts -/

def toJson (s : Snapshot) : Json :=
  .record [("step", .natural s.step), ("distances", .array (s.distances.map DistanceEntry.toJson)),
    ("active", .array (s.active.map Connection.toJson)),
    ("inactive", .array (s.inactive.map Connection.toJson))]

def ofJson? (v : Json) : Option Snapshot := do
  let f ← v.fields? ["step", "distances", "active", "inactive"]
  let step ← f.required? "step" Json.asWord?
  let distances ← f.required? "distances" (Json.asList? DistanceEntry.ofJson?)
  let active ← f.required? "active" (Json.asList? Connection.ofJson?)
  let inactive ← f.required? "inactive" (Json.asList? Connection.ofJson?)
  some ⟨step, distances, active, inactive⟩

/-- A snapshot as a text over several lines. -/
def text (s : Snapshot) : String := s.toJson.pretty

end Snapshot

end ProximityNet
