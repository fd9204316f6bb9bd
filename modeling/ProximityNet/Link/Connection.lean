import ProximityNet.Link.Shaping
import ProximityNet.Distance.Json

/-!
# Connections

A connection joins an interface of one node with an interface of another.  It exists from the moment
it is first set up; whether it is up is a field of its own.  Its interfaces are written in the order
of its pair of nodes: `low` belongs to the pair's low node.
-/

namespace ProximityNet

/-- The number of a connection, unique until the next reset. -/
structure ConnectionId where
  value : Nat
deriving DecidableEq

namespace ConnectionId

/-- How an id is written, such as `conn-0`. -/
def label (id : ConnectionId) : String := "conn-" ++ id.value.repr

def toJson (id : ConnectionId) : Json := .natural id.value

def ofJson? (v : Json) : Option ConnectionId := v.asWord?.map mk

end ConnectionId

/-- What a connection is for. -/
inductive ConnectionKind where
  /-- A link between emulation nodes, which follows their distance. -/
  | user
  /-- A control link to the management node. -/
  | management
  /-- A link to a hub. -/
  | central
deriving DecidableEq

namespace ConnectionKind

def name : ConnectionKind → String
  | user => "user"
  | management => "management"
  | central => "central"

def toJson (kind : ConnectionKind) : Json := .text kind.name

def ofJson? (form : Json.ChoiceForm) : Json → Option ConnectionKind :=
  Json.choice? form name [user, management, central]

end ConnectionKind

/-- The two interfaces of a connection, that of the low node first. -/
structure InterfacePair where
  low : Interface
  high : Interface
deriving DecidableEq

/-- Two numbers written in one, the second below the weight of the first, can be told apart. -/
theorem eq_and_eq_of_places {w x y x' y' : Nat} (hy : y < w) (hy' : y' < w)
    (h : x * w + y = x' * w + y') : x = x' ∧ y = y' := by
  have hw : 0 < w := by omega
  have hx := congrArg (· / w) h
  simp only [Nat.mul_comm _ w, Nat.mul_add_div hw, Nat.div_eq_of_lt hy, Nat.div_eq_of_lt hy',
    Nat.add_zero] at hx
  subst hx
  exact ⟨rfl, Nat.add_left_cancel h⟩

namespace InterfacePair

/-- Ordered by the low interface and then by the high one. -/
instance : Ranked InterfacePair where
  rank p := rank p.low * 458752 + rank p.high
  rank_injective := by
    rintro ⟨a, b⟩ ⟨a', b'⟩ h
    obtain ⟨h1, h2⟩ := eq_and_eq_of_places b.rank_lt b'.rank_lt h
    exact congr (congrArg mk (rank_injective _ _ h1)) (rank_injective _ _ h2)

/-- The interfaces `ix` of node `x` and `iy` of the other node, in the order of the pair. -/
def oriented (pair : NodePair) (x : NodeId) (ix iy : Interface) : InterfacePair :=
  if x = pair.low then ⟨ix, iy⟩ else ⟨iy, ix⟩

/-- How two interfaces are written, such as `mesh0<->mesh0`. -/
def label (p : InterfacePair) : String := p.low.label ++ "<->" ++ p.high.label

def toJson (p : InterfacePair) : Json :=
  .record [("low", p.low.toJson), ("high", p.high.toJson)]

def ofJson? (v : Json) : Option InterfacePair := do
  let f ← v.fields? ["low", "high"]
  let low ← f.required? "low" (Interface.ofJson? .plain)
  let high ← f.required? "high" (Interface.ofJson? .plain)
  some ⟨low, high⟩

end InterfacePair

/-- How a link is to be routed. -/
structure LinkRoute where
  isCentral : Bool
  isManagement : Bool
  isRemote : Bool
deriving DecidableEq

namespace LinkRoute

/-- The route of a connection of some kind. -/
def ofKind (kind : ConnectionKind) (isRemote : Bool) : LinkRoute :=
  ⟨kind = .central, kind = .management, isRemote⟩

/-- The kind of connection that is routed so. -/
def kind (r : LinkRoute) : ConnectionKind :=
  if r.isManagement then .management else if r.isCentral then .central else .user

def toJson (r : LinkRoute) : Json :=
  .record [("is_central", .bool r.isCentral), ("is_mgmt", .bool r.isManagement),
    ("is_remote_conn", .bool r.isRemote)]

def ofJson? (v : Json) : Option LinkRoute := do
  let f ← v.fields? ["is_central", "is_mgmt", "is_remote_conn"]
  let isCentral ← f.required? "is_central" Json.asBool?
  let isManagement ← f.required? "is_mgmt" Json.asBool?
  let isRemote ← f.required? "is_remote_conn" Json.asBool?
  some ⟨isCentral, isManagement, isRemote⟩

end LinkRoute

/-- A link between two nodes that exists, up or not. -/
structure Connection where
  id : ConnectionId
  pair : NodePair
  interfaces : InterfacePair
  kind : ConnectionKind
  connected : Bool
  /-- The shaping last put on the link. -/
  shaping : Shaping
  /-- The step in which the connection was set up. -/
  stepAdded : Nat
  /-- The distance last looked at. -/
  distance : Distance
  /-- What the backend calls the switch that carries the link, if it has one. -/
  switch : Option String
deriving DecidableEq

namespace Connection

/-- A connection that has not been up yet. -/
def fresh (id : ConnectionId) (pair : NodePair) (interfaces : InterfacePair) (kind : ConnectionKind)
    (distance : Distance) (step : Nat) : Connection where
  id := id
  pair := pair
  interfaces := interfaces
  kind := kind
  connected := false
  shaping := .none
  stepAdded := step
  distance := distance
  switch := none

/-- The side of the low node. -/
def lowEnd (c : Connection) : Endpoint := ⟨c.pair.low, c.interfaces.low⟩

/-- The side of the high node. -/
def highEnd (c : Connection) : Endpoint := ⟨c.pair.high, c.interfaces.high⟩

def involves (c : Connection) (node : NodeId) : Bool := c.pair.contains node

/-- How a connection is written, such as `conn-0 1:mesh0<->2:mesh0`. -/
def label (c : Connection) : String :=
  c.id.label ++ " " ++ c.lowEnd.label ++ "<->" ++ c.highEnd.label

def toJson (c : Connection) : Json :=
  .record ([("id", c.id.toJson), ("pair", c.pair.toJson), ("interfaces", c.interfaces.toJson),
    ("kind", c.kind.toJson), ("connected", .bool c.connected), ("quality", c.shaping.toJson),
    ("step_added", .natural c.stepAdded), ("distance", c.distance.toJson)]
    ++ Json.entryOf? "switch" .text c.switch)

def fieldNames : List String :=
  ["id", "pair", "interfaces", "kind", "connected", "quality", "step_added", "distance", "switch"]

def ofJson? (v : Json) : Option Connection := do
  let f ← v.fields? fieldNames
  let id ← f.required? "id" ConnectionId.ofJson?
  let pair ← f.required? "pair" NodePair.ofJson?
  let interfaces ← f.required? "interfaces" InterfacePair.ofJson?
  let kind ← f.required? "kind" (ConnectionKind.ofJson? .plain)
  let connected ← f.required? "connected" Json.asBool?
  let shaping ← f.required? "quality" Shaping.ofJson?
  let stepAdded ← f.required? "step_added" Json.asWord?
  let distance ← f.distance? "distance"
  let switch ← f.optional? "switch" Json.asText?
  some ⟨id, pair, interfaces, kind, connected, shaping, stepAdded, distance, switch⟩

end Connection

/-- Which connections are asked for; what is missing does not matter. -/
structure ConnectionFilter where
  id : Option ConnectionId
  node : Option NodeId
  active : Option Bool
deriving DecidableEq

namespace ConnectionFilter

/-- Whether a connection is asked for. -/
def accepts (f : ConnectionFilter) (c : Connection) : Bool :=
  f.id.all (c.id = ·) && f.node.all c.involves && f.active.all (c.connected = ·)

end ConnectionFilter

/-- For every node of a list of pairs the nodes it stands in a pair with. -/
def neighbours : List NodePair → SortedMap NodeId (SortedMap NodeId Unit)
  | [] => .empty
  | p :: rest => link (link (neighbours rest) p.low p.high) p.high p.low
where
  /-- Add `b` to what `a` is next to. -/
  link (m : SortedMap NodeId (SortedMap NodeId Unit)) (a b : NodeId) :
      SortedMap NodeId (SortedMap NodeId Unit) :=
    m.insert a (((m.get? a).getD .empty).insert b ())

end ProximityNet
