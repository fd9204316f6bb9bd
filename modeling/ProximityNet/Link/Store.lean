import ProximityNet.Link.Connection

/-!
# The store of connections

Connections stand in one of two partitions, those that are up and those that are not, and in each
under their pair of nodes and then under their pair of interfaces.  `put` and `setActive` take a
connection out of where it stood before they put it where it belongs, so none stands in both.

A pair of nodes without connections has no place in a partition: `Partition.erase` takes the pair
away with its last connection.
-/

namespace ProximityNet

/-- Connections by pair of nodes and then by pair of interfaces. -/
abbrev Partition := SortedMap NodePair (SortedMap InterfacePair Connection)

namespace Partition

/-- The connections of a pair of nodes. -/
def ofPair (p : Partition) (pair : NodePair) : SortedMap InterfacePair Connection :=
  (p.get? pair).getD .empty

def find? (p : Partition) (pair : NodePair) (interfaces : InterfacePair) : Option Connection :=
  (p.get? pair).bind (·.get? interfaces)

/-- Put a connection under these keys. -/
def put (p : Partition) (pair : NodePair) (interfaces : InterfacePair) (c : Connection) :
    Partition :=
  p.insert pair ((p.ofPair pair).insert interfaces c)

/-- Take away what stands under these keys. -/
def remove (p : Partition) (pair : NodePair) (interfaces : InterfacePair) : Partition :=
  match p.get? pair with
  | some inner =>
    let inner' := inner.erase interfaces
    if inner'.isEmpty then p.erase pair else p.insert pair inner'
  | none => p

/-- All connections, in the order of their pairs of nodes and then of their pairs of interfaces. -/
def connections (p : Partition) : List Connection := p.entries.flatMap fun e => e.2.values

/-- How many connections there are. -/
def count (p : Partition) : Nat := p.values.foldr (fun inner n => inner.size + n) 0

end Partition

/-- All connections that exist, and the number of the next one. -/
structure ConnectionStore where
  active : Partition
  inactive : Partition
  /-- Connections are numbered without a bound: a counter of 64 bits says the same for the first
  `2 ^ 64` of them. -/
  nextNumber : Nat

namespace ConnectionStore

def empty : ConnectionStore := ⟨.empty, .empty, 0⟩

instance : Inhabited ConnectionStore := ⟨empty⟩

/-- A new id, and the store that will not give it out again. -/
def freshId (s : ConnectionStore) : ConnectionId × ConnectionStore :=
  (⟨s.nextNumber⟩, { s with nextNumber := s.nextNumber + 1 })

/-- The connection under these keys, up or not. -/
def find? (s : ConnectionStore) (pair : NodePair) (interfaces : InterfacePair) :
    Option Connection :=
  (s.active.find? pair interfaces).or (s.inactive.find? pair interfaces)

/-- Whether the connection under these keys is up, if there is one. -/
def isActive? (s : ConnectionStore) (pair : NodePair) (interfaces : InterfacePair) : Option Bool :=
  if (s.active.find? pair interfaces).isSome then some true
  else if (s.inactive.find? pair interfaces).isSome then some false
  else none

/-- Whether any connection of the pair exists. -/
def containsPair (s : ConnectionStore) (pair : NodePair) : Bool :=
  s.active.contains pair || s.inactive.contains pair

/-- Take the connection under these keys out of the store. -/
def take (s : ConnectionStore) (pair : NodePair) (interfaces : InterfacePair) :
    Option Connection × ConnectionStore :=
  match s.active.find? pair interfaces with
  | some c => (some c, { s with active := s.active.remove pair interfaces })
  | none =>
    match s.inactive.find? pair interfaces with
    | some c => (some c, { s with inactive := s.inactive.remove pair interfaces })
    | none => (none, s)

/-- Put a connection into one of the partitions, under these keys. -/
def enter (s : ConnectionStore) (pair : NodePair) (interfaces : InterfacePair) (c : Connection)
    (active : Bool) : ConnectionStore :=
  if active then { s with active := s.active.put pair interfaces { c with connected := true } }
  else { s with inactive := s.inactive.put pair interfaces { c with connected := false } }

/-- Store a connection, up or not, in place of the one under its keys, which is returned. -/
def put (s : ConnectionStore) (c : Connection) (active : Bool) :
    Option Connection × ConnectionStore :=
  let (previous, s') := s.take c.pair c.interfaces
  (previous, s'.enter c.pair c.interfaces c active)

/-- Mark the connection under these keys as up or not; there is no result if there is none. -/
def setActive? (s : ConnectionStore) (pair : NodePair) (interfaces : InterfacePair)
    (active : Bool) : Option ConnectionStore :=
  match s.take pair interfaces with
  | (some c, s') => some (s'.enter pair interfaces c active)
  | (none, _) => none

/-- Change the connection under these keys where it stands. -/
def modify (s : ConnectionStore) (pair : NodePair) (interfaces : InterfacePair)
    (f : Connection → Connection) : ConnectionStore :=
  match s.active.find? pair interfaces with
  | some c => { s with active := s.active.put pair interfaces (f c) }
  | none =>
    match s.inactive.find? pair interfaces with
    | some c => { s with inactive := s.inactive.put pair interfaces (f c) }
    | none => s

/-- The interfaces of the connections of a pair that are up. -/
def activeInterfaces (s : ConnectionStore) (pair : NodePair) : List InterfacePair :=
  (s.active.ofPair pair).keys

/-- The interfaces of the connections of a pair that are not up. -/
def inactiveInterfaces (s : ConnectionStore) (pair : NodePair) : List InterfacePair :=
  (s.inactive.ofPair pair).keys

/-- All connections, those that are up first. -/
def connections (s : ConnectionStore) : List Connection :=
  s.active.connections ++ s.inactive.connections

def activeCount (s : ConnectionStore) : Nat := s.active.count

def inactiveCount (s : ConnectionStore) : Nat := s.inactive.count

def size (s : ConnectionStore) : Nat := s.activeCount + s.inactiveCount

def isEmpty (s : ConnectionStore) : Bool := s.active.isEmpty && s.inactive.isEmpty

/-- The connection with this id. -/
def byId? (s : ConnectionStore) (id : ConnectionId) : Option Connection :=
  s.connections.find? fun c => c.id = id

/-- The connections that a filter asks for. -/
def query (s : ConnectionStore) (f : ConnectionFilter) : List Connection :=
  s.connections.filter f.accepts

/-- For every node the nodes that a link which is up leads to. -/
def adjacency (s : ConnectionStore) : SortedMap NodeId (SortedMap NodeId Unit) :=
  neighbours s.active.keys

end ConnectionStore

end ProximityNet
