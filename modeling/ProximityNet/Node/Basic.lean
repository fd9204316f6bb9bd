import ProximityNet.Node.Error
import ProximityNet.Node.Interface

/-!
# Nodes

A node has an id, a role and a list of interfaces.  `Node.emulation` numbers the interfaces of each
kind from zero in the order of the list, so no two interfaces of a node it makes are the same.
-/

namespace ProximityNet

/-- What part a node plays. -/
inductive Role where
  /-- An emulated node. -/
  | emulation
  /-- A hub that every node with a hub interface is attached to. -/
  | central
  /-- The node that control links lead to. -/
  | management
deriving DecidableEq

namespace Role

def name : Role → String
  | emulation => "emulation"
  | central => "central"
  | management => "management"

end Role

/-- A node with its interfaces in order. -/
structure Node where
  id : NodeId
  role : Role
  interfaces : List Interface
deriving DecidableEq

namespace Node

/-- How many interfaces of one kind can be numbered. -/
def maxPerKind : Nat := 65536

/-- Number interfaces of the given kinds, each kind going on from the count that `used` has for it;
there is no result when the numbers of a kind run out. -/
def numbered (used : SortedMap InterfaceKind Nat) : List InterfaceKind → Option (List Interface)
  | [] => some []
  | kind :: rest =>
    let n := (used.get? kind).getD 0
    if n < maxPerKind then
      (numbered (used.insert kind (n + 1)) rest).map (⟨kind, UInt16.ofNat n⟩ :: ·)
    else none

/-- An emulation node with interfaces of the given kinds. -/
def emulation (id : NodeId) (kinds : List InterfaceKind) : Except TopologyError Node :=
  if id.isReserved then .error (.reservedId id)
  else
    match numbered .empty kinds with
    | some interfaces => .ok ⟨id, .emulation, interfaces⟩
    | none => .error (.tooManyInterfaces id)

/-- The hub numbered `index`, with one hub interface. -/
def central (index : Nat) : Except TopologyError Node :=
  if index < reservedIds - 1 then .ok ⟨.central index, .central, [⟨.hub, 0⟩]⟩
  else .error (.hubOutOfRange index)

/-- The management node, with one management interface. -/
def management : Node := ⟨.management, .management, [⟨.management, 0⟩]⟩

/-- The interfaces whose links follow distances. -/
def normalInterfaces (n : Node) : List Interface := n.interfaces.filter (·.kind.isNormal)

def hubInterfaces (n : Node) : List Interface := n.interfaces.filter (·.kind.isHub)

/-- The first management interface. -/
def managementInterface? (n : Node) : Option Interface :=
  n.interfaces.find? (·.kind.isManagement)

def hasHubInterface (n : Node) : Bool := n.interfaces.any (·.kind.isHub)

def isEmulation (n : Node) : Bool := n.role = .emulation

def isCentral (n : Node) : Bool := n.role = .central

def isManagement (n : Node) : Bool := n.role = .management

end Node

end ProximityNet
