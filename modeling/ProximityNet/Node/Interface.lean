import ProximityNet.Node.Id

/-!
# Interfaces

An interface has a kind and a number that tells it from the other interfaces of its kind on one
node.  The first five kinds are the *normal* ones, whose links follow the distance between nodes.
-/

namespace ProximityNet

/-- What an interface is for. -/
inductive InterfaceKind where
  | mesh
  | ap
  | adHoc
  | bluetooth
  | wifiDirect
  | hub
  | management
deriving DecidableEq

namespace InterfaceKind

/-- All kinds, in their order. -/
def all : List InterfaceKind := [mesh, ap, adHoc, bluetooth, wifiDirect, hub, management]

/-- The place of a kind in the order of kinds. -/
def index : InterfaceKind → Nat
  | mesh => 0
  | ap => 1
  | adHoc => 2
  | bluetooth => 3
  | wifiDirect => 4
  | hub => 5
  | management => 6

theorem index_injective : ∀ a b : InterfaceKind, a.index = b.index → a = b := by
  intro a b h
  cases a <;> cases b <;> simp_all [index]

theorem index_lt (kind : InterfaceKind) : kind.index < 7 := by cases kind <;> decide

instance : Ranked InterfaceKind := ⟨index, index_injective⟩

/-- Links of a normal kind follow the distance between their nodes. -/
def isNormal : InterfaceKind → Bool
  | hub | management => false
  | _ => true

def isHub (kind : InterfaceKind) : Bool := kind = hub

def isManagement (kind : InterfaceKind) : Bool := kind = management

/-- The short name that device names are built from. -/
def shortName : InterfaceKind → String
  | mesh => "mesh"
  | ap => "ap"
  | adHoc => "adhoc"
  | bluetooth => "bluetooth"
  | wifiDirect => "wifidirect"
  | hub => "hub"
  | management => "mgmt"

/-- The name that stands in files. -/
def name : InterfaceKind → String
  | mesh => "mesh"
  | ap => "ap"
  | adHoc => "ad_hoc"
  | bluetooth => "bluetooth"
  | wifiDirect => "wifi_direct"
  | hub => "hub"
  | management => "management"

end InterfaceKind

/-- A network interface of some node. -/
structure Interface where
  kind : InterfaceKind
  number : UInt16
deriving DecidableEq

namespace Interface

/-- Interfaces are ordered by kind and then by number. -/
instance : Ranked Interface where
  rank i := i.kind.index * 65536 + i.number.toNat
  rank_injective := by
    rintro ⟨k, n⟩ ⟨k', n'⟩ h
    have hn := n.toNat_lt
    have hn' := n'.toNat_lt
    simp only at h
    have hk : k.index = k'.index := by omega
    have hnn : n.toNat = n'.toNat := by omega
    rw [InterfaceKind.index_injective _ _ hk, UInt16.toNat_inj.1 hnn]

theorem rank_lt (i : Interface) : rank i < 458752 := by
  have h1 := i.kind.index_lt
  have h2 := i.number.toNat_lt
  show i.kind.index * 65536 + i.number.toNat < 458752
  omega

/-- How an interface is written, such as `mesh0`. -/
def label (i : Interface) : String := i.kind.shortName ++ i.number.toNat.repr

def sameKind (i j : Interface) : Bool := i.kind = j.kind

end Interface

/-- One side of a link: an interface on a node. -/
structure Endpoint where
  node : NodeId
  interface : Interface
deriving DecidableEq

/-- How an endpoint is written, such as `1:mesh0`. -/
def Endpoint.label (e : Endpoint) : String := e.node.label ++ ":" ++ e.interface.label

end ProximityNet
