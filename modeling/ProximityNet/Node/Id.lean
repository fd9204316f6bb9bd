import ProximityNet.SortedMap

/-!
# Node ids

Emulation nodes use the low ids.  The last `reservedIds` ids are kept for the management node, which
has the very last one, and for the central hubs, which count down from the one before it.
-/

namespace ProximityNet

/-- The number of a node. -/
structure NodeId where
  value : UInt32
deriving DecidableEq

/-- How many ids at the top are kept for hubs and for the management node. -/
def reservedIds : Nat := 1024

namespace NodeId

instance : Ranked NodeId where
  rank id := id.value.toNat
  rank_injective := fun ⟨_⟩ ⟨_⟩ h => congrArg mk (UInt32.toNat_inj.1 h)

instance : Inhabited NodeId := ⟨⟨0⟩⟩

/-- The id as a natural number. -/
def toNat (id : NodeId) : Nat := id.value.toNat

def ofNat (n : Nat) : NodeId := ⟨UInt32.ofNat n⟩

/-- The id of the management node. -/
def management : NodeId := ⟨0xFFFFFFFF⟩

/-- The id of the first central hub. -/
def centralBase : NodeId := ⟨0xFFFFFFFE⟩

/-- The id of the hub numbered `index`. -/
def central (index : Nat) : NodeId := ofNat (centralBase.toNat - index)

/-- Whether the id is one of the last `reservedIds` ids. -/
def isReserved (id : NodeId) : Bool := management.toNat - reservedIds < id.toNat

/-- How an id is written: `mgmt`, `hub0`, `hub1`, … or the plain number. -/
def label (id : NodeId) : String :=
  if id = management then "mgmt"
  else if id.isReserved then "hub" ++ (centralBase.toNat - id.toNat).repr
  else id.toNat.repr

end NodeId

end ProximityNet
