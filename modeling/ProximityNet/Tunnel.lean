import ProximityNet.Distance.NodePair
import ProximityNet.Part

/-!
# Tunnels between servers

Nodes may be spread over several servers, and a link between servers needs a tunnel first.  A
`TunnelPolicy` says which pairs of nodes are on different servers and sees to their tunnels, acting
on a state of any type.

* `TunnelPolicy.local`: one server, so no pair is remote.
* `Ownership.policy`: every emulation node has an owner; hubs and the management node are on every
  server.
-/

namespace ProximityNet

/-- Why a tunnel is not there. -/
inductive TunnelError where
  /-- The node is not assigned to any server. -/
  | unknownOwner (node : NodeId)
  | failed (pair : NodePair) (reason : String)
deriving DecidableEq

namespace TunnelError

def message : TunnelError → String
  | unknownOwner node => "node " ++ node.label ++ " has no owning server"
  | failed pair reason => "tunnel for " ++ pair.label ++ " failed: " ++ reason

end TunnelError

/-- Which pairs are on different servers, and how their tunnels are made. -/
structure TunnelPolicy (σ : Type) where
  /-- Whether two nodes are on different servers. -/
  isRemote : σ → NodeId → NodeId → Bool
  /-- See to it that there is a tunnel for a pair. -/
  ensure : NodePair → σ → Except TunnelError Unit × σ
  /-- Whether there is more than one server. -/
  isDistributed : Bool

/-- A single server. -/
def TunnelPolicy.local {σ : Type} : TunnelPolicy σ where
  isRemote _ _ _ := false
  ensure _ s := (.ok (), s)
  isDistributed := false

/-- A policy that acts on a part of a state. -/
def TunnelPolicy.within {σ τ : Type} (part : Part σ τ) (p : TunnelPolicy τ) : TunnelPolicy σ where
  isRemote s := p.isRemote (part.get s)
  ensure pair s :=
    let (r, t) := p.ensure pair (part.get s)
    (r, part.set t s)
  isDistributed := p.isDistributed

/-- Which server owns which emulation node. -/
structure Ownership where
  /-- The server that this program runs on. -/
  here : String
  owners : SortedMap NodeId String

namespace Ownership

/-- The pairs that have a tunnel. -/
abbrev Tunnels := SortedMap NodePair Unit

/-- The server of a node; hubs and the management node are here. -/
def owner? (o : Ownership) (node : NodeId) : Option String :=
  if node.isReserved then some o.here else o.owners.get? node

/-- Whether two nodes have different owners; a node without an owner is nowhere near. -/
def isRemote (o : Ownership) (x y : NodeId) : Bool :=
  match o.owner? x, o.owner? y with
  | some a, some b => a != b
  | _, _ => true

/-- Both nodes of the pair need an owner before it has a tunnel. -/
def ensure (o : Ownership) (pair : NodePair) (t : Tunnels) : Except TunnelError Unit × Tunnels :=
  if (o.owner? pair.low).isNone then (.error (.unknownOwner pair.low), t)
  else if (o.owner? pair.high).isNone then (.error (.unknownOwner pair.high), t)
  else (.ok (), t.insert pair ())

def policy (o : Ownership) : TunnelPolicy Tunnels where
  isRemote _ := o.isRemote
  ensure := o.ensure
  isDistributed := true

end Ownership

end ProximityNet
