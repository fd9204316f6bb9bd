import ProximityNet.Node.Basic

/-!
# Which interfaces of two nodes may be linked

A `Pairing` lists the pairs of interfaces of two nodes that are candidates for a link, the first
node's interface first.  None of the pairings here ever takes a management interface.
-/

namespace ProximityNet

/-- The candidate pairs of interfaces of two nodes. -/
abbrev Pairing := Node → Node → List (Interface × Interface)

namespace Pairing

/-- All pairs of an item of `l` with an item of `l'`. -/
def product (l l' : List Interface) : List (Interface × Interface) :=
  l.flatMap fun i => l'.map fun j => (i, j)

/-- The first normal interfaces with each other, the second with each other, and so on as long as
both nodes have one. -/
def equal : Pairing := fun x y => x.normalInterfaces.zip y.normalInterfaces

/-- Every normal interface with every normal interface. -/
def all : Pairing := fun x y => product x.normalInterfaces y.normalInterfaces

/-- Every hub interface with every hub interface. -/
def hub : Pairing := fun x y => product x.hubInterfaces y.hubInterfaces

/-- The pairings that links between emulation nodes can be set to. -/
inductive Choice where
  | equal
  | all
deriving DecidableEq

namespace Choice

def name : Choice → String
  | equal => "equal"
  | all => "all"

def pairing : Choice → Pairing
  | equal => Pairing.equal
  | all => Pairing.all

end Choice

end Pairing

end ProximityNet
