import ProximityNet.Engine.Work
import ProximityNet.Link.Model
import ProximityNet.Node.Pairing
import ProximityNet.Tunnel

/-!
# Reconciling a pair of nodes

A connection does not exist, is down, or is up.  `reconcile` visits a pair of nodes whose distance
has changed: it sets up the links that the decision of the model calls for and that do not exist
yet, then shapes or takes down those that are up, then brings up again those that are down.

* A link to a hub is always called for, with the initial shaping, and never taken down.
* A link to the management node does not depend on distances: `connectManagement` sets it up.
* A pair on different servers gets its tunnel before anything is done about its links.
-/

namespace ProximityNet

/-- What an engine is given once and for all. -/
structure Setting (σ : Type) where
  model : LinkModel
  /-- Which interfaces of two emulation nodes are linked. -/
  pairing : Pairing
  backend : Backend σ
  policy : TunnelPolicy σ

/-- A visit to a pair of nodes. -/
structure Visit where
  x : Node
  y : Node
  pair : NodePair
  distance : Distance
  isRemote : Bool
  step : Nat

namespace Visit

/-- What links between the two nodes are for. -/
def kind (v : Visit) : ConnectionKind :=
  if v.x.isCentral || v.y.isCentral then .central else .user

/-- Where a link between the two nodes runs. -/
def site (v : Visit) (kind : ConnectionKind) (ix iy : Interface) : LinkSite :=
  ⟨v.x, v.y, ix, iy, .ofKind kind v.isRemote, v.step⟩

end Visit

variable {σ : Type}

/-! ### One link -/

/-- Set up a link that does not exist yet, unless the backend refuses it; the result says whether it
was set up. Its id is used up in any case. -/
def setUp (b : Backend σ) (v : Visit) (kind : ConnectionKind) (ix iy : Interface)
    (interfaces : InterfacePair) (shaping : Shaping) : Work σ Bool := do
  let id ← Work.freshId
  let c := Connection.fresh id v.pair interfaces kind v.distance v.step
  let site := v.site kind ix iy
  let answer ← Work.ask b site c
  if answer.accepted then
    Work.put { c with shaping := shaping, switch := answer.switch }
    let c ← Work.stored v.pair interfaces
    Work.perform b (.create site c)
    Work.count .countCreated
    return true
  else
    Work.count .countRefused
    return false

/-- Bring up a link that is down. -/
def bringUp (b : Backend σ) (v : Visit) (kind : ConnectionKind) (ix iy : Interface)
    (interfaces : InterfacePair) (shaping : Shaping) : Work σ Unit := do
  let c ← Work.stored v.pair interfaces
  Work.perform b (.raise (v.site kind ix iy) c shaping)
  Work.setActive v.pair interfaces true
  Work.modify v.pair interfaces fun c =>
    { c with shaping := shaping.fillFrom c.shaping, distance := v.distance }
  Work.count .countUp

/-- Take down a link that is up. -/
def takeDown (b : Backend σ) (v : Visit) (c : Connection) (interfaces : InterfacePair)
    (shaping : Shaping) : Work σ Unit := do
  Work.perform b (.lower (v.site c.kind interfaces.low interfaces.high) c shaping)
  Work.setActive v.pair interfaces false
  Work.modify v.pair interfaces fun c => { c with distance := v.distance }
  Work.count .countDown

/-- Have the backend shape a link that is up and stays up. -/
def shape (b : Backend σ) (v : Visit) (c : Connection) (interfaces : InterfacePair)
    (shaping : Shaping) : Work σ Unit := do
  let site := v.site c.kind interfaces.low interfaces.high
  Work.announce b (.adjusting site c true shaping)
  Work.perform b (.adjust site c true shaping)

/-! ### The links of a pair -/

namespace Setting

variable (s : Setting σ)

/-- The shaping of a link that comes up for the first time. -/
def initial : Shaping := s.model.initial.shaping

/-- Links to hubs are up with the initial shaping; for others the model decides. -/
def decide (kind : ConnectionKind) (distance : Distance) : LinkDecision :=
  if kind = .central then .up s.initial else s.model.decide distance

/-- The interfaces that may be linked on a visit. Management interfaces never are. -/
def candidates (v : Visit) : List (Interface × Interface) :=
  let pairing := if v.kind = .central then Pairing.hub else s.pairing
  (pairing v.x v.y).filter fun (ix, iy) => !(ix.kind.isManagement || iy.kind.isManagement)

/-- Set up a link and bring it up, unless it exists. -/
def createLink (v : Visit) (decision : LinkDecision) (ix iy : Interface) : Work σ Unit := do
  let store ← Work.connections
  if (store.find? v.pair ⟨ix, iy⟩).isSome then
    return ()
  else
    let accepted ← setUp s.backend v v.kind ix iy ⟨ix, iy⟩ .none
    if accepted then
      bringUp s.backend v v.kind ix iy ⟨ix, iy⟩ (decision.shaping.fillFrom s.initial)

/-- Shape a link that is up, or take it down. In the first step the model's shaping is laid over the
initial one. -/
def renewLink (v : Visit) (decision : LinkDecision) (interfaces : InterfacePair) : Work σ Unit := do
  let c ← Work.stored v.pair interfaces
  match c.kind with
  | .management => return ()
  | .central =>
    shape s.backend v c interfaces s.initial
    Work.count .countAdjusted
  | .user =>
    if decision.connected then
      let shaping := if v.step = 0 then decision.shaping.fillFrom s.initial else decision.shaping
      shape s.backend v c interfaces shaping
      Work.modify v.pair interfaces fun c =>
        { c with shaping := shaping.fillFrom c.shaping, distance := v.distance }
      Work.count .countAdjusted
    else
      takeDown s.backend v c interfaces decision.shaping

/-- Bring up a link that is down. -/
def reviveLink (v : Visit) (decision : LinkDecision) (interfaces : InterfacePair) :
    Work σ Unit := do
  let c ← Work.stored v.pair interfaces
  bringUp s.backend v c.kind interfaces.low interfaces.high interfaces decision.shaping

/-- Do all there is to be done about the links of a pair. -/
def renewLinks (v : Visit) (decision : LinkDecision) : Work σ Unit := do
  if decision.connected then
    (s.candidates v).forM fun (ix, iy) => s.createLink v decision ix iy
  let store ← Work.connections
  (store.activeInterfaces v.pair).forM (s.renewLink v decision)
  if decision.connected then
    let store ← Work.connections
    (store.inactiveInterfaces v.pair).forM (s.reviveLink v decision)

/-- See to it that a pair on different servers has a tunnel; the result says whether it is such a
pair. -/
def ensureTunnel (x y : NodeId) (pair : NodePair) : Work σ Bool := fun p =>
  if s.policy.isRemote p.world x y then
    let (result, world) := s.policy.ensure pair p.world
    (result.mapError .tunnel |>.map fun () => true, { p with world })
  else (.ok false, p)

/-- Reconcile the links of two nodes with their distance. Nothing is done about nodes that are out
of range and have no links. -/
def reconcileNodes (step : Nat) (pair : NodePair) (distance : Distance) (x y : Node) :
    Work σ Unit := do
  if x.isManagement || y.isManagement then
    return ()
  else
    let v : Visit := ⟨x, y, pair, distance, false, step⟩
    let decision := s.decide v.kind distance
    let store ← Work.connections
    if decision.connected || store.containsPair pair then
      let isRemote ← s.ensureTunnel x.id y.id pair
      s.renewLinks { v with isRemote } decision

/-- Reconcile the links of a pair with its distance. -/
def reconcile (nodes : SortedMap NodeId Node) (step : Nat) (pair : NodePair) (distance : Distance) :
    Work σ Unit :=
  match nodes.get? pair.low, nodes.get? pair.high with
  | none, _ => Work.fail (.unknownNode pair.low)
  | some _, none => Work.fail (.unknownNode pair.high)
  | some x, some y => s.reconcileNodes step pair distance x y

/-- Reconcile pairs in their order; a pair that fails is reported, and the others follow. -/
def reconcileAll (nodes : SortedMap NodeId Node) (step : Nat) :
    List (NodePair × Distance) → Progress σ → Progress σ
  | [], p => p
  | (pair, distance) :: rest, p =>
    match s.reconcile nodes step pair distance p with
    | (.ok (), p') => reconcileAll nodes step rest p'
    | (.error cause, p') =>
      reconcileAll nodes step rest
        { p' with report := p'.report.addFailure ⟨pair, distance, cause⟩ }

/-! ### Links to the management node -/

/-- An error of the backend at a link to the management node is reported as such. -/
def asManagementError (node : NodeId) : ReconcileError → ReconcileError
  | .backend cause => .managementLink node cause
  | e => e

/-- Set up a link to the management node, unless it exists, and bring it up. -/
def startManagementLink (v : Visit) (ix iy : Interface) (interfaces : InterfacePair) :
    Work σ Unit := do
  let store ← Work.connections
  let isThere ←
    if (store.find? v.pair interfaces).isSome then pure true
    else setUp s.backend v .management ix iy interfaces s.initial
  if isThere then
    bringUp s.backend v .management ix iy interfaces s.initial

/-- Link a node to the management node, if it has a management interface and the link is not up. A
link that the backend refuses or fails at is passed over. -/
def connectToManagement (step : Nat) (management : Node) (iy : Interface) (node : Node) :
    Work σ Unit := do
  match node.managementInterface? with
  | none => return ()
  | some ix =>
    let pair ← Work.ofExcept ((NodePair.make node.id management.id).mapError .topology)
    let interfaces := InterfacePair.oriented pair node.id ix iy
    let store ← Work.connections
    if store.isActive? pair interfaces = some true then
      return ()
    else
      let v : Visit := ⟨node, management, pair, .zero, false, step⟩
      let work := s.startManagementLink v ix iy interfaces
      Work.attempt (work.withError (asManagementError node.id))

/-- Link all emulation nodes to the management node, if there is one. -/
def connectManagement (nodes : SortedMap NodeId Node) (step : Nat) : Work σ Unit :=
  match nodes.get? .management with
  | none => pure ()
  | some management =>
    match management.managementInterface? with
    | none => pure ()
    | some iy =>
      (nodes.values.filter (·.isEmulation)).forM (s.connectToManagement step management iy)

end Setting

end ProximityNet
