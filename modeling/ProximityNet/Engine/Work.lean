import ProximityNet.Backend.Basic
import ProximityNet.Engine.Report
import ProximityNet.Link.Store

/-!
# Work on a step

While a step is under way the store, the report and the state of the outside world change together.
`Work` is a computation on the three: it may fail, and what was done before it failed stays done.

The operations here are the smallest pieces of a step, each of them one call to the backend or one
change of the store:

* `Work.announce`, `Work.ask`, `Work.perform` call the backend;
* `Work.freshId`, `Work.stored`, `Work.put`, `Work.setActive`, `Work.modify` act on the store;
* `Work.count` acts on the report.
-/

namespace ProximityNet

/-- A step under way: the connections, what has been done, and the state that the backend and the
tunnels act on. -/
structure Progress (σ : Type) where
  store : ConnectionStore
  report : StepReport
  world : σ

/-- Work on a step under way, which may fail. -/
def Work (σ α : Type) : Type := Progress σ → Except ReconcileError α × Progress σ

namespace Work

variable {σ α β : Type}

/-- One piece of work after another; a failure ends it. -/
def andThen (w : Work σ α) (f : α → Work σ β) : Work σ β := fun p =>
  match w p with
  | (.ok a, p') => f a p'
  | (.error e, p') => (.error e, p')

instance : Monad (Work σ) where
  pure a p := (.ok a, p)
  bind := andThen

/-- Give up. -/
def fail (e : ReconcileError) : Work σ α := fun p => (.error e, p)

/-- Go on with a value, or give up. -/
def ofExcept : Except ReconcileError α → Work σ α
  | .ok a => pure a
  | .error e => fail e

/-- Report a failure in another way. -/
def withError (f : ReconcileError → ReconcileError) (w : Work σ α) : Work σ α := fun p =>
  let (result, p') := w p
  (result.mapError f, p')

/-- Do some work and forget whether it failed. -/
def attempt (w : Work σ α) : Work σ Unit := fun p => (.ok (), (w p).2)

/-! ### The backend -/

def announce (b : Backend σ) (a : Announcement) : Work σ Unit := fun p =>
  (.ok (), { p with world := b.announce a p.world })

/-- Ask whether a new link may be set up. -/
def ask (b : Backend σ) (site : LinkSite) (c : Connection) : Work σ StartAnswer := fun p =>
  let (answer, world) := b.start site c p.world
  (answer.mapError .backend, { p with world })

def perform (b : Backend σ) (r : Request) : Work σ Unit := fun p =>
  let (result, world) := b.perform r p.world
  (result.mapError .backend, { p with world })

/-! ### The store -/

/-- The connections as they are now. -/
def connections : Work σ ConnectionStore := fun p => (.ok p.store, p)

def freshId : Work σ ConnectionId := fun p =>
  let (id, store) := p.store.freshId
  (.ok id, { p with store })

/-- The connection under these keys, which should be there. -/
def stored (pair : NodePair) (interfaces : InterfacePair) : Work σ Connection := fun p =>
  match p.store.find? pair interfaces with
  | some c => (.ok c, p)
  | none => (.error (.missingConnection pair interfaces), p)

/-- Store a connection that is not up. -/
def put (c : Connection) : Work σ Unit := fun p =>
  (.ok (), { p with store := (p.store.put c false).2 })

/-- Change the connection under these keys where it stands. -/
def modify (pair : NodePair) (interfaces : InterfacePair) (f : Connection → Connection) :
    Work σ Unit := fun p =>
  (.ok (), { p with store := p.store.modify pair interfaces f })

/-- Mark the connection under these keys, which should be there, as up or not. -/
def setActive (pair : NodePair) (interfaces : InterfacePair) (active : Bool) :
    Work σ Unit := fun p =>
  match p.store.setActive? pair interfaces active with
  | some store => (.ok (), { p with store })
  | none => (.error (.missingConnection pair interfaces), p)

/-! ### The report -/

def count (f : StepReport → StepReport) : Work σ Unit := fun p =>
  (.ok (), { p with report := f p.report })

end Work

end ProximityNet
