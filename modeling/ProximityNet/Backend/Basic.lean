import ProximityNet.Backend.Error
import ProximityNet.Distance.Matrix
import ProximityNet.Link.Connection
import ProximityNet.Node.Basic
import ProximityNet.Part

/-!
# Backends

The engine touches no network device.  It tells a `Backend` of every change, and the backend carries
the change out.  A backend acts on a state of any type, so a run of the engine is a function even
when its backend remembers, refuses or fails.

* An `Announcement` says what is about to happen or has happened; there is nothing to answer.
* `Backend.start` asks whether a new link may be set up.
* A `Request` is something to be done, and may fail.

`Backend.silent` does nothing and accepts everything, and `Backend.broadcast` passes everything on
to several backends.
-/

namespace ProximityNet

/-- The link that a call is about: its nodes, their interfaces, its route and the step. -/
structure LinkSite where
  x : Node
  y : Node
  interfaceX : Interface
  interfaceY : Interface
  route : LinkRoute
  step : Nat
deriving DecidableEq

/-- What a backend is told without being asked anything. -/
inductive Announcement where
  /-- A step begins, with all distances. -/
  | stepStarting (step : Nat) (distances : DistanceMatrix)
  /-- The changed pairs are about to be visited. -/
  | changesPending (step : Nat) (changed all : DistanceMatrix)
  /-- The changed pairs have been visited. -/
  | changesApplied (step : Nat) (changed all : DistanceMatrix)
  /-- A link that is up is about to be shaped again. -/
  | adjusting (site : LinkSite) (connection : Connection) (still : Bool) (shaping : Shaping)

/-- What a backend is asked to do. -/
inductive Request where
  /-- Finish the step. -/
  | finishStep (step : Nat) (distances : DistanceMatrix)
  /-- Set up a link that was accepted. -/
  | create (site : LinkSite) (connection : Connection)
  /-- Bring a link up. -/
  | raise (site : LinkSite) (connection : Connection) (shaping : Shaping)
  /-- Take a link down. -/
  | lower (site : LinkSite) (connection : Connection) (shaping : Shaping)
  /-- Shape a link that is up. -/
  | adjust (site : LinkSite) (connection : Connection) (still : Bool) (shaping : Shaping)

/-- Whether a new link may be set up, and what the switch that carries it is called. -/
structure StartAnswer where
  accepted : Bool
  switch : Option String
deriving DecidableEq

def StartAnswer.yes : StartAnswer := ⟨true, none⟩

def StartAnswer.no : StartAnswer := ⟨false, none⟩

/-- Something that carries links out, acting on a state of type `σ`. -/
structure Backend (σ : Type) where
  announce : Announcement → σ → σ
  /-- Asked before a new link is set up. -/
  start : LinkSite → Connection → σ → Except BackendError StartAnswer × σ
  perform : Request → σ → Except BackendError Unit × σ

/-- A call to a backend. -/
inductive Call where
  | announce (a : Announcement)
  | start (site : LinkSite) (connection : Connection)
  | perform (r : Request)

namespace Backend

variable {σ τ : Type}

/-- Accepts every link and does nothing. -/
def silent : Backend σ where
  announce _ s := s
  start _ _ s := (.ok .yes, s)
  perform _ s := (.ok (), s)

/-- Announce to all backends in order. -/
def announceAll (a : Announcement) : List (Backend σ) → σ → σ
  | [], s => s
  | b :: rest, s => announceAll a rest (b.announce a s)

/-- Ask all backends in order: a link is accepted if all accept it, and the first switch that is
named carries it. An error ends the round. -/
def startAll (site : LinkSite) (c : Connection) :
    List (Backend σ) → StartAnswer → σ → Except BackendError StartAnswer × σ
  | [], sum, s => (.ok sum, s)
  | b :: rest, sum, s =>
    match b.start site c s with
    | (.ok answer, s') =>
      startAll site c rest ⟨sum.accepted && answer.accepted, sum.switch.or answer.switch⟩ s'
    | (.error e, s') => (.error e, s')

/-- Let all backends do something, in order, until one fails. -/
def performAll (r : Request) : List (Backend σ) → σ → Except BackendError Unit × σ
  | [], s => (.ok (), s)
  | b :: rest, s =>
    match b.perform r s with
    | (.ok (), s') => performAll r rest s'
    | (.error e, s') => (.error e, s')

/-- Passes everything on to several backends, in order. -/
def broadcast (bs : List (Backend σ)) : Backend σ where
  announce a := announceAll a bs
  start site c := startAll site c bs .yes
  perform r := performAll r bs

/-- A backend that acts on a part of a state. -/
def within (part : Part σ τ) (b : Backend τ) : Backend σ where
  announce a s := part.set (b.announce a (part.get s)) s
  start site c s :=
    let (r, t) := b.start site c (part.get s)
    (r, part.set t s)
  perform q s :=
    let (r, t) := b.perform q (part.get s)
    (r, part.set t s)

end Backend

end ProximityNet
