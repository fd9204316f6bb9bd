import ProximityNet.Distance.Basic
import ProximityNet.Link.Shaping

/-!
# Link models

A `LinkModel` decides from a distance whether two nodes are connected and how their link is shaped,
and says how a link is shaped when it first comes up.

* `LinkModel.step`: connected below a threshold, with the full initial shaping.
* `LinkModel.linearLoss`: connected below a range, with a loss that grows with the distance.
* `LinkModel.tiered`: the shaping of the first tier that reaches beyond the distance.
* `LinkModel.unshaped`: connected at every limited distance.

`LinkModel.Config` chooses among them, and `LinkModel.build` refuses parameters that make no sense.
-/

namespace ProximityNet

/-- What a model says of one distance. -/
structure LinkDecision where
  connected : Bool
  shaping : Shaping
deriving DecidableEq

namespace LinkDecision

def up (shaping : Shaping) : LinkDecision := ⟨true, shaping⟩

/-- Not connected: all is lost. -/
def down : LinkDecision := ⟨false, .loss 100.0⟩

def toJson (d : LinkDecision) : Json :=
  .record [("connected", .bool d.connected), ("params", d.shaping.toJson)]

end LinkDecision

/-- Decides about links from distances. -/
structure LinkModel where
  name : String
  /-- What becomes of a link at a distance. -/
  decide : Distance → LinkDecision
  /-- The shaping of a link that comes up for the first time. -/
  initial : LinkDecision

/-- What can be wrong with the parameters of a model. -/
inductive ModelError where
  /-- A range or a threshold is not a positive number. -/
  | invalidRange (value : Float)
  /-- A loss is not between zero and a hundred percent. -/
  | invalidLoss (value : Float)
  | noTiers
  /-- A tier does not reach beyond the one before it. -/
  | unorderedTiers (index : Nat)
  /-- A tier offers more bandwidth or less loss than a nearer one. -/
  | betterTier (index : Nat)
deriving DecidableEq

namespace ModelError

def message : ModelError → String
  | invalidRange value =>
    "invalid range " ++ FloatLayout.plain.text value ++ ", expected a positive number"
  | invalidLoss value => "invalid loss " ++ FloatLayout.plain.text value ++ "%, expected 0..=100"
  | noTiers => "tiered model has no tiers"
  | unorderedTiers index =>
    "tier " ++ index.repr ++ " does not extend beyond the previous tier"
  | betterTier index => "tier " ++ index.repr ++ " offers better quality than a nearer tier"

end ModelError

/-- The distances below a bound that no nearer tier takes, and their shaping. -/
structure Tier where
  maxDistance : Float
  shaping : Shaping
deriving DecidableEq

namespace LinkModel

def checkRange (value : Float) : Except ModelError Unit :=
  if value.isNaN || value ≤ 0.0 then .error (.invalidRange value) else .ok ()

def checkLoss (value : Float) : Except ModelError Unit :=
  if 0.0 ≤ value && value ≤ 100.0 then .ok () else .error (.invalidLoss value)

/-- Connected with the initial shaping below the threshold. -/
def step (threshold : Float) (initial : Shaping) : LinkModel where
  name := "step"
  decide d := if d.value < threshold then .up initial else .down
  initial := .up initial

/-- Connected below the range, with the loss in proportion to the distance. -/
def linearLoss (maxRange maxLossPercent : Float) (initial : Shaping) : LinkModel where
  name := "linear_loss"
  decide d :=
    if d.value ≥ maxRange then .down else .up (.loss (maxLossPercent * d.value / maxRange))
  initial := .up (initial.fillFrom (.loss 0.0))

/-- Connected with the shaping of the first tier whose bound lies beyond the distance. -/
def tiered (tiers : List Tier) (initial : Shaping) : LinkModel where
  name := "tiered"
  decide d :=
    match tiers.find? fun t => d.value < t.maxDistance with
    | some t => .up t.shaping
    | none => .down
  initial := .up initial

/-- Connected at every limited distance, without a shaping of its own. -/
def unshaped (initial : Shaping) : LinkModel where
  name := "unshaped"
  decide d := if d.isUnlimited then .down else .up .none
  initial := .up initial

/-- What the tiers already checked allow the next one. -/
structure TierLimits where
  /-- The bound of the tier before. -/
  reach : Option Float
  leastBandwidth : Option Nat
  mostLoss : Option Float

/-- Whether a bound lies beyond the one of the tier before. -/
def TierLimits.admitsBound (limits : TierLimits) (t : Tier) : Bool :=
  match limits.reach with
  | some reach => !(t.maxDistance ≤ reach)
  | none => true

/-- Whether a tier has no more bandwidth than the nearer tiers that limit it. -/
def TierLimits.admitsBandwidth (limits : TierLimits) (t : Tier) : Bool :=
  match limits.leastBandwidth, t.shaping.bandwidthKbit with
  | some least, some kbit => kbit ≤ least
  | _, _ => true

/-- Whether a tier has no less loss than the nearer tiers that have some. -/
def TierLimits.admitsLoss (limits : TierLimits) (t : Tier) : Bool :=
  match limits.mostLoss, t.shaping.lossPercent with
  | some most, some loss => !(loss < most)
  | _, _ => true

/-- The limits behind one more tier. -/
def TierLimits.tighten (limits : TierLimits) (t : Tier) : TierLimits where
  reach := some t.maxDistance
  leastBandwidth := t.shaping.bandwidthKbit.or limits.leastBandwidth
  mostLoss := t.shaping.lossPercent.or limits.mostLoss

/-- Check one tier by itself and against the tiers before it. -/
def checkTier (limits : TierLimits) (index : Nat) (t : Tier) : Except ModelError Unit := do
  checkRange t.maxDistance
  match t.shaping.lossPercent with
  | some loss => checkLoss loss
  | none => pure ()
  if !limits.admitsBound t then throw (.unorderedTiers index)
  if !limits.admitsBandwidth t then throw (.betterTier index)
  if !limits.admitsLoss t then throw (.betterTier index)

/-- Check tiers in order, the first of them numbered `index`. -/
def checkTiersFrom (limits : TierLimits) (index : Nat) : List Tier → Except ModelError Unit
  | [] => .ok ()
  | t :: rest =>
    match checkTier limits index t with
    | .ok () => checkTiersFrom (limits.tighten t) (index + 1) rest
    | .error e => .error e

/-- Check that there are tiers, that they reach ever further, and that no tier is better than a
nearer one. -/
def checkTiers (tiers : List Tier) : Except ModelError Unit :=
  if tiers.isEmpty then .error .noTiers else checkTiersFrom ⟨none, none, none⟩ 0 tiers

/-- A model and its parameters. -/
inductive Config where
  | step (threshold : Float)
  | linearLoss (maxRange maxLossPercent : Float)
  | tiered (tiers : List Tier)
  | unshaped
deriving DecidableEq

/-- The model used when none is chosen. -/
def Config.standard : Config := .step 30.0

/-- The model that a configuration stands for. -/
def build (initial : Shaping) : Config → Except ModelError LinkModel
  | .step threshold => do
    checkRange threshold
    return step threshold initial
  | .linearLoss maxRange maxLossPercent => do
    checkRange maxRange
    checkLoss maxLossPercent
    return linearLoss maxRange maxLossPercent initial
  | .tiered tiers => do
    checkTiers tiers
    return tiered tiers initial
  | .unshaped => .ok (unshaped initial)

end LinkModel

namespace Tier

def toJson (t : Tier) : Json :=
  .record (("max_distance", .float t.maxDistance) :: t.shaping.toEntries)

/-- A tier is written by name, its bound and its shaping side by side. -/
def ofJson? (v : Json) : Option Tier := do
  let f ← v.fieldsByName? ("max_distance" :: Shaping.fieldNames)
  let bound ← f.required? "max_distance" Json.asFloat?
  let shaping ← Shaping.ofFields? f
  some ⟨bound, shaping⟩

end Tier

namespace LinkModel.Config

def toJson : Config → Json
  | step threshold => .record [("model", .text "step"), ("threshold", .float threshold)]
  | linearLoss maxRange maxLossPercent =>
    .record [("model", .text "linear_loss"), ("max_range", .float maxRange),
      ("max_loss_percent", .float maxLossPercent)]
  | tiered tiers =>
    .record [("model", .text "tiered"), ("tiers", .array (tiers.map Tier.toJson))]
  | unshaped => .record [("model", .text "unshaped")]

/-- Whether a record without fields of its own has none in excess: an array has to be empty. -/
def isBare : Json → Bool
  | .array (_ :: _) => false
  | _ => true

/-- A configuration inside `outer` arrays and objects. -/
def ofJson? (outer : Nat) (v : Json) : Option Config := do
  let (name, body) ← v.tagged? "model" outer
  match name with
  | "step" =>
    let f ← body.fields? ["threshold"]
    (f.required? "threshold" Json.asFloat?).map step
  | "linear_loss" =>
    let f ← body.fields? ["max_range", "max_loss_percent"]
    let maxRange ← f.required? "max_range" Json.asFloat?
    let maxLoss ← f.default? "max_loss_percent" 100.0 Json.asFloat?
    some (linearLoss maxRange maxLoss)
  | "tiered" =>
    let f ← body.fields? ["tiers"]
    (f.required? "tiers" (Json.asList? Tier.ofJson?)).map tiered
  | "unshaped" => if isBare body then some unshaped else none
  | _ => none

end LinkModel.Config

end ProximityNet
