import ProximityNet.Json.Fields

/-!
# Shaping of links

A `Shaping` limits what a link lets through.  A field that is missing means "leave as it is":
`a.fillFrom b` sets what `a` sets and takes the rest from `b`.
-/

namespace ProximityNet

/-- Limits put on a link; a missing one is left as it is. -/
structure Shaping where
  bandwidthKbit : Option Nat
  lossPercent : Option Float
  delayMs : Option Float
deriving DecidableEq

namespace Shaping

/-- Leaves everything as it is. -/
def none : Shaping := ⟨.none, .none, .none⟩

instance : Inhabited Shaping := ⟨none⟩

/-- Only a loss. -/
def loss (percent : Float) : Shaping := { none with lossPercent := some percent }

/-- What `a` sets, and what `b` sets where `a` sets nothing. -/
def fillFrom (a b : Shaping) : Shaping where
  bandwidthKbit := a.bandwidthKbit.or b.bandwidthKbit
  lossPercent := a.lossPercent.or b.lossPercent
  delayMs := a.delayMs.or b.delayMs

def isEmpty (s : Shaping) : Bool :=
  s.bandwidthKbit.isNone && s.lossPercent.isNone && s.delayMs.isNone

/-- Fields compare as numbers. -/
instance : BEq Shaping := ⟨fun a b =>
  a.bandwidthKbit == b.bandwidthKbit && a.lossPercent == b.lossPercent && a.delayMs == b.delayMs⟩

theorem fillFrom_assoc (a b c : Shaping) :
    (a.fillFrom b).fillFrom c = a.fillFrom (b.fillFrom c) := by
  simp [fillFrom, Option.or_assoc]

@[simp] theorem none_fillFrom (a : Shaping) : none.fillFrom a = a := rfl

@[simp] theorem fillFrom_none (a : Shaping) : a.fillFrom none = a := by
  simp [fillFrom, none]

/-! ### In JSON texts -/

/-- The fields that are set. -/
def toEntries (s : Shaping) : List (String × Json) :=
  Json.entryOf? "bandwidth_kbit" .natural s.bandwidthKbit
    ++ Json.entryOf? "loss_percent" .float s.lossPercent
    ++ Json.entryOf? "delay_ms" .float s.delayMs

def toJson (s : Shaping) : Json := .record s.toEntries

def fieldNames : List String := ["bandwidth_kbit", "loss_percent", "delay_ms"]

def ofFields? (f : Json.Fields) : Option Shaping := do
  let bandwidth ← f.optional? "bandwidth_kbit" Json.asWord?
  let loss ← f.optional? "loss_percent" Json.asFloat?
  let delay ← f.optional? "delay_ms" Json.asFloat?
  some ⟨bandwidth, loss, delay⟩

def ofJson? (v : Json) : Option Shaping := (v.fields? fieldNames).bind ofFields?

end Shaping

end ProximityNet
