import ProximityNet.Decimal.Layout

/-!
# Distances

A distance is a number that is not negative; the unlimited distance stands for nodes out of any
range.  Distances compare as numbers, so the two zeros are the same distance.
-/

namespace ProximityNet

/-- A separation between two nodes, never negative and always a number. -/
structure Distance where
  value : Float
  valid : value.isNaN = false ∧ ¬ value < 0.0
deriving DecidableEq

namespace Distance

/-- No separation at all. -/
def zero : Distance := ⟨0.0, by decide⟩

/-- Out of any range. -/
def unlimited : Distance := ⟨1.0 / 0.0, by decide⟩

instance : Inhabited Distance := ⟨zero⟩

/-- The distance with this value, if the value is a number and not negative. -/
def ofFloat? (value : Float) : Option Distance :=
  if h : value.isNaN = false ∧ ¬ value < 0.0 then some ⟨value, h⟩ else none

def isUnlimited (d : Distance) : Bool := d.value.isInf

instance : BEq Distance := ⟨fun a b => a.value == b.value⟩

/-- How a distance is written: `unlimited` or the number. -/
def label (d : Distance) : String :=
  if d.isUnlimited then "unlimited" else FloatLayout.plain.text d.value

end Distance

end ProximityNet
