import ProximityNet.Random.ChaCha

/-!
# Random numbers of a range

A number is drawn from a closed range of doubles as `rand` 0.8 does it, by stretching a random fraction
with 52 bits over the range.  The factor is chosen so that the largest fraction reaches the upper end;
where rounding takes it beyond, `fitScale` goes down to the largest factor that stays inside.  A range
that is empty or has no finite length is a fault.
-/

namespace ProximityNet

/-- Why a number cannot be drawn from a range. -/
inductive RangeFault where
  /-- The range is empty, or one of its ends is not a number. -/
  | empty
  /-- The range has no finite length. -/
  | unbounded
deriving DecidableEq

/-- The gap between one and the next double. -/
def unitGap : Float := 2.220446049250313e-16

/-- The largest fraction that is drawn. -/
def topFraction : Float := 1.0 - unitGap

/-- The fraction in the upper 52 bits of a word: a double from one on less one. -/
def fractionOfWord (w : UInt64) : Float :=
  Float.ofBits ((w >>> 12) ||| 0x3FF0000000000000) - 1.0

/-- The largest factor, of those with these bits or less, with which no fraction gets beyond
`high`. -/
def fitScale (low high : Float) : (bits : Nat) → Float
  | 0 => 0.0
  | bits + 1 =>
    let scale := Float.ofBits (UInt64.ofNat (bits + 1))
    if scale * topFraction + low > high then fitScale low high bits else scale

/-- The factor that stretches fractions over a range. -/
def rangeScale (low high : Float) : Except RangeFault Float :=
  if low ≤ high then
    let scale := (high - low) / topFraction
    if scale.isFinite then .ok (fitScale low high scale.toBits.toNat) else .error .unbounded
  else .error .empty

/-- Draw a number from `low` to `high`. -/
def Generator.between (g : Generator) (low high : Float) : Except RangeFault (Float × Generator) :=
  match rangeScale low high with
  | .ok scale =>
    let (w, g) := g.next
    .ok (fractionOfWord w * scale + low, g)
  | .error fault => .error fault

end ProximityNet
