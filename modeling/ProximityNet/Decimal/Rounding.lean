import ProximityNet.Decimal.Shortest

/-!
# Between decimals and floats

* `Decimal.toFloat` takes a decimal to the nearest float.
* `Decimal.nearest` takes a positive double to the nearest decimal with a given number of digits, an
  exact half going to the even neighbour.
* `Decimal.roundTo` rounds a float to a number of significant digits and reads the decimal back.
-/

namespace ProximityNet

namespace Decimal

/-- The nearest float. From `10 ^ 310` on that is infinity and below `10 ^ -330` zero, so no power
of ten beyond these is worked with. -/
def toFloat (d : Decimal) : Float :=
  let places : Int := d.digits.repr.length + d.exponent
  if d.digits = 0 || places < -330 then 0.0
  else if 310 < places then 1.0 / 0.0
  else Float.ofScientific d.digits (d.exponent < 0) d.exponent.natAbs

/-- The natural number nearest to `a / b`, the even one of two. -/
def nearestQuotient (a b : Nat) : Nat :=
  let d := a / b
  let r := a % b
  if b < 2 * r || (2 * r = b && d % 2 = 1) then d + 1 else d

/-- The numerator and the denominator of `m * 2 ^ q / 10 ^ k`. -/
def fractionOn (m : Nat) (q k : Int) : Nat × Nat :=
  (m * Nat.pow 2 q.toNat * Nat.pow 10 (-k).toNat, Nat.pow 2 (-q).toNat * Nat.pow 10 k.toNat)

/-- The coarsest grid, from `10 ^ k` down, on which `m * 2 ^ q` has at least `digits` digits. -/
def gridFor (digits m : Nat) (q : Int) : Nat → Int → Int
  | 0, k => k
  | tries + 1, k =>
    let (a, b) := fractionOn m q k
    if Nat.pow 10 (digits - 1) ≤ a / b then k else gridFor digits m q tries (k - 1)

/-- The decimal with a number of digits that is nearest to `m * 2 ^ q`. The search starts at most
two powers of ten above the grid. -/
def nearest (digits m : Nat) (q : Int) : Decimal :=
  let k := gridFor digits m q 3 (startExponent m q - (digits - 1 : Nat))
  let (a, b) := fractionOn m q k
  ⟨nearestQuotient a b, k⟩

/-- A float rounded to a number of significant digits. -/
def roundTo (digits : Nat) (x : Float) : Float :=
  match x.toModel.unpack with
  | .finite .positive m q _ => (nearest digits m q).toFloat
  | .finite .negative m q _ => -(nearest digits m q).toFloat
  | _ => x

end Decimal

end ProximityNet
