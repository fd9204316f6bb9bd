/-!
# The distance of two points

The length of the hypotenuse of a right-angled triangle is the root of a sum of
squares.  `hypotenuse` takes the root of the exact sum and rounds once, so nothing overflows or is
lost on the way.  The root is thus rounded correctly, where the `hypot` of a library may be one unit in
the last place off.
-/

namespace ProximityNet

open Float.Model (UnpackedFloat)

/-- The root of `n * 2 ^ e`, rounded to the nearest double. -/
def rootOfScaled (n : Nat) (e : Int) : Float :=
  if h : 0 < n then
    Float.ofModel (.pack (.sqrt Float.Model.Format.binary64 (.finite .positive n e h)))
  else 0.0

/-- The root of `(m * 2 ^ p) ^ 2 + (n * 2 ^ q) ^ 2`. -/
def rootOfSquares (m : Nat) (p : Int) (n : Nat) (q : Int) : Float :=
  let e := min p q
  let a := m * Nat.pow 2 (p - e).toNat
  let b := n * Nat.pow 2 (q - e).toNat
  rootOfScaled (a * a + b * b) (2 * e)

/-- The hypotenuse over two legs of any sign. An infinite leg makes it infinite whatever the other
one is. -/
def hypotenuse (x y : Float) : Float :=
  match x.toModel.unpack, y.toModel.unpack with
  | .infinity _, _ | _, .infinity _ => 1.0 / 0.0
  | .notANumber, _ | _, .notANumber => 0.0 / 0.0
  | .zero _, .zero _ => 0.0
  | .zero _, .finite _ .. => y.abs
  | .finite _ .., .zero _ => x.abs
  | .finite _ m p _, .finite _ n q _ => rootOfSquares m p n q

end ProximityNet
