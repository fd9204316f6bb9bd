/-!
# The shortest decimal that reads back

A double stands for all numbers nearer to it than to any other double.  Of the decimals in that
interval `Decimal.shortest` takes one with the fewest digits, and of those the nearest to the double
itself.

The interval is kept in whole numbers.  A double `m * 2 ^ q` is `4 * m` in units of `2 ^ (q - 2)`;
its upper end lies two units above it and its lower end two units below, or only one where the
doubles below lie twice as dense.  The ends belong to the interval exactly if `m` is even.  On the
grid of the multiples of `10 ^ k` only the two neighbours of the double have to be tried, for if the
interval holds a point of the grid it holds one of those two.  The grids are tried from coarse to
fine.
-/

namespace ProximityNet

/-- The number `digits * 10 ^ exponent`. -/
structure Decimal where
  digits : Nat
  exponent : Int
deriving DecidableEq

namespace Decimal

/-- Which of two equally near neighbours is taken. -/
inductive Tie where
  | upper
  | even
deriving DecidableEq

/-- The numbers that read back as one positive double, in units of `2 ^ unit`. -/
structure Interval where
  low : Nat
  value : Nat
  high : Nat
  unit : Int
  closed : Bool

namespace Interval

/-- The interval of `m * 2 ^ q`. The doubles below lie denser only under a power of two, and not
under the least normal one. -/
def ofDouble (m : Nat) (q : Int) : Interval where
  low := 4 * m - if m = Nat.pow 2 52 ∧ -1074 < q then 1 else 2
  value := 4 * m
  high := 4 * m + 2
  unit := q - 2
  closed := m % 2 = 0

/-- What a grid point is multiplied by to compare it with the interval, on the grid `10 ^ k`. -/
def pointScale (i : Interval) (k : Int) : Nat :=
  Nat.pow 10 k.toNat * Nat.pow 2 (-i.unit).toNat

/-- What the interval is multiplied by to compare it with a grid point, on the grid `10 ^ k`. -/
def ownScale (i : Interval) (k : Int) : Nat :=
  Nat.pow 10 (-k).toNat * Nat.pow 2 i.unit.toNat

/-- Whether `d * 10 ^ k` lies in the interval. -/
def holds (i : Interval) (k : Int) (d : Nat) : Bool :=
  let x := d * i.pointScale k
  let low := i.low * i.ownScale k
  let high := i.high * i.ownScale k
  if i.closed then low ≤ x && x ≤ high else low < x && x < high

/-- The grid point below the value, or on it. -/
def below (i : Interval) (k : Int) : Nat := i.value * i.ownScale k / i.pointScale k

/-- Whether the upper neighbour on the grid is taken when both are in the interval. -/
def upperIsNearer (i : Interval) (tie : Tie) (k : Int) : Bool :=
  let d := i.below k
  let value := i.value * i.ownScale k
  let down := value - d * i.pointScale k
  let up := (d + 1) * i.pointScale k - value
  if down = up then (match tie with | .upper => true | .even => d % 2 = 1) else up < down

/-- A point of the grid `10 ^ k` in the interval, the nearest to the value. -/
def pointOn (i : Interval) (tie : Tie) (k : Int) : Option Nat :=
  let d := i.below k
  match i.holds k d, i.holds k (d + 1) with
  | true, true => some (if i.upperIsNearer tie k then d + 1 else d)
  | true, false => some d
  | false, true => some (d + 1)
  | false, false => none

/-- The first point found on the grids from `10 ^ k` down. -/
def search (i : Interval) (tie : Tie) : Nat → Int → Decimal
  | 0, k => ⟨i.below k, k⟩
  | tries + 1, k =>
    match i.pointOn tie k with
    | some d => ⟨d, k⟩
    | none => i.search tie tries (k - 1)

end Interval

/-- A power of ten above `m * 2 ^ q`, at most two powers above its first digit. -/
def startExponent (m : Nat) (q : Int) : Int := ((m.log2 + 1 + q) * 30103).fdiv 100000 + 1

/-- The shortest decimal that reads back as the double `m * 2 ^ q`. Seventeen digits are always
enough, so twenty grids are. -/
def shortest (tie : Tie) (m : Nat) (q : Int) : Decimal :=
  (Interval.ofDouble m q).search tie 20 (startExponent m q)

end Decimal

end ProximityNet
