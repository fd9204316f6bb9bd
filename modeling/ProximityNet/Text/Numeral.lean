import ProximityNet.Decimal.Rounding
import ProximityNet.Json.Number

/-!
# Numerals

How numbers and truth values are written in variables and arguments.

* A natural number is a row of digits, perhaps with a plus sign.
* A float is a row of digits with a point anywhere in it or none, perhaps with a sign and an
  exponent; or it is called `inf`, `infinity` or `nan`, in small or capital letters.  The nearest
  float is taken.
* A truth value is `true` or `false`.
-/

namespace ProximityNet

namespace Numeral

open NumberText (digits valueOf exponentPart?)

/-- A row of at least one digit. -/
def row? (cs : List Char) : Option Nat :=
  if cs.isEmpty || !cs.all Char.isDigit then none else some (valueOf (digits cs))

/-- A natural number below `limit`. -/
def natural? (limit : Nat) (cs : List Char) : Option Nat :=
  let row := match cs with
    | '+' :: rest => rest
    | cs => cs
  (row? row).filter (· < limit)

def truth? (cs : List Char) : Option Bool :=
  if cs = "true".toList then some true else if cs = "false".toList then some false else none

/-- The digits behind the point and what follows them, if there is a point. -/
def afterPoint : List Char → List Char × List Char
  | '.' :: rest => (rest.takeWhile Char.isDigit, rest.dropWhile Char.isDigit)
  | rest => ([], rest)

/-- A float without a sign, in digits. -/
def decimal? (cs : List Char) : Option Decimal := do
  let whole := cs.takeWhile Char.isDigit
  let (fraction, rest) := afterPoint (cs.dropWhile Char.isDigit)
  let exponent ← exponentPart? rest
  if whole.isEmpty && fraction.isEmpty then none
  else
    some ⟨valueOf (digits (whole ++ fraction)), exponent.getD 0 - fraction.length⟩

/-- A float without a sign. -/
def magnitude? (cs : List Char) : Option Float :=
  let name := String.ofList (cs.map Char.toLower)
  if name = "inf" || name = "infinity" then some (1.0 / 0.0)
  else if name = "nan" then some (0.0 / 0.0)
  else (decimal? cs).map Decimal.toFloat

def float? : List Char → Option Float
  | '+' :: rest => magnitude? rest
  | '-' :: rest => (magnitude? rest).map (- ·)
  | cs => magnitude? cs

end Numeral

end ProximityNet
