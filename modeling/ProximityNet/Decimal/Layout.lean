import ProximityNet.Decimal.Shortest

/-!
# How floats are written

The digits of a float are the shortest that read back (`Decimal.shortest`).  A `FloatLayout` says
the rest: where the point stands, what a whole number ends with, how large and small numbers are
written, and the words for what is not a finite number.

* `FloatLayout.plain`: positional throughout, without a point in whole numbers.
* `FloatLayout.json`: positional from `0.00001` up to `10 ^ 16`, whole numbers with `.0`, and an
  exponent with its sign elsewhere.
-/

namespace ProximityNet

/-- Everything about written floats but their digits. -/
structure FloatLayout where
  /-- Of two equally near shortest decimals, the one taken. -/
  tie : Decimal.Tie
  /-- The powers of ten of the first digit that are written positionally; all when there is none. -/
  positional : Option (Int × Int)
  /-- What follows a whole number. -/
  wholeEnd : String
  nan : String
  infinity : String

namespace FloatLayout

/-- Positional throughout: `5`, `0.1`, `100000000000000000`. -/
def plain : FloatLayout := ⟨.upper, none, "", "NaN", "inf"⟩

/-- As numbers stand in JSON texts: `5.0`, `0.00001`, `1e+16`, `1.5e-7`. What is not finite is
`null`. -/
def json : FloatLayout := ⟨.even, some (-5, 16), ".0", "null", "null"⟩

def zeros (n : Nat) : String := String.ofList (List.replicate n '0')

/-- A decimal with the point where it belongs. -/
def positionalText (layout : FloatLayout) (d : Decimal) : String :=
  let ds := Nat.toDigits 10 d.digits
  let point : Int := ds.length + d.exponent
  if 0 ≤ d.exponent then String.ofList ds ++ zeros d.exponent.toNat ++ layout.wholeEnd
  else if point ≤ 0 then "0." ++ zeros (-point).toNat ++ String.ofList ds
  else String.ofList (ds.take point.toNat) ++ "." ++ String.ofList (ds.drop point.toNat)

/-- A decimal as its first digit, the others behind a point, and a power of ten with its sign. -/
def exponentText (d : Decimal) : String :=
  let ds := Nat.toDigits 10 d.digits
  let e : Int := ds.length + d.exponent - 1
  let head := String.ofList (ds.take 1)
  let tail := if ds.length ≤ 1 then "" else "." ++ String.ofList (ds.drop 1)
  let sign := if e < 0 then "-" else "+"
  head ++ tail ++ "e" ++ sign ++ e.natAbs.repr

/-- The text of a positive decimal. -/
def decimalText (layout : FloatLayout) (d : Decimal) : String :=
  match layout.positional with
  | none => layout.positionalText d
  | some (first, last) =>
    let e : Int := (Nat.toDigits 10 d.digits).length + d.exponent - 1
    if first ≤ e ∧ e < last then layout.positionalText d else exponentText d

def signText : Float.Model.UnpackedFloat.Sign → String
  | .positive => ""
  | .negative => "-"

/-- The text of a float. -/
def text (layout : FloatLayout) (x : Float) : String :=
  match x.toModel.unpack with
  | .notANumber => layout.nan
  | .infinity s => signText s ++ layout.infinity
  | .zero s => signText s ++ "0" ++ layout.wholeEnd
  | .finite s m q _ => signText s ++ layout.decimalText (Decimal.shortest layout.tie m q)

end FloatLayout

end ProximityNet
