import ProximityNet.Json.Basic

/-!
# Numbers in JSON texts

A number is an optional minus, whole digits without a leading zero, and optionally a point with
digits and an exponent with digits (`NumberText`).

Its value is an integer when it has neither point nor exponent and fits into 64 bits, `-0` apart,
which is a float.  A float is read from its leading digits: as many whole digits and then as many
fraction digits as fit into 64 bits are taken as one natural number; whole digits left over count as
powers of ten, fraction digits left over are dropped, and the natural number is multiplied or
divided by one power of ten.
-/

namespace ProximityNet

/-- A number taken apart. -/
structure NumberText where
  negative : Bool
  whole : List Nat
  /-- The digits after the point, if there is a point. -/
  fraction : Option (List Nat)
  /-- The exponent, if there is one. -/
  exponent : Option Int

namespace NumberText

def digitValue (c : Char) : Nat := c.toNat - '0'.toNat

def digits (cs : List Char) : List Nat := cs.map digitValue

/-- The number that a list of digits stands for. -/
def valueOf (ds : List Nat) : Nat := ds.foldl (fun n d => 10 * n + d) 0

/-- An exponent behind its `e`: a sign and at least one digit, and nothing after that. -/
def exponentOf? (cs : List Char) : Option Int :=
  let (negative, ds) : Bool × List Char :=
    match cs with
    | '+' :: rest => (false, rest)
    | '-' :: rest => (true, rest)
    | rest => (false, rest)
  if ds.isEmpty || !ds.all Char.isDigit then none
  else
    let n : Int := valueOf (digits ds)
    some (if negative then -n else n)

/-- What may follow the whole digits or the fraction: nothing, or an exponent. -/
def exponentPart? : List Char → Option (Option Int)
  | [] => some none
  | 'e' :: rest | 'E' :: rest => (exponentOf? rest).map some
  | _ => none

/-- What may follow the whole digits: a point with digits, an exponent, both or neither. -/
def fractionPart? : List Char → Option (Option (List Nat) × Option Int)
  | '.' :: rest =>
    let ds := rest.takeWhile Char.isDigit
    if ds.isEmpty then none
    else (exponentPart? (rest.dropWhile Char.isDigit)).map fun e => (some (digits ds), e)
  | rest => (exponentPart? rest).map fun e => (none, e)

/-- The number that a word spells, if it spells one. -/
def ofChars? (cs : List Char) : Option NumberText :=
  let (negative, cs) : Bool × List Char :=
    match cs with
    | '-' :: rest => (true, rest)
    | rest => (false, rest)
  let whole := cs.takeWhile Char.isDigit
  match whole with
  | [] => none
  | '0' :: _ :: _ => none
  | _ =>
    (fractionPart? (cs.dropWhile Char.isDigit)).map fun (f, e) => ⟨negative, digits whole, f, e⟩

/-- The least number that 64 bits do not hold. -/
def wordSize : Nat := 18446744073709551616

/-- Read digits onto `n` while the result fits into 64 bits: the number reached, and the digits
left. -/
def takeDigits (n : Nat) : List Nat → Nat × List Nat
  | [] => (n, [])
  | d :: rest => if 10 * n + d < wordSize then takeDigits (10 * n + d) rest else (n, d :: rest)

/-- A whole number times a power of ten, or divided by one. The powers up to the 308th are floats;
below them the number is divided in steps, and above them it is beyond all floats. -/
def scale (n : Float) (e : Int) : Float :=
  if 0 ≤ e then
    if e ≤ 308 then n * Float.ofScientific 1 false e.toNat
    else if n == 0.0 then n
    else 1.0 / 0.0
  else descend 3 n e.natAbs
where
  /-- Divide by the `e`-th power of ten; three steps bring every 64-bit number to zero. -/
  descend : Nat → Float → Nat → Float
    | 0, _, _ => 0.0
    | steps + 1, n, e =>
      if e ≤ 308 then n / Float.ofScientific 1 false e
      else if n == 0.0 then n
      else descend steps (n / Float.ofScientific 1 false 308) (e - 308)

/-- The float that a number stands for, infinite when it lies beyond all floats. -/
def toFloat (t : NumberText) : Float :=
  let fraction := t.fraction.getD []
  let (n, wholeLeft) := takeDigits 0 t.whole
  let (n, fractionLeft) := takeDigits n fraction
  let shift : Int := wholeLeft.length + fractionLeft.length - fraction.length
  let x := scale (Float.ofNat n) (shift + t.exponent.getD 0)
  if t.negative then -x else x

/-- The integer that a number stands for: it has neither point nor exponent, fits into 64 bits, and
is not `-0`. -/
def toInt? (t : NumberText) : Option Int :=
  if t.fraction.isSome || t.exponent.isSome then none
  else
    let n := valueOf t.whole
    if t.negative then if 0 < n ∧ n ≤ wordSize / 2 then some (-n) else none
    else if n < wordSize then some n else none

def value (t : NumberText) : JsonNumber :=
  match t.toInt? with
  | some i => .integer i
  | none => .float t.toFloat

end NumberText

namespace JsonNumber

/-- The number that a word spells, if it spells one. -/
def ofChars? (cs : List Char) : Option JsonNumber := (NumberText.ofChars? cs).map NumberText.value

/-- The float nearest to the number, unless it lies beyond all floats. -/
def toFloat? : JsonNumber → Option Float
  | integer i => some (Float.ofInt i)
  | float x => if x.isFinite then some x else none

end JsonNumber

end ProximityNet
