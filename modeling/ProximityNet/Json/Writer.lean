import ProximityNet.Decimal.Layout
import ProximityNet.Json.Basic

/-!
# Writing JSON texts

`Json.compact` writes a value without any blanks, and `Json.pretty` writes every item and every
entry on a line of its own, two spaces deeper than what it stands in; empty arrays and objects stay
on one line.  Strings escape quotes, backslashes and control characters only.
-/

namespace ProximityNet

namespace Json

/-- A character inside a string. -/
def escapedChar (c : Char) : List Char :=
  if c = '"' then ['\\', '"']
  else if c = '\\' then ['\\', '\\']
  else if c = '\n' then ['\\', 'n']
  else if c = '\r' then ['\\', 'r']
  else if c = '\t' then ['\\', 't']
  else if c = '\x08' then ['\\', 'b']
  else if c = '\x0c' then ['\\', 'f']
  else if c.toNat < 0x20 then
    ['\\', 'u', '0', '0', Nat.digitChar (c.toNat / 16), Nat.digitChar (c.toNat % 16)]
  else [c]

/-- A string in its quotes. -/
def quoted (s : String) : List Char := '"' :: s.toList.flatMap escapedChar ++ ['"']

/-- A number; one that is not finite is written `null`. -/
def numberText : JsonNumber → String
  | .integer i => if i < 0 then "-" ++ i.natAbs.repr else i.natAbs.repr
  | .float x => FloatLayout.json.text x

/-- A string without a text is written as an empty one. -/
def stringText (s : Option String) : List Char := quoted (s.getD "")

/-- What is written of a value that is neither an array nor an object. -/
def scalarText : Json → List Char
  | bool true => "true".toList
  | bool false => "false".toList
  | number n => (numberText n).toList
  | string s => stringText s
  | _ => "null".toList

mutual

/-- A value without blanks. -/
def compactChars : Json → List Char
  | array [] => ['[', ']']
  | array (v :: rest) => '[' :: v.compactChars ++ compactItems rest ++ [']']
  | object [] => ['{', '}']
  | object ((k, v) :: rest) =>
    '{' :: stringText k.text? ++ ':' :: v.compactChars ++ compactEntries rest ++ ['}']
  | v => scalarText v

def compactItems : List Json → List Char
  | [] => []
  | v :: rest => ',' :: v.compactChars ++ compactItems rest

def compactEntries : List (JsonSpelling × Json) → List Char
  | [] => []
  | (k, v) :: rest => ',' :: stringText k.text? ++ ':' :: v.compactChars ++ compactEntries rest

end

/-- The text of a value without blanks. -/
def compact (v : Json) : String := String.ofList v.compactChars

/-- A new line, `level` levels deep. -/
def lineStart (level : Nat) : List Char := '\n' :: List.replicate (2 * level) ' '

mutual

/-- A value over several lines, whose inner lines are deeper than `level`. -/
def prettyChars (level : Nat) : Json → List Char
  | array [] => ['[', ']']
  | array (v :: rest) =>
    '[' :: lineStart (level + 1) ++ v.prettyChars (level + 1) ++ prettyItems (level + 1) rest
      ++ lineStart level ++ [']']
  | object [] => ['{', '}']
  | object ((k, v) :: rest) =>
    '{' :: lineStart (level + 1) ++ stringText k.text? ++ ':' :: ' ' :: v.prettyChars (level + 1)
      ++ prettyEntries (level + 1) rest ++ lineStart level ++ ['}']
  | v => scalarText v

def prettyItems (level : Nat) : List Json → List Char
  | [] => []
  | v :: rest => ',' :: lineStart level ++ v.prettyChars level ++ prettyItems level rest

def prettyEntries (level : Nat) : List (JsonSpelling × Json) → List Char
  | [] => []
  | (k, v) :: rest =>
    ',' :: lineStart level ++ stringText k.text? ++ ':' :: ' ' :: v.prettyChars level
      ++ prettyEntries level rest

end

/-- The text of a value over several lines. -/
def pretty (v : Json) : String := String.ofList (v.prettyChars 0)

end Json

end ProximityNet
