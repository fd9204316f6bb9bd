import ProximityNet.Json.Number

/-!
# Tokens of JSON texts

`JsonToken.scan` cuts a text into marks, words and strings and drops the blanks between them, which
are space, tab, line feed and carriage return alone.  It goes over the text once, a character at a
time; its `ScanMode` says what it is in the middle of.

* A word is a longest run of letters, digits, signs and points, and is `null`, `true`, `false` or a
  number.
* A string may not hold control characters.  `\u` escapes name UTF-16 units; two that form a
  surrogate pair are one character, and half a pair leaves the string without a text.
-/

namespace ProximityNet

/-- A piece of a JSON text. -/
inductive JsonToken where
  | openArray
  | closeArray
  | openObject
  | closeObject
  | comma
  | colon
  | string (spelling : JsonSpelling)
  /-- `null`, `true`, `false` or a number. -/
  | scalar (value : Json)

namespace JsonToken

/-- The characters read of a string, the last one first, and whether they are a text so far. -/
structure StringPart where
  reversed : List Char
  isText : Bool
  /-- Whether any of them was written as an escape. -/
  escaped : Bool
  /-- The first half of a surrogate pair whose second half has not been seen. -/
  half : Option Nat

namespace StringPart

def start : StringPart := ⟨[], true, false, none⟩

/-- A half that is not followed by its other half spoils the text. -/
def settle (p : StringPart) : StringPart :=
  { p with isText := p.isText && p.half.isNone, half := none }

/-- Add a character. -/
def push (p : StringPart) (c : Char) : StringPart :=
  let p := p.settle
  { p with reversed := c :: p.reversed }

/-- What follows is an escape. -/
def markEscape (p : StringPart) : StringPart := { p with escaped := true }

/-- Add a UTF-16 unit. -/
def pushUnit (p : StringPart) (u : Nat) : StringPart :=
  if 0xD800 ≤ u ∧ u < 0xDC00 then
    { p.settle with half := some u }
  else if 0xDC00 ≤ u ∧ u < 0xE000 then
    match p.half with
    | some h =>
      let c := Char.ofNat (0x10000 + (h - 0xD800) * 0x400 + (u - 0xDC00))
      { p with reversed := c :: p.reversed, half := none }
    | none => { p with isText := false }
  else p.push (Char.ofNat u)

/-- The string that ends here. -/
def finish (p : StringPart) : JsonSpelling :=
  let text := String.ofList p.reversed.reverse
  if p.escaped then .escaped (if p.settle.isText then some text else none) else .plain text

end StringPart

/-- What a scan is in the middle of. -/
inductive ScanMode where
  /-- Between two tokens. -/
  | between
  /-- In a word; its characters, the last one first. -/
  | word (reversed : List Char)
  /-- In a string. -/
  | string (part : StringPart)
  /-- Behind a backslash in a string. -/
  | escape (part : StringPart)
  /-- In a `\u` escape, with the digits still missing and the value of those seen. -/
  | unit (part : StringPart) (missing : Nat) (value : Nat)

def isBlank (c : Char) : Bool := c = ' ' || c = '\t' || c = '\n' || c = '\r'

def isWordChar (c : Char) : Bool := c.isAlphanum || c = '-' || c = '+' || c = '.'

/-- The mark that a character is, if it is one. -/
def ofMark? : Char → Option JsonToken
  | '[' => some openArray
  | ']' => some closeArray
  | '{' => some openObject
  | '}' => some closeObject
  | ',' => some comma
  | ':' => some colon
  | _ => none

/-- What a word stands for. -/
def ofWord? (cs : List Char) : Option JsonToken :=
  if cs = ['n', 'u', 'l', 'l'] then some (scalar .null)
  else if cs = ['t', 'r', 'u', 'e'] then some (scalar (.bool true))
  else if cs = ['f', 'a', 'l', 's', 'e'] then some (scalar (.bool false))
  else (JsonNumber.ofChars? cs).map fun n => scalar (.number n)

/-- The character that a backslash and `c` stand for. -/
def unescape? : Char → Option Char
  | '"' => some '"'
  | '\\' => some '\\'
  | '/' => some '/'
  | 'b' => some '\x08'
  | 'f' => some '\x0c'
  | 'n' => some '\n'
  | 'r' => some '\r'
  | 't' => some '\t'
  | _ => none

/-- The value of a hexadecimal digit. -/
def hexValue? (c : Char) : Option Nat :=
  if c.isDigit then some (c.toNat - '0'.toNat)
  else if 'a' ≤ c ∧ c ≤ 'f' then some (c.toNat - 'a'.toNat + 10)
  else if 'A' ≤ c ∧ c ≤ 'F' then some (c.toNat - 'A'.toNat + 10)
  else none

/-- What a character outside words and strings begins or is. -/
def begin? (c : Char) : Option (ScanMode × List JsonToken) :=
  if isBlank c then some (.between, [])
  else if c = '"' then some (.string .start, [])
  else if isWordChar c then some (.word [c], [])
  else (ofMark? c).map fun t => (.between, [t])

/-- One character of the scan: the mode after it and the tokens it completes. -/
def scanStep : ScanMode → Char → Option (ScanMode × List JsonToken)
  | .between, c => begin? c
  | .word reversed, c =>
    if isWordChar c then some (.word (c :: reversed), [])
    else
      match ofWord? reversed.reverse, begin? c with
      | some t, some (mode, ts) => some (mode, t :: ts)
      | _, _ => none
  | .string part, c =>
    if c = '"' then some (.between, [string part.finish])
    else if c = '\\' then some (.escape part.markEscape, [])
    else if c.toNat < 0x20 then none
    else some (.string (part.push c), [])
  | .escape part, c =>
    if c = 'u' then some (.unit part 4 0, [])
    else (unescape? c).map fun c' => (.string (part.push c'), [])
  | .unit part missing value, c =>
    match hexValue? c, missing with
    | some d, 1 => some (.string (part.pushUnit (value * 16 + d)), [])
    | some d, n + 1 => some (.unit part n (value * 16 + d), [])
    | _, _ => none

/-- The tokens that the end of the text completes. -/
def scanEnd : ScanMode → Option (List JsonToken)
  | .between => some []
  | .word reversed => (ofWord? reversed.reverse).map fun t => [t]
  | _ => none

/-- The tokens of a text from a mode on. -/
def scanFrom : ScanMode → List Char → Option (List JsonToken)
  | mode, [] => scanEnd mode
  | mode, c :: rest =>
    match scanStep mode c with
    | some (mode', ts) => (scanFrom mode' rest).map (ts ++ ·)
    | none => none

/-- The tokens of a text. -/
def scan (cs : List Char) : Option (List JsonToken) := scanFrom .between cs

end JsonToken

end ProximityNet
