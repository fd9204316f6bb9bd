import ProximityNet.Text.Visible

/-!
# Quoted texts

A text is quoted so that all of it can be seen: quotes and backslashes have a backslash before them,
common control characters have a letter of their own, and every other character that is not visible
is written as its number.
-/

namespace ProximityNet.Text

/-- The number of a character in hexadecimal digits, such as `\u{a0}`. -/
def numberedText (c : Char) : String :=
  "\\u\x7b" ++ String.ofList (Nat.toDigits 16 c.toNat) ++ "\x7d"

/-- How a character stands between quotes. -/
def quotedChar (c : Char) : String :=
  match c with
  | '"' => "\\\""
  | '\\' => "\\\\"
  | '\t' => "\\t"
  | '\r' => "\\r"
  | '\n' => "\\n"
  | c => if c.toNat = 0 then "\\0" else if isVisible c then c.toString else numberedText c

/-- A text between quotes. -/
def quoted (s : String) : String := "\"" ++ String.join (s.toList.map quotedChar) ++ "\""

end ProximityNet.Text
