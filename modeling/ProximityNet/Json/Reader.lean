import ProximityNet.Json.Token

/-!
# Reading JSON texts

A text is cut into tokens, and the tokens are put together by a machine that keeps the arrays and
objects it is inside of (`JsonFrame`) and what it waits for (`JsonState`).  It takes one token at a
time, so nesting may be as deep as the text has it.
-/

namespace ProximityNet

/-- An array or an object that is being read, with what was read of it, the last one first. -/
inductive JsonFrame where
  | array (items : List Json)
  /-- An object, and the key whose value is being read. -/
  | object (entries : List (JsonSpelling × Json)) (key : JsonSpelling)

/-- What the reader waits for. -/
inductive JsonState where
  /-- A value. -/
  | value (outer : List JsonFrame)
  /-- The first item of an array, or its end. -/
  | firstItem (outer : List JsonFrame)
  /-- A comma or the end of an array. -/
  | itemEnd (items : List Json) (outer : List JsonFrame)
  /-- The first key of an object, or its end. -/
  | firstKey (outer : List JsonFrame)
  /-- A key. -/
  | key (entries : List (JsonSpelling × Json)) (outer : List JsonFrame)
  /-- The colon behind a key. -/
  | colon (entries : List (JsonSpelling × Json)) (key : JsonSpelling) (outer : List JsonFrame)
  /-- A comma or the end of an object. -/
  | entryEnd (entries : List (JsonSpelling × Json)) (outer : List JsonFrame)
  /-- Nothing more. -/
  | done (value : Json)

namespace JsonState

/-- Hand a value that is complete to what it stands in. -/
def complete (v : Json) : List JsonFrame → JsonState
  | [] => done v
  | .array items :: outer => itemEnd (v :: items) outer
  | .object entries k :: outer => entryEnd ((k, v) :: entries) outer

/-- A token where a value begins. -/
def beginValue (outer : List JsonFrame) : JsonToken → Option JsonState
  | .scalar v => some (complete v outer)
  | .string s => some (complete (.string s.text?) outer)
  | .openArray => some (firstItem outer)
  | .openObject => some (firstKey outer)
  | _ => none

/-- The state after a token. -/
def step : JsonState → JsonToken → Option JsonState
  | value outer, t => beginValue outer t
  | firstItem outer, .closeArray => some (complete (.array []) outer)
  | firstItem outer, t => beginValue (.array [] :: outer) t
  | itemEnd items outer, .comma => some (value (.array items :: outer))
  | itemEnd items outer, .closeArray => some (complete (.array items.reverse) outer)
  | firstKey outer, .closeObject => some (complete (.object []) outer)
  | firstKey outer, .string k => some (colon [] k outer)
  | key entries outer, .string k => some (colon entries k outer)
  | colon entries k outer, .colon => some (value (.object entries k :: outer))
  | entryEnd entries outer, .comma => some (key entries outer)
  | entryEnd entries outer, .closeObject => some (complete (.object entries.reverse) outer)
  | _, _ => none

/-- The state after a list of tokens. -/
def run : JsonState → List JsonToken → Option JsonState
  | s, [] => some s
  | s, t :: rest =>
    match step s t with
    | some s' => run s' rest
    | none => none

end JsonState

/-- The value that a list of tokens spells. -/
def Json.ofTokens? (ts : List JsonToken) : Option Json :=
  match JsonState.run (.value []) ts with
  | some (.done v) => some v
  | _ => none

/-- The value that a text spells, if it is one JSON value with blanks around it. -/
def Json.read? (text : String) : Option Json := (JsonToken.scan text.toList).bind Json.ofTokens?

end ProximityNet
