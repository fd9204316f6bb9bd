/-!
# JSON values

A value keeps what its text says in the order of the text: object entries are a list, and a key may
stand in it twice.  Whole numbers of at most 64 bits are integers and all other numbers are floats.

A string may name half of a surrogate pair.  Such a string stands for no text, but a value that
holds it may still be passed over, so it is a value too: its text is `none`.

A key also keeps its spelling, because some keys may not be written with escapes.
-/

namespace ProximityNet

/-- A number in a JSON text. -/
inductive JsonNumber where
  | integer (value : Int)
  /-- A float; one that lies beyond the largest float is infinite. -/
  | float (value : Float)
deriving DecidableEq

/-- A string as it is written. -/
inductive JsonSpelling where
  /-- Character by character. -/
  | plain (text : String)
  /-- With at least one escape. -/
  | escaped (text : Option String)
deriving DecidableEq

namespace JsonSpelling

/-- The text that a string stands for. -/
def text? : JsonSpelling → Option String
  | plain s => some s
  | escaped s => s

/-- Whether a string stands for this text. -/
def isText (k : JsonSpelling) (s : String) : Bool := k.text? == some s

theorem isText_iff (k : JsonSpelling) (s : String) : k.isText s = true ↔ k.text? = some s := by
  simp [isText]

end JsonSpelling

/-- A JSON value. -/
inductive Json where
  | null
  | bool (value : Bool)
  | number (value : JsonNumber)
  | string (text : Option String)
  | array (items : List Json)
  | object (entries : List (JsonSpelling × Json))

namespace Json

instance : Inhabited Json := ⟨null⟩

def text (s : String) : Json := string (some s)

def natural (n : Nat) : Json := number (.integer n)

def float (x : Float) : Json := number (.float x)

/-- An object with these entries. -/
def record (entries : List (String × Json)) : Json :=
  object (entries.map fun e => (.plain e.1, e.2))

/-- The value of the first entry with this name. -/
def entry? (name : String) (entries : List (JsonSpelling × Json)) : Option Json :=
  (entries.find? fun e => e.1.isText name).map fun e => e.2

/-- An entry for a value that may be missing; a missing one leaves no entry. -/
def entryOf? {α : Type} (key : String) (write : α → Json) : Option α → List (String × Json)
  | some a => [(key, write a)]
  | none => []

/-- A value that may be missing, `null` when it is. -/
def orNull {α : Type} (write : α → Json) : Option α → Json
  | some a => write a
  | none => null

mutual

/-- How many arrays and objects stand inside each other. -/
def depth : Json → Nat
  | array items => depthOfItems items + 1
  | object entries => depthOfEntries entries + 1
  | _ => 0

def depthOfItems : List Json → Nat
  | [] => 0
  | v :: rest => max v.depth (depthOfItems rest)

def depthOfEntries : List (JsonSpelling × Json) → Nat
  | [] => 0
  | (_, v) :: rest => max v.depth (depthOfEntries rest)

end

mutual

/-- Whether every string stands for a text and every number lies in the range of floats. -/
def isReadable : Json → Bool
  | null | bool _ | number (.integer _) => true
  | number (.float x) => x.isFinite
  | string s => s.isSome
  | array items => areReadable items
  | object entries => areReadableEntries entries

def areReadable : List Json → Bool
  | [] => true
  | v :: rest => v.isReadable && areReadable rest

def areReadableEntries : List (JsonSpelling × Json) → Bool
  | [] => true
  | (key, v) :: rest => key.text?.isSome && v.isReadable && areReadableEntries rest

end

end Json

end ProximityNet
