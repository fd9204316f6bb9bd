import ProximityNet.Json.Basic

/-!
# Taking JSON values apart

Readers of typed values are functions `Json → Option α`.  This module has those of numbers, texts,
lists and choices, and the ways in which fields can be written.

* `Json.fields?`: a record is an object with its fields in any order and perhaps others, or an array
  with its fields in their order.  A field may stand in an object only once.
* `Json.tagged?`: a tagged record also says which of several shapes it has, in a field of its own or
  as the first item.  It is read as a whole before its shape is known, so all of it has to be
  readable and nested less than `nestingLimit` levels deep.
* `Json.choice?`: a choice among names is a text, or an object with that one name and nothing in it.
-/

namespace ProximityNet

namespace Json

/-- The nesting at which a value is too deep to be read as a whole. -/
def nestingLimit : Nat := 128

/-- A whole number below `limit`. -/
def asNatural? (limit : Nat) : Json → Option Nat
  | number (.integer i) => if 0 ≤ i ∧ i.toNat < limit then some i.toNat else none
  | _ => none

/-- A whole number of 64 bits. -/
def asWord? : Json → Option Nat := asNatural? 18446744073709551616

def asFloat? : Json → Option Float
  | number (.integer i) => some (Float.ofInt i)
  | number (.float x) => if x.isFinite then some x else none
  | _ => none

def asBool? : Json → Option Bool
  | bool b => some b
  | _ => none

def asText? : Json → Option String
  | string s => s
  | _ => none

def asList? {α : Type} (read : Json → Option α) : Json → Option (List α)
  | array items => items.mapM read
  | _ => none

/-- A value that may be `null`. -/
def asOption? {α : Type} (read : Json → Option α) : Json → Option (Option α)
  | null => some none
  | v => (read v).map some

/-- How a choice is written: for itself, or inside a tagged record. -/
inductive ChoiceForm where
  | plain
  | buffered
deriving DecidableEq

/-- Whether a value says no more than the name of a choice does. -/
def isUnit (form : ChoiceForm) : Json → Bool
  | null => true
  | object [] => form = .buffered
  | _ => false

/-- One of several named values. -/
def choice? {α : Type} (form : ChoiceForm) (name : α → String) (all : List α) : Json → Option α
  | string (some s) => all.find? fun a => name a = s
  | object [(k, v)] => if isUnit form v then all.find? fun a => k.isText (name a) else none
  | _ => none

/-- The fields found in a record. -/
structure Fields where
  entries : List (String × Json)
  /-- Whether the fields were written with their names. -/
  named : Bool

namespace Fields

def get? (f : Fields) (name : String) : Option Json := f.entries.lookup name

/-- A field that must be there. -/
def required? {α : Type} (f : Fields) (name : String) (read : Json → Option α) : Option α :=
  (f.get? name).bind read

/-- A field that has this value when it is left out. -/
def default? {α : Type} (f : Fields) (name : String) (value : α) (read : Json → Option α) :
    Option α :=
  match f.get? name with
  | some v => read v
  | none => some value

/-- A field that may be left out or be `null`. -/
def optional? {α : Type} (f : Fields) (name : String) (read : Json → Option α) :
    Option (Option α) :=
  f.default? name none (asOption? read)

end Fields

/-- Whether a name stands among the keys of more than one entry. -/
def isRepeated (entries : List (JsonSpelling × Json)) (name : String) : Bool :=
  1 < entries.countP fun e => e.1.isText name

/-- The entries with one of the names. -/
def namedEntries (names : List String) (entries : List (JsonSpelling × Json)) :
    List (String × Json) :=
  entries.filterMap fun (k, v) =>
    match k.text? with
    | some k => if names.contains k then some (k, v) else none
    | none => none

/-- The fields of a record written by name. -/
def fieldsByName? (names : List String) : Json → Option Fields
  | object entries =>
    if entries.all (fun e => e.1.text?.isSome) && !names.any (isRepeated entries) then
      some ⟨namedEntries names entries, true⟩
    else none
  | _ => none

/-- The fields of a record, with these names in this order. -/
def fields? (names : List String) : Json → Option Fields
  | array items =>
    if items.length ≤ names.length then some ⟨names.zip items, false⟩ else none
  | v => fieldsByName? names v

/-- The tag of a record and the record without it; `outer` arrays and objects are around it. -/
def tagged? (tag : String) (outer : Nat) (v : Json) : Option (String × Json) :=
  if v.isReadable && outer + v.depth < nestingLimit then
    match v with
    | array (string (some name) :: rest) => some (name, array rest)
    | object entries =>
      if isRepeated entries tag then none
      else
        match entry? tag entries with
        | some (string (some name)) => some (name, object (entries.filter fun e => !e.1.isText tag))
        | _ => none
    | _ => none
  else none

end Json

end ProximityNet
