import BenchLedger.Json.Tree
import BenchLedger.NameMap

/-!
Values of a fixed shape from the trees of texts. Decoding goes through a tree in the order of the
text and stops at the first fault: a value of the wrong type is one where it starts, a repeated
field where its name stands, a missing field where its record ends.
-/

namespace BenchLedger.Json

/-- How a value is found in a tree. -/
abbrev Decoder (α : Type) :=
  Tree → Except Fault α

/-- The fault of a tree that is not of the wanted type. A string or number is read first. -/
def Tree.wrongType : Tree → Fault
  | .number leaf => match leaf.value with
    | .error fault => fault
    | .ok _ => .mismatched
  | .string leaf => match leaf.value with
    | .error fault => fault
    | .ok _ => .mismatched
  | .unreadable fault => fault
  | _ => .mismatched

/-- Stops with a fault if there is one. -/
def raise? : Option Fault → Except Fault Unit
  | some fault => .error fault
  | none => .ok ()

def Number.toFloat : Number → Float
  | .whole i => Decimal.nearestFloat (i < 0) i.natAbs 0
  | .real x => x

namespace Decoder

def string : Decoder String
  | .string leaf => leaf.value
  | t => .error t.wrongType

def truth : Decoder Bool
  | .bool b => .ok b
  | t => .error t.wrongType

def real : Decoder Float
  | .number leaf => leaf.value.map Number.toFloat
  | t => .error t.wrongType

/-- A whole number of a signed word of 64 bits. -/
def whole : Decoder Int
  | .number leaf => do
    match ← leaf.value with
    | .whole i => if i.toNat < Nat.pow 2 63 then .ok i else .error .mismatched
    | .real _ => .error .mismatched
  | t => .error t.wrongType

def stringOf {α : Type} (meaning : String → Option α) : Decoder α := fun t => do
  match meaning (← string t) with
  | some v => .ok v
  | none => .error .mismatched

def optional {α : Type} (d : Decoder α) : Decoder (Option α)
  | .null => .ok none
  | t => (d t).map some

def list {α : Type} (d : Decoder α) : Decoder (List α)
  | .array items closing => do
    let values ← items.mapM d
    raise? closing
    return values
  | t => .error t.wrongType

/-- Members in the order of the text, names included. -/
def namedValues {α : Type} (d : Decoder α) :
    List (Leaf String × Tree) → Except Fault (List (String × α))
  | [] => .ok []
  | (key, t) :: members => do
    let name ← key.value
    let value ← d t
    let rest ← namedValues d members
    return (name, value) :: rest

/-- An object with free names; of two members with one name the later counts. -/
def nameMap {α : Type} (d : Decoder α) : Decoder (NameMap α)
  | .object members closing => do
    let pairs ← namedValues d members
    raise? closing
    return .ofList pairs
  | t => .error t.wrongType

/-- A field of a record that is filled in step by step. -/
structure Field (σ : Type) where
  name : String
  -- Whether the field has a value already.
  filled : σ → Bool
  fill : Tree → σ → Except Fault σ

/-- A field that `get` and `set` reach. -/
def Field.of {σ α : Type} (name : String) (d : Decoder α) (get : σ → Option α)
    (set : α → σ → σ) : Field σ where
  name
  filled s := (get s).isSome
  fill t s := (d t).map fun v => set v s

/-- Takes the members of an object in turn: known names fill their field, once; others are passed
over. -/
def fillByName {σ : Type} (fields : List (Field σ)) :
    List (Leaf String × Tree) → σ → Except Fault σ
  | [], s => .ok s
  | (key, t) :: members, s => do
    let name ← key.value
    match fields.find? (·.name == name) with
    | none =>
      raise? t.fault?
      fillByName fields members s
    | some field =>
      if field.filled s then .error .mismatched
      else fillByName fields members (← field.fill t s)

/-- Takes the items of an array as the fields in order. Fields may be left over, items may not. -/
def fillInOrder {σ : Type} (closing : Option Fault) :
    List (Field σ) → List Tree → σ → Except Fault σ
  | [], _ :: _, _ => .error .malformed
  | _, [], s => do
    raise? closing
    return s
  | field :: fields, t :: items, s => do
    fillInOrder closing fields items (← field.fill t s)

/-- A record: an object with the fields' names, or an array of the fields in their order. `finish`
answers for the fields that were not given. -/
def record {σ α : Type} (fields : List (Field σ)) (start : σ) (finish : σ → Option α) :
    Decoder α := fun t => do
  let filled ← match t with
    | .object members closing => do
      let s ← fillByName fields members start
      raise? closing
      pure s
    | .array items closing => fillInOrder closing fields items start
    | t => .error t.wrongType
  match finish filled with
  | some v => .ok v
  | none => .error .mismatched

end Decoder

/-- Decodes the value in front of a text and does not look at what follows it. -/
def decodeLeading {α : Type} (d : Decoder α) (cs : List Char) : Except Fault α :=
  d (read cs).tree

/-- Decodes a text that holds one value and, around it, nothing but blanks. -/
def decode {α : Type} (d : Decoder α) (text : String) : Except Fault α := do
  let r := read text.toList
  let value ← d r.tree
  match r.rest with
  | some rest => if (skipSpace rest).isEmpty then .ok value else .error .malformed
  | none => .error .malformed

mutual

/-- The value of a tree without faults. -/
def Tree.toJson : Tree → Except Fault Json
  | .null => .ok .null
  | .bool b => .ok (.bool b)
  | .number leaf => leaf.value.map .number
  | .string leaf => leaf.value.map .string
  | .array items closing => do
    let values ← valuesOf items
    raise? closing
    return .array values
  | .object members closing => do
    let values ← memberValuesOf members
    raise? closing
    return .object values
  | .unreadable fault => .error fault

def valuesOf : List Tree → Except Fault (List Json)
  | [] => .ok []
  | t :: ts => do return (← t.toJson) :: (← valuesOf ts)

def memberValuesOf : List (Leaf String × Tree) → Except Fault (List (String × Json))
  | [] => .ok []
  | (key, t) :: ms => do
    let name ← key.value
    let value ← t.toJson
    return (name, value) :: (← memberValuesOf ms)

end

def Decoder.any : Decoder Json :=
  Tree.toJson

end BenchLedger.Json
