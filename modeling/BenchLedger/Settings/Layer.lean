import BenchLedger.NameMap
import BenchLedger.Text.LowerCase
import BenchLedger.Toml.Document

/-!
Layers of settings. A later layer is laid over an earlier one: tables merge, everything else
replaces. The names of a layer's outermost members are paths, and letter case does not count.
-/

namespace BenchLedger

inductive Setting where
  | absent
  | boolean (value : Bool)
  | integer (value : Int)
  | float (value : Float)
  | text (value : String)
  | array (items : List Setting)
  | table (members : List (String × Setting))

namespace Setting

def ofScalar : Toml.Scalar → Setting
  | .string s => .text s
  | .integer i => .integer i
  | .float x => .float x
  | .boolean b => .boolean b
  | .moment s => .text s

mutual

def ofToml : Toml.Value → Setting
  | .scalar v => ofScalar v
  | .array items => .array (ofTomlItems items)
  | .table members => .table (ofTomlMembers members)

def ofTomlItems : List Toml.Value → List Setting
  | [] => []
  | v :: vs => ofToml v :: ofTomlItems vs

def ofTomlMembers : List (String × Toml.Value) → List (String × Setting)
  | [] => []
  | (k, v) :: ms => (k, ofToml v) :: ofTomlMembers ms

end

/-- The members of a table; anything else has none. -/
def members : Setting → List (String × Setting)
  | .table ms => ms
  | _ => []

def member? (s : Setting) (name : String) : Option Setting :=
  (s.members.find? (·.1 == name)).map (·.2)

/-- Puts a value under a name, in place of an earlier one. What was no table becomes one. -/
def put (s : Setting) (name : String) (value : Setting) : Setting :=
  if s.members.any (·.1 == name) then
    .table (s.members.map fun m => if m.1 == name then (m.1, value) else m)
  else .table (s.members ++ [(name, value)])

mutual

/-- Lays a value under a name of a table: a table member by member, anything else at once. -/
def overlay (name : String) : Setting → Setting → Setting
  | .table incoming, s =>
    let name := Text.lowerCase name
    s.put name (overlayAll incoming ((s.member? name).getD (.table [])))
  | value, s => s.put (Text.lowerCase name) value

def overlayAll : List (String × Setting) → Setting → Setting
  | [], s => s
  | (name, value) :: rest, s => overlayAll rest (overlay name value s)

end

/-! ### Paths -/

inductive PathStep where
  | member (name : String)
  -- Counted from the end if it is negative.
  | item (index : Int)

/-- The characters of names in a path. -/
def isPathChar (c : Char) : Bool :=
  c.isAlphanum || c == ' ' || c == '_' || c == '-'

/-- Reads the name that a text begins with. -/
def takeName? (cs : List Char) : Option (String × List Char) :=
  match cs.takeWhile isPathChar with
  | [] => none
  | name => some (String.ofList name, cs.dropWhile isPathChar)

def skipSpaces (cs : List Char) : List Char :=
  cs.dropWhile fun c => c == ' ' || c == '\t'

/-- Reads an index of 64 bits up to the bracket that closes it. A minus is its only sign, and
spaces may surround it. -/
def takeIndex? (cs : List Char) : Option (Int × List Char) := do
  let isIndexChar (c : Char) : Bool := c.isDigit || c == '-'
  let cs := skipSpaces cs
  let index ← Text.signed? 64 (cs.takeWhile isIndexChar)
  match skipSpaces (cs.dropWhile isIndexChar) with
  | ']' :: rest => return (index, rest)
  | _ => none

/-- Reads the steps of a path below its first name. The fuel bounds their number. -/
def pathSteps? : Nat → List Char → Option (List PathStep)
  | _, [] => some []
  | 0, _ => none
  | fuel + 1, '.' :: rest => do
    let (name, rest) ← takeName? rest
    return .member name :: (← pathSteps? fuel rest)
  | fuel + 1, '[' :: rest => do
    let (index, rest) ← takeIndex? rest
    return .item index :: (← pathSteps? fuel rest)
  | _, _ => none

/-- Reads a path: a name, and the steps below it. -/
def path? (text : String) : Option (List PathStep) := do
  let cs := text.toList
  let (name, rest) ← takeName? cs
  return .member name :: (← pathSteps? cs.length rest)

/-- The position that an index means among `length` items. -/
def position (index : Int) (length : Nat) : Nat :=
  if index < 0 then length - index.natAbs else index.toNat

/-- The items of an array; anything else has none. -/
def items : Setting → List Setting
  | .array items => items
  | _ => []

/-- Sets a value at the end of a path, making the tables and arrays that are missing on the way. -/
def setAlong : List PathStep → Setting → Setting → Setting
  | [], value, _ => value
  | [.member name], value, s => overlay name value s
  | .member name :: steps, value, s =>
    let name := Text.lowerCase name
    s.put name (setAlong steps value ((s.member? name).getD .absent))
  | .item index :: steps, value, s =>
    let i := position index s.items.length
    let padded := s.items ++ List.replicate (i + 1 - s.items.length) .absent
    .array (padded.set i (setAlong steps value (padded.getD i .absent)))

/-- Sets a value under a path; a name that is no path is taken as it is. -/
def setPath (s : Setting) (path : String) (value : Setting) : Setting :=
  match path? path with
  | some steps => setAlong steps value s
  | none => overlay path value s

def addLayer (layer : List (String × Setting)) (s : Setting) : Setting :=
  layer.foldl (fun s m => s.setPath m.1 m.2) s

end Setting

end BenchLedger
