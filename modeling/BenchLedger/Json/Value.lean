import BenchLedger.Decimal.Layout

/-!
JSON values and their texts. One writer serves both forms: the compact one, without any blanks, and
the pretty one, with a line for each item and two blanks of indentation for each level.
-/

namespace BenchLedger

/-- A JSON number: a whole one within a machine word, or a double. -/
inductive Json.Number where
  | whole (value : Int)
  | real (value : Float)

inductive Json where
  | null
  | bool (value : Bool)
  | number (value : Json.Number)
  | string (value : String)
  | array (items : List Json)
  | object (members : List (String × Json))

namespace Json

def whole (value : Int) : Json :=
  .number (.whole value)

def natural (value : Nat) : Json :=
  .whole value

def real (value : Float) : Json :=
  .number (.real value)

def orNull : Option Json → Json
  | some v => v
  | none => .null

/-- An object without the members that have no value. -/
def objectOf (members : List (String × Option Json)) : Json :=
  .object (members.filterMap fun m => m.2.map fun v => (m.1, v))

def hexPair (n : Nat) : List Char :=
  [Nat.digitChar (n / 16), Nat.digitChar (n % 16)]

/-- How a character stands in a string: only the quote, the backslash and the control characters
below the space are escaped. -/
def escapeChar (c : Char) : List Char :=
  if c == '"' then ['\\', '"']
  else if c == '\\' then ['\\', '\\']
  else if c == '\n' then ['\\', 'n']
  else if c == '\t' then ['\\', 't']
  else if c == '\r' then ['\\', 'r']
  else if c == Char.ofNat 8 then ['\\', 'b']
  else if c == Char.ofNat 12 then ['\\', 'f']
  else if c.toNat < 0x20 then '\\' :: 'u' :: '0' :: '0' :: hexPair c.toNat
  else [c]

def stringText (s : String) : List Char :=
  '"' :: (s.toList.flatMap escapeChar ++ ['"'])

/-- A double as documents hold it; one that is not finite has no literal and becomes `null`. -/
def realText (x : Float) : List Char :=
  match Decimal.parts x with
  | .finite negative m e => Decimal.Layout.document.finite negative m e
  | _ => "null".toList

def Number.text : Number → List Char
  | .whole i => Text.wholeDigits i
  | .real x => realText x

inductive Style where
  | compact
  | pretty
  deriving DecidableEq

/-- What stands in front of an item or a closing bracket at a depth of nesting. -/
def Style.gap : Style → Nat → List Char
  | .compact, _ => []
  | .pretty, depth => '\n' :: List.replicate (2 * depth) ' '

/-- What stands between a name and its value. -/
def Style.colon : Style → List Char
  | .compact => [':']
  | .pretty => [':', ' ']

mutual

/-- The text of a value inside `depth` brackets. -/
def write (style : Style) (depth : Nat) : Json → List Char
  | .null => "null".toList
  | .bool true => "true".toList
  | .bool false => "false".toList
  | .number n => n.text
  | .string s => stringText s
  | .array [] => ['[', ']']
  | .array (x :: xs) =>
    '[' :: (style.gap (depth + 1) ++ (write style (depth + 1) x ++
      (writeItems style (depth + 1) xs ++ (style.gap depth ++ [']']))))
  | .object [] => [Char.ofNat 0x7B, Char.ofNat 0x7D]
  | .object ((k, x) :: ms) =>
    Char.ofNat 0x7B :: (style.gap (depth + 1) ++ (stringText k ++ (style.colon ++
      (write style (depth + 1) x ++ (writeMembers style (depth + 1) ms ++
        (style.gap depth ++ [Char.ofNat 0x7D]))))))

/-- The items after the first, each with its comma. -/
def writeItems (style : Style) (depth : Nat) : List Json → List Char
  | [] => []
  | x :: xs =>
    ',' :: (style.gap depth ++ (write style depth x ++ writeItems style depth xs))

/-- The members after the first, each with its comma. -/
def writeMembers (style : Style) (depth : Nat) : List (String × Json) → List Char
  | [] => []
  | (k, x) :: ms =>
    ',' :: (style.gap depth ++ (stringText k ++ (style.colon ++
      (write style depth x ++ writeMembers style depth ms))))

end

def compact (v : Json) : String :=
  String.ofList (v.write .compact 0)

/-- The text with one line for each item. -/
def pretty (v : Json) : String :=
  String.ofList (v.write .pretty 0)

/-- The value of a member; of several with one name the last counts. -/
def member? (v : Json) (name : String) : Option Json :=
  match v with
  | .object members => (members.reverse.find? (·.1 == name)).map (·.2)
  | _ => none

end Json

end BenchLedger
