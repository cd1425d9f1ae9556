import BenchLedger.Decimal.Scaled
import BenchLedger.Json.Value

/-!
Reading JSON text from left to right. A text becomes a tree of what was found, faults included, so
that whoever decodes the tree meets first what comes first in the text: a value of the wrong type
where it starts, a fault of the text where it lies. Strings and numbers are read more strictly than
they are passed over, because members with unknown names are never turned into values.
-/

namespace BenchLedger.Json

/-- Why a text does not give a value. -/
inductive Fault where
  -- The text is not JSON.
  | malformed
  -- The text ends too early.
  | truncated
  -- The text is JSON of the wrong shape.
  | mismatched
  deriving DecidableEq, Repr

/-- The category in which a fault is reported. -/
def Fault.category : Fault → String
  | .malformed => "syntax"
  | .truncated => "eof"
  | .mismatched => "data"

/-- The category as it stands in messages. -/
def Fault.label (f : Fault) : String :=
  "<" ++ f.category ++ ">"

/-- A string or number in a text: its value, and whether it can be passed over. -/
structure Leaf (α : Type) where
  value : Except Fault α
  passed : Option Fault

/-- What was found in a text. `closing` is the fault met where a list should go on or end. -/
inductive Tree where
  | null
  | bool (value : Bool)
  | number (leaf : Leaf Number)
  | string (leaf : Leaf String)
  | array (items : List Tree) (closing : Option Fault)
  | object (members : List (Leaf String × Tree)) (closing : Option Fault)
  -- No value starts here.
  | unreadable (fault : Fault)

/-- The blanks that JSON allows between its tokens. -/
def isSpace (c : Char) : Bool :=
  c == ' ' || c == '\n' || c == '\t' || c == '\r'

def skipSpace (cs : List Char) : List Char :=
  cs.dropWhile isSpace

def hexValue? (c : Char) : Option Nat :=
  if '0' ≤ c && c ≤ '9' then some (c.toNat - '0'.toNat)
  else if 'a' ≤ c && c ≤ 'f' then some (c.toNat - 'a'.toNat + 10)
  else if 'A' ≤ c && c ≤ 'F' then some (c.toNat - 'A'.toNat + 10)
  else none

/-- A 16-bit unit from four hexadecimal digits. -/
def unit? (a b c d : Char) : Option Nat := do
  let a ← hexValue? a
  let b ← hexValue? b
  let c ← hexValue? c
  let d ← hexValue? d
  return ((a * 16 + b) * 16 + c) * 16 + d

/-- The bytes that a text takes up. -/
def byteCount (cs : List Char) : Nat :=
  cs.foldl (fun n c => n + c.utf8Size) 0

/-- The fault of a text in which four hexadecimal digits do not follow: it ends too early if not
even four bytes are left. -/
def shortUnitFault (rest : List Char) : Fault :=
  if byteCount rest < 4 then .truncated else .malformed

def shortEscape? (c : Char) : Option Char :=
  if c == '"' || c == '\\' || c == '/' then some c
  else if c == 'b' then some (Char.ofNat 8)
  else if c == 'f' then some (Char.ofNat 12)
  else if c == 'n' then some '\n'
  else if c == 'r' then some '\r'
  else if c == 't' then some '\t'
  else none

def isLeading (unit : Nat) : Bool :=
  0xD800 ≤ unit && unit ≤ 0xDBFF

def isTrailing (unit : Nat) : Bool :=
  0xDC00 ≤ unit && unit ≤ 0xDFFF

/-- The character of a leading and a trailing unit. -/
def pairedChar (leading trailing : Nat) : Char :=
  Char.ofNat ((leading - 0xD800) * 0x400 + (trailing - 0xDC00) + 0x10000)

/-- Puts a character in front of what was read. -/
def consChar (c : Char) (r : Except Fault (List Char × List Char)) :
    Except Fault (List Char × List Char) :=
  r.map fun p => (c :: p.1, p.2)

/-- The characters of a string up to its closing quote, and what follows it. -/
def takeString : List Char → Except Fault (List Char × List Char)
  | [] => .error .truncated
  | c :: rest =>
    if c == '"' then .ok ([], rest)
    else if c.toNat < 0x20 then .error .malformed
    else if c != '\\' then consChar c (takeString rest)
    else match rest with
      | [] => .error .truncated
      | e :: rest =>
        match shortEscape? e with
        | some d => consChar d (takeString rest)
        | none =>
          if e != 'u' then .error .malformed
          else match rest with
            | h₁ :: h₂ :: h₃ :: h₄ :: rest =>
              match unit? h₁ h₂ h₃ h₄ with
              | none => .error .malformed
              | some unit =>
                if isTrailing unit then .error .malformed
                else if !isLeading unit then consChar (Char.ofNat unit) (takeString rest)
                else match rest with
                  | [] => .error .truncated
                  | [b] => .error (if b == '\\' then .truncated else .malformed)
                  | b :: u :: rest =>
                    if b != '\\' || u != 'u' then .error .malformed
                    else match rest with
                      | t₁ :: t₂ :: t₃ :: t₄ :: rest =>
                        match unit? t₁ t₂ t₃ t₄ with
                        | none => .error .malformed
                        | some trailing =>
                          if isTrailing trailing then
                            consChar (pairedChar unit trailing) (takeString rest)
                          else .error .malformed
                      | short => .error (shortUnitFault short)
            | short => .error (shortUnitFault short)

/-- What follows the closing quote of a string, whatever characters its escapes stand for. -/
def passString : List Char → Except Fault (List Char)
  | [] => .error .truncated
  | c :: rest =>
    if c == '"' then .ok rest
    else if c.toNat < 0x20 then .error .malformed
    else if c != '\\' then passString rest
    else match rest with
      | [] => .error .truncated
      | e :: rest =>
        if (shortEscape? e).isSome then passString rest
        else if e != 'u' then .error .malformed
        else match rest with
          | h₁ :: h₂ :: h₃ :: h₄ :: rest =>
            if (unit? h₁ h₂ h₃ h₄).isSome then passString rest else .error .malformed
          | short => .error (shortUnitFault short)

/-- A leaf, and the text after it unless reading stops there. -/
structure LeafReading (α : Type) where
  leaf : Leaf α
  rest : Option (List Char)

/-- Reads a string whose opening quote has been read. -/
def readString (cs : List Char) : LeafReading String :=
  match takeString cs with
  | .ok (value, rest) => ⟨⟨.ok (String.ofList value), none⟩, some rest⟩
  | .error fault =>
    match passString cs with
    | .ok rest => ⟨⟨.error fault, none⟩, some rest⟩
    | .error passing => ⟨⟨.error fault, some passing⟩, none⟩

/-- A number literal taken apart. A literal without a fraction has no fraction digits. -/
structure Numeral where
  negative : Bool
  whole : List Char
  fraction : List Char
  exponent : Option Int

/-- The outcome of going over a number literal. -/
inductive NumeralScan where
  | complete (numeral : Numeral) (rest : List Char)
  -- The text ends where a digit is needed.
  | cut
  -- Something else stands where a digit is needed, or a digit follows a leading zero.
  | broken

/-- Nothing is left where a digit is needed, or something else is there. -/
def missingDigit : List Char → NumeralScan
  | [] => .cut
  | _ => .broken

def spanDigits (cs : List Char) : List Char × List Char :=
  (cs.takeWhile Char.isDigit, cs.dropWhile Char.isDigit)

def scanExponent (negative : Bool) (whole fraction : List Char) (cs : List Char) : NumeralScan :=
  match cs with
  | [] => .complete ⟨negative, whole, fraction, none⟩ []
  | c :: rest =>
    if c == 'e' || c == 'E' then
      let (down, rest) := Decimal.splitSign rest
      let (digits, rest) := spanDigits rest
      if digits.isEmpty then missingDigit rest
      else
        let n : Int := Text.digitsValue digits
        .complete ⟨negative, whole, fraction, some (if down then -n else n)⟩ rest
    else .complete ⟨negative, whole, fraction, none⟩ cs

def scanFraction (negative : Bool) (whole : List Char) (cs : List Char) : NumeralScan :=
  match cs with
  | '.' :: rest =>
    let (digits, rest) := spanDigits rest
    if digits.isEmpty then missingDigit rest else scanExponent negative whole digits rest
  | _ => scanExponent negative whole [] cs

/-- The part of a literal behind its sign. A leading zero stands alone. -/
def scanMagnitude (negative : Bool) (cs : List Char) : NumeralScan :=
  match (spanDigits cs).1 with
  | [] => missingDigit cs
  | '0' :: _ :: _ => .broken
  | digits => scanFraction negative digits (spanDigits cs).2

def scanNumeral (cs : List Char) : NumeralScan :=
  match cs with
  | '-' :: rest => scanMagnitude true rest
  | _ => scanMagnitude false cs

/-- Extends a significand by digits as long as it fits a word of 64 bits. The digits from the first
one on that is too much are left over. -/
def extendSignificand (significand : Nat) : List Char → Nat × List Char
  | [] => (significand, [])
  | d :: ds =>
    let extended := 10 * significand + Text.digitValue d
    if extended < Nat.pow 2 64 then extendSignificand extended ds else (significand, d :: ds)

/-- A literal as a significand and a power of ten. Digits left over behind the point are dropped;
those in front of it are zeros from then on. -/
def Numeral.scientific (n : Numeral) : Nat × Int :=
  let (whole, zeros) := extendSignificand 0 n.whole
  let (significand, dropped) := extendSignificand whole n.fraction
  (significand, n.exponent.getD 0 + zeros.length + dropped.length - n.fraction.length)

/-- The number that a literal stands for. A literal without fraction and exponent is a whole number
if it fits a word of 64 bits; `-0` is a double. Numbers beyond the largest double are refused. -/
def Numeral.value (n : Numeral) : Except Fault Number :=
  let magnitude := Text.digitsValue n.whole
  let integral := n.fraction.isEmpty && n.exponent.isNone
  if integral && !n.negative && magnitude < Nat.pow 2 64 then .ok (.whole magnitude)
  else if integral && n.negative && 0 < magnitude && magnitude ≤ Nat.pow 2 63 then
    .ok (.whole (-(magnitude : Int)))
  else
    let (significand, exponent) := n.scientific
    let x := Decimal.scaled significand exponent
    if x.isFinite then .ok (.real (if n.negative then -x else x)) else .error .malformed

def readNumber (cs : List Char) : LeafReading Number :=
  match scanNumeral cs with
  | .complete numeral rest => ⟨⟨numeral.value, none⟩, some rest⟩
  | .cut => ⟨⟨.error .truncated, some .malformed⟩, none⟩
  | .broken => ⟨⟨.error .malformed, some .malformed⟩, none⟩

/-- A tree, and the text after it unless reading stops there. -/
structure Reading where
  tree : Tree
  rest : Option (List Char)

def Reading.stop (fault : Fault) : Reading :=
  ⟨.unreadable fault, none⟩

/-- Reads the rest of a word whose first character chose it. -/
def readWord (tree : Tree) : List Char → List Char → Reading
  | [], cs => ⟨tree, some cs⟩
  | _ :: _, [] => .stop .truncated
  | w :: word, c :: cs => if w == c then readWord tree word cs else .stop .malformed

/-- Items of a list, the fault met where it should go on or end, and the text after it. -/
structure Items (α : Type) where
  items : List α
  closing : Option Fault
  rest : Option (List Char)

def Items.cons {α : Type} (x : α) (xs : Items α) : Items α :=
  { xs with items := x :: xs.items }

def Items.stop {α : Type} (fault : Fault) : Items α :=
  ⟨[], some fault, none⟩

mutual

/-- Reads one value. The fuel bounds the depth of the calls. -/
def readValue : Nat → List Char → Reading
  | 0, _ => .stop .truncated
  | fuel + 1, cs =>
    match skipSpace cs with
    | [] => .stop .truncated
    | c :: rest =>
      if c == '"' then
        let r := readString rest
        ⟨.string r.leaf, r.rest⟩
      else if c == '-' || c.isDigit then
        let r := readNumber (c :: rest)
        ⟨.number r.leaf, r.rest⟩
      else if c == '[' then
        let r := readItems true fuel rest
        ⟨.array r.items r.closing, r.rest⟩
      else if c.toNat == 0x7B then
        let r := readMembers true fuel rest
        ⟨.object r.items r.closing, r.rest⟩
      else if c == 'n' then readWord .null "ull".toList rest
      else if c == 't' then readWord (.bool true) "rue".toList rest
      else if c == 'f' then readWord (.bool false) "alse".toList rest
      else .stop .malformed

/-- Reads the items of an array; all but the first have a comma in front. -/
def readItems (first : Bool) : Nat → List Char → Items Tree
  | 0, _ => .stop .truncated
  | fuel + 1, cs =>
    match skipSpace cs with
    | [] => .stop .truncated
    | c :: rest =>
      if c == ']' then ⟨[], none, some rest⟩
      else if first || c == ',' then
        let r := readValue fuel (if first then c :: rest else rest)
        match r.rest with
        | some rest => (readItems false fuel rest).cons r.tree
        | none => ⟨[r.tree], none, none⟩
      else .stop .malformed

/-- Reads the members of an object; all but the first have a comma in front. -/
def readMembers (first : Bool) : Nat → List Char → Items (Leaf String × Tree)
  | 0, _ => .stop .truncated
  | fuel + 1, cs =>
    match skipSpace cs with
    | [] => .stop .truncated
    | c :: rest =>
      if c.toNat == 0x7D then ⟨[], none, some rest⟩
      else if first || c == ',' then
        match (if first then c :: rest else skipSpace rest) with
        | [] => .stop .truncated
        | q :: rest =>
          if q == '"' then
            let key := readString rest
            match key.rest with
            | none => ⟨[(key.leaf, .unreadable .malformed)], none, none⟩
            | some rest =>
              match skipSpace rest with
              | [] => ⟨[(key.leaf, .unreadable .truncated)], none, none⟩
              | colon :: rest =>
                if colon == ':' then
                  let r := readValue fuel rest
                  match r.rest with
                  | some rest => (readMembers false fuel rest).cons (key.leaf, r.tree)
                  | none => ⟨[(key.leaf, r.tree)], none, none⟩
                else ⟨[(key.leaf, .unreadable .malformed)], none, none⟩
          else .stop .malformed
      else .stop .malformed

end

/-- Reads the value in front of a text. -/
def read (cs : List Char) : Reading :=
  readValue (2 * cs.length + 2) cs

mutual

/-- The first fault met when a tree is passed over. -/
def Tree.fault? : Tree → Option Fault
  | .null => none
  | .bool _ => none
  | .number leaf => leaf.passed
  | .string leaf => leaf.passed
  | .array items closing => (faultOfItems? items).or closing
  | .object members closing => (faultOfMembers? members).or closing
  | .unreadable fault => some fault

def faultOfItems? : List Tree → Option Fault
  | [] => none
  | t :: ts => t.fault?.or (faultOfItems? ts)

def faultOfMembers? : List (Leaf String × Tree) → Option Fault
  | [] => none
  | (key, t) :: ms => key.passed.or (t.fault?.or (faultOfMembers? ms))

end

def Leaf.ofValue {α : Type} (value : α) : Leaf α :=
  ⟨.ok value, none⟩

section

variable (leaf : Number → Leaf Number)

mutual

/-- The tree of a value, given the leaves of its numbers. -/
def Tree.ofJsonBy : Json → Tree
  | .null => .null
  | .bool b => .bool b
  | .number n => .number (leaf n)
  | .string s => .string (.ofValue s)
  | .array items => .array (treesBy items) none
  | .object members => .object (memberTreesBy members) none

def treesBy : List Json → List Tree
  | [] => []
  | v :: vs => Tree.ofJsonBy v :: treesBy vs

def memberTreesBy : List (String × Json) → List (Leaf String × Tree)
  | [] => []
  | (k, v) :: ms => (.ofValue k, Tree.ofJsonBy v) :: memberTreesBy ms

end

end

end BenchLedger.Json
