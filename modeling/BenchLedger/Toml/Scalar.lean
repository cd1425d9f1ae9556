import BenchLedger.Calendar.Date
import BenchLedger.Decimal.Literal
import BenchLedger.Json.Tree
import BenchLedger.Text.Blank

/-!
Strings, numbers, truth values and dates of the configuration language TOML, version 1.0.
-/

namespace BenchLedger.Toml

inductive Scalar where
  | string (text : String)
  | integer (value : Int)
  | float (value : Float)
  | boolean (value : Bool)
  -- A date, a time or both, as text in a uniform spelling.
  | moment (text : String)

/-! ### Characters -/

def isTomlBlank (c : Char) : Bool :=
  c == ' ' || c == '\t'

/-- What may stand in comments and strings: no control characters but the tab. -/
def isPlain (c : Char) : Bool :=
  c == '\t' || (0x20 ≤ c.toNat && c.toNat != 0x7F)

def skipBlanks (cs : List Char) : List Char :=
  cs.dropWhile isTomlBlank

/-- What follows a line end, if there is one. -/
def afterNewline? : List Char → Option (List Char)
  | '\n' :: rest => some rest
  | '\r' :: '\n' :: rest => some rest
  | _ => none

/-! ### Strings -/

/-- The character of a code point in hexadecimal digits. -/
def scalarOf? (digits : List Char) : Option Char := do
  let values ← digits.mapM Json.hexValue?
  let n := values.foldl (fun n v => n * 16 + v) 0
  if n.isValidChar then some (Char.ofNat n) else none

def takeEscape : List Char → Option (Char × List Char)
  | [] => none
  | c :: rest =>
    if c == 'b' then some (Char.ofNat 8, rest)
    else if c == 't' then some ('\t', rest)
    else if c == 'n' then some ('\n', rest)
    else if c == 'f' then some (Char.ofNat 12, rest)
    else if c == 'r' then some ('\r', rest)
    else if c == '"' || c == '\\' then some (c, rest)
    else if c == 'u' || c == 'U' then
      let width := if c == 'u' then 4 else 8
      let digits := rest.take width
      if digits.length = width then (scalarOf? digits).map fun d => (d, rest.drop width) else none
    else none

/-- The rest of a string between single double quotes. The fuel bounds its characters. -/
def takeBasic : Nat → List Char → Option (List Char × List Char)
  | 0, _ => none
  | _ + 1, [] => none
  | fuel + 1, c :: rest =>
    if c == '"' then some ([], rest)
    else if c == '\\' then do
      let (d, rest) ← takeEscape rest
      let (text, rest) ← takeBasic fuel rest
      return (d :: text, rest)
    else if isPlain c then do
      let (text, rest) ← takeBasic fuel rest
      return (c :: text, rest)
    else none

/-- The rest of a string between single quotes, without escapes. -/
def takeLiteral : List Char → Option (List Char × List Char)
  | [] => none
  | c :: rest =>
    if c == '\'' then some ([], rest)
    else if isPlain c then (takeLiteral rest).map fun p => (c :: p.1, p.2)
    else none

/-- How many times a quote stands in front of a text. -/
def quoteRun (quote : Char) (cs : List Char) : Nat :=
  (cs.takeWhile (· == quote)).length

/-- What follows a backslash at the end of a line: all blanks and line ends. -/
def skipFolded : Nat → List Char → List Char
  | 0, cs => cs
  | fuel + 1, cs =>
    let cs := skipBlanks cs
    match afterNewline? cs with
    | some rest => skipFolded fuel rest
    | none => cs

/-- The rest of a text of several lines, up to three quotes, of which one or two more belong to the
text. Line ends become line feeds. -/
def takeMultiline (quote : Char) (escapes : Bool) : Nat → List Char →
    Option (List Char × List Char)
  | 0, _ => none
  | _ + 1, [] => none
  | fuel + 1, c :: rest =>
    let run := quoteRun quote (c :: rest)
    if 3 ≤ run then
      if run ≤ 5 then some (List.replicate (run - 3) quote, (c :: rest).drop run) else none
    else if escapes && c == '\\' then
      match afterNewline? (skipBlanks rest) with
      | some rest => takeMultiline quote escapes fuel (skipFolded fuel rest)
      | none => do
        let (d, rest) ← takeEscape rest
        let (text, rest) ← takeMultiline quote escapes fuel rest
        return (d :: text, rest)
    else match afterNewline? (c :: rest) with
      | some rest => do
        let (text, rest) ← takeMultiline quote escapes fuel rest
        return ('\n' :: text, rest)
      | none =>
        if isPlain c then do
          let (text, rest) ← takeMultiline quote escapes fuel rest
          return (c :: text, rest)
        else none

def takeLine? (cs : List Char) : Option (String × List Char) :=
  match cs with
  | '"' :: rest => (takeBasic (rest.length + 1) rest).map fun p => (String.ofList p.1, p.2)
  | '\'' :: rest => (takeLiteral rest).map fun p => (String.ofList p.1, p.2)
  | _ => none

/-- Reads a string of any kind. A line end right behind three opening quotes does not count. -/
def takeText? (cs : List Char) : Option (String × List Char) :=
  match cs with
  | q :: rest =>
    if (q == '"' || q == '\'') && rest.take 2 == [q, q] then
      let body := rest.drop 2
      let body := (afterNewline? body).getD body
      (takeMultiline q (q == '"') (body.length + 1) body).map fun p => (String.ofList p.1, p.2)
    else takeLine? cs
  | [] => none

/-! ### Numbers -/

/-- Removes underscores, each of which has to stand between two digits. -/
def dropUnderscores (isDigit : Char → Bool) (cs : List Char) : Option (List Char) :=
  let groups := Text.pieces (· == '_') cs
  if groups.all (fun g => !g.isEmpty && g.all isDigit) then some groups.flatten else none

/-- A number in a base other than ten. -/
def based? (base : Nat) (cs : List Char) : Option Int := do
  let isDigit (c : Char) : Bool := (Json.hexValue? c).any (· < base)
  let digits ← dropUnderscores isDigit cs
  let n := digits.foldl (fun n c => n * base + (Json.hexValue? c).getD 0) 0
  if n < Nat.pow 2 63 then some n else none

/-- Digits in base ten without a leading zero. -/
def wholeDigits? (cs : List Char) : Option (List Char) := do
  let digits ← dropUnderscores Char.isDigit cs
  if 1 < digits.length && digits.head? == some '0' then none else some digits

def integer? (cs : List Char) : Option Int :=
  match cs with
  | '0' :: 'x' :: rest => based? 16 rest
  | '0' :: 'o' :: rest => based? 8 rest
  | '0' :: 'b' :: rest => based? 2 rest
  | _ => do
    let (negative, rest) := Decimal.splitSign cs
    let n := Text.digitsValue (← wholeDigits? rest)
    if negative then if n ≤ Nat.pow 2 63 then some (-(n : Int)) else none
    else if n < Nat.pow 2 63 then some (n : Int)
    else none

/-- A number with a fraction or an exponent. One beyond the largest double is refused, unless it is
negative. -/
def decimal? (cs : List Char) : Option Float := do
  let (negative, rest) := Decimal.splitSign cs
  let isE (c : Char) : Bool := c == 'e' || c == 'E'
  let mantissa := rest.takeWhile (!isE ·)
  let exponent ← match rest.dropWhile (!isE ·) with
    | [] => some (0 : Int)
    | _ :: e =>
      let (down, digits) := Decimal.splitSign e
      (dropUnderscores Char.isDigit digits).map fun ds =>
        let n : Int := Text.digitsValue ds
        if down then -n else n
  let whole ← wholeDigits? (mantissa.takeWhile (· != '.'))
  let fraction ← match mantissa.dropWhile (· != '.') with
    | [] => if rest.any isE then some [] else none
    | _ :: ds => dropUnderscores Char.isDigit ds
  let x := Decimal.nearestFloat negative (Text.digitsValue (whole ++ fraction))
    (exponent - fraction.length)
  if x == Decimal.infinity then none else some x

def special? (cs : List Char) : Option Float :=
  let (negative, name) := Decimal.splitSign cs
  if name == "inf".toList then some (if negative then -Decimal.infinity else Decimal.infinity)
  else if name == "nan".toList then some Decimal.notANumber
  else none

/-! ### Dates and times -/

/-- What counts as a time of day and as an offset from universal time. -/
structure ClockRules where
  lastHour : Nat
  -- Whether an offset of so many hours and minutes is one.
  offsetFits : Nat → Nat → Bool

/-- The rules for a moment that is written as a value. -/
def ClockRules.value : ClockRules :=
  ⟨23, fun hours minutes => hours ≤ 23 && minutes ≤ 59⟩

/-- The rules for a moment that is spelled in a string: hours go up to 24, and the minutes of an
offset count up to a whole day. -/
def ClockRules.spelled : ClockRules :=
  ⟨24, fun hours minutes => hours * 60 + minutes ≤ 24 * 60⟩

def fixedNumber? (width : Nat) (cs : List Char) : Option (Nat × List Char) :=
  let digits := cs.take width
  if digits.length = width && digits.all Char.isDigit then
    some (Text.digitsValue digits, cs.drop width)
  else none

def expect? (mark : Char) (cs : List Char) : Option (List Char) :=
  match cs with
  | c :: rest => if c == mark then some rest else none
  | [] => none

def date? (cs : List Char) : Option (List Char × List Char) := do
  let (year, rest) ← fixedNumber? 4 cs
  let (month, rest) ← fixedNumber? 2 (← expect? '-' rest)
  let (day, rest) ← fixedNumber? 2 (← expect? '-' rest)
  if 1 ≤ month && month ≤ 12 && 1 ≤ day && day ≤ Calendar.daysInMonth year month then
    some (cs.take 10, rest)
  else none

/-- Decimals of the second, to the ninth, without zeros at their end. -/
def decimalsText (digits : List Char) : List Char :=
  match ((digits.take 9).reverse.dropWhile (· == '0')).reverse with
  | [] => []
  | ds => '.' :: ds

/-- A time of day, and its text. -/
def timeOfDay? (rules : ClockRules) (cs : List Char) : Option (List Char × List Char) := do
  let (hour, rest) ← fixedNumber? 2 cs
  let (minute, rest) ← fixedNumber? 2 (← expect? ':' rest)
  let (second, rest) ← fixedNumber? 2 (← expect? ':' rest)
  if hour ≤ rules.lastHour && minute < 60 && second ≤ 60 then
    match rest with
    | '.' :: more =>
      let digits := more.takeWhile Char.isDigit
      if digits.isEmpty then none
      else some (cs.take 8 ++ decimalsText digits, more.dropWhile Char.isDigit)
    | _ => some (cs.take 8, rest)
  else none

/-- A number below a hundred, in two digits. -/
def twoDigits (n : Nat) : List Char :=
  [Nat.digitChar (n / 10), Nat.digitChar (n % 10)]

/-- An offset from universal time, and its text in hours and minutes. -/
def offset? (rules : ClockRules) (cs : List Char) : Option (List Char × List Char) :=
  match cs with
  | [] => none
  | sign :: rest =>
    if sign == 'Z' || sign == 'z' then some (['Z'], rest)
    else if sign == '+' || sign == '-' then do
      let (hours, more) ← fixedNumber? 2 rest
      let (minutes, more) ← fixedNumber? 2 (← expect? ':' more)
      if rules.offsetFits hours minutes then
        let total := hours * 60 + minutes
        let shown := if total = 0 then '+' else sign
        some (shown :: (twoDigits (total / 60) ++ ':' :: twoDigits (total % 60)), more)
      else none
    else none

/-- A date, a time, or both with or without an offset; nothing may follow. The result is its text
in the uniform spelling. -/
def moment? (rules : ClockRules) (cs : List Char) : Option String :=
  match timeOfDay? rules cs with
  | some (text, []) => some (String.ofList text)
  | some _ => none
  | none => do
    let (date, rest) ← date? cs
    match rest with
    | [] => some (String.ofList date)
    | c :: rest =>
      if c == 'T' || c == 't' || c == ' ' then do
        let (time, rest) ← timeOfDay? rules rest
        let text := date ++ 'T' :: time
        match rest with
        | [] => some (String.ofList text)
        | _ => do
          let (offset, rest) ← offset? rules rest
          if rest.isEmpty then some (String.ofList (text ++ offset)) else none
      else none

/-! ### Words -/

/-- The characters of numbers, dates and truth values. -/
def isWordChar (c : Char) : Bool :=
  c.isAlphanum || c == '_' || c == '+' || c == '-' || c == '.' || c == ':'

/-- The word in front of a text; a blank between a date and a time belongs to it. -/
def spanWord (cs : List Char) : List Char × List Char :=
  let word := cs.takeWhile isWordChar
  match cs.dropWhile isWordChar with
  | ' ' :: c :: rest =>
    if c.isDigit && (date? word).any (·.2.isEmpty) then
      (word ++ ' ' :: (c :: rest).takeWhile isWordChar, (c :: rest).dropWhile isWordChar)
    else (word, ' ' :: c :: rest)
  | rest => (word, rest)

def word? (word : List Char) : Option Scalar :=
  if word == "true".toList then some (.boolean true)
  else if word == "false".toList then some (.boolean false)
  else (moment? .value word).map .moment
    <|> (integer? word).map .integer
    <|> (special? word).map .float
    <|> (decimal? word).map .float

end BenchLedger.Toml
