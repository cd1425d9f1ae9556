import BenchLedger.Calendar.Date
import BenchLedger.Text.Blank
import BenchLedger.Text.Numeral

/-!
Points in time with the offset of the place where the clock hung: reading them from text in the
forms that version control systems write, and writing them in the one form of documents.
-/

namespace BenchLedger.Calendar

open Text (isBlank trimStart allBlank digitsValue digitsOf paddedDigits)

/-- A reading of a clock. `second` is 60 in a leap second. -/
structure Clock where
  hour : Nat
  minute : Nat
  second : Nat
  nanosecond : Nat
  deriving DecidableEq, Repr

/-- A local date and time and its distance from universal time, in minutes. -/
structure Timestamp where
  date : Date
  clock : Clock
  offset : Int
  deriving DecidableEq, Repr

def Clock.exists (c : Clock) : Bool :=
  c.hour < 24 && c.minute < 60 && c.second ≤ 60 && c.nanosecond < 1000000000

/-- Minutes of universal time since the first minute of 1970. -/
def Timestamp.minutes (t : Timestamp) : Int :=
  t.date.toDays * 1440 + t.clock.hour * 60 + t.clock.minute - t.offset

/-- Whether there is such a point in time: date, clock and offset exist, and the date in universal
time can be written too. -/
def Timestamp.exists (t : Timestamp) : Bool :=
  t.date.exists && t.clock.exists && t.offset.natAbs < 1440 && isDayNumber (t.minutes / 1440)

/-! ### Epoch milliseconds -/

/-- The first and last representable run times, in milliseconds since 1970. -/
def leastMillis : Int := -8334601228800000

def greatestMillis : Int := 8210266876799999

/-- The run time in universal time, if it can be represented. -/
def Timestamp.ofMillis? (millis : Int) : Option Timestamp :=
  if leastMillis ≤ millis && millis ≤ greatestMillis then
    let second := millis / 1000
    let ofDay := (second % 86400).toNat
    some {
      date := .ofDays (second / 86400)
      clock := ⟨ofDay / 3600, ofDay / 60 % 60, ofDay % 60, (millis % 1000).toNat * 1000000⟩
      offset := 0 }
  else none

/-! ### Writing -/

/-- A year has four digits; outside 0 to 9999 it has a sign and may have more. -/
def yearText (year : Int) : List Char :=
  if 0 ≤ year && year ≤ 9999 then paddedDigits 4 year.toNat
  else (if year < 0 then '-' else '+') :: paddedDigits 4 year.natAbs

def Date.text (d : Date) : List Char :=
  yearText d.year ++ '-' :: (paddedDigits 2 d.month ++ '-' :: paddedDigits 2 d.day)

/-- Decimals of the second: none, or as few groups of three as are exact. -/
def fractionText (nanosecond : Nat) : List Char :=
  if nanosecond = 0 then []
  else if nanosecond % 1000000 = 0 then '.' :: paddedDigits 3 (nanosecond / 1000000)
  else if nanosecond % 1000 = 0 then '.' :: paddedDigits 6 (nanosecond / 1000)
  else '.' :: paddedDigits 9 nanosecond

/-- The offset as hours and minutes, or `Z` if there is none. -/
def offsetText (offset : Int) : List Char :=
  if offset = 0 then ['Z']
  else (if offset < 0 then '-' else '+') ::
    (paddedDigits 2 (offset.natAbs / 60) ++ ':' :: paddedDigits 2 (offset.natAbs % 60))

def Timestamp.text (t : Timestamp) : String :=
  String.ofList <| t.date.text ++ 'T' :: (paddedDigits 2 t.clock.hour ++ ':' ::
    (paddedDigits 2 t.clock.minute ++ ':' :: (paddedDigits 2 t.clock.second ++
      (fractionText t.clock.nanosecond ++ offsetText t.offset))))

/-- Date and time to the minute, as reports show them. -/
def Timestamp.minuteText (t : Timestamp) : String :=
  String.ofList <| t.date.text ++ ' ' :: (paddedDigits 2 t.clock.hour ++ ':' ::
    (paddedDigits 2 t.clock.minute ++ " UTC".toList))

/-! ### Reading -/

/-- At least one and at most `width` digits. -/
def takeDigits (width : Nat) (cs : List Char) : Option (Nat × List Char) :=
  let digits := (cs.take width).takeWhile Char.isDigit
  if digits.isEmpty then none else some (digitsValue digits, cs.drop digits.length)

/-- A two-digit item, after blanks. One digit is enough. -/
def takeItem (cs : List Char) : Option (Nat × List Char) :=
  takeDigits 2 (trimStart cs)

/-- A year, after blanks: up to four digits, or a sign and any number of them. -/
def takeYear (cs : List Char) : Option (Int × List Char) :=
  match trimStart cs with
  | '-' :: rest => (takeDigits rest.length rest).map fun p => (-(p.1 : Int), p.2)
  | '+' :: rest => (takeDigits rest.length rest).map fun p => ((p.1 : Int), p.2)
  | rest => (takeDigits 4 rest).map fun p => ((p.1 : Int), p.2)

def takeMark (mark : Char) (cs : List Char) : Option (List Char) :=
  match trimStart cs with
  | c :: rest => if c == mark then some rest else none
  | [] => none

/-- Decimals of the second as nanoseconds; digits after the ninth are dropped. -/
def takeFraction (cs : List Char) : Option (Nat × List Char) :=
  match cs with
  | '.' :: rest => do
    let digits := (rest.take 9).takeWhile Char.isDigit
    if digits.isEmpty then none
    else some (digitsValue digits * Nat.pow 10 (9 - digits.length), rest.dropWhile Char.isDigit)
  | _ => some (0, cs)

def takePair (cs : List Char) : Option (Nat × List Char) :=
  match cs with
  | a :: b :: rest =>
    if a.isDigit && b.isDigit then some (digitsValue [a, b], rest) else none
  | _ => none

/-- The offset in minutes: `Z`, `UTC`, or a sign, hours and minutes. -/
def takeOffset (cs : List Char) : Option (Int × List Char) :=
  match cs with
  | [] => none
  | sign :: rest =>
    if (cs.take 3).map Char.toLower == ['u', 't', 'c'] then some (0, cs.drop 3)
    else if sign == 'Z' || sign == 'z' then some (0, rest)
    else if sign == '+' || sign == '-' || sign == Char.ofNat 0x2212 then do
      let (hours, rest) ← takePair rest
      let (minutes, rest) ← takePair (rest.dropWhile fun c => c == ':' || isBlank c)
      if 60 ≤ minutes then none
      else
        let offset : Int := hours * 60 + minutes
        some (if sign == '+' then offset else -offset, rest)
    else none

/-- Reads a point in time: a date, one of `T`, `t` and a blank, a time of day to the second or
finer, and an offset. Blanks may stand around the items. -/
def Timestamp.ofText? (text : String) : Option Timestamp := do
  let (year, cs) ← takeYear text.toList
  let (month, cs) ← takeItem (← takeMark '-' cs)
  let (day, cs) ← takeItem (← takeMark '-' cs)
  let cs ← match cs with
    | c :: rest => if c == 'T' || c == 't' || c == ' ' then some rest else none
    | [] => none
  let (hour, cs) ← takeItem cs
  let (minute, cs) ← takeItem (← takeMark ':' cs)
  let (second, cs) ← takeItem (← takeMark ':' cs)
  let (nanosecond, cs) ← takeFraction cs
  let (offset, cs) ← takeOffset (trimStart cs)
  let t : Timestamp := ⟨⟨year, month, day⟩, ⟨hour, minute, second, nanosecond⟩, offset⟩
  if allBlank cs && t.exists then some t else none

end BenchLedger.Calendar
