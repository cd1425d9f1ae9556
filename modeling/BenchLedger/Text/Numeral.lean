/-!
Decimal numerals of whole numbers, as they stand in arguments, queries and run notes: an optional
sign, then at least one digit and nothing else. Leading zeros are allowed.
-/

namespace BenchLedger.Text

def digitValue (c : Char) : Nat :=
  c.toNat - '0'.toNat

/-- The value of a run of digits, most significant first. -/
def digitsValue (cs : List Char) : Nat :=
  cs.foldl (fun n c => 10 * n + digitValue c) 0

/-- At least one digit, and nothing but digits. -/
def natural? (cs : List Char) : Option Nat :=
  if !cs.isEmpty && cs.all Char.isDigit then some (digitsValue cs) else none

/-- A natural number with an optional plus sign, below `2 ^ bits`. -/
def unsigned? (bits : Nat) (cs : List Char) : Option Nat :=
  let digits := match cs with
    | '+' :: rest => rest
    | _ => cs
  match natural? digits with
  | some n => if n < Nat.pow 2 bits then some n else none
  | none => none

/-- A whole number with an optional sign, within a two's complement word of `bits` bits. -/
def signed? (bits : Nat) (cs : List Char) : Option Int :=
  match cs with
  | '-' :: rest =>
    match natural? rest with
    | some n => if n ≤ Nat.pow 2 (bits - 1) then some (-(n : Int)) else none
    | none => none
  | _ =>
    match unsigned? (bits - 1) cs with
    | some n => some n
    | none => none

/-- Decimal digits of a natural number. -/
def digitsOf (n : Nat) : List Char :=
  Nat.toDigits 10 n

/-- Decimal digits, with zeros in front to reach `width`. -/
def paddedDigits (width n : Nat) : List Char :=
  let ds := digitsOf n
  List.replicate (width - ds.length) '0' ++ ds

/-- Decimal digits of a whole number, with a minus sign if it is negative. -/
def wholeDigits : Int → List Char
  | .ofNat n => digitsOf n
  | .negSucc n => '-' :: digitsOf (n + 1)

end BenchLedger.Text
