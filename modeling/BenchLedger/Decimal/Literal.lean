import BenchLedger.Text.Numeral

/-!
Literals of double-precision numbers: digits with an optional point and exponent, or the names of
infinity and of what is not a number. A literal stands for the double nearest to its value.
-/

namespace BenchLedger.Decimal

open Text (digitsValue natural?)

/-- The double nearest to `± coefficient * 10 ^ exponent`. -/
def nearestFloat (negative : Bool) (coefficient : Nat) (exponent : Int) : Float :=
  let magnitude := match exponent with
    | .ofNat e => Float.ofScientific coefficient false e
    | .negSucc e => Float.ofScientific coefficient true (e + 1)
  if negative then -magnitude else magnitude

def infinity : Float := 1.0 / 0.0

def notANumber : Float := 0.0 / 0.0

/-- Splits off one sign; `true` for a minus. -/
def splitSign : List Char → Bool × List Char
  | '-' :: rest => (true, rest)
  | '+' :: rest => (false, rest)
  | cs => (false, cs)

/-- The exponent behind a number: nothing, or an `e` with a whole number. -/
def exponent? : List Char → Option Int
  | [] => some 0
  | e :: rest =>
    if e == 'e' || e == 'E' then
      let (negative, digits) := splitSign rest
      (natural? digits).map fun n => if negative then -(n : Int) else n
    else none

/-- A number without its sign: digits around an optional point, at least one in all, then an
optional exponent. -/
def magnitude? (negative : Bool) (cs : List Char) : Option Float :=
  let whole := cs.takeWhile Char.isDigit
  let rest := cs.dropWhile Char.isDigit
  let (fraction, rest) := match rest with
    | '.' :: more => (more.takeWhile Char.isDigit, more.dropWhile Char.isDigit)
    | _ => ([], rest)
  if whole.isEmpty && fraction.isEmpty then none
  else (exponent? rest).map fun e =>
    nearestFloat negative (digitsValue (whole ++ fraction)) (e - fraction.length)

/-- The double that a literal stands for; letters may be of either case. -/
def float? (cs : List Char) : Option Float :=
  let (negative, rest) := splitSign cs
  let name := rest.map Char.toLower
  if name == "inf".toList || name == "infinity".toList then
    some (if negative then -infinity else infinity)
  else if name == "nan".toList then some notANumber
  else magnitude? negative rest

end BenchLedger.Decimal
