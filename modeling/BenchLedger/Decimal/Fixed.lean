import BenchLedger.Decimal.Expansion
import BenchLedger.Text.Numeral

/-!
Numbers with a fixed count of decimal places: the exact value, rounded to the nearest multiple of
the last place, a half going to the even neighbour.
-/

namespace BenchLedger.Decimal

open Text (digitsOf paddedDigits)

/-- The natural number nearest to `num / den`, a half going to the even one. -/
def roundHalfEven (num den : Nat) : Nat :=
  let q := num / den
  let r := num % den
  if 2 * r < den then q
  else if den < 2 * r then q + 1
  else if q % 2 == 0 then q else q + 1

/-- How many units of `10 ^ -places` the expansion comes to. -/
def Expansion.roundTo (x : Expansion) (places : Nat) : Nat :=
  roundHalfEven (x.coefficient * Nat.pow 10 places) (Nat.pow 10 x.places)

/-- A count of units of `10 ^ -places`, written with a point before the last `places` digits. -/
def pointed (places units : Nat) : List Char :=
  let whole := digitsOf (units / Nat.pow 10 places)
  if places = 0 then whole
  else whole ++ '.' :: paddedDigits places (units % Nat.pow 10 places)

/-- The sign in front of a number; `plus` asks for one in front of positive numbers too. -/
def signText (plus negative : Bool) : List Char :=
  if negative then ['-'] else if plus then ['+'] else []

/-- A number with `places` decimals. A zero keeps its sign, what is not a number never has one. -/
def fixed (plus : Bool) (places : Nat) (x : Float) : String :=
  String.ofList <| match parts x with
    | .nan => "NaN".toList
    | .infinite negative => signText plus negative ++ "inf".toList
    | .finite negative m e =>
      signText plus negative ++ pointed places ((Expansion.ofBinary m e).roundTo places)

end BenchLedger.Decimal
