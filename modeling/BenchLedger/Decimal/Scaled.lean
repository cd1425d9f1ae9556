import BenchLedger.Decimal.Literal

/-!
Doubles from a significand and a power of ten. The significand is rounded to a double, which is then
multiplied or divided by the double of the power, so that the outcome is rounded twice: it is close
to the number, but another double may be nearer.
-/

namespace BenchLedger.Decimal

/-- The largest power of ten that has a double. -/
def longestScale : Nat := 308

/-- The double nearest to a power of ten. -/
def tenTo (n : Nat) : Float :=
  Float.ofScientific 1 false n

/-- Divides by the largest power of ten again and again, as long as something is left. -/
def divideRepeatedly : Nat → Float → Float
  | 0, x => x
  | n + 1, x => if x == 0.0 then x else divideRepeatedly n (x / tenTo longestScale)

/-- The double of `significand * 10 ^ exponent`, rounded at each step. The significand fits a word
of 64 bits. -/
def scaled (significand : Nat) (exponent : Int) : Float :=
  let x := significand.toUInt64.toFloat
  match exponent with
  | .ofNat e =>
    if e ≤ longestScale then x * tenTo e
    else if x == 0.0 then x else infinity
  | .negSucc e => divideRepeatedly (e / longestScale) x / tenTo (e % longestScale + 1)

end BenchLedger.Decimal
