/-!
Double-precision numbers taken apart, and their exact decimal expansions.
-/

namespace BenchLedger.Decimal

/-- A finite number is `mantissa * 2 ^ exponent`, up to its sign. -/
inductive Parts where
  | nan
  | infinite (negative : Bool)
  | finite (negative : Bool) (mantissa : Nat) (exponent : Int)
  deriving Repr, DecidableEq

/-- The smallest exponent of two, that of the subnormal numbers. -/
def leastExponent : Int := -1074

/-- Reads sign, exponent and fraction off the 64 bits. -/
def Parts.ofBits (bits : Nat) : Parts :=
  let negative := bits / Nat.pow 2 63 % 2 == 1
  let exponent : Nat := bits / Nat.pow 2 52 % Nat.pow 2 11
  let fraction : Nat := bits % Nat.pow 2 52
  if exponent = 2047 then
    if fraction = 0 then .infinite negative else .nan
  else if exponent = 0 then .finite negative fraction leastExponent
  else .finite negative (Nat.pow 2 52 + fraction) ((exponent : Int) - 1075)

def parts (x : Float) : Parts :=
  .ofBits x.toBits.toNat

/-- The number `coefficient / 10 ^ places`. -/
structure Expansion where
  coefficient : Nat
  places : Nat
  deriving Repr, DecidableEq

/-- Every `mantissa * 2 ^ exponent` has a finite decimal expansion: a halving is five tenths. -/
def Expansion.ofBinary (mantissa : Nat) (exponent : Int) : Expansion :=
  match exponent with
  | .ofNat e => ⟨mantissa * Nat.pow 2 e, 0⟩
  | .negSucc e => ⟨mantissa * Nat.pow 5 (e + 1), e + 1⟩

/-- How many decimal digits a natural number has; zero has one. -/
def digitCount (n : Nat) : Nat :=
  (Nat.toDigits 10 n).length

end BenchLedger.Decimal
