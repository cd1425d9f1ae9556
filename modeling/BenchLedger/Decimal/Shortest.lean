import BenchLedger.Decimal.Expansion

/-!
The shortest decimal that reads back as a given double: of the decimals with the fewest digits in
the interval of reals that round to the number, the one nearest to it.
-/

namespace BenchLedger.Decimal

/-- A positive decimal `coefficient * 10 ^ power`. -/
structure Scientific where
  coefficient : Nat
  power : Int
  deriving Repr, DecidableEq

/-- The reals that round to a number, as integers on one decimal grid: the number itself and the
two ends, which belong to the interval if the number's mantissa is even. -/
structure Interval where
  value : Nat
  low : Nat
  high : Nat
  closed : Bool

def Interval.admits (i : Interval) (x : Nat) : Bool :=
  if i.closed then i.low ≤ x && x ≤ i.high else i.low < x && x < i.high

/-- The reals that round to `mantissa * 2 ^ exponent`, counted in units of `10 ^ -places`. Below a
power of two the neighbour is only half as far away. -/
def Interval.ofBinary (mantissa : Nat) (exponent : Int) : Interval × Nat :=
  let below := if mantissa = Nat.pow 2 52 && leastExponent < exponent then 1 else 2
  let at4 (x : Nat) : Nat := (Expansion.ofBinary x (exponent - 2)).coefficient
  (⟨at4 (4 * mantissa), at4 (4 * mantissa - below), at4 (4 * mantissa + 2), mantissa % 2 == 0⟩,
    (Expansion.ofBinary 1 (exponent - 2)).places)

/-- The better of the value's two neighbours on the grid of multiples of `unit` that lie in the
interval; a tie goes to the even multiple. -/
def Interval.nearest? (i : Interval) (unit : Nat) : Option Nat :=
  let below := i.value / unit
  let above := below + 1
  match i.admits (below * unit), i.admits (above * unit) with
  | true, false => some below
  | false, true => some above
  | false, false => none
  | true, true =>
    let down := i.value - below * unit
    let up := above * unit - i.value
    if down < up then some below
    else if up < down then some above
    else if below % 2 == 0 then some below else some above

/-- Tries the grids with 1, 2, … digits in turn. `dropped` counts the digits left out so far. -/
def Interval.shortestFrom (i : Interval) : Nat → Nat × Nat
  | 0 => (i.value, 0)
  | dropped + 1 =>
    match i.nearest? (Nat.pow 10 (dropped + 1)) with
    | some c => (c, dropped + 1)
    | none => i.shortestFrom dropped

/-- Removes zeros from the end of the coefficient. -/
def stripZeros : Nat → Nat → Int → Scientific
  | 0, c, p => ⟨c, p⟩
  | fuel + 1, c, p =>
    if c % 10 == 0 && c != 0 then stripZeros fuel (c / 10) (p + 1) else ⟨c, p⟩

/-- The shortest decimal that reads back as `mantissa * 2 ^ exponent`, for a positive mantissa. -/
def shortest (mantissa : Nat) (exponent : Int) : Scientific :=
  let (i, places) := Interval.ofBinary mantissa exponent
  let count := digitCount i.value
  let (c, dropped) := i.shortestFrom (count - 1)
  stripZeros count c ((dropped : Int) - places)

end BenchLedger.Decimal
