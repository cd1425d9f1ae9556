import BenchLedger.Decimal.Shortest
import BenchLedger.Text.Numeral

/-!
Shortest digits laid out as text, in the two forms that the ledger writes: with an exponent outside
a middle range of magnitudes, as in documents, and always positional, as in messages.
-/

namespace BenchLedger.Decimal

open Text (digitsOf wholeDigits)

/-- How the digits of a finite number are laid out. -/
structure Layout where
  -- Numbers whose leading digit stands for a power of ten in this range are positional; `none`
  -- makes all of them so.
  positional : Option (Int × Int)
  -- Whether a whole number in positional form gets `.0`.
  pointZero : Bool

/-- Documents: plain from `0.00001` to below `10 ^ 16`, always with a decimal point; otherwise with
an exponent that carries its sign. -/
def Layout.document : Layout :=
  ⟨some (-5, 15), true⟩

/-- Messages: never with an exponent, and without a point after a whole number. -/
def Layout.plain : Layout :=
  ⟨none, false⟩

/-- `coefficient * 10 ^ power` without an exponent. -/
def positionalText (pointZero : Bool) (s : Scientific) : List Char :=
  let ds := digitsOf s.coefficient
  match s.power with
  | .ofNat p => ds ++ List.replicate p '0' ++ if pointZero then ['.', '0'] else []
  | .negSucc p =>
    let decimals := p + 1
    if ds.length ≤ decimals then
      '0' :: '.' :: (List.replicate (decimals - ds.length) '0' ++ ds)
    else
      ds.take (ds.length - decimals) ++ '.' :: ds.drop (ds.length - decimals)

/-- The power of ten that the leading digit stands for. -/
def Scientific.magnitude (s : Scientific) : Int :=
  digitCount s.coefficient - 1 + s.power

/-- One digit, the others after a point, and the exponent with its sign. -/
def exponentText (s : Scientific) : List Char :=
  let ds := digitsOf s.coefficient
  let fraction := match ds.drop 1 with
    | [] => []
    | rest => '.' :: rest
  let e := s.magnitude
  ds.take 1 ++ fraction ++ 'e' :: ((if e < 0 then [] else ['+']) ++ wholeDigits e)

def Layout.digits (l : Layout) (s : Scientific) : List Char :=
  match l.positional with
  | none => positionalText l.pointZero s
  | some (low, high) =>
    if low ≤ s.magnitude && s.magnitude ≤ high then positionalText l.pointZero s
    else exponentText s

/-- The text of a finite number; a zero keeps its sign. -/
def Layout.finite (l : Layout) (negative : Bool) (mantissa : Nat) (exponent : Int) : List Char :=
  let body :=
    if mantissa = 0 then '0' :: if l.pointZero then ['.', '0'] else []
    else l.digits (shortest mantissa exponent)
  if negative then '-' :: body else body

def plainText (x : Float) : String :=
  String.ofList <| match parts x with
    | .nan => "NaN".toList
    | .infinite false => "inf".toList
    | .infinite true => "-inf".toList
    | .finite negative m e => Layout.plain.finite negative m e

end BenchLedger.Decimal
