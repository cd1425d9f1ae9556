import BenchLedger.Http.Target
import BenchLedger.Query.Comparison

/-!
Query parameters of the requests. A known parameter may be given once and has to be readable;
unknown ones do not count.
-/

namespace BenchLedger.Http

inductive QueryFault where
  | absent (name : String)
  | repeated (name : String)
  | unreadable (name : String)
  deriving DecidableEq, Repr

def QueryFault.message : QueryFault → String
  | .absent name => "missing parameter " ++ name
  | .repeated name => "repeated parameter " ++ name
  | .unreadable name => "invalid parameter " ++ name

abbrev Parameters := List (String × String)

namespace Parameters

/-- The value of a parameter, if it is given. -/
def text? (ps : Parameters) (name : String) : Except QueryFault (Option String) :=
  match ps.filter (·.1 == name) with
  | [] => .ok none
  | [p] => .ok (some p.2)
  | _ => .error (.repeated name)

/-- The meaning of a parameter's value, if it is given. -/
def value? {α : Type} (ps : Parameters) (name : String) (meaning : String → Option α) :
    Except QueryFault (Option α) := do
  match ← ps.text? name with
  | none => return none
  | some text => match meaning text with
    | some v => return some v
    | none => .error (.unreadable name)

/-- The meaning of a parameter that has to be given. -/
def value {α : Type} (ps : Parameters) (name : String) (meaning : String → Option α) :
    Except QueryFault α := do
  match ← ps.value? name meaning with
  | some v => return v
  | none => .error (.absent name)

end Parameters

def wholeNumber? (text : String) : Option Int :=
  Text.signed? 64 text.toList

def ratio? (text : String) : Option Float :=
  Decimal.float? text.toList

/-- How many entries are wanted; a negative number wants none. -/
def latestCount (ps : Parameters) : Except QueryFault Nat := do
  let n ← ps.value? "n" wholeNumber?
  return (n.getD 1).toNat

structure RangeParameters where
  first : Int
  last : Int

def RangeParameters.ofPairs (ps : Parameters) : Except QueryFault RangeParameters := do
  return ⟨← ps.value "from" wholeNumber?, ← ps.value "to" wholeNumber?⟩

structure RegressionParameters where
  benchmark : String
  baseline : String
  threshold : Float
  polarity : Option Polarity

def RegressionParameters.ofPairs (ps : Parameters) : Except QueryFault RegressionParameters := do
  return {
    benchmark := ← ps.value "benchmark" some
    baseline := ← ps.value "baseline" some
    threshold := (← ps.value? "threshold" ratio?).getD defaultThreshold
    polarity := ← ps.value? "polarity" Polarity.ofText? }

structure DiffParameters where
  baseline : String
  candidate : String
  threshold : Float
  polarity : Option Polarity
  -- Names between commas.
  higherIsBetter : Option String
  higherIsWorse : Option String

def DiffParameters.ofPairs (ps : Parameters) : Except QueryFault DiffParameters := do
  return {
    baseline := ← ps.value "baseline" some
    candidate := ← ps.value "candidate" some
    threshold := (← ps.value? "threshold" ratio?).getD defaultThreshold
    polarity := ← ps.value? "polarity" Polarity.ofText?
    higherIsBetter := ← ps.text? "higher_is_better"
    higherIsWorse := ← ps.text? "higher_is_worse" }

/-- The names between the commas of a list; an absent list is an empty one. -/
def splitNames (list : Option String) : List String :=
  (Text.pieces (· == ',') (list.getD "").toList).map String.ofList

/-- The polarities that a comparison asks for. -/
def DiffParameters.polarities (p : DiffParameters) : PolarityMap :=
  .ofLists p.polarity (splitNames p.higherIsBetter) (splitNames p.higherIsWorse)

end BenchLedger.Http
