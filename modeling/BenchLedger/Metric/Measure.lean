import BenchLedger.Decimal.Literal
import BenchLedger.Metric.Kind

/-!
Composite units. A unit with tabs carries several measures: the first segment is the unit of the
record's own value, and each further one holds a number and a unit of its own. Blank segments do
not count.
-/

namespace BenchLedger

structure Measure where
  value : Float
  unit : String

def Measure.kind (m : Measure) : MetricKind :=
  .ofUnit m.unit.toList

/-- Why a composite unit cannot be split into measures. -/
inductive UnitFault where
  -- Every segment is blank.
  | noPrimary
  -- A further segment is not a number and a unit.
  | notPair (segment : String)
  -- The first word of a further segment is not a number.
  | notNumeric (segment : String)
  -- The number of a further segment is not finite.
  | notFinite (segment : String)
  deriving DecidableEq, Repr

def UnitFault.message : UnitFault → String
  | .noPrimary => "composite unit has no primary segment"
  | .notPair segment => "segment `" ++ segment ++ "` is not `<number> <unit>`"
  | .notNumeric segment => "segment `" ++ segment ++ "` has a non-numeric value"
  | .notFinite segment => "segment `" ++ segment ++ "` has a non-finite value"

namespace Measure

def isTab (c : Char) : Bool :=
  c == '\t'

/-- Whether a unit carries more than one measure. -/
def isComposite (unit : String) : Bool :=
  unit.toList.any isTab

/-- The unit of the record's own value: what stands before the first tab. -/
def primaryUnit (unit : String) : String :=
  String.ofList (Text.trim (unit.toList.takeWhile (!isTab ·)))

/-- The segments between the tabs, trimmed, without the blank ones. -/
def segments (unit : String) : List (List Char) :=
  ((Text.pieces isTab unit.toList).map Text.trim).filter (!·.isEmpty)

/-- A further segment: a finite number and a unit. -/
def ofSegment (segment : List Char) : Except UnitFault Measure :=
  let shown := String.ofList segment
  match Text.words segment with
  | [number, unit] =>
    match Decimal.float? number with
    | none => .error (.notNumeric shown)
    | some value =>
      if value.isFinite then .ok ⟨value, String.ofList unit⟩ else .error (.notFinite shown)
  | _ => .error (.notPair shown)

/-- The measures of the further segments, up to the first faulty one. -/
def ofSegments : List (List Char) → Except UnitFault (List Measure)
  | [] => .ok []
  | segment :: rest => do
    let m ← ofSegment segment
    let ms ← ofSegments rest
    return m :: ms

/-- The measures of a composite unit whose record has the value `primary`; `none` if the unit is not
composite. -/
def split (primary : Float) (unit : String) : Except UnitFault (Option (List Measure)) :=
  if isComposite unit then
    match segments unit with
    | [] => .error .noPrimary
    | first :: rest => (ofSegments rest).map fun ms => some (⟨primary, String.ofList first⟩ :: ms)
  else .ok none

end Measure

end BenchLedger
