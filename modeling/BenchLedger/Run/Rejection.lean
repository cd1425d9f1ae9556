import BenchLedger.Decimal.Layout
import BenchLedger.Metric.Measure

/-!
Why a run or a request is not accepted. Every rejection names the field that has to be mended.
-/

namespace BenchLedger

inductive Rejection where
  -- A series name of blanks only.
  | blankSeries
  -- A commit id that is not a commit hash.
  | notCommitHash (id : String)
  -- A commit id of blanks only.
  | blankCommit
  -- A draft without a commit id.
  | noCommit
  -- A run time that is negative or cannot be represented.
  | badRunTime (date : Int)
  | negativeRunTime
  -- A draft whose run time cannot be represented.
  | unrepresentableRunTime
  | blankName (index : Nat)
  | duplicateName (index : Nat) (name : String)
  -- A value that is not finite, of a named record.
  | badValue (index : Nat) (name : String) (value : Float)
  -- A value that is not finite.
  | nonFiniteValue (index : Nat)
  | badUnit (index : Nat) (fault : UnitFault)
  | badThreshold (threshold : Float)
  -- A baseline of zero, to which nothing can be related.
  | zeroBaseline (benchmark commit : String)

namespace Rejection

/-- Where a part of a record is found in its run. -/
def recordField (index : Nat) (part : String) : String :=
  "benches[" ++ String.ofList (Text.digitsOf index) ++ "]." ++ part

def field : Rejection → String
  | .blankSeries => "series"
  | .notCommitHash _ | .blankCommit | .noCommit => "commit.id"
  | .badRunTime _ | .negativeRunTime | .unrepresentableRunTime => "date"
  | .blankName i | .duplicateName i _ => recordField i "name"
  | .badValue i _ _ | .nonFiniteValue i => recordField i "value"
  | .badUnit i _ => recordField i "unit"
  | .badThreshold _ => "threshold_ratio"
  | .zeroBaseline _ _ => "baseline"

def reason : Rejection → String
  | .blankSeries => "series name must not be empty"
  | .notCommitHash id => "`" ++ id ++ "` is not a commit hash (4-64 hex digits)"
  | .blankCommit => "commit id must not be empty"
  | .noCommit => "commit id is required"
  | .badRunTime date =>
    String.ofList (Text.wholeDigits date) ++ " is not a valid epoch-millis run time"
  | .negativeRunTime => "run time must not be negative"
  | .unrepresentableRunTime => "not a valid epoch-millis value"
  | .blankName _ => "benchmark name must not be empty"
  | .duplicateName _ name => "duplicate benchmark `" ++ name ++ "`"
  | .badValue _ name value =>
    "`" ++ name ++ "` has non-finite value " ++ Decimal.plainText value
  | .nonFiniteValue _ => "value must be a finite number"
  | .badUnit _ fault => fault.message
  | .badThreshold threshold =>
    Decimal.plainText threshold ++ " is not a non-negative finite ratio"
  | .zeroBaseline benchmark commit =>
    "`" ++ benchmark ++ "` is zero at " ++ commit ++ "; no relative change exists"

def message (r : Rejection) : String :=
  "invalid " ++ r.field ++ ": " ++ r.reason

end Rejection

end BenchLedger
