import BenchLedger.Text.Blank
import BenchLedger.Text.LowerCase

/-!
What a unit measures, and which direction of change is the worse one.
-/

namespace BenchLedger

/-- Which direction of change makes a metric worse. -/
inductive Polarity where
  -- Growth is a regression, as for run times.
  | higherIsWorse
  -- Shrinkage is a regression, as for rates.
  | higherIsBetter
  deriving DecidableEq, Repr

namespace Polarity

def name : Polarity → String
  | .higherIsWorse => "higher_is_worse"
  | .higherIsBetter => "higher_is_better"

/-- The spelling under which names are compared: lower case, with underscores. -/
def normalize (text : String) : String :=
  Text.hyphensToUnderscores (Text.asciiLowerCase text)

def ofText? (text : String) : Option Polarity :=
  let n := normalize text
  if n == "higher_is_worse" || n == "lower_is_better" || n == "smaller_is_better" then
    some .higherIsWorse
  else if n == "higher_is_better" || n == "bigger_is_better" then some .higherIsBetter
  else none

/-- What is said of a text that names no polarity. -/
def unknownMessage (text : String) : String :=
  "Unknown polarity `" ++ normalize text ++ "`. Supported: higher_is_worse, higher_is_better"

def flip : Polarity → Polarity
  | .higherIsWorse => .higherIsBetter
  | .higherIsBetter => .higherIsWorse

end Polarity

inductive MetricKind where
  | time
  | bytes
  | allocations
  | throughput
  | other
  deriving DecidableEq, Repr

namespace MetricKind

def name : MetricKind → String
  | .time => "time"
  | .bytes => "bytes"
  | .allocations => "allocations"
  | .throughput => "throughput"
  | .other => "other"

/-- Units of time. The micro sign and the Greek mu are both accepted. -/
def timeUnits : List (List Char) :=
  ["ns", "us", "µs", "μs", "ms", "s", "sec", "seconds"].map String.toList

def byteUnits : List (List Char) :=
  ["b", "kb", "mb", "gb", "bytes"].map String.toList

def allocationUnits : List (List Char) :=
  ["allocs", "allocations"].map String.toList

def endsWith (cs ending : List Char) : Bool :=
  ending.isSuffixOf cs

def perOperationBase (unit : List Char) : List Char :=
  if endsWith unit "/op".toList then unit.take (unit.length - 3) else unit

/-- What a single unit measures. Blanks around it and letter case do not count. -/
def ofUnit (unit : List Char) : MetricKind :=
  let unit := (Text.trim unit).map Char.toLower
  if unit.isEmpty then .other
  else if endsWith unit "/s".toList || endsWith unit "/sec".toList then .throughput
  else
    let base := perOperationBase unit
    if timeUnits.contains base then .time
    else if byteUnits.contains base then .bytes
    else if allocationUnits.contains base then .allocations
    else if endsWith base "bytes".toList || endsWith base "_b".toList then .bytes
    else if endsWith base "allocs".toList then .allocations
    else .other

/-- The direction in which a metric of this kind gets worse. -/
def defaultPolarity : MetricKind → Polarity
  | .throughput => .higherIsBetter
  | _ => .higherIsWorse

end MetricKind

end BenchLedger
