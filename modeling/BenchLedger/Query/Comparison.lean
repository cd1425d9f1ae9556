import BenchLedger.History.Failure
import BenchLedger.History.Series
import BenchLedger.Query.PolarityMap

/-!
Comparing values of a series: one benchmark against a baseline commit, and all benchmarks of two
commits. A change counts if it exceeds a threshold in proportion to the baseline's magnitude.
-/

namespace BenchLedger

/-- The change in proportion to the magnitude of the baseline. -/
def relativeChange (baseline current : Float) : Float :=
  (current - baseline) / baseline.abs

/-- Whether a change exceeds the threshold in the worse direction. -/
def isWorse (delta threshold : Float) : Polarity → Bool
  | .higherIsWorse => threshold < delta
  | .higherIsBetter => threshold < -delta

/-- The threshold of comparisons that name none. -/
def defaultThreshold : Float := 0.2

/-- A threshold is a finite ratio that is not negative. -/
def validateThreshold (threshold : Float) : Except Rejection Unit :=
  if !threshold.isFinite || threshold < 0.0 then .error (.badThreshold threshold) else .ok ()

/-- The entry of a commit in a series. -/
def findCommit (s : SeriesSnapshot) (commit : String) : Except Failure CommitEntry :=
  match s.find? commit with
  | some e => .ok e
  | none => .error (.missing (.commit s.name commit))

/-! ### One benchmark -/

/-- How the latest value of a benchmark compares with its value at a baseline commit. -/
structure RegressionResult where
  series : String
  benchmark : String
  -- The unit of the latest value.
  unit : String
  baselineCommit : String
  -- The newest commit that carries the benchmark.
  currentCommit : String
  baselineValue : Float
  currentValue : Float
  -- The relative change.
  delta : Float
  threshold : Float
  polarity : Polarity
  -- Whether the change exceeds the threshold in the worse direction.
  regressed : Bool

/-- The newest entry that carries a benchmark, and its record. -/
def newestWith? (s : SeriesSnapshot) (benchmark : String) :
    Option (CommitEntry × BenchmarkRecord) :=
  s.entries.reverse.findSome? fun e => (e.bench? benchmark).map fun r => (e, r)

/-- Compares the newest value of a benchmark with the one at a baseline commit. Without a given
polarity the unit decides. -/
def regressionCheck (s : SeriesSnapshot) (benchmark baseline : String) (threshold : Float)
    (polarity : Option Polarity) : Except Failure RegressionResult := do
  let baseEntry ← findCommit s baseline
  let base ← match baseEntry.bench? benchmark with
    | some r => pure r
    | none => .error (.missing (.benchmark (s.name ++ "@" ++ baseline) benchmark))
  if base.value == 0.0 then .error (.rejected (.zeroBaseline benchmark baseline))
  let (entry, current) := (newestWith? s benchmark).getD (baseEntry, base)
  let polarity := polarity.getD (PolarityMap.empty.resolve current)
  let delta := relativeChange base.value current.value
  return {
    series := s.name
    benchmark
    unit := current.unit
    baselineCommit := baseline
    currentCommit := entry.id
    baselineValue := base.value
    currentValue := current.value
    delta, threshold, polarity
    regressed := isWorse delta threshold polarity }

/-! ### All benchmarks of two commits -/

structure BenchmarkChange where
  benchmark : String
  -- The unit of the candidate's record.
  unit : String
  baseline : Float
  candidate : Float
  delta : Float
  polarity : Polarity

/-- All benchmarks of two commits, sorted by name within each list. -/
structure CommitDiff where
  series : String
  baselineCommit : String
  candidateCommit : String
  threshold : Float
  regressions : List BenchmarkChange
  improvements : List BenchmarkChange
  -- How many benchmarks changed by no more than the threshold.
  unchanged : Nat
  newBenchmarks : List String
  missingBenchmarks : List String
  -- Benchmarks with a baseline of zero.
  incomparable : List String

def CommitDiff.hasRegressions (d : CommitDiff) : Bool :=
  !d.regressions.isEmpty

/-- Records by name; of two with one name the later counts. -/
def recordsByName (records : List BenchmarkRecord) : NameMap BenchmarkRecord :=
  .ofList (records.map fun r => (r.name, r))

/-- What becomes of one benchmark of the candidate. -/
inductive Verdict where
  | unseen
  | incomparable
  | regression (change : BenchmarkChange)
  | improvement (change : BenchmarkChange)
  | unchanged

/-- Judges one record of the candidate against the baseline's record of that name, if any. -/
def judge (threshold : Float) (polarities : PolarityMap) (name : String)
    (before : Option BenchmarkRecord) (record : BenchmarkRecord) : Verdict :=
  match before with
  | none => .unseen
  | some before =>
    if before.value == 0.0 then .incomparable
    else
      let change : BenchmarkChange := {
        benchmark := name
        unit := record.unit
        baseline := before.value
        candidate := record.value
        delta := relativeChange before.value record.value
        polarity := polarities.resolve record }
      if isWorse change.delta threshold change.polarity then .regression change
      else if isWorse (-change.delta) threshold change.polarity then .improvement change
      else .unchanged

def compareEntries (series : String) (baseline candidate : CommitEntry) (threshold : Float)
    (polarities : PolarityMap) : CommitDiff :=
  let before := recordsByName baseline.benches
  let after := recordsByName candidate.benches
  let verdicts := after.pairs.map fun p =>
    (p.1, judge threshold polarities p.1 (before.get? p.1) p.2)
  {
    series
    baselineCommit := baseline.id
    candidateCommit := candidate.id
    threshold
    regressions := verdicts.filterMap fun
      | (_, .regression change) => some change
      | _ => none
    improvements := verdicts.filterMap fun
      | (_, .improvement change) => some change
      | _ => none
    unchanged := verdicts.countP fun
      | (_, .unchanged) => true
      | _ => false
    newBenchmarks := verdicts.filterMap fun
      | (name, .unseen) => some name
      | _ => none
    missingBenchmarks := before.names.filter (!after.contains ·)
    incomparable := verdicts.filterMap fun
      | (name, .incomparable) => some name
      | _ => none }

/-- Compares all benchmarks of two commits of a series. -/
def diffCommits (s : SeriesSnapshot) (baseline candidate : String) (threshold : Float)
    (polarities : PolarityMap) : Except Failure CommitDiff := do
  let before ← findCommit s baseline
  let after ← findCommit s candidate
  return compareEntries s.name before after threshold polarities

/-! ### Documents -/

def RegressionResult.toJson (r : RegressionResult) : Json :=
  .object [
    ("series", .string r.series),
    ("benchmark", .string r.benchmark),
    ("unit", .string r.unit),
    ("baseline_commit", .string r.baselineCommit),
    ("current_commit", .string r.currentCommit),
    ("baseline_value", .real r.baselineValue),
    ("current_value", .real r.currentValue),
    ("delta", .real r.delta),
    ("threshold", .real r.threshold),
    ("polarity", .string r.polarity.name),
    ("regressed", .bool r.regressed)]

def BenchmarkChange.toJson (c : BenchmarkChange) : Json :=
  .object [
    ("benchmark", .string c.benchmark),
    ("unit", .string c.unit),
    ("baseline", .real c.baseline),
    ("candidate", .real c.candidate),
    ("delta", .real c.delta),
    ("polarity", .string c.polarity.name)]

def CommitDiff.toJson (d : CommitDiff) : Json :=
  let names (ns : List String) : Json := .array (ns.map .string)
  .object [
    ("series", .string d.series),
    ("baseline_commit", .string d.baselineCommit),
    ("candidate_commit", .string d.candidateCommit),
    ("threshold", .real d.threshold),
    ("regressions", .array (d.regressions.map BenchmarkChange.toJson)),
    ("improvements", .array (d.improvements.map BenchmarkChange.toJson)),
    ("unchanged", .natural d.unchanged),
    ("new_benchmarks", names d.newBenchmarks),
    ("missing_benchmarks", names d.missingBenchmarks),
    ("incomparable", names d.incomparable)]

end BenchLedger
