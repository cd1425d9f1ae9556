import BenchLedger.Decimal.Fixed
import BenchLedger.Query.Comparison
import BenchLedger.Query.Summary

/-!
Reports as Markdown tables, for comments on changes.
-/

namespace BenchLedger.Report

def countText (n : Nat) : String :=
  String.ofList (Text.digitsOf n)

/-- The first seven bytes of a commit id, if they end between two characters. -/
def shortCommit (commit : String) : String :=
  let rec take (left : Nat) (taken : List Char) : List Char → Option (List Char)
    | [] => if left = 0 then some taken.reverse else none
    | c :: cs =>
      if left = 0 then some taken.reverse
      else if c.utf8Size ≤ left then take (left - c.utf8Size) (c :: taken) cs
      else none
  match take 7 [] commit.toList with
  | some cs => String.ofList cs
  | none => commit

def isWhole (x : Float) : Bool :=
  match Decimal.parts x with
  | .finite _ m e =>
    let x := Decimal.Expansion.ofBinary m e
    x.coefficient % Nat.pow 10 x.places == 0
  | _ => false

/-- A value: without decimals if it is whole and not large, else with two. -/
def valueText (x : Float) : String :=
  if isWhole x && x.abs < 1e15 then Decimal.fixed false 0 x else Decimal.fixed false 2 x

def percentText (ratio : Float) : String :=
  Decimal.fixed false 1 (ratio * 100.0) ++ "%"

def signedPercentText (ratio : Float) : String :=
  Decimal.fixed true 1 (ratio * 100.0) ++ "%"

/-- A run time to the minute, or its number if it cannot be represented. -/
def dateText (millis : Int) : String :=
  match Calendar.Timestamp.ofMillis? millis with
  | some t => t.minuteText
  | none => String.ofList (Text.wholeDigits millis)

def unlines (ls : List String) : String :=
  String.join (ls.map (· ++ "\n"))

/-! ### Comparisons of two commits -/

def changeRow (c : BenchmarkChange) : String :=
  let unit := Measure.primaryUnit c.unit
  "| `" ++ c.benchmark ++ "` | " ++ valueText c.baseline ++ " " ++ unit ++ " | " ++
    valueText c.candidate ++ " " ++ unit ++ " | " ++ signedPercentText c.delta ++ " |"

def changesTable (changes : List BenchmarkChange) : List String :=
  if changes.isEmpty then ["None.", ""]
  else
    ["| Benchmark | Baseline | Candidate | Change |",
      "|-----------|----------|-----------|--------|"] ++ changes.map changeRow ++ [""]

/-- A list of names under a title; nothing if there are none. -/
def nameList (title : String) (names : List String) : List String :=
  if names.isEmpty then []
  else ["## " ++ title, ""] ++ names.map (fun n => "- `" ++ n ++ "`") ++ [""]

def diffReport (d : CommitDiff) : String :=
  unlines <|
    ["# Benchmark Comparison: " ++ d.series,
      "",
      "Baseline `" ++ shortCommit d.baselineCommit ++ "` vs candidate `" ++
        shortCommit d.candidateCommit ++ "` (threshold " ++ percentText d.threshold ++ ")",
      "",
      if d.hasRegressions then "## :warning: Regressions" else "## Regressions",
      ""] ++
    changesTable d.regressions ++
    ["## Improvements", ""] ++
    changesTable d.improvements ++
    nameList "New benchmarks" d.newBenchmarks ++
    nameList "Missing benchmarks" d.missingBenchmarks ++
    nameList "Not comparable (zero baseline)" d.incomparable ++
    ["---",
      countText d.regressions.length ++ " regressed, " ++ countText d.improvements.length ++
        " improved, " ++ countText d.unchanged ++ " unchanged"]

/-! ### Summaries of a series -/

def summaryRow (row : BenchmarkSummary) : String :=
  "| `" ++ row.benchmark ++ "` | " ++ valueText row.latest ++ " " ++
    Measure.primaryUnit row.unit ++ " | " ++ (row.previous.map valueText).getD "-" ++ " | " ++
    (row.change.map signedPercentText).getD "-" ++ " | " ++ valueText row.min ++ " | " ++
    valueText row.max ++ " | " ++ countText row.samples ++ " |"

/-- How many runs there are and when the first and the last one were. -/
def runsLine (s : SeriesSummary) : String :=
  "Runs: " ++ countText s.entries ++ match s.firstDate, s.lastDate with
    | some first, some last => " (" ++ dateText first ++ " to " ++ dateText last ++ ")"
    | _, _ => ""

def seriesSummary (s : SeriesSummary) : String :=
  unlines <|
    ["# Benchmark Summary: " ++ s.series, "", runsLine s] ++
    (s.latestCommit.toList.map fun c => "Latest commit: `" ++ shortCommit c ++ "`") ++
    ["",
      "| Benchmark | Latest | Previous | Change | Min | Max | Samples |",
      "|-----------|--------|----------|--------|-----|-----|---------|"] ++
    s.benchmarks.map summaryRow ++
    ["", "---", "Total benchmarks: " ++ countText s.benchmarks.length]

end BenchLedger.Report
