import BenchLedger.History.Format
import BenchLedger.Query.Engine
import BenchLedger.Report.Markdown

/-!
The commands: what can be done to a history file, and the questions that can be asked of it.
-/

namespace BenchLedger.CommandLine

/-- A question to a history. None of them changes it. -/
inductive Question where
  -- Which series there are.
  | names
  | summary (series : String) (markdown : Bool)
  -- The newest entries; a negative count is none.
  | latest (series : String) (count : Int)
  | range (series : String) (first last : Int)
  -- With `strict` a regression is an outcome of its own.
  | regression (series benchmark baseline : String) (threshold : Float)
      (polarity : Option Polarity) (strict : Bool)
  | diff (series baseline candidate : String) (threshold : Float) (polarities : PolarityMap)
      (markdown strict : Bool)

inductive Command where
  -- Takes all entries of another document in.
  | takeIn (source : String) (dropComposite : Bool)
  -- Takes one entry in; the file `-` is the standard input.
  | ingest (series file : String) (dropComposite : Bool)
  | ask (question : Question)
  -- Writes the history to another file.
  | copyTo (output : String) (format : Option StorageFormat)

/-- A command and the history that it works on. -/
structure Invocation where
  history : String
  -- The encoding of the history; `none` goes by the path.
  format : Option StorageFormat
  verbose : Bool
  command : Command

/-- How a command ended that did not fail. -/
inductive Outcome where
  | success
  -- A regression was found where it was asked to be told.
  | regression
  deriving DecidableEq, Repr

/-! ### Answers -/

structure Answer where
  text : String
  outcome : Outcome := .success

def printed (v : Json) : String :=
  v.pretty ++ "\n"

/-- The outcome when a regression may have been found. -/
def verdict (strict regressed : Bool) : Outcome :=
  if strict && regressed then .regression else .success

namespace Question

def answer (s : HistoryStore) : Question → Except Failure Answer
  | .names => return ⟨printed (.array (s.seriesNames.map .string)), .success⟩
  | .summary series markdown => do
    let summary ← s.summary series
    return ⟨if markdown then Report.seriesSummary summary else printed summary.toJson, .success⟩
  | .latest series count => do
    return ⟨printed (.array ((← s.latest series count.toNat).map CommitEntry.toJson)), .success⟩
  | .range series first last => do
    return ⟨printed (.array ((← s.range series first last).map CommitEntry.toJson)), .success⟩
  | .regression series benchmark baseline threshold polarity strict => do
    let result ← s.regression series benchmark baseline threshold polarity
    return ⟨printed result.toJson, verdict strict result.regressed⟩
  | .diff series baseline candidate threshold polarities markdown strict => do
    let diff ← s.diff series baseline candidate threshold polarities
    return {
      text := if markdown then Report.diffReport diff else printed diff.toJson
      outcome := verdict strict diff.hasRegressions }

end Question

end BenchLedger.CommandLine
