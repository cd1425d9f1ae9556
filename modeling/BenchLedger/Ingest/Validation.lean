import BenchLedger.Run.Commit

/-!
What an entry must be to enter a history through the ingestor. The checks stop at the first fault,
in the order series, commit, run time, then record by record.
-/

namespace BenchLedger

def validateSeriesName (series : String) : Except Rejection Unit :=
  if Text.isBlankText series then .error .blankSeries else .ok ()

/-- Checks one record; `seen` are the names of the records before it. -/
def validateRecord (index : Nat) (seen : List String) (r : BenchmarkRecord) :
    Except Rejection Unit :=
  if Text.isBlankText r.name then .error (.blankName index)
  else if seen.contains r.name then .error (.duplicateName index r.name)
  else if !r.value.isFinite then .error (.badValue index r.name r.value)
  else match Measure.split r.value r.unit with
    | .error fault => .error (.badUnit index fault)
    | .ok _ => .ok ()

/-- Checks records in turn, counting from `index`. -/
def validateRecords (index : Nat) (seen : List String) :
    List BenchmarkRecord → Except Rejection Unit
  | [] => .ok ()
  | r :: rest => do
    validateRecord index seen r
    validateRecords (index + 1) (r.name :: seen) rest

/-- Checks an entry that is to enter a series. -/
def validateEntry (series : String) (e : CommitEntry) : Except Rejection Unit := do
  validateSeriesName series
  if !isCommitHash e.id then .error (.notCommitHash e.id)
  if e.date < 0 || e.runTime?.isNone then .error (.badRunTime e.date)
  validateRecords 0 [] e.benches

end BenchLedger
