import BenchLedger.History.Store
import BenchLedger.Ingest.Normalization
import BenchLedger.Ingest.Validation

/-!
Taking runs into a store: validated, normalized, appended. An entry is accepted whole or not at
all. A document is taken in entry by entry, and a report lists what was refused.
-/

namespace BenchLedger

structure RejectedEntry where
  series : String
  commit : String
  -- Why it was refused.
  error : String
  deriving DecidableEq, Repr

structure ImportReport where
  -- How many entries each series accepted.
  imported : NameMap Nat
  rejected : List RejectedEntry

namespace ImportReport

def empty : ImportReport :=
  ⟨.empty, []⟩

/-- How many entries were accepted in all. -/
def total (r : ImportReport) : Nat :=
  r.imported.total id

def addImported (r : ImportReport) (series : String) : ImportReport :=
  { r with imported := r.imported.insert series ((r.imported.get? series).getD 0 + 1) }

def addRejected (r : ImportReport) (entry : RejectedEntry) : ImportReport :=
  { r with rejected := r.rejected ++ [entry] }

def toJson (r : ImportReport) : Json :=
  .object [
    ("imported", .object (r.imported.pairs.map fun p => (p.1, .natural p.2))),
    ("rejected", .array (r.rejected.map fun e =>
      .object [
        ("series", .string e.series),
        ("commit", .string e.commit),
        ("error", .string e.error)]))]

end ImportReport

def prepareEntry (config : IngestConfig) (series : String) (e : CommitEntry) :
    Except Rejection CommitEntry := do
  validateEntry series e
  return normalizeEntry config e

namespace HistoryStore

/-- Takes one entry in and gives its position. -/
def accept (config : IngestConfig) (s : HistoryStore) (series : String) (e : CommitEntry) :
    Except Failure (HistoryStore × Position) :=
  match prepareEntry config series e with
  | .error r => .error (.rejected r)
  | .ok e => s.append series e

/-- Takes one entry of a document in and reports it. -/
def importEntry (config : IngestConfig) (series : String) (state : HistoryStore × ImportReport)
    (e : CommitEntry) : HistoryStore × ImportReport :=
  match accept config state.1 series e with
  | .ok (s, _) => (s, state.2.addImported series)
  | .error failure => (state.1, state.2.addRejected ⟨series, e.id, failure.message⟩)

/-- Takes a document in, series in increasing order of their names. -/
def importDocument (config : IngestConfig) (s : HistoryStore) (d : HistoryDocument) :
    HistoryStore × ImportReport :=
  d.entries.pairs.foldl
    (fun state p => p.2.foldl (importEntry config p.1) state)
    (s, .empty)

end HistoryStore

end BenchLedger
