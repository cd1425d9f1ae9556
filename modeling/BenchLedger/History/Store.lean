import BenchLedger.History.Document
import BenchLedger.History.FlushPolicy
import BenchLedger.History.Series

/-!
The history store: series in memory, and what is known about how much of them is in durable
storage. Every append raises the generation. A flush reads the generation, collects a document, and
records the generation that it read once the document is saved; so whatever was appended while it
collected or saved keeps the store dirty.
-/

namespace BenchLedger

structure HistoryStore where
  config : StoreConfig
  repoUrl : Option String
  series : NameMap Series
  -- Counts the appends.
  generation : Nat
  -- The generation of the last successful flush.
  flushed : Nat
  -- When the last successful flush was, in milliseconds since 1970.
  lastFlush : Option Int
  -- The message of the last flush if it failed.
  lastError : Option String

/-- How a flush ended that did not fail. -/
inductive FlushOutcome where
  -- Nothing had changed.
  | clean
  | written (series entries : Nat)
  deriving DecidableEq, Repr

structure StoreStats where
  series : Nat
  entries : Nat
  dirty : Bool
  lastFlush : Option Int
  lastError : Option String
  deriving DecidableEq, Repr

namespace HistoryStore

/-- A store over what was loaded, if anything. -/
def ofDocument (config : StoreConfig) (loaded : Option HistoryDocument) : HistoryStore :=
  let d := loaded.getD .empty
  {
    config
    repoUrl := config.repoUrl.or d.repoUrl
    series := d.entries.map fun _ es => .ofEntries es
    generation := 0
    flushed := 0
    lastFlush := none
    lastError := none }

/-! ### Reading -/

def isDirty (s : HistoryStore) : Bool :=
  s.generation != s.flushed

def seriesNames (s : HistoryStore) : List String :=
  s.series.names

/-- A series as it is at the moment. -/
def getSeries (s : HistoryStore) (name : String) : Except Failure SeriesSnapshot :=
  match s.series.get? name with
  | some series => .ok (series.snapshot name)
  | none => .error (.missing (.series name))

/-- The document that a flush writes at the time `now`. -/
def document (s : HistoryStore) (now : Int) : HistoryDocument where
  lastUpdate := some now
  repoUrl := s.repoUrl
  entries := s.series.map fun _ series => series.view

def stats (s : HistoryStore) : StoreStats where
  series := s.series.size
  entries := s.series.total Series.size
  dirty := s.isDirty
  lastFlush := s.lastFlush
  lastError := s.lastError

/-! ### Appending -/

/-- Position of the first record whose value is not finite. -/
def nonFinite? (records : List BenchmarkRecord) : Option Nat :=
  records.findIdx? fun r => !r.value.isFinite

/-- What even an entry from a trusted source must be: a value that is not finite, say, could be
written but not read again. -/
def checkAppend (series : String) (e : CommitEntry) : Except Rejection Unit := do
  if Text.isBlankText series then .error .blankSeries
  if Text.isBlankText e.id then .error .blankCommit
  if e.date < 0 then .error .negativeRunTime
  match nonFinite? e.benches with
  | some i => .error (.nonFiniteValue i)
  | none => .ok ()

/-- Puts an entry into its series, which may be new, in place of one of the same commit. -/
def put (s : HistoryStore) (series : String) (e : CommitEntry) :
    HistoryStore × Series.Placement :=
  let (updated, placement) := ((s.series.get? series).getD .empty).upsert e
  ({ s with series := s.series.insert series updated, generation := s.generation + 1 }, placement)

/-- Appends an entry and gives its position. -/
def append (s : HistoryStore) (series : String) (e : CommitEntry) :
    Except Failure (HistoryStore × Position) :=
  match checkAppend series e with
  | .error r => .error (.rejected r)
  | .ok () =>
    let (s, placement) := s.put series e
    .ok (s, placement.position)

/-! ### Flushing -/

/-- A flush that has collected its document and waits for the save. -/
structure PendingFlush where
  -- The generation that was read before collecting.
  generation : Nat
  document : HistoryDocument

/-- Whether a flush has nothing to do. -/
def isSettled (s : HistoryStore) : Bool :=
  !s.isDirty && s.lastError.isNone

/-- Begins a flush, unless there is nothing to do. -/
def beginFlush (s : HistoryStore) (now : Int) : Option PendingFlush :=
  if s.isSettled then none else some ⟨s.generation, s.document now⟩

/-- Records how the save of a flush ended. -/
def endFlush (s : HistoryStore) (p : PendingFlush) (now : Int) :
    Except PersistenceError Unit → HistoryStore × Except Failure FlushOutcome
  | .ok () =>
    ({ s with flushed := p.generation, lastFlush := some now, lastError := none },
      .ok (.written p.document.entries.size p.document.entryCount))
  | .error error =>
    ({ s with lastError := some error.message }, .error (.persistence error))

end HistoryStore

/-! ### Documents -/

def FlushOutcome.toJson : FlushOutcome → Json
  | .clean => .object [("status", .string "clean")]
  | .written series entries =>
    .object [
      ("status", .string "written"),
      ("series", .natural series),
      ("entries", .natural entries)]

def StoreStats.toJson (s : StoreStats) : Json :=
  .object [
    ("series", .natural s.series),
    ("entries", .natural s.entries),
    ("dirty", .bool s.dirty),
    ("last_flush",
      .orNull ((s.lastFlush.bind Calendar.Timestamp.ofMillis?).map fun t => .string t.text)),
    ("last_flush_error", .orNull (s.lastError.map .string))]

end BenchLedger
