import BenchLedger.CommandLine.Run

/-!
A store over a history file, from opening it on. A flush begins by collecting its document and ends
when the save does, and other operations may come between the two. A save that fails or takes too
long may leave anything in the file, also later, but nothing after the next save has begun.
-/

namespace BenchLedger

structure FileStore where
  path : String
  format : StorageFormat
  disk : Disk
  store : HistoryStore
  -- The flush that waits for its save, if one does.
  pending : Option HistoryStore.PendingFlush

/-- How the save of a flush ends. -/
inductive SaveEnding where
  -- The write runs to its end, and the disk decides.
  | ran
  -- The write fails otherwise, or is given up. What it leaves on the disk is open.
  | failed (error : PersistenceError) (left : Disk)

namespace FileStore

/-- Opens the history that a file holds. -/
def ofFile (config : StoreConfig) (path : String) (format : StorageFormat) (disk : Disk) :
    Except PersistenceError FileStore :=
  (CommandLine.loaded path (disk.read path)).map fun document =>
    ⟨path, format, disk, .ofDocument config document, none⟩

/-- The bytes of a document in the file. -/
def bytes (f : FileStore) (d : HistoryDocument) : List Nat :=
  Text.utf8Bytes (d.encode f.format).toList

/-- Begins a flush, unless one is under way or there is nothing to do. -/
def beginFlush (f : FileStore) (now : Int) : FileStore :=
  match f.pending with
  | some _ => f
  | none => { f with pending := f.store.beginFlush now }

/-- Ends the save of the flush that is under way. -/
def endFlush (f : FileStore) (now : Int) (ending : SaveEnding) : FileStore :=
  match f.pending with
  | none => f
  | some p =>
    let (disk, result) := match ending with
      | .ran =>
        let (disk, result) := f.disk.save f.path (f.bytes p.document)
        (disk, result.mapError fun e => .io e.path e.fault.message)
      | .failed error left => (left, .error error)
    { f with disk, store := (f.store.endFlush p now result).1, pending := none }

end FileStore

/-- What is done to a store while it is open. -/
inductive StoreOperation where
  | append (series : String) (entry : CommitEntry)
  | ingest (config : IngestConfig) (series : String) (entry : CommitEntry)
  | takeIn (config : IngestConfig) (document : HistoryDocument)
  | flushBegins (now : Int)
  | flushEnds (now : Int) (ending : SaveEnding)

namespace HistoryStore

/-- The store after an append, whether it was rejected or not. -/
def appended (s : HistoryStore) (series : String) (e : CommitEntry) : HistoryStore :=
  match s.append series e with
  | .ok (s, _) => s
  | .error _ => s

/-- The store after several appends in turn. -/
def appendAll (s : HistoryStore) (appends : List (String × CommitEntry)) : HistoryStore :=
  appends.foldl (fun s a => s.appended a.1 a.2) s

end HistoryStore

namespace FileStore

def step (f : FileStore) : StoreOperation → FileStore
  | .append series e => { f with store := f.store.appended series e }
  | .ingest config series e =>
    match f.store.accept config series e with
    | .ok (store, _) => { f with store }
    | .error _ => f
  | .takeIn config d => { f with store := (f.store.importDocument config d).1 }
  | .flushBegins now => f.beginFlush now
  | .flushEnds now ending => f.endFlush now ending

/-- The store after several operations in turn. -/
def run (f : FileStore) (operations : List StoreOperation) : FileStore :=
  operations.foldl step f

end FileStore

end BenchLedger
