import BenchLedger.CommandLine.Command
import BenchLedger.Files.Host
import BenchLedger.Ingest.Ingestor

/-!
Running a command: the history is read, the command works on it in memory, and it is written back
at the end if something was appended. A failure to write counts more than what the command itself
came to.
-/

namespace BenchLedger.CommandLine

/-! ### Failures -/

inductive CommandError where
  | fileUnreadable (path : String) (fault : FileFault)
  | inputUnreadable (fault : FileFault)
  -- A document to be taken in is none.
  | noDocument (path : String) (error : PersistenceError)
  | noEntry (fault : Json.Fault)
  | historyUnopened (path : String) (error : PersistenceError)
  | historyUnwritten (path : String) (failure : Failure)
  | copyUnwritten (path : String) (error : PersistenceError)
  | failed (failure : Failure)

/-- The message and those of its causes, outermost first. -/
def CommandError.chain : CommandError → List String
  | .fileUnreadable path fault => ["failed to read " ++ path, fault.message]
  | .inputUnreadable fault => ["failed to read standard input", fault.message]
  | .noDocument path error => ("failed to parse " ++ path) :: error.chain
  | .noEntry fault => ["input is not a commit entry", fault.label]
  | .historyUnopened path error => ("failed to open history " ++ path) :: error.chain
  | .historyUnwritten path failure => ("failed to write history " ++ path) :: failure.chain
  | .copyUnwritten path error => ("failed to export to " ++ path) :: error.chain
  | .failed failure => failure.chain

/-! ### Steps -/

variable {m : Type → Type} [Monad m]

/-- Reads a stored history. A missing or blank file holds none. -/
def loaded (path : String) (bytes : Except FileFault (List Nat)) :
    Except PersistenceError (Option HistoryDocument) :=
  match textOf bytes with
  | .error .missing => .ok none
  | .error fault => .error (.io path fault.message)
  | .ok text =>
    if Text.isBlankText text then .ok none else (HistoryDocument.decode text).map some

/-- Reads the document that a command takes in, if it takes one in. -/
def readSource (host : Host m) (command : Command) :
    m (Except CommandError (Option HistoryDocument)) := do
  match command with
  | .takeIn source _ =>
    match textOf (← host.readFile source) with
    | .error fault => return .error (.fileUnreadable source fault)
    | .ok text =>
      return ((HistoryDocument.decode text).mapError (.noDocument source)).map some
  | _ => return .ok none

/-- Opens the history. The repository of a document that is taken in replaces its own. -/
def openHistory (host : Host m) (path : String) (source : Option HistoryDocument) :
    m (Except CommandError HistoryStore) := do
  let config : StoreConfig := { policy := .manual, repoUrl := source.bind (·.repoUrl) }
  match loaded path (← host.readFile path) with
  | .error error => return .error (.historyUnopened path error)
  | .ok document => return .ok (.ofDocument config document)

def saveDocument (host : Host m) (path : String) (format : StorageFormat) (d : HistoryDocument) :
    m (Except PersistenceError Unit) := do
  match ← host.saveFile path (Text.utf8Bytes (d.encode format).toList) with
  | .ok () => return .ok ()
  | .error e => return .error (.io e.path e.fault.message)

/-- Writes the history back if something was appended. -/
def writeBack (host : Host m) (path : String) (format : StorageFormat) (s : HistoryStore) :
    m (Except CommandError Unit) := do
  let now ← host.now
  match s.beginFlush now with
  | none => return .ok ()
  | some pending =>
    let ending ← saveDocument host path format pending.document
    match (s.endFlush pending now ending).2 with
    | .ok _ => return .ok ()
    | .error failure => return .error (.historyUnwritten path failure)

def readEntry (host : Host m) (file : String) : m (Except CommandError String) := do
  if file = "-" then return (textOf (← host.readInput)).mapError .inputUnreadable
  else return (textOf (← host.readFile file)).mapError (.fileUnreadable file)

/-- Takes in the entry that a text holds. -/
def ingestText (s : HistoryStore) (series text : String) (dropComposite : Bool) :
    Except CommandError (HistoryStore × Answer) := do
  let e ← (CommitEntry.ofText text).mapError .noEntry
  let (s, position) ← (s.accept ⟨!dropComposite⟩ series e).mapError .failed
  return (s, {
    text := printed (.object [("position", .natural position), ("series", .string series)]) })

/-- The history after a command, and what the command came to. -/
def execute (host : Host m) (s : HistoryStore) (source : Option HistoryDocument) :
    Command → m (HistoryStore × Except CommandError Answer)
  | .takeIn _ dropComposite => do
    let (s, report) := s.importDocument ⟨!dropComposite⟩ (source.getD .empty)
    return (s, .ok { text := printed report.toJson })
  | .ingest series file dropComposite => do
    match ← readEntry host file with
    | .error e => return (s, .error e)
    | .ok text => match ingestText s series text dropComposite with
      | .error e => return (s, .error e)
      | .ok (s, answer) => return (s, .ok answer)
  | .ask question => return (s, (question.answer s).mapError .failed)
  | .copyTo output format => do
    let format := format.getD (.ofPath output)
    match ← saveDocument host output format (s.document (← host.now)) with
    | .error e => return (s, .error (.copyUnwritten output e))
    | .ok () => return (s, .ok { text := "" })

/-! ### Runs -/

/-- What was printed, and how the run ended. -/
structure Report where
  text : String
  ending : Except CommandError Outcome

def Report.failed (e : CommandError) : Report :=
  ⟨"", .error e⟩

def Report.ofAnswer : Except CommandError Answer → Report
  | .ok answer => ⟨answer.text, .ok answer.outcome⟩
  | .error e => .failed e

def Invocation.run (host : Host m) (i : Invocation) : m Report := do
  match ← readSource host i.command with
  | .error e => return .failed e
  | .ok source =>
    match ← openHistory host i.history source with
    | .error e => return .failed e
    | .ok store =>
      let (store, answer) ← execute host store source i.command
      let report := Report.ofAnswer answer
      match ← writeBack host i.history (i.format.getD (.ofPath i.history)) store with
      | .error e => return { report with ending := .error e }
      | .ok () => return report

end BenchLedger.CommandLine
