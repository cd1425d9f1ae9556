import BenchLedger.CommandLine.Run
import BenchLedger.Proofs.AcceptedEntries
import BenchLedger.Proofs.FileEffects

/-!
What a command does on a disk. Main statement: `Invocation.ran`: a run fails before it has written
anything, or answers without writing, or writes one file.
-/

namespace BenchLedger.CommandLine

variable {input : List Nat} {now : Int} {d d' : Disk}

/-! ### Steps on a disk -/

theorem run_bind {α β : Type} (x : StateM Disk α) (f : α → StateM Disk β) (d : Disk) :
    (x >>= f).run d = (f (x.run d).1).run (x.run d).2 :=
  rfl

theorem readFile_onDisk (path : String) :
    ((Disk.host input now).readFile path).run d = (d.read path, d) :=
  rfl

theorem saveFile_onDisk (path : String) (bytes : List Nat) :
    ((Disk.host input now).saveFile path bytes).run d =
      ((d.save path bytes).2, (d.save path bytes).1) :=
  rfl

theorem now_onDisk : (Disk.host input now).now.run d = (now, d) :=
  rfl

/-- The report of a run on a disk, and the disk afterwards. -/
def Invocation.onDisk (i : Invocation) (d : Disk) (input : List Nat) (now : Int) : Report × Disk :=
  (i.run (Disk.host input now)).run d

/-- The document that a command takes in, if it takes one in. -/
def Command.source (d : Disk) : Command → Except CommandError (Option HistoryDocument)
  | .takeIn source _ =>
    match textOf (d.read source) with
    | .error fault => .error (.fileUnreadable source fault)
    | .ok text => ((HistoryDocument.decode text).mapError (.noDocument source)).map some
  | _ => .ok none

theorem readSource_onDisk (command : Command) :
    (readSource (Disk.host input now) command).run d = (command.source d, d) := by
  cases command with
  | takeIn source drop =>
    unfold readSource Command.source
    dsimp only
    rw [run_bind, readFile_onDisk]
    cases textOf (d.read source) <;> rfl
  | ingest | ask | copyTo => rfl

/-- The text of the entry that is to be ingested. -/
def entryText (d : Disk) (input : List Nat) (file : String) : Except CommandError String :=
  if file = "-" then (textOf (.ok input)).mapError .inputUnreadable
  else (textOf (d.read file)).mapError (.fileUnreadable file)

theorem readEntry_onDisk (file : String) :
    (readEntry (Disk.host input now) file).run d = (entryText d input file, d) := by
  unfold readEntry entryText
  split <;> rfl

theorem openHistory_onDisk (path : String) (source : Option HistoryDocument) :
    (openHistory (Disk.host input now) path source).run d =
      ((loaded path (d.read path)).mapError (.historyUnopened path) |>.map fun document =>
        .ofDocument { policy := .manual, repoUrl := source.bind (·.repoUrl) } document, d) := by
  unfold openHistory
  dsimp only
  rw [run_bind, readFile_onDisk]
  cases loaded path (d.read path) <;> rfl

/-- A save on a disk, and what is said if it fails. -/
def saveOn (d : Disk) (path : String) (format : StorageFormat) (document : HistoryDocument) :
    Except PersistenceError Unit × Disk :=
  let (d, result) := d.save path (Text.utf8Bytes (document.encode format).toList)
  (result.mapError fun e => .io e.path e.fault.message, d)

theorem saveDocument_onDisk (path : String) (format : StorageFormat)
    (document : HistoryDocument) :
    (saveDocument (Disk.host input now) path format document).run d =
      saveOn d path format document := by
  unfold saveDocument saveOn
  rw [run_bind, saveFile_onDisk]
  cases d.save path (Text.utf8Bytes (document.encode format).toList) with
  | mk d' result => cases result <;> rfl

theorem writeBack_onDisk (path : String) (format : StorageFormat) (s : HistoryStore) :
    (writeBack (Disk.host input now) path format s).run d =
      if s.isSettled then (.ok (), d)
      else
        ((saveOn d path format (s.document now)).1.mapError fun e =>
            .historyUnwritten path (.persistence e),
          (saveOn d path format (s.document now)).2) := by
  unfold writeBack HistoryStore.beginFlush
  rw [run_bind, now_onDisk]
  cases s.isSettled with
  | true => rfl
  | false =>
    rw [if_neg (by simp), if_neg (by simp)]
    dsimp only
    rw [run_bind, saveDocument_onDisk]
    cases saveOn d path format (s.document now) with
    | mk result d' => cases result <;> rfl

/-- The history that a command works on. -/
def workingStore (source loaded : Option HistoryDocument) : HistoryStore :=
  .ofDocument { policy := .manual, repoUrl := source.bind (·.repoUrl) } loaded

/-- The report of a command that has ended, when it is known whether the history was written. -/
def Report.closed (report : Report) : Except CommandError Unit × Disk → Report × Disk
  | (.ok (), d) => (report, d)
  | (.error e, d) => ({ report with ending := .error e }, d)

/-- The encoding in which a history is written back. -/
def Invocation.encoding (i : Invocation) : StorageFormat :=
  i.format.getD (.ofPath i.history)

/-- A run opens the history, executes the command on it, and writes it back. -/
theorem Invocation.onDisk_eq (i : Invocation) :
    i.onDisk d input now =
      match i.command.source d with
      | .error e => (.failed e, d)
      | .ok source =>
        match loaded i.history (d.read i.history) with
        | .error e => (.failed (.historyUnopened i.history e), d)
        | .ok document =>
          let ((s, answer), d) :=
            (execute (Disk.host input now) (workingStore source document) source i.command).run d
          (Report.ofAnswer answer).closed
            ((writeBack (Disk.host input now) i.history i.encoding s).run d) := by
  unfold onDisk run
  rw [run_bind, readSource_onDisk]
  cases i.command.source d with
  | error e => rfl
  | ok source =>
    dsimp only
    rw [run_bind, openHistory_onDisk]
    cases loaded i.history (d.read i.history) with
    | error e => rfl
    | ok document =>
      dsimp only [Except.mapError, Except.map, workingStore, encoding]
      rw [run_bind]
      generalize (execute (Disk.host input now) _ source i.command).run d = executed
      obtain ⟨⟨s, answer⟩, d'⟩ := executed
      dsimp only
      rw [run_bind]
      generalize (writeBack (Disk.host input now) i.history _ s).run d' = written
      obtain ⟨result, d''⟩ := written
      cases result <;> rfl

/-! ### Commands on a history in memory -/

/-- The entry that is to be ingested. -/
def ingestedEntry (d : Disk) (input : List Nat) (file : String) :
    Except CommandError CommitEntry := do
  let text ← entryText d input file
  (CommitEntry.ofText text).mapError .noEntry

/-- The entries that a command offers to the ingestor. -/
def Command.offered (d : Disk) (input : List Nat) (command : Command) :
    List (String × CommitEntry) :=
  match command with
  | .takeIn _ _ => ((command.source d).toOption.join.getD .empty).inOrder
  | .ingest series file _ => (ingestedEntry d input file).toOption.toList.map fun e => (series, e)
  | _ => []

/-- How a command has its entries normalized. -/
def Command.ingestConfig : Command → IngestConfig
  | .takeIn _ dropComposite => ⟨!dropComposite⟩
  | .ingest _ _ dropComposite => ⟨!dropComposite⟩
  | _ => {}

/-- The entries that a command puts into the history, normalized, in their order. -/
def Invocation.takes (i : Invocation) (d : Disk) (input : List Nat) :
    List (String × CommitEntry) :=
  accepted i.command.ingestConfig (i.command.offered d input)

/-- Whether a file could not be written. -/
def CommandError.isUnwritten : CommandError → Bool
  | .historyUnwritten _ _ => true
  | .copyUnwritten _ _ => true
  | _ => false

theorem isUnwritten_ingestedEntry {file : String} {e : CommandError}
    (h : ingestedEntry d input file = .error e) : e.isUnwritten = false := by
  unfold ingestedEntry at h
  cases text : entryText d input file with
  | error e' =>
    rw [text] at h
    cases h
    unfold entryText at text
    split at text
    · obtain ⟨_, _, rfl⟩ := mapError_eq_error.1 text
      rfl
    · obtain ⟨_, _, rfl⟩ := mapError_eq_error.1 text
      rfl
  | ok text' =>
    rw [text] at h
    obtain ⟨_, _, rfl⟩ := mapError_eq_error.1 h
    rfl

/-- What has come of a command that works in memory: the history has what it takes, and if it has
failed, that is nothing. -/
structure Executed (i : Invocation) (d : Disk) (input : List Nat) (s : HistoryStore)
    (after : HistoryStore × Except CommandError Answer) : Prop where
  store : after.1 = s.putAll (i.takes d input)
  failed : ∀ e, after.2 = .error e → e.isUnwritten = false ∧ i.takes d input = []

/-- Takes in the entry that was read, if one was. -/
def ingestRead (s : HistoryStore) (series : String) (dropComposite : Bool) :
    Except CommandError CommitEntry → HistoryStore × Except CommandError Answer
  | .error e => (s, .error e)
  | .ok e =>
    match s.accept ⟨!dropComposite⟩ series e with
    | .error failure => (s, .error (.failed failure))
    | .ok (s, position) => (s, .ok {
        text := printed (.object [("position", .natural position), ("series", .string series)]) })

theorem execute_ingest (s : HistoryStore) (source : Option HistoryDocument) (series file : String)
    (dropComposite : Bool) :
    (execute (Disk.host input now) s source (.ingest series file dropComposite)).run d =
      (ingestRead s series dropComposite (ingestedEntry d input file), d) := by
  unfold execute ingestedEntry
  dsimp only
  rw [run_bind, readEntry_onDisk]
  cases entryText d input file with
  | error e => rfl
  | ok text =>
    dsimp only [bind, Except.bind, ingestText]
    cases CommitEntry.ofText text with
    | error fault => rfl
    | ok e =>
      dsimp only [Except.mapError, ingestRead]
      cases s.accept ⟨!dropComposite⟩ series e <;> rfl

theorem execute_takeIn (s : HistoryStore) (source : Option HistoryDocument) (path : String)
    (dropComposite : Bool) :
    (execute (Disk.host input now) s source (.takeIn path dropComposite)).run d =
      (((s.importDocument ⟨!dropComposite⟩ (source.getD .empty)).1,
        .ok { text := printed (s.importDocument ⟨!dropComposite⟩ (source.getD .empty)).2.toJson }),
        d) :=
  rfl

/-- Commands other than the copy work in memory. -/
theorem execute_onDisk (i : Invocation) (s : HistoryStore) (now : Int)
    {source : Option HistoryDocument} (found : i.command.source d = .ok source)
    (memory : ∀ output format, i.command ≠ .copyTo output format) :
    ∃ after, (execute (Disk.host input now) s source i.command).run d = (after, d) ∧
      Executed i d input s after := by
  cases command : i.command with
  | takeIn path dropComposite =>
    refine ⟨_, execute_takeIn s source path dropComposite, ?_, fun e failed => by cases failed⟩
    rw [command] at found
    simp only [Invocation.takes, Command.offered, command, found, Command.ingestConfig,
      HistoryStore.importDocument_eq_putAll]
    rfl
  | ingest series file dropComposite =>
    refine ⟨_, execute_ingest s source series file dropComposite, ?_⟩
    have takes : i.takes d input = accepted ⟨!dropComposite⟩
        ((ingestedEntry d input file).toOption.toList.map fun e => (series, e)) := by
      simp only [Invocation.takes, Command.ingestConfig, Command.offered, command]
    cases read : ingestedEntry d input file with
    | error e =>
      have none : i.takes d input = [] := by
        rw [takes, read]
        rfl
      refine ⟨by rw [none]; rfl, fun e' failed => ?_⟩
      cases failed
      exact ⟨isUnwritten_ingestedEntry read, none⟩
    | ok e =>
      have one : i.takes d input = accepted ⟨!dropComposite⟩ [(series, e)] := by
        rw [takes, read]
        rfl
      rcases HistoryStore.accept_cases ⟨!dropComposite⟩ s series e with
        ⟨p, taken⟩ | ⟨none, r, _, refused⟩
      · refine ⟨by simp only [ingestRead, taken, one], fun e' failed => ?_⟩
        simp [ingestRead, taken] at failed
      · refine ⟨by simp only [ingestRead, refused, one, none, HistoryStore.putAll_nil], ?_⟩
        intro e' failed
        simp only [ingestRead, refused, Except.error.injEq] at failed
        rw [← failed]
        exact ⟨rfl, one.trans none⟩
  | ask question =>
    have none : i.takes d input = [] := by
      simp only [Invocation.takes, Command.offered, command]
      rfl
    refine ⟨_, rfl, by rw [none]; rfl, fun e failed => ?_⟩
    obtain ⟨_, _, rfl⟩ := mapError_eq_error.1 failed
    exact ⟨rfl, none⟩
  | copyTo output format => exact absurd command (memory output format)

/-! ### Runs -/

/-- The ways a run can go, with its report and the disk afterwards. -/
inductive Ran (i : Invocation) (d : Disk) (input : List Nat) (now : Int) : Report × Disk → Prop
  -- It fails before it has written anything.
  | refused {e : CommandError} (early : e.isUnwritten = false) : Ran i d input now (.failed e, d)
  -- It takes nothing in, and has an answer.
  | answered {answer : Answer} (none : i.takes d input = []) :
    Ran i d input now (⟨answer.text, .ok answer.outcome⟩, d)
  -- It writes another file.
  | copied {output : String} {format : Option StorageFormat} {document : Option HistoryDocument}
    {d' : Disk} (command : i.command = .copyTo output format)
    (opened : loaded i.history (d.read i.history) = .ok document)
    (saved : saveOn d output (format.getD (.ofPath output))
      ((workingStore none document).document now) = (.ok (), d')) :
    Ran i d input now (⟨"", .ok .success⟩, d')
  | notCopied {output : String} {format : Option StorageFormat}
    {document : Option HistoryDocument} {e : PersistenceError} {d' : Disk}
    (command : i.command = .copyTo output format)
    (failed : saveOn d output (format.getD (.ofPath output))
      ((workingStore none document).document now) = (.error e, d')) :
    Ran i d input now (.failed (.copyUnwritten output e), d')
  -- It takes something in, and writes the history.
  | written {source document : Option HistoryDocument} {answer : Answer} {d' : Disk}
    (some : i.takes d input ≠ []) (found : i.command.source d = .ok source)
    (opened : loaded i.history (d.read i.history) = .ok document)
    (saved : saveOn d i.history i.encoding
      (((workingStore source document).putAll (i.takes d input)).document now) = (.ok (), d')) :
    Ran i d input now (⟨answer.text, .ok answer.outcome⟩, d')
  | notWritten {document : HistoryDocument} {text : String} {e : PersistenceError} {d' : Disk}
    (some : i.takes d input ≠ [])
    (failed : saveOn d i.history i.encoding document = (.error e, d')) :
    Ran i d input now (⟨text, .error (.historyUnwritten i.history (.persistence e))⟩, d')

theorem isUnwritten_source {command : Command} {e : CommandError}
    (h : command.source d = .error e) : e.isUnwritten = false := by
  cases command with
  | takeIn path dropComposite =>
    unfold Command.source at h
    dsimp only at h
    split at h
    · cases h
      rfl
    next text _ =>
      cases decoded : HistoryDocument.decode text <;> rw [decoded] at h <;> cases h
      rfl
  | ingest | ask | copyTo => cases h

theorem execute_copyTo (s : HistoryStore) (source : Option HistoryDocument) (output : String)
    (format : Option StorageFormat) :
    (execute (Disk.host input now) s source (.copyTo output format)).run d =
      ((s, ((saveOn d output (format.getD (.ofPath output)) (s.document now)).1.mapError
          (.copyUnwritten output)).map fun _ => { text := "" }),
        (saveOn d output (format.getD (.ofPath output)) (s.document now)).2) := by
  unfold execute
  dsimp only
  rw [run_bind, now_onDisk]
  dsimp only
  rw [run_bind, saveDocument_onDisk]
  cases saveOn d output (format.getD (.ofPath output)) (s.document now) with
  | mk result d' => cases result <;> rfl

theorem isSettled_putAll (source document : Option HistoryDocument)
    (entries : List (String × CommitEntry)) :
    ((workingStore source document).putAll entries).isSettled = entries.isEmpty := by
  have generation : ((workingStore source document).putAll entries).generation =
      0 + entries.length := HistoryStore.generation_putAll _ entries
  have grown := HistoryStore.grown_putAll (workingStore source document) entries
  have flushed : ((workingStore source document).putAll entries).flushed = 0 := grown.flushed
  have fine : ((workingStore source document).putAll entries).lastError = none := grown.lastError
  rw [HistoryStore.isSettled, HistoryStore.isDirty, generation, flushed, fine]
  cases entries <;> simp

/-- A history that was only looked at is not written back. -/
theorem closed_workingStore (report : Report) (path : String) (format : StorageFormat)
    (source document : Option HistoryDocument) :
    report.closed ((writeBack (Disk.host input now) path format
      (workingStore source document)).run d) = (report, d) := by
  have settled : (workingStore source document).isSettled = true := rfl
  rw [writeBack_onDisk, settled, if_pos rfl]
  rfl

/-- Every run goes one of these ways. -/
theorem Invocation.ran (i : Invocation) (d : Disk) (input : List Nat) (now : Int) :
    Ran i d input now (i.onDisk d input now) := by
  rw [onDisk_eq]
  cases found : i.command.source d with
  | error e => exact .refused (isUnwritten_source found)
  | ok source =>
    cases opened : loaded i.history (d.read i.history) with
    | error e => exact .refused rfl
    | ok document =>
      by_cases memory : ∀ output format, i.command ≠ .copyTo output format
      · obtain ⟨⟨s, answer⟩, executed, done⟩ :=
          execute_onDisk i (workingStore source document) now found memory
        obtain rfl : s = _ := done.store
        dsimp only
        rw [executed]
        dsimp only
        rw [writeBack_onDisk, isSettled_putAll]
        cases takes : i.takes d input with
        | nil =>
          rw [takes] at done
          cases answer with
          | error e => exact .refused (done.failed e rfl).1
          | ok a => exact .answered takes
        | cons p rest =>
          have some : i.takes d input ≠ [] := by simp [takes]
          rw [← takes, if_neg (by simp [takes])]
          cases answer with
          | error e => exact absurd (done.failed e rfl).2 some
          | ok a =>
            cases saved : saveOn d i.history i.encoding
              (((workingStore source document).putAll (i.takes d input)).document now) with
            | mk result d' =>
              cases result with
              | ok u => exact .written some found opened saved
              | error e => exact .notWritten some saved
      · simp only [not_forall, not_not] at memory
        obtain ⟨output, format, command⟩ := memory
        rw [command] at found
        cases found
        dsimp only
        rw [command, execute_copyTo]
        dsimp only
        rw [closed_workingStore]
        cases saved : saveOn d output (format.getD (.ofPath output))
          ((workingStore none document).document now) with
        | mk result d' =>
          cases result with
          | ok u => exact .copied command opened saved
          | error e => exact .notCopied command saved

/-- A command that works in memory and has an answer gives it, if the history can be written. -/
theorem Invocation.onDisk_of_executed {i : Invocation} {source document : Option HistoryDocument}
    {s : HistoryStore} {answer : Answer} (found : i.command.source d = .ok source)
    (opened : loaded i.history (d.read i.history) = .ok document)
    (executed : (execute (Disk.host input now) (workingStore source document) source
      i.command).run d = ((s, .ok answer), d)) (writable : d.Writable i.history) :
    (i.onDisk d input now).1 = ⟨answer.text, .ok answer.outcome⟩ := by
  rw [onDisk_eq, found]
  dsimp only
  rw [opened]
  dsimp only
  rw [executed]
  dsimp only
  rw [writeBack_onDisk]
  split
  · rfl
  · obtain ⟨d', saved⟩ := writable (Text.utf8Bytes ((s.document now).encode i.encoding).toList)
    simp only [saveOn, saved]
    rfl

/-- A history that can be opened is copied, if the copy can be written. -/
theorem Invocation.onDisk_copyTo {i : Invocation} {document : Option HistoryDocument}
    {output : String} {format : Option StorageFormat}
    (opened : loaded i.history (d.read i.history) = .ok document)
    (command : i.command = .copyTo output format)
    (saved : saveOn d output (format.getD (.ofPath output))
      ((workingStore none document).document now) = (.ok (), d')) :
    i.onDisk d input now = (⟨"", .ok .success⟩, d') := by
  have found : i.command.source d = .ok none := by
    rw [command]
    rfl
  rw [onDisk_eq, found]
  dsimp only
  rw [opened]
  dsimp only
  rw [command, execute_copyTo, saved]
  exact closed_workingStore ..

section

variable {i : Invocation} {document : Option HistoryDocument}
  (opened : loaded i.history (d.read i.history) = .ok document) (writable : d.Writable i.history)

include opened writable

/-- A valid entry is ingested, if the history can be written. -/
theorem Invocation.onDisk_ingest {series file : String} {dropComposite : Bool} {e : CommitEntry}
    (command : i.command = .ingest series file dropComposite)
    (read : ingestedEntry d input file = .ok e) (valid : e.ValidFor series) :
    (i.onDisk d input now).1.ending = .ok .success := by
  have found : i.command.source d = .ok none := by
    rw [command]
    rfl
  have taken := HistoryStore.accept_of_valid (s := workingStore none document)
    (validateEntry_eq_ok.2 valid) ⟨!dropComposite⟩
  obtain ⟨s, answer, success, executed⟩ : ∃ s answer, answer.outcome = .success ∧
      (execute (Disk.host input now) (workingStore none document) none i.command).run d =
        ((s, .ok answer), d) := by
    rw [command, execute_ingest, read]
    simp only [ingestRead, taken]
    exact ⟨_, _, rfl, rfl⟩
  rw [onDisk_of_executed found opened executed writable, success]

/-- A document that can be read is taken in, and reported, if the history can be written. -/
theorem Invocation.onDisk_takeIn {path : String} {dropComposite : Bool} {source : HistoryDocument}
    (command : i.command = .takeIn path dropComposite)
    (found : i.command.source d = .ok (some source)) :
    (i.onDisk d input now).1 = ⟨printed ((workingStore (some source) document).importDocument
      ⟨!dropComposite⟩ source).2.toJson, .ok .success⟩ := by
  let after := (workingStore (some source) document).importDocument ⟨!dropComposite⟩ source
  have executed : (execute (Disk.host input now) (workingStore (some source) document)
      (some source) i.command).run d =
        ((after.1, .ok { text := printed after.2.toJson }), d) := by
    rw [command]
    exact execute_takeIn ..
  exact onDisk_of_executed found opened executed writable

end

end BenchLedger.CommandLine
