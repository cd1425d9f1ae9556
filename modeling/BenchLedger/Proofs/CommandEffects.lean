import BenchLedger.Proofs.CommandRuns
import BenchLedger.Proofs.FileEffects
import BenchLedger.Proofs.Restart

/-!
What a command does to the history file. Main statement: `Invocation.file_effect`: questions, copies
to other files and failures leave the file alone, and a command that takes entries in and succeeds
leaves the old history with these entries in it.
-/

namespace BenchLedger.CommandLine

variable {input : List Nat} {now : Int} {d d' : Disk}

/-! ### Saves -/

theorem saveOn_eq_ok {path : String} {format : StorageFormat} {document : HistoryDocument} :
    saveOn d path format document = (.ok (), d') ↔
      d.save path (Text.utf8Bytes (document.encode format).toList) = (d', .ok ()) := by
  unfold saveOn
  cases result : d.save path (Text.utf8Bytes (document.encode format).toList) with
  | mk e ending =>
    cases ending with
    | ok u => simp [Except.mapError]
    | error fault => simp [Except.mapError]

theorem save_of_saveOn_error {path : String} {format : StorageFormat} {document : HistoryDocument}
    {error : PersistenceError} (failed : saveOn d path format document = (.error error, d')) :
    ∃ fault, d.save path (Text.utf8Bytes (document.encode format).toList) = (d', .error fault) := by
  unfold saveOn at failed
  cases result : d.save path (Text.utf8Bytes (document.encode format).toList) with
  | mk e ending =>
    rw [result] at failed
    cases ending with
    | ok u => cases failed
    | error fault =>
      cases failed
      exact ⟨fault, rfl⟩

/-! ### Entries that are taken in -/

theorem storable_of_source {command : Command} {document : HistoryDocument}
    (found : command.source d = .ok (some document)) : document.Storable := by
  cases command with
  | takeIn path dropComposite =>
    unfold Command.source at found
    dsimp only at found
    split at found
    · cases found
    · obtain ⟨document', decoded, same⟩ := map_eq_ok.1 found
      cases same
      exact HistoryDocument.decode_storable (mapError_eq_ok.1 decoded)
  | ingest | ask | copyTo => cases found

theorem storable_of_ingestedEntry {file : String} {e : CommitEntry}
    (read : ingestedEntry d input file = .ok e) : e.Storable := by
  obtain ⟨text, _, decoded⟩ := bind_eq_ok.1 read
  exact CommitEntry.decoder_yields.of_decode (mapError_eq_ok.1 decoded)

/-- What a command offers has come out of a text. -/
theorem storable_of_mem_offered {command : Command} {name : String} {e : CommitEntry}
    (member : (name, e) ∈ command.offered d input) : e.Storable := by
  cases command with
  | takeIn path dropComposite =>
    simp only [Command.offered] at member
    cases found : (Command.takeIn path dropComposite).source d with
    | error fault =>
      rw [found] at member
      cases member
    | ok source =>
      rw [found] at member
      cases source with
      | none => cases member
      | some document =>
        obtain ⟨es, series, listed⟩ := HistoryDocument.mem_inOrder.1 member
        exact storable_of_source found es (NameMap.mem_values.2 ⟨name, series⟩) e listed
  | ingest series file dropComposite =>
    simp only [Command.offered] at member
    cases read : ingestedEntry d input file with
    | error fault =>
      rw [read] at member
      cases member
    | ok e' =>
      rw [read] at member
      obtain ⟨_, rfl⟩ : name = series ∧ e = e' := by simpa [Except.toOption] using member
      exact storable_of_ingestedEntry read
  | ask | copyTo => cases member

theorem storable_of_mem_takes {i : Invocation} {name : String} {e : CommitEntry}
    (member : (name, e) ∈ i.takes d input) : e.Storable := by
  obtain ⟨raw, given, valid, rfl⟩ := mem_accepted.1 member
  have typed := storable_of_mem_offered given
  have checked := (valid.normalizeEntry i.command.ingestConfig).checkAppend
  exact ⟨⟨typed.date, typed.timestamp⟩, HistoryStore.finite_of_checkAppend checked⟩

theorem storable_putAll {i : Invocation} {source document : Option HistoryDocument}
    (opened : loaded i.history (d.read i.history) = .ok document) :
    ((workingStore source document).putAll (i.takes d input)).Storable := by
  apply HistoryStore.AllEntries.putAll
  · exact HistoryStore.storable_ofDocument _ (storable_of_loaded opened)
  · exact fun name e => storable_of_mem_takes

/-- A file that is missing is a history without entries. -/
theorem loaded_missing {path : String} (missing : d.read path = .error .missing) :
    loaded path (d.read path) = .ok none := by
  rw [missing]
  rfl

section

variable {i : Invocation} {source document : Option HistoryDocument}
  (opened : loaded i.history (d.read i.history) = .ok document) (word : IsWord now)
  {s : HistoryStore} (after : s = (workingStore source document).putAll (i.takes d input))
  (written : d'.read i.history =
    .ok (Text.utf8Bytes ((s.document now).encode i.encoding).toList))

include opened word after written

/-- What was written is read again, with the values that their literals give. -/
theorem loaded_of_written_reread :
    loaded i.history (d'.read i.history) = .ok (some (s.document now).reread) := by
  subst after
  have storable : ((workingStore source document).putAll (i.takes d input)).Storable :=
    storable_putAll opened
  rw [written]
  exact loaded_encode_of_decode i.history (HistoryDocument.decode_encode_reread
    (HistoryStore.wellTyped_document storable word)
    (fun x value => (HistoryStore.values_document storable value).2) i.encoding)

/-- What was written is read again as it was if the literals of its values read back. -/
theorem loaded_of_written
    (literals : ∀ x ∈ (s.document now).values, (Json.Number.real x).ReadsBack) :
    loaded i.history (d'.read i.history) = .ok (some (s.document now)) := by
  subst after
  rw [written]
  exact loaded_encode i.history i.encoding
    (HistoryStore.wellTyped_document (storable_putAll opened) word) literals

end

/-! ### Effects -/

namespace Ran

variable {i : Invocation} {outcome : Report × Disk}

theorem unchanged (h : Ran i d input now outcome)
    (memory : ∀ output format, i.command ≠ .copyTo output format)
    (none : i.takes d input = []) : outcome.2 = d := by
  cases h with
  | refused => rfl
  | answered => rfl
  | copied command => exact absurd command (memory _ _)
  | notCopied command => exact absurd command (memory _ _)
  | written some => exact absurd none some
  | notWritten some => exact absurd none some

theorem takes_of_copyTo {output : String} {format : Option StorageFormat}
    (command : i.command = .copyTo output format) : i.takes d input = [] := by
  simp only [Invocation.takes, Command.offered, command]
  rfl

theorem spares_of_saveOn_error {path : String} {format : StorageFormat}
    {document : HistoryDocument} {error : PersistenceError}
    (failed : saveOn d path format document = (.error error, d')) (other : String) :
    d.Spares other d' := by
  obtain ⟨_, failed⟩ := save_of_saveOn_error failed
  exact .of_moreDirectories (.of_save failed) other

/-- A copy writes to its own file only. -/
theorem spares_of_copyTo (h : Ran i d input now outcome) {output : String}
    {format : Option StorageFormat} (command : i.command = .copyTo output format)
    (other : ∀ p, outcome.2.LeadsTo output p → ¬ outcome.2.LeadsTo i.history p) :
    d.Spares i.history outcome.2 := by
  cases h with
  | refused => exact .refl _ _
  | answered => exact .refl _ _
  | copied copies _ saved =>
    cases command.symm.trans copies
    obtain ⟨q, wrote⟩ := Disk.save_effect (saveOn_eq_ok.1 saved)
    exact .of_wrote wrote (other q wrote.leads)
  | notCopied _ failed => exact spares_of_saveOn_error failed _
  | written some => exact absurd (takes_of_copyTo command) some
  | notWritten some => exact absurd (takes_of_copyTo command) some

/-- Whatever fails leaves the history alone. -/
theorem spares_of_error (h : Ran i d input now outcome) {e : CommandError}
    (ending : outcome.1.ending = .error e) :
    d.Spares i.history outcome.2 ∧ (e.isUnwritten = false → outcome.2 = d) := by
  cases h with
  | refused => exact ⟨.refl _ _, fun _ => rfl⟩
  | answered => cases ending
  | copied => cases ending
  | notCopied _ failed =>
    cases ending
    exact ⟨spares_of_saveOn_error failed _, fun written => by cases written⟩
  | written => cases ending
  | notWritten _ failed =>
    cases ending
    exact ⟨spares_of_saveOn_error failed _, fun written => by cases written⟩

/-- A command that takes something in and succeeds has saved the history. -/
theorem saved_of_ok (h : Ran i d input now outcome) (some : i.takes d input ≠ [])
    {ending : Outcome} (ended : outcome.1.ending = .ok ending) :
    ∃ source document, i.command.source d = .ok source ∧
      loaded i.history (d.read i.history) = .ok document ∧
      d.save i.history (Text.utf8Bytes ((((workingStore source document).putAll
        (i.takes d input)).document now).encode i.encoding).toList) = (outcome.2, .ok ()) := by
  cases h with
  | refused => cases ended
  | answered none => exact absurd none some
  | copied command => exact absurd (takes_of_copyTo command) some
  | notCopied => cases ended
  | written _ found opened saved =>
    exact ⟨_, _, found, opened, saveOn_eq_ok.1 saved⟩
  | notWritten => cases ended

end Ran

/-- What a command does to the history file, whatever is on the disk. A question leaves the disk as
it is. A copy to another file leaves the history alone. So does whatever fails, and unless it has
failed to write, the whole disk is as it was; likewise if nothing is taken in. If entries are taken
in and the command succeeds, the history could be opened, and its file holds the document in which
every series has taken up its own entries, in order of the run times and with one entry for each
commit. The file can be read: it gives this document with each value as its literal is read, and so
the document itself if all literals read back. -/
theorem Invocation.file_effect (i : Invocation) (d : Disk) (input : List Nat) (now : Int) :
    let report := (i.onDisk d input now).1
    let d' := (i.onDisk d input now).2
    (∀ question, i.command = .ask question → d' = d) ∧
    (∀ output format, i.command = .copyTo output format →
      (∀ p, d'.LeadsTo output p → ¬ d'.LeadsTo i.history p) → d.Spares i.history d') ∧
    (∀ e, report.ending = .error e →
      d.Spares i.history d' ∧ (e.isUnwritten = false → d' = d)) ∧
    ((∀ output format, i.command ≠ .copyTo output format) → i.takes d input = [] → d' = d) ∧
    (i.takes d input ≠ [] → ∀ outcome, report.ending = .ok outcome →
      ∃ old new, loaded i.history (d.read i.history) = .ok old ∧
        d'.read i.history = .ok (Text.utf8Bytes (new.encode i.encoding).toList) ∧
        (IsWord now → loaded i.history (d'.read i.history) = .ok (some new.reread) ∧
          ((∀ x ∈ (old.getD .empty).values ++ (i.takes d input).flatMap fun p => p.2.values,
              (Json.Number.real x).ReadsBack) →
            loaded i.history (d'.read i.history) = .ok (some new))) ∧
        (old.getD .empty).Absorbs (i.takes d input) new ∧
        ∀ name es, new.entries.get? name = some es →
          DatesIncrease es ∧ (es.map CommitEntry.id).Nodup) := by
  intro report d'
  have ran := i.ran d input now
  refine ⟨fun question command => ?_, fun output format command other =>
    ran.spares_of_copyTo command other, fun e ending => ran.spares_of_error ending,
    ran.unchanged, fun some outcome ending => ?_⟩
  · have none : i.takes d input = [] := by
      simp only [takes, Command.offered, command]
      rfl
    exact ran.unchanged (by simp [command]) none
  · obtain ⟨source, document, found, opened, saved⟩ := ran.saved_of_ok some ending
    have written := Disk.read_save saved
    have absorbs := HistoryStore.absorbs_document
      { policy := .manual, repoUrl := source.bind (·.repoUrl) } document (i.takes d input) now
    refine ⟨document, _, opened, written, fun word => ⟨?_, fun literals => ?_⟩, absorbs,
      fun name es held => ?_⟩
    · exact loaded_of_written_reread opened word rfl written
    · exact loaded_of_written opened word rfl written
        fun x value => literals x (absorbs.values value)
    · have view := absorbs.series name es held
      exact ⟨view.sorted, view.nodup_ids⟩

/-- A run from the standard input for a new history. -/
def firstIngest : Invocation :=
  ⟨"h/data.js", none, false, .ingest "s" "-" false⟩

theorem loaded_of_noFiles :
    loaded "h/data.js" ((⟨[], []⟩ : Disk).read "h/data.js") = .ok none :=
  loaded_missing (by decide +kernel)

section

variable {e : CommitEntry} (read : ingestedEntry ⟨[], []⟩ input "-" = .ok e)
  (valid : e.ValidFor "s")

include read valid

theorem takes_firstIngest :
    firstIngest.takes ⟨[], []⟩ input = [("s", normalizeEntry {} e)] := by
  simp only [Invocation.takes, firstIngest, Command.offered, read]
  exact accepted_cons_of_valid (validateEntry_eq_ok.2 valid)

theorem firstIngest_succeeds :
    (firstIngest.onDisk ⟨[], []⟩ input 7).1.ending = .ok .success :=
  Invocation.onDisk_ingest loaded_of_noFiles (fun _ => ⟨_, rfl⟩) rfl read valid

/-- The new history is read again, with its values reread. -/
theorem loaded_after_firstIngest :
    ∃ new : HistoryDocument, new.entries.get? "s" = some [normalizeEntry {} e] ∧
      loaded "h/data.js" ((firstIngest.onDisk ⟨[], []⟩ input 7).2.read "h/data.js")
        = .ok (some new.reread) := by
  have takes := takes_firstIngest read valid
  obtain ⟨source, document, _, opened, saved⟩ := (firstIngest.ran ⟨[], []⟩ input 7).saved_of_ok
    (by simp [takes]) (firstIngest_succeeds read valid)
  have reads := loaded_of_written_reread opened (by decide) rfl (Disk.read_save saved)
  cases loaded_of_noFiles.symm.trans opened
  rw [takes] at reads
  exact ⟨_, (HistoryStore.absorbs_document _ none _ 7).get?_single, reads⟩

end

/-- The text of a run. -/
def firstInput : List Nat :=
  Text.utf8Bytes (Session.measuredEntry "aaaa").toJson.pretty.toList

/-- An entry reads back from the standard input. -/
theorem ingestedEntry_input (d : Disk) {e : CommitEntry} {text : String}
    (decoded : CommitEntry.ofText text = .ok e) :
    ingestedEntry d (Text.utf8Bytes text.toList) "-" = .ok e := by
  have read : entryText d (Text.utf8Bytes text.toList) "-" = .ok text := by
    rw [entryText, if_pos rfl, textOf_utf8Bytes]
    rfl
  exact bind_eq_ok.2 ⟨_, read, mapError_eq_ok.2 decoded⟩

theorem ingestedEntry_firstInput :
    ingestedEntry ⟨[], []⟩ firstInput "-" = .ok (Session.measuredEntry "aaaa") := by
  have values : (Session.measuredEntry "aaaa").values = [100.25] := rfl
  refine ingestedEntry_input _ (CommitEntry.ofText_pretty ⟨by decide, by decide +kernel⟩ ?_)
  simp only [values, List.forall_mem_singleton]
  rfl

theorem valid_measuredEntry : (Session.measuredEntry "aaaa").ValidFor "s" :=
  validateEntry_eq_ok.1 rfl

theorem takes_firstInput : firstIngest.takes ⟨[], []⟩ firstInput =
    [("s", normalizeEntry {} (Session.measuredEntry "aaaa"))] :=
  takes_firstIngest ingestedEntry_firstInput valid_measuredEntry

theorem values_firstInput : (firstIngest.takes ⟨[], []⟩ firstInput).flatMap
    (fun p => p.2.values) = [100.25, 100.25, 8.0] := by
  rw [takes_firstInput]
  decide +kernel

theorem literals_firstInput : ∀ p ∈ firstIngest.takes ⟨[], []⟩ firstInput, ∀ x ∈ p.2.values,
    (Json.Number.real x).ReadsBack := by
  intro p member x value
  have each : ∀ y ∈ ([100.25, 100.25, 8.0] : List Float), (Json.Number.real y).ReadsBack := by
    simp only [List.forall_mem_cons]
    exact ⟨rfl, rfl, rfl, by simp⟩
  apply each
  rw [← values_firstInput]
  exact List.mem_flatMap.2 ⟨p, member, value⟩

/-- The run is in the file, and no question changes the file. -/
theorem file_effect_of_firstIngest :
    let d := (firstIngest.onDisk ⟨[], []⟩ firstInput 7).2
    (∃ new, loaded "h/data.js" (d.read "h/data.js") = .ok (some new) ∧
      HistoryDocument.empty.Absorbs
        [("s", normalizeEntry {} (Session.measuredEntry "aaaa"))] new) ∧
      ∀ question, (Invocation.onDisk ⟨"h/data.js", none, false, .ask question⟩ d [] 8).2 = d := by
  intro d
  have succeeds := firstIngest_succeeds ingestedEntry_firstInput valid_measuredEntry
  obtain ⟨_, _, _, _, written⟩ := firstIngest.file_effect ⟨[], []⟩ firstInput 7
  obtain ⟨old, new, opened, _, reads, absorbs, _⟩ :=
    written (by simp [takes_firstInput]) _ succeeds
  cases loaded_of_noFiles.symm.trans opened
  rw [takes_firstInput] at absorbs
  refine ⟨⟨new, (reads (by decide)).2 fun x value => ?_, absorbs⟩, fun question => ?_⟩
  · rcases List.mem_append.1 value with before | taken
    · cases before
    · obtain ⟨p, member, value⟩ := List.mem_flatMap.1 taken
      exact literals_firstInput p member x value
  · obtain ⟨asked, _⟩ := Invocation.file_effect ⟨"h/data.js", none, false, .ask question⟩ d [] 8
    exact asked question rfl

/-- A run with a value whose literal is read as another one. -/
def unsteadyEntry : CommitEntry :=
  .plain "aaaa" 5 [⟨"b", 9.0094832250841748, "ns/op", none⟩]

/-- The run as it is sent, its value given to one more digit. -/
def unsteadyText : List Char :=
  "\x7b\"commit\":\x7b\"id\":\"aaaa\",\"timestamp\":\"2024-01-01T00:00:00+01:00\",".toList ++
  "\"author\":\x7b\"name\":\"unknown\",\"email\":\"unknown@localhost\"\x7d,".toList ++
  "\"committer\":\x7b\"name\":\"unknown\",\"email\":\"unknown@localhost\"\x7d\x7d,".toList ++
  "\"date\":5,\"tool\":\"go\",\"benches\":[".toList ++
  "\x7b\"name\":\"b\",\"value\":9.0094832250841748,\"unit\":\"ns/op\"\x7d]\x7d".toList

theorem ofText_unsteadyText :
    CommitEntry.ofText (String.ofList unsteadyText) = .ok unsteadyEntry := by
  apply eq_ok_of_toOption
  rw [CommitEntry.ofText, Json.decode, String.toList_ofList]
  decide +kernel

theorem ingestedEntry_unsteadyText :
    ingestedEntry ⟨[], []⟩ (Text.utf8Bytes unsteadyText) "-" = .ok unsteadyEntry := by
  have read := ingestedEntry_input ⟨[], []⟩ ofText_unsteadyText
  rwa [String.toList_ofList] at read

theorem valid_unsteadyEntry : unsteadyEntry.ValidFor "s" :=
  validateEntry_eq_ok.1 rfl

theorem reread_unsteadyEntry : unsteadyEntry.reread ≠ unsteadyEntry := by
  have text : (Json.Number.real 9.0094832250841748).text = "9.009483225084175".toList := by
    decide +kernel
  have other : Json.reread 9.0094832250841748 ≠ 9.0094832250841748 := by
    rw [Json.reread, text]
    decide +kernel
  have values : unsteadyEntry.values = [9.0094832250841748] := rfl
  intro same
  have reread := congrArg CommitEntry.values same
  rw [CommitEntry.reread, CommitEntry.values_mapValues, values] at reread
  exact other (List.head_eq_of_cons_eq reread)

/-- The run is taken in as it was sent, but its file is decoded to a document without it: its value
has become another one. -/
theorem file_differs_from_taken :
    (firstIngest.onDisk ⟨[], []⟩ (Text.utf8Bytes unsteadyText) 7).1.ending = .ok .success ∧
      firstIngest.takes ⟨[], []⟩ (Text.utf8Bytes unsteadyText) = [("s", unsteadyEntry)] ∧
      ∃ found, loaded "h/data.js" ((firstIngest.onDisk ⟨[], []⟩
          (Text.utf8Bytes unsteadyText) 7).2.read "h/data.js") = .ok (some found) ∧
        ¬HistoryDocument.empty.Absorbs [("s", unsteadyEntry)] found := by
  have plain : normalizeEntry {} unsteadyEntry = unsteadyEntry := rfl
  have takes := takes_firstIngest ingestedEntry_unsteadyText valid_unsteadyEntry
  obtain ⟨new, here, reads⟩ :=
    loaded_after_firstIngest ingestedEntry_unsteadyText valid_unsteadyEntry
  rw [plain] at takes here
  refine ⟨firstIngest_succeeds ingestedEntry_unsteadyText valid_unsteadyEntry, takes, _, reads,
    fun holds => ?_⟩
  have found := holds.get?_single
  rw [HistoryDocument.get?_reread, here] at found
  exact reread_unsteadyEntry (List.head_eq_of_cons_eq (Option.some.inj found))

end BenchLedger.CommandLine
