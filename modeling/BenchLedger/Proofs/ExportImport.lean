import BenchLedger.Proofs.LastingHistories

/-!
Histories that are copied and taken in again. Main statement: `CommandLine.Built.export_import`: a
history that was filled by commands comes out of its copy as it went in.
-/

namespace BenchLedger

/-! ### What is absorbed -/

namespace HistoryDocument

/-- What a document absorbs determines all series. -/
theorem Absorbs.unique {old new new' : HistoryDocument} {entries : List (String × CommitEntry)}
    (h : old.Absorbs entries new) (h' : old.Absorbs entries new') : new.entries = new'.entries := by
  apply NameMap.ext_get?
  intro name
  have known := (h.names name).trans (h'.names name).symm
  cases found : new.entries.get? name with
  | none =>
    cases found' : new'.entries.get? name with
    | none => rfl
    | some es => simp [found, found'] at known
  | some es =>
    cases found' : new'.entries.get? name with
    | none => simp [found, found'] at known
    | some es' => rw [(h.series name es found).unique (h'.series name es' found')]

namespace Lasting

variable {d d' : HistoryDocument}

theorem of_entries (lasting : d.Lasting) (same : d'.entries = d.entries) : d'.Lasting where
  entries := fun name es found => lasting.entries name es (same ▸ found)
  views := fun name es found => lasting.views name es (same ▸ found)

/-- Loading does not change a lasting document. -/
theorem absorbs_nil (lasting : d.Lasting) : d.Absorbs [] d where
  names := by simp [entriesFor]
  series := by
    intro name es found
    simpa [found, entriesFor] using (lasting.views name es found).2

/-- All entries of a lasting document make up the document. -/
theorem absorbs_inOrder (lasting : d.Lasting) : empty.Absorbs d.inOrder d where
  names := by
    intro name
    rw [entriesFor_inOrder]
    cases found : d.entries.get? name with
    | none => simp [empty]
    | some es => simp [(lasting.views name es found).1]
  series := by
    intro name es found
    rw [entriesFor_inOrder, found]
    exact (lasting.views name es found).2

/-- The ingestor accepts every entry, and leaves it as it is. -/
theorem accepted_inOrder (lasting : d.Lasting) : accepted {} d.inOrder = d.inOrder := by
  have each : ∀ entries : List (String × CommitEntry),
      (∀ name e, (name, e) ∈ entries → e.Lasting name) → accepted {} entries = entries := by
    intro entries all
    induction entries with
    | nil => rfl
    | cons p rest ih =>
      obtain ⟨series, e⟩ := p
      have first := all series e List.mem_cons_self
      rw [accepted_cons_of_valid (validateEntry_eq_ok.2 first.valid), first.normal,
        ih fun name e member => all name e (List.mem_cons_of_mem _ member)]
  apply each
  intro name e member
  obtain ⟨es, found, here⟩ := mem_inOrder.1 member
  exact lasting.entries name es found e here

end Lasting

end HistoryDocument

namespace HistoryStore

/-- If all entries are valid, all are counted and none is refused. -/
theorem report_importEach_of_valid (config : IngestConfig) (state : HistoryStore × ImportReport)
    {entries : List (String × CommitEntry)} (valid : ∀ p ∈ entries, p.2.ValidFor p.1) :
    (importEach config state entries).2.rejected = state.2.rejected ∧
      (importEach config state entries).2.total = state.2.total + entries.length := by
  induction entries generalizing state with
  | nil => exact ⟨rfl, rfl⟩
  | cons p rest ih =>
    have first : importEach config state (p :: rest) =
        importEach config (importEntry config p.1 state p.2) rest := rfl
    rw [importEntry_of_valid (validateEntry_eq_ok.2 (valid p List.mem_cons_self))] at first
    obtain ⟨rejected, total⟩ := ih ((state.1.put p.1 (normalizeEntry config p.2)).1,
      state.2.addImported p.1) fun q member => valid q (List.mem_cons_of_mem _ member)
    rw [first, rejected, total, ImportReport.total_addImported, List.length_cons]
    exact ⟨rfl, by omega⟩

end HistoryStore

namespace CommandLine

variable {input : List Nat} {now : Int} {d d' : Disk} {path output : String}

/-! ### Copies -/

/-- A copy of a lasting history has all its entries and its repository. -/
theorem copy_of_lasting {document : Option HistoryDocument}
    (lasting : (document.getD .empty).Lasting) (now : Int) :
    ((workingStore none document).document now).entries = (document.getD .empty).entries ∧
      ((workingStore none document).document now).repoUrl = (document.getD .empty).repoUrl := by
  have absorbs := HistoryStore.absorbs_document
    { policy := .manual, repoUrl := none } document [] now
  exact ⟨absorbs.unique lasting.absorbs_nil, rfl⟩

/-- A document that was saved is a source to take in. -/
theorem source_of_read {document : HistoryDocument} {format : StorageFormat} {dropComposite : Bool}
    (typed : document.WellTyped) (literals : ∀ x ∈ document.values, (Json.Number.real x).ReadsBack)
    (read : d.read path = .ok (Text.utf8Bytes (document.encode format).toList)) :
    (Command.takeIn path dropComposite).source d = .ok (some document) := by
  simp only [Command.source, read, textOf_utf8Bytes, HistoryDocument.decode_encode typed literals]
  rfl

section

variable {i : Invocation} {source : HistoryDocument} (lasting : source.Lasting)
  (command : i.command = .takeIn path false) (found : i.command.source d = .ok (some source))

include lasting command found

/-- Every entry of a lasting document is taken in, as it is. -/
theorem takes_of_lasting (input : List Nat) : i.takes d input = source.inOrder := by
  rw [command] at found
  simp only [Invocation.takes, Command.offered, command, found]
  exact lasting.accepted_inOrder

variable (missing : d.read i.history = .error .missing)

include missing

/-- A new history that takes in a lasting document refuses nothing. -/
theorem report_of_lasting (writable : d.Writable i.history) (input : List Nat) (now : Int) :
    ∃ report : ImportReport, (i.onDisk d input now).1 = ⟨printed report.toJson, .ok .success⟩ ∧
      report.rejected = [] ∧ report.total = source.entryCount := by
  have opened := loaded_missing missing
  have valid : ∀ p ∈ source.inOrder, p.2.ValidFor p.1 := by
    intro p member
    obtain ⟨es, series, here⟩ := HistoryDocument.mem_inOrder.1 member
    exact (lasting.entries p.1 es series p.2 here).valid
  obtain ⟨rejected, total⟩ := HistoryStore.report_importEach_of_valid {}
    (workingStore (some source) none, .empty) valid
  rw [← HistoryStore.importDocument_eq_importEach] at rejected total
  rw [source.length_inOrder] at total
  exact ⟨_, Invocation.onDisk_takeIn opened writable command found, rejected,
    total.trans (Nat.zero_add _)⟩

/-- A new history that has taken in a lasting document has its series and its repository. -/
theorem reproduces_of_lasting (word : IsWord now)
    (ending : (i.onDisk d input now).1.ending = .ok .success) :
    ∃ copy, loaded i.history ((i.onDisk d input now).2.read i.history) = .ok copy ∧
      (copy.getD .empty).entries = source.entries ∧
      (source.entryCount ≠ 0 → (copy.getD .empty).repoUrl = source.repoUrl) := by
  have opened := loaded_missing missing
  have takes := takes_of_lasting lasting command found input
  have ran := i.ran d input now
  by_cases none : i.takes d input = []
  · -- Nothing is taken in, and nothing is written.
    have whole := lasting.absorbs_inOrder
    rw [← takes, none] at whole
    refine ⟨Option.none, ?_, HistoryDocument.lasting_empty.absorbs_nil.unique whole, ?_⟩
    · rw [ran.unchanged (by simp [command]) none, opened]
    · rw [← source.length_inOrder, ← takes, none]
      exact fun some => absurd rfl some
  · obtain ⟨source', document, found', opened', saved⟩ := ran.saved_of_ok none ending
    cases found.symm.trans found'
    cases opened.symm.trans opened'
    have same : (((workingStore (some source) Option.none).putAll (i.takes d input)).document
        now).entries = source.entries := by
      rw [takes]
      exact (HistoryStore.absorbs_document _ Option.none _ now).unique lasting.absorbs_inOrder
    have reads := loaded_of_written opened word rfl (Disk.read_save saved)
      (lasting.of_entries same).literals
    have kept :=
      HistoryStore.grown_putAll (workingStore (some source) Option.none) (i.takes d input)
    exact ⟨_, reads, same, fun _ => kept.repoUrl.trans (Option.or_none ..)⟩

end

/-- A history that was filled by commands is copied, and its copy is a lasting document with the
same series and the same repository, if it can be opened and the copy can be written. -/
theorem Built.copied (built : Built path d) (input : List Nat) (word : IsWord now)
    (writable : d.Writable output) {i : Invocation} (history : i.history = path)
    {format : Option StorageFormat} (command : i.command = .copyTo output format)
    {document : Option HistoryDocument} (opened : loaded path (d.read path) = .ok document) :
    (i.onDisk d input now).1 = ⟨"", .ok .success⟩ ∧
      ∃ copy : HistoryDocument, copy.Lasting ∧
        copy.entries = (document.getD .empty).entries ∧
        copy.repoUrl = (document.getD .empty).repoUrl ∧
        ∀ d' : Disk, d'.read output = (i.onDisk d input now).2.read output →
          ∀ dropComposite, (Command.takeIn output dropComposite).source d' = .ok (some copy) := by
  subst history
  have lasting := built.holdsLasting.of_loaded opened
  obtain ⟨same, repository⟩ := copy_of_lasting lasting now
  obtain ⟨d', saved⟩ := writable (Text.utf8Bytes
    (((workingStore none document).document now).encode (format.getD (.ofPath output))).toList)
  have lastingCopy := lasting.of_entries same
  have typed : ((workingStore none document).document now).WellTyped :=
    HistoryStore.wellTyped_document
      (HistoryStore.storable_ofDocument _ (storable_of_loaded opened)) word
  rw [Invocation.onDisk_copyTo opened command (saveOn_eq_ok.2 saved)]
  refine ⟨rfl, _, lastingCopy, same, repository, fun d'' read dropComposite => ?_⟩
  exact source_of_read typed lastingCopy.literals (read.trans (Disk.read_save saved))

/-- A history that was filled by commands comes out of its copy as it went in. If there is a file or
nothing at its path and the copy can be written, the copy succeeds, and a new history that takes the
copy in refuses nothing, counts all entries, and ends up with the same series, each with the same
entries in the same order, and, unless there are none, with the same repository. -/
theorem Built.export_import (built : Built path d)
    (there : d.read path = .error .missing ∨ ∃ bytes, d.read path = .ok bytes)
    {exports imports : Invocation} (history : exports.history = path)
    {format : Option StorageFormat} (copies : exports.command = .copyTo output format)
    (writable : d.Writable output) (word : IsWord now)
    (takesIn : imports.command = .takeIn output false)
    (same : d'.read output = (exports.onDisk d input now).2.read output)
    (missing : d'.read imports.history = .error .missing)
    (writable' : d'.Writable imports.history) (input' : List Nat) {now' : Int}
    (word' : IsWord now') :
    (exports.onDisk d input now).1 = ⟨"", .ok .success⟩ ∧
    ∃ (original copy : Option HistoryDocument) (report : ImportReport),
      loaded path (d.read path) = .ok original ∧
      (imports.onDisk d' input' now').1 = ⟨printed report.toJson, .ok .success⟩ ∧
      report.rejected = [] ∧ report.total = (original.getD .empty).entryCount ∧
      loaded imports.history ((imports.onDisk d' input' now').2.read imports.history) = .ok copy ∧
      (copy.getD .empty).entries = (original.getD .empty).entries ∧
      ((original.getD .empty).entryCount ≠ 0 →
        (copy.getD .empty).repoUrl = (original.getD .empty).repoUrl) := by
  obtain ⟨original, opened⟩ := built.holdsLasting.opens there
  obtain ⟨exported, document, lasting, entries, repository, source⟩ :=
    built.copied input word writable history copies opened
  have found : imports.command.source d' = .ok (some document) := by
    rw [takesIn]
    exact source d' same false
  obtain ⟨report, reported, rejected, total⟩ :=
    report_of_lasting lasting takesIn found missing writable' input' now'
  obtain ⟨copy, reads, copied, repository'⟩ := reproduces_of_lasting lasting takesIn found missing
    word' (congrArg Report.ending reported)
  have count : document.entryCount = (original.getD .empty).entryCount := by
    rw [HistoryDocument.entryCount, entries]
    rfl
  rw [count] at total repository'
  exact ⟨exported, original, copy, report, opened, reported, rejected, total, reads,
    copied.trans entries, fun some => (repository' some).trans repository⟩

/-- The only thing a copy does is one save. -/
theorem disk_of_copyTo {i : Invocation} {format : Option StorageFormat}
    (command : i.command = .copyTo output format) {document : Option HistoryDocument}
    (opened : loaded i.history (d.read i.history) = .ok document) (writable : d.Writable output) :
    ∃ bytes, (i.onDisk d input now).2 = (d.save output bytes).1 := by
  obtain ⟨d', saved⟩ := writable (Text.utf8Bytes
    (((workingStore none document).document now).encode (format.getD (.ofPath output))).toList)
  exact ⟨_, by rw [Invocation.onDisk_copyTo opened command (saveOn_eq_ok.2 saved), saved]⟩

/-- What the first run leaves. -/
theorem disk_firstIngest :
    ∃ d bytes, (firstIngest.onDisk ⟨[], []⟩ firstInput 7).2 = d ∧
      (⟨[], []⟩ : Disk).save "h/data.js" bytes = (d, .ok ()) ∧ Built "h/data.js" d ∧
      ∃ document, loaded "h/data.js" (d.read "h/data.js") = .ok (some document) ∧
        (document.entries.get? "s").isSome = true := by
  obtain ⟨source, old, _, opened, saved⟩ := (firstIngest.ran ⟨[], []⟩ firstInput 7).saved_of_ok
    (by simp [takes_firstInput])
    (firstIngest_succeeds ingestedEntry_firstInput valid_measuredEntry)
  cases loaded_of_noFiles.symm.trans opened
  obtain ⟨_, reads⟩ := lasting_of_saved opened HistoryDocument.lasting_empty (by decide)
    literals_firstInput saved
  have absorbs := HistoryStore.absorbs_document
    { policy := .manual, repoUrl := source.bind (·.repoUrl) } none
    (firstIngest.takes ⟨[], []⟩ firstInput) 7
  refine ⟨_, _, rfl, saved, ?_, _, reads, (absorbs.names "s").2 (.inr ?_)⟩
  · exact .ran (.absent (by decide +kernel)) rfl (by simp [firstIngest]) firstInput (by decide)
      literals_firstInput
  · simp [takes_firstInput, entriesFor]

/-- A run that copies the history, and one that takes the copy in. -/
def firstExport : Invocation :=
  ⟨"h/data.js", none, false, .copyTo "copy.json" none⟩

def firstImport : Invocation :=
  ⟨"new.js", none, true, .takeIn "copy.json" false⟩

/-- The series of the first run is in the history that has taken in its copy. -/
theorem export_import_of_firstIngest :
    let d := (firstIngest.onDisk ⟨[], []⟩ firstInput 7).2
    let d' := (firstExport.onDisk d [] 8).2
    ∃ copy, loaded "new.js" ((firstImport.onDisk d' [] 9).2.read "new.js") = .ok copy ∧
      ((copy.getD .empty).entries.get? "s").isSome = true := by
  intro d d'
  obtain ⟨e, bytes, run, saved, built, document, opened, held⟩ := disk_firstIngest
  obtain rfl : e = ((⟨[], []⟩ : Disk).save "h/data.js" bytes).1 := by rw [saved]
  have writable : Disk.Writable ((⟨[], []⟩ : Disk).save "h/data.js" bytes).1 "copy.json" :=
    fun _ => ⟨_, rfl⟩
  have copies : firstExport.command = .copyTo "copy.json" none := rfl
  have takesIn : firstImport.command = .takeIn "copy.json" false := rfl
  have history : firstExport.history = "h/data.js" := rfl
  obtain ⟨bytes', exported⟩ : ∃ bytes', d' = ((((⟨[], []⟩ : Disk).save "h/data.js" bytes).1).save
      "copy.json" bytes').1 := by
    simp only [d', d, run]
    exact disk_of_copyTo copies opened writable
  have missing : d'.read firstImport.history = .error .missing := by
    rw [exported]
    rfl
  have writable' : d'.Writable firstImport.history := by
    rw [exported]
    exact fun _ => ⟨_, rfl⟩
  have same : d'.read "copy.json" = (firstExport.onDisk
      ((⟨[], []⟩ : Disk).save "h/data.js" bytes).1 [] 8).2.read "copy.json" := by
    simp only [d', d, run]
  have words : IsWord 8 ∧ IsWord 9 := by decide
  obtain ⟨_, original, copy, _, opened', _, _, _, reads, copied, _⟩ :=
    built.export_import (.inr ⟨bytes, rfl⟩) history copies writable words.1 takesIn same missing
      writable' [] words.2
  cases opened.symm.trans opened'
  exact ⟨copy, reads, by rw [copied]; exact held⟩

end CommandLine

end BenchLedger
