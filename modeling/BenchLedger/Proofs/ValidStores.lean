import BenchLedger.Proofs.NormalizedRecords
import BenchLedger.Proofs.ReloadedEntries
import BenchLedger.Proofs.Utf8Text
import BenchLedger.Session.FileStore

/-!
Stores that are filled through the ingestor. Main statements: what the ingestor takes in keeps all
entries of a store valid, and `FileStore.Filled.valid`: so does all that a file-backed store goes
through, with whatever ends its saves, and what its file is loaded as is valid, too.
-/

namespace BenchLedger

/-! ### Stores -/

namespace HistoryStore

/-- Every entry of a store is valid for its series. -/
def Valid (s : HistoryStore) : Prop :=
  s.AllEntries CommitEntry.ValidFor

variable {s s' : HistoryStore}

/-- What is accepted is valid, also after normalization. -/
theorem Valid.accept (valid : s.Valid) {config : IngestConfig} {series : String} {e : CommitEntry}
    {p : Position} (h : s.accept config series e = .ok (s', p)) : s'.Valid := by
  unfold HistoryStore.accept at h
  split at h
  · cases h
  next prepared passed =>
    obtain ⟨entry, rfl⟩ := prepareEntry_eq_ok.1 passed
    unfold append at h
    split at h
    · cases h
    next checked =>
      cases h
      exact valid.put series (entry.normalizeEntry config)

theorem Valid.importDocument (valid : s.Valid) (config : IngestConfig) (d : HistoryDocument) :
    (s.importDocument config d).1.Valid := by
  apply importDocument_keeps (motive := Valid) valid
  intro _ _ _ _ t t' _ accepted valid
  exact valid.accept accepted

/-- A flush collects valid entries. -/
theorem Valid.beginFlush (valid : s.Valid) {now : Int} {p : PendingFlush}
    (h : s.beginFlush now = some p) : p.document.Valid := by
  unfold HistoryStore.beginFlush at h
  split at h
  · cases h
  · cases h
    exact valid.document now

theorem Valid.endFlush (valid : s.Valid) (p : PendingFlush) (now : Int)
    (ending : Except PersistenceError Unit) : (s.endFlush p now ending).1.Valid := by
  cases ending <;> exact valid

/-- A store without series holds no entry that could be invalid, nor does what it was opened on. -/
theorem valid_of_seriesNames {config : StoreConfig} {d : Option HistoryDocument}
    (empty : (ofDocument config d).seriesNames = []) : ∀ d' ∈ d, d'.Valid := by
  intro d' given name es found
  cases given
  have known : name ∈ (ofDocument config (some d')).seriesNames := by
    apply NameMap.mem_names.2
    simp [ofDocument, found]
  rw [empty] at known
  cases known

end HistoryStore

/-! ### Files -/

/-- What a file with a document of valid entries is loaded as is valid. -/
theorem HistoryDocument.Valid.of_loaded {d d' : HistoryDocument} (valid : d.Valid)
    {format : StorageFormat} {path : String}
    (h : CommandLine.loaded path (.ok (Text.utf8Bytes (d.encode format).toList))
      = .ok (some d')) : d'.Valid := by
  simp only [CommandLine.loaded, textOf_utf8Bytes, HistoryDocument.encode_not_blank,
    Bool.false_eq_true, if_false] at h
  obtain ⟨_, decoded, same⟩ := map_eq_ok.1 h
  cases same
  exact valid.of_decode_encode decoded

namespace FileStore

/-- Whatever can be read from the file on a disk could be read from it before, or is the whole
document of the flush that is under way. -/
def LeavesWhole (f : FileStore) (disk : Disk) : Prop :=
  ∀ bytes, disk.read f.path = .ok bytes →
    f.disk.read f.path = .ok bytes ∨ ∃ p, f.pending = some p ∧ bytes = f.bytes p.document

/-- A store that was opened without series and has since taken in entries and documents through the
ingestor, with any settings, has flushed, and was opened again on its file. A save may fail, but it
leaves the file as it was or with the whole document, which may also land there later. -/
inductive Filled : FileStore → Prop where
  | opened {config : StoreConfig} {path : String} {format : StorageFormat} {disk : Disk}
    {f : FileStore} (opens : ofFile config path format disk = .ok f)
    (empty : f.store.seriesNames = []) : Filled f
  | ingested {f : FileStore} (filled : Filled f) (config : IngestConfig) (series : String)
    (e : CommitEntry) : Filled (f.step (.ingest config series e))
  | tookIn {f : FileStore} (filled : Filled f) (config : IngestConfig) (d : HistoryDocument) :
    Filled (f.step (.takeIn config d))
  | flushBegan {f : FileStore} (filled : Filled f) (now : Int) :
    Filled (f.step (.flushBegins now))
  | flushEnded {f : FileStore} (filled : Filled f) (now : Int) (ending : SaveEnding)
    (whole : f.LeavesWhole (f.step (.flushEnds now ending)).disk) :
    Filled (f.step (.flushEnds now ending))
  | landed {f g : FileStore} (filled : Filled f) (other : Filled g)
    {p : HistoryStore.PendingFlush} (waiting : g.pending = some p) {disk : Disk}
    (read : disk.read f.path = .ok (g.bytes p.document)) : Filled { f with disk }
  | reopened {f g : FileStore} (filled : Filled f) (config : StoreConfig) (format : StorageFormat)
    (opens : ofFile config f.path format f.disk = .ok g) : Filled g

/-- The document that is in the file, if it can be loaded and is not empty. -/
def saved? (f : FileStore) : Option HistoryDocument :=
  (CommandLine.loaded f.path (f.disk.read f.path)).toOption.join

/-- All entries are valid: in memory, in the document of a flush and in the file. -/
structure Valid (f : FileStore) : Prop where
  store : f.store.Valid
  pending : ∀ p, f.pending = some p → p.document.Valid
  file : ∀ d, CommandLine.loaded f.path (f.disk.read f.path) = .ok (some d) → d.Valid

theorem Valid.saved {f : FileStore} (valid : f.Valid) : ∀ d ∈ f.saved?, d.Valid := by
  intro d here
  cases loads : CommandLine.loaded f.path (f.disk.read f.path) with
  | error e => simp [saved?, loads, Except.toOption] at here
  | ok document =>
    simp only [saved?, loads, Except.toOption, Option.join_some, Option.mem_def] at here
    exact valid.file d (by rw [loads, here])

theorem Valid.ingest {f : FileStore} (valid : f.Valid) (config : IngestConfig) (series : String)
    (e : CommitEntry) : (f.step (.ingest config series e)).Valid := by
  unfold step
  simp only
  split
  next accepted => exact { valid with store := valid.store.accept accepted }
  · exact valid

theorem Valid.beginFlush {f : FileStore} (valid : f.Valid) (now : Int) :
    (f.beginFlush now).Valid := by
  unfold FileStore.beginFlush
  split
  · exact valid
  · exact { valid with pending := fun p begun => valid.store.beginFlush begun }

/-- The file of a store holds whatever a save leaves whole. -/
theorem Valid.file_of_whole {f : FileStore} (valid : f.Valid) {disk : Disk}
    (whole : f.LeavesWhole disk) {d : HistoryDocument}
    (loads : CommandLine.loaded f.path (disk.read f.path) = .ok (some d)) : d.Valid := by
  cases read : disk.read f.path with
  | error fault =>
    rw [read] at loads
    cases fault <;> simp [CommandLine.loaded, textOf, bind, Except.bind] at loads
  | ok bytes =>
    rw [read] at loads
    rcases whole bytes read with before | ⟨p, waiting, rfl⟩
    · rw [← before] at loads
      exact valid.file d loads
    · exact (valid.pending p waiting).of_loaded loads

theorem Valid.endFlush {f : FileStore} (valid : f.Valid) (now : Int) (ending : SaveEnding)
    (whole : f.LeavesWhole (f.endFlush now ending).disk) : (f.endFlush now ending).Valid := by
  unfold FileStore.endFlush at whole ⊢
  split
  · exact valid
  next p waiting =>
    rw [waiting] at whole
    exact {
      store := valid.store.endFlush p now _
      pending := by simp
      file := fun d loads => valid.file_of_whole whole loads }

theorem valid_of_opens {config : StoreConfig} {path : String} {format : StorageFormat} {disk : Disk}
    {f : FileStore} (opens : ofFile config path format disk = .ok f)
    (document : ∀ d, CommandLine.loaded path (disk.read path) = .ok (some d) → d.Valid) :
    f.Valid := by
  obtain ⟨d, loads, rfl⟩ := map_eq_ok.1 opens
  have valid : ∀ d' ∈ d, d'.Valid := fun d' given => document d' (by rw [loads, given])
  exact {
    store := HistoryStore.allEntries_ofDocument config valid
    pending := by simp
    file := document }

/-- However a store is filled, all its entries are valid. -/
theorem Filled.valid {f : FileStore} (filled : f.Filled) : f.Valid := by
  induction filled with
  | opened opens empty =>
    apply valid_of_opens opens
    intro d loads
    obtain ⟨d', loads', rfl⟩ := map_eq_ok.1 opens
    cases loads.symm.trans loads'
    exact HistoryStore.valid_of_seriesNames empty d rfl
  | ingested _ config series e valid => exact valid.ingest config series e
  | tookIn _ config d valid => exact { valid with store := valid.store.importDocument config d }
  | flushBegan _ now valid => exact valid.beginFlush now
  | flushEnded _ now ending whole valid => exact valid.endFlush now ending whole
  | landed _ _ waiting read valid other =>
    refine { valid with file := fun d loads => ?_ }
    rw [read] at loads
    exact (other.pending _ waiting).of_loaded loads
  | reopened _ config format opens valid => exact valid_of_opens opens valid.file

end FileStore

end BenchLedger
