import BenchLedger.Proofs.ExportImport
import BenchLedger.Proofs.RealText

/-!
What becomes of the repository of a history that takes a document in. Main statement:
`CommandLine.Invocation.repository_after_takeIn`: the repository of the document gets into the
history just if some entry of the document is accepted, and none gets lost.
-/

namespace BenchLedger

/-! ### Repositories in files -/

/-- Whatever its values are read as, a document reads back with its repository. -/
theorem HistoryDocument.repoUrl_of_decode_encode {d d' : HistoryDocument}
    (finite : ∀ x ∈ d.values, x.isFinite = true) {format : StorageFormat}
    (reads : decode (d.encode format) = .ok d') : d'.repoUrl = d.repoUrl := by
  have legible : ∀ x ∈ d.values, (Json.Number.real x).Legible :=
    fun x value => Json.legible_real (finite x value)
  rw [decode_encode_eq legible, mapError_eq_ok, decoder_toJson] at reads
  obtain ⟨_, _, _, _, rfl⟩ := reads
  rfl

/-- Whatever a file that was written with a document is loaded as has its repository. -/
theorem repoUrl_of_loaded_encode {path : String} {d : HistoryDocument} {format : StorageFormat}
    (finite : ∀ x ∈ d.values, x.isFinite = true) {new : Option HistoryDocument}
    (reads : CommandLine.loaded path (.ok (Text.utf8Bytes (d.encode format).toList)) = .ok new) :
    (new.getD .empty).repoUrl = d.repoUrl := by
  simp only [CommandLine.loaded, textOf_utf8Bytes, HistoryDocument.encode_not_blank,
    Bool.false_eq_true, if_false] at reads
  obtain ⟨d', decoded, rfl⟩ := map_eq_ok.1 reads
  exact HistoryDocument.repoUrl_of_decode_encode finite decoded

/-- Some entry of a document is valid for its series. -/
def HistoryDocument.HasValid (d : HistoryDocument) : Prop :=
  ∃ name es, d.entries.get? name = some es ∧ ∃ e ∈ es, e.ValidFor name

namespace CommandLine

variable {input : List Nat} {now : Int} {d : Disk}

/-! ### Runs that take a document in -/

section

variable {i : Invocation} {path : String} {dropComposite : Bool}
  (command : i.command = .takeIn path dropComposite)

include command

/-- A run that has succeeded has found its document and has opened the history. -/
theorem opened_of_takeIn {outcome : Outcome}
    (ended : (i.onDisk d input now).1.ending = .ok outcome) :
    ∃ source old, i.command.source d = .ok (some source) ∧
      loaded i.history (d.read i.history) = .ok old := by
  rw [Invocation.onDisk_eq] at ended
  cases found : i.command.source d with
  | error e =>
    rw [found] at ended
    cases ended
  | ok offered =>
    rw [found] at ended
    cases opened : loaded i.history (d.read i.history) with
    | error e =>
      dsimp only at ended
      rw [opened] at ended
      cases ended
    | ok old =>
      rw [command] at found
      unfold Command.source at found
      dsimp only at found
      split at found
      · cases found
      · obtain ⟨source, _, rfl⟩ := map_eq_ok.1 found
        exact ⟨source, old, rfl, rfl⟩

variable {source : HistoryDocument} (found : i.command.source d = .ok (some source))

include found

/-- Nothing is taken in just if no entry is valid. -/
theorem takes_eq_nil_iff (input : List Nat) : i.takes d input = [] ↔ ¬source.HasValid := by
  rw [command] at found
  have takes : i.takes d input = accepted ⟨!dropComposite⟩ source.inOrder := by
    simp only [Invocation.takes, Command.ingestConfig, Command.offered, command, found]
    rfl
  rw [takes, List.eq_nil_iff_forall_not_mem]
  constructor
  · rintro none ⟨name, es, series, e, member, valid⟩
    have offered : (name, e) ∈ source.inOrder :=
      HistoryDocument.mem_inOrder.2 ⟨es, series, member⟩
    exact none _ (mem_accepted.2 ⟨e, offered, valid, rfl⟩)
  · rintro invalid ⟨name, e⟩ taken
    obtain ⟨raw, member, valid, _⟩ := mem_accepted.1 taken
    obtain ⟨es, series, member⟩ := HistoryDocument.mem_inOrder.1 member
    exact invalid ⟨name, es, series, raw, member, valid⟩

omit command in
/-- A run that takes something in and succeeds leaves the repository of the document, or the one the
history had if the document has none. -/
theorem repository_of_taken {outcome : Outcome}
    (ended : (i.onDisk d input now).1.ending = .ok outcome) (some : i.takes d input ≠ [])
    {old new : Option HistoryDocument} (opened : loaded i.history (d.read i.history) = .ok old)
    (reads : loaded i.history ((i.onDisk d input now).2.read i.history) = .ok new) :
    (new.getD .empty).repoUrl = source.repoUrl.or (old.getD .empty).repoUrl := by
  obtain ⟨source', old', found', opened', saved⟩ := (i.ran d input now).saved_of_ok some ended
  cases found.symm.trans found'
  cases opened.symm.trans opened'
  have storable : ((workingStore (.some source) old).putAll (i.takes d input)).Storable :=
    storable_putAll opened
  have finite (x : Float) (value : x ∈ (((workingStore (.some source) old).putAll
      (i.takes d input)).document now).values) : x.isFinite = true :=
    (HistoryStore.values_document storable value).2
  rw [Disk.read_save saved] at reads
  rw [repoUrl_of_loaded_encode finite reads]
  exact (HistoryStore.grown_putAll (workingStore (.some source) old) (i.takes d input)).repoUrl

end

/-- Which repository a history has when a document has been taken in, whether composite records are
dropped or not. It keeps its own one if the document has none. The one of the document gets into the
history just if some entry of the document is valid, unless it was there before: if no entry is, the
run succeeds without writing anything. If some entry is, the file can be read. -/
theorem Invocation.repository_after_takeIn {i : Invocation} {path : String} {dropComposite : Bool}
    (command : i.command = .takeIn path dropComposite) {outcome : Outcome}
    (ended : (i.onDisk d input now).1.ending = .ok outcome) :
    ∃ source old, i.command.source d = .ok (some source) ∧
      loaded i.history (d.read i.history) = .ok old ∧
      (¬source.HasValid → (i.onDisk d input now).2 = d) ∧
      (source.HasValid → IsWord now →
        ∃ new, loaded i.history ((i.onDisk d input now).2.read i.history) = .ok (some new)) ∧
      ∀ new, loaded i.history ((i.onDisk d input now).2.read i.history) = .ok new →
        (source.repoUrl = none → (new.getD .empty).repoUrl = (old.getD .empty).repoUrl) ∧
        ∀ url, source.repoUrl = some url →
          ((new.getD .empty).repoUrl = some url ↔
            source.HasValid ∨ (old.getD .empty).repoUrl = some url) := by
  obtain ⟨source, old, found, opened⟩ := opened_of_takeIn command ended
  have unchanged := fun none => (i.ran d input now).unchanged (by simp [command]) none
  refine ⟨source, old, found, opened, fun invalid => ?_, fun valid word => ?_, fun new reads => ?_⟩
  · exact unchanged ((takes_eq_nil_iff command found input).2 invalid)
  · have some := mt (takes_eq_nil_iff command found input).1 (not_not_intro valid)
    obtain ⟨_, _, _, opened', saved⟩ := (i.ran d input now).saved_of_ok some ended
    exact ⟨_, loaded_of_written_reread opened' word rfl (Disk.read_save saved)⟩
  · by_cases valid : source.HasValid
    · have some := mt (takes_eq_nil_iff command found input).1 (not_not_intro valid)
      rw [repository_of_taken found ended some opened reads]
      refine ⟨fun none => by rw [none, Option.none_or], fun url given => ?_⟩
      rw [given, Option.some_or]
      exact iff_of_true rfl (.inl valid)
    · -- Nothing was written.
      rw [unchanged ((takes_eq_nil_iff command found input).2 valid)] at reads
      cases opened.symm.trans reads
      exact ⟨fun _ => rfl, fun url _ => (or_iff_right valid).symm⟩

/-! ### Two repositories -/

/-- A document with a repository. -/
def repositoryDocument (url : String) (entries : List CommitEntry) : HistoryDocument :=
  ⟨none, some url, .ofList [("s", entries)]⟩

/-- A disk with a history and a document to take in. -/
def twoRepositories (entries : List CommitEntry) : Disk :=
  ⟨[(["h.json"], .file (Text.utf8Bytes
        ((repositoryDocument "https://example.com/old" []).encode .json).toList)),
    (["source.json"], .file (Text.utf8Bytes
        ((repositoryDocument "https://example.com/new" entries).encode .json).toList))], []⟩

/-- The history can be written, whatever the two files hold. -/
theorem writable_twoRepositories (entries : List CommitEntry) :
    (twoRepositories entries).Writable "h.json" := by
  unfold twoRepositories
  generalize Text.utf8Bytes _ = old
  generalize Text.utf8Bytes _ = new
  exact fun _ => ⟨_, rfl⟩

def repositoryImport : Invocation :=
  ⟨"h.json", none, false, .takeIn "source.json" false⟩

section

variable {url : String} {entries : List CommitEntry}

theorem wellTyped_repositoryDocument (typed : ∀ e ∈ entries, e.WellTyped) :
    (repositoryDocument url entries).WellTyped where
  lastUpdate := by simp [repositoryDocument]
  entries := by
    intro es series
    obtain rfl : es = entries := List.mem_singleton.1 series
    exact typed

theorem values_repositoryDocument :
    (repositoryDocument url entries).values = entries.flatMap CommitEntry.values :=
  List.append_nil _

theorem opened_twoRepositories (entries : List CommitEntry) :
    loaded "h.json" ((twoRepositories entries).read "h.json") =
      .ok (some (repositoryDocument "https://example.com/old" [])) :=
  loaded_encode _ .json (wellTyped_repositoryDocument (by simp))
    (by simp [values_repositoryDocument])

theorem source_twoRepositories (typed : ∀ e ∈ entries, e.WellTyped)
    (literals : ∀ x ∈ entries.flatMap CommitEntry.values, (Json.Number.real x).ReadsBack) :
    repositoryImport.command.source (twoRepositories entries) =
      .ok (some (repositoryDocument "https://example.com/new" entries)) := by
  have read : (twoRepositories entries).read "source.json" = .ok (Text.utf8Bytes
      ((repositoryDocument "https://example.com/new" entries).encode .json).toList) := rfl
  rw [← values_repositoryDocument] at literals
  exact source_of_read (wellTyped_repositoryDocument typed) literals read

/-- The document is taken in. -/
theorem ended_repositoryImport {source : HistoryDocument}
    (found : repositoryImport.command.source (twoRepositories entries) = .ok (some source)) :
    (repositoryImport.onDisk (twoRepositories entries) [] 7).1.ending = .ok .success := by
  have opened : loaded repositoryImport.history
      ((twoRepositories entries).read repositoryImport.history) = _ :=
    opened_twoRepositories entries
  have writable : (twoRepositories entries).Writable repositoryImport.history :=
    writable_twoRepositories entries
  have reported : (repositoryImport.onDisk (twoRepositories entries) [] 7).1 = _ :=
    Invocation.onDisk_takeIn opened writable rfl found
  rw [reported]

end

theorem source_measured :
    repositoryImport.command.source (twoRepositories [Session.measuredEntry "aaaa"]) =
      .ok (some (repositoryDocument "https://example.com/new" [Session.measuredEntry "aaaa"])) := by
  have values : [Session.measuredEntry "aaaa"].flatMap CommitEntry.values = [100.25] := rfl
  refine source_twoRepositories ?_ ?_
  · rw [List.forall_mem_singleton]
    exact ⟨by decide, by decide +kernel⟩
  · rw [values, List.forall_mem_singleton]
    rfl

/-- The document has a run, so that its repository gets into the history. -/
theorem Invocation.repository_after_repositoryImport :
    let d := twoRepositories [Session.measuredEntry "aaaa"]
    ∃ new, loaded "h.json" ((repositoryImport.onDisk d [] 7).2.read "h.json") = .ok (some new) ∧
      new.repoUrl = some "https://example.com/new" := by
  intro d
  have opened := opened_twoRepositories [Session.measuredEntry "aaaa"]
  have command : repositoryImport.command = .takeIn "source.json" false := rfl
  have ended := ended_repositoryImport source_measured
  obtain ⟨source, old, found, opened', _, readable, repository⟩ :=
    repository_after_takeIn command ended
  cases source_measured.symm.trans found
  cases opened.symm.trans opened'
  have valid : (repositoryDocument "https://example.com/new"
      [Session.measuredEntry "aaaa"]).HasValid :=
    ⟨"s", _, rfl, _, .head _, valid_measuredEntry⟩
  obtain ⟨new, reads⟩ := readable valid (by decide)
  obtain ⟨_, carried⟩ := repository _ reads
  exact ⟨new, reads, (carried _ rfl).2 (.inl valid)⟩

/-- The document has no run, and the command succeeds without its repository. -/
theorem Invocation.repository_left_out :
    let d := twoRepositories []
    repositoryImport.command.source d =
        .ok (some (repositoryDocument "https://example.com/new" [])) ∧
      (repositoryImport.onDisk d [] 7).1.ending = .ok .success ∧
      loaded "h.json" ((repositoryImport.onDisk d [] 7).2.read "h.json") =
        .ok (some (repositoryDocument "https://example.com/old" [])) := by
  intro d
  have found : repositoryImport.command.source d =
      .ok (some (repositoryDocument "https://example.com/new" [])) :=
    source_twoRepositories (by simp) (by simp)
  have opened := opened_twoRepositories []
  have command : repositoryImport.command = .takeIn "source.json" false := rfl
  have ended := ended_repositoryImport found
  have none : ¬(repositoryDocument "https://example.com/new" []).HasValid := by
    rintro ⟨name, es, series, e, member, _⟩
    obtain rfl : es = [] := List.mem_singleton.1 (NameMap.mem_values.2 ⟨name, series⟩)
    cases member
  have same := (repositoryImport.ran d [] 7).unchanged (by simp [command])
    ((takes_eq_nil_iff command found []).2 none)
  refine ⟨found, ended, ?_⟩
  rw [same]
  exact opened

end CommandLine

end BenchLedger
