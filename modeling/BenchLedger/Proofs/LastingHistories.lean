import BenchLedger.Proofs.CommandEffects

/-!
Histories that have been filled by commands alone. Main statement:
`CommandLine.Built.holdsLasting`: their file can be opened, each entry stays as it is when it is
written, read and ingested again, and every series is in order.
-/

namespace BenchLedger

/-! ### Entries and documents that last -/

/-- An entry that stays as it is when it is written, read and ingested again. -/
structure CommitEntry.Lasting (series : String) (e : CommitEntry) : Prop where
  valid : e.ValidFor series
  -- Composite records have been taken apart.
  normal : normalizeEntry {} e = e
  typed : e.WellTyped
  literals : ∀ x ∈ e.values, (Json.Number.real x).ReadsBack

/-- A document of such entries, in order and with one for each commit. -/
structure HistoryDocument.Lasting (d : HistoryDocument) : Prop where
  entries : d.AllEntries CommitEntry.Lasting
  views : ∀ name es, d.entries.get? name = some es → es ≠ [] ∧ IsViewOf es es

theorem normalizeEntry_of_normalized (config : IngestConfig) (e : CommitEntry) :
    normalizeEntry {} (normalizeEntry config e) = normalizeEntry config e := by
  rw [normalizeEntry_normalizeEntry, Bool.and_true]

namespace HistoryDocument

theorem lasting_empty : empty.Lasting where
  entries := by
    intro name es found
    cases found
  views := by
    intro name es found
    cases found

theorem Absorbs.lasting {old new : HistoryDocument} {entries : List (String × CommitEntry)}
    (h : old.Absorbs entries new) (lasting : old.Lasting)
    (entered : ∀ name e, (name, e) ∈ entries → e.Lasting name) : new.Lasting where
  entries := by
    intro name es found e member
    rcases h.mem found member with ⟨before, known, here⟩ | given
    · exact lasting.entries name before known e here
    · exact entered name e given
  views := by
    intro name es found
    have view := h.series name es found
    refine ⟨view.ne_nil ?_, view.idem⟩
    rcases (h.names name).1 (by simp [found]) with known | some
    · obtain ⟨before, known⟩ := Option.isSome_iff_exists.1 known
      simp [known, (lasting.views name before known).1]
    · simp [some]

theorem Lasting.literals {d : HistoryDocument} (lasting : d.Lasting) :
    ∀ x ∈ d.values, (Json.Number.real x).ReadsBack := by
  intro x value
  obtain ⟨es, series, value⟩ := List.mem_flatMap.1 value
  obtain ⟨e, member, value⟩ := List.mem_flatMap.1 value
  obtain ⟨name, found⟩ := NameMap.mem_values.1 series
  exact (lasting.entries name es found e member).literals x value

end HistoryDocument

namespace CommandLine

variable {input : List Nat} {now : Int} {d d' : Disk} {path : String}

/-! ### Runs -/

/-- Disks on which the file of a path was missing at first, and has since been written by commands
only that take entries in. Whatever else is on the disk may change at any time. That the literals of
the values taken in read back is assumed. -/
inductive Built (path : String) : Disk → Prop
  | absent {d : Disk} (missing : d.read path = .error .missing) : Built path d
  | aside {d d' : Disk} (built : Built path d) (same : d'.read path = d.read path) : Built path d'
  | ran {d : Disk} (built : Built path d) {i : Invocation} (history : i.history = path)
    (fills : ∀ output format, i.command ≠ .copyTo output format) (input : List Nat) {now : Int}
    (word : IsWord now)
    (literals : ∀ p ∈ i.takes d input, ∀ x ∈ p.2.values, (Json.Number.real x).ReadsBack) :
    Built path (i.onDisk d input now).2

/-- If there is a file at a path, it can be opened as a history, and that lasts. -/
def HoldsLasting (path : String) (d : Disk) : Prop :=
  ∀ bytes, d.read path = .ok bytes →
    ∃ document, loaded path (.ok bytes) = .ok (some document) ∧ document.Lasting

theorem loaded_error {fault : FileFault} {document : Option HistoryDocument}
    (opened : loaded path (.error fault) = .ok document) : document = none := by
  unfold loaded at opened
  cases fault <;> cases opened
  rfl

theorem HoldsLasting.of_loaded (holds : HoldsLasting path d) {document : Option HistoryDocument}
    (opened : loaded path (d.read path) = .ok document) : (document.getD .empty).Lasting := by
  cases read : d.read path with
  | error fault =>
    rw [read] at opened
    rw [loaded_error opened]
    exact HistoryDocument.lasting_empty
  | ok bytes =>
    obtain ⟨held, reads, lasting⟩ := holds bytes read
    rw [read, reads] at opened
    cases opened
    exact lasting

/-- A path at which there is a file or nothing can be opened. -/
theorem HoldsLasting.opens (holds : HoldsLasting path d)
    (found : d.read path = .error .missing ∨ ∃ bytes, d.read path = .ok bytes) :
    ∃ document, loaded path (d.read path) = .ok document := by
  rcases found with missing | ⟨bytes, read⟩
  · exact ⟨none, loaded_missing missing⟩
  · obtain ⟨document, reads, _⟩ := holds bytes read
    rw [read]
    exact ⟨some document, reads⟩

theorem lasting_of_mem_takes {i : Invocation}
    (literals : ∀ p ∈ i.takes d input, ∀ x ∈ p.2.values, (Json.Number.real x).ReadsBack)
    {name : String} {e : CommitEntry} (member : (name, e) ∈ i.takes d input) : e.Lasting name where
  valid := valid_of_mem_accepted member
  normal := by
    obtain ⟨raw, _, _, rfl⟩ := mem_accepted.1 member
    exact normalizeEntry_of_normalized _ raw
  typed := (storable_of_mem_takes member).toWellTyped
  literals := literals _ member

/-- A lasting history that takes entries in lasts, and is read as it was saved. -/
theorem lasting_of_saved {i : Invocation} {source old : Option HistoryDocument}
    (opened : loaded i.history (d.read i.history) = .ok old) (before : (old.getD .empty).Lasting)
    (word : IsWord now)
    (literals : ∀ p ∈ i.takes d input, ∀ x ∈ p.2.values, (Json.Number.real x).ReadsBack)
    (saved : d.save i.history (Text.utf8Bytes ((((workingStore source old).putAll
      (i.takes d input)).document now).encode i.encoding).toList) = (d', .ok ())) :
    (((workingStore source old).putAll (i.takes d input)).document now).Lasting ∧
      loaded i.history (d'.read i.history) =
        .ok (some (((workingStore source old).putAll (i.takes d input)).document now)) := by
  have absorbs := HistoryStore.absorbs_document
    { policy := .manual, repoUrl := source.bind (·.repoUrl) } old (i.takes d input) now
  have lasting := absorbs.lasting before fun name e => lasting_of_mem_takes literals
  exact ⟨lasting, loaded_of_written opened word rfl (Disk.read_save saved) lasting.literals⟩

/-- A command that takes entries in leaves a lasting history, whether it succeeds or not. -/
theorem Ran.holdsLasting {i : Invocation} {outcome : Report × Disk}
    (ran : Ran i d input now outcome)
    (fills : ∀ output format, i.command ≠ .copyTo output format) (word : IsWord now)
    (literals : ∀ p ∈ i.takes d input, ∀ x ∈ p.2.values, (Json.Number.real x).ReadsBack)
    (holds : HoldsLasting i.history d) : HoldsLasting i.history outcome.2 := by
  cases ran with
  | refused => exact holds
  | answered => exact holds
  | copied command => exact absurd command (fills _ _)
  | notCopied command => exact absurd command (fills _ _)
  | @written source old answer d' some found opened saved =>
    intro bytes read
    obtain ⟨lasting, reads⟩ :=
      lasting_of_saved opened (holds.of_loaded opened) word literals (saveOn_eq_ok.1 saved)
    rw [read] at reads
    exact ⟨_, reads, lasting⟩
  | @notWritten attempted text error d' some failed =>
    intro bytes read
    obtain ⟨fault, failed⟩ := save_of_saveOn_error failed
    exact holds bytes (Disk.read_of_save_error failed read)

/-- What commands have built lasts. -/
theorem Built.holdsLasting (built : Built path d) : HoldsLasting path d := by
  induction built with
  | absent missing =>
    intro bytes read
    cases missing.symm.trans read
  | aside _ same ih => exact fun bytes read => ih bytes (same ▸ read)
  | @ran d built i history fills input now word literals ih =>
    subst history
    exact (i.ran d input now).holdsLasting fills word literals ih

end CommandLine

end BenchLedger
