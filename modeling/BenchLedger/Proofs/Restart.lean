import BenchLedger.Proofs.SavedFiles
import BenchLedger.Proofs.RereadDocuments
import BenchLedger.Proofs.StoredEntries
import BenchLedger.Proofs.Utf8Text
import BenchLedger.Proofs.ValidEntries
import BenchLedger.Session.FileStore

/-!
A store after a restart. Main statement: `FileStore.restart_transparent`: once a file-backed store
is clean, the store that is opened on its file cannot be told from it by its readers, now or after
further appends.
-/

namespace BenchLedger

/-! ### Files -/

/-- A file that was written with a document is loaded as what the document is decoded to. -/
theorem loaded_encode_of_decode (path : String) {format : StorageFormat} {d d' : HistoryDocument}
    (decoded : HistoryDocument.decode (d.encode format) = .ok d') :
    CommandLine.loaded path (.ok (Text.utf8Bytes (d.encode format).toList)) = .ok (some d') := by
  simp only [CommandLine.loaded, textOf_utf8Bytes, HistoryDocument.encode_not_blank, decoded,
    Bool.false_eq_true, if_false]
  rfl

/-- A file that was written with a document is loaded as the document. -/
theorem loaded_encode (path : String) (format : StorageFormat) {d : HistoryDocument}
    (typed : d.WellTyped) (literals : ∀ x ∈ d.values, (Json.Number.real x).ReadsBack) :
    CommandLine.loaded path (.ok (Text.utf8Bytes (d.encode format).toList)) = .ok (some d) :=
  loaded_encode_of_decode path (HistoryDocument.decode_encode typed literals format)

/-- What a file gives is storable. -/
theorem storable_of_loaded {path : String} {bytes : Except FileFault (List Nat)}
    {d : Option HistoryDocument} (h : CommandLine.loaded path bytes = .ok d) :
    ∀ d' ∈ d, d'.Storable := by
  unfold CommandLine.loaded at h
  split at h
  · cases h
    simp
  · cases h
  split at h
  · cases h
    simp
  · obtain ⟨d', decoded, rfl⟩ := map_eq_ok.1 h
    intro d'' same
    cases same
    exact HistoryDocument.decode_storable decoded

/-! ### Documents of a store -/

namespace HistoryStore

/-- The values of all entries of a store. -/
def values (s : HistoryStore) : List Float :=
  s.series.values.flatMap fun series => series.entries.flatMap CommitEntry.values

/-- An entry of a document of a store is an entry of one of its series. -/
private theorem entry_of_document {s : HistoryStore} (h : s.Storable) {now : Int}
    {es : List CommitEntry} (series : es ∈ (s.document now).entries.values) {e : CommitEntry}
    (member : e ∈ es) :
    e.Storable ∧ ∃ t ∈ s.series.values, e ∈ t.entries := by
  obtain ⟨name, found⟩ := NameMap.mem_values.1 series
  simp only [document, NameMap.get?_map, Option.map_eq_some_iff] at found
  obtain ⟨t, here, rfl⟩ := found
  obtain ⟨_, represents, _⟩ := h name t here
  have entry : e ∈ t.entries := represents.view.perm.mem_iff.1 member
  exact ⟨AllEntries.of_mem_entries h here entry, t, NameMap.mem_values.2 ⟨name, here⟩, entry⟩

theorem wellTyped_document {s : HistoryStore} (h : s.Storable) {now : Int} (word : IsWord now) :
    (s.document now).WellTyped := by
  refine ⟨?_, fun es series e member => (entry_of_document h series member).1.toWellTyped⟩
  intro i same
  cases same
  exact word

theorem values_document {s : HistoryStore} (h : s.Storable) {now : Int} {x : Float}
    (value : x ∈ (s.document now).values) : x ∈ s.values ∧ x.isFinite = true := by
  obtain ⟨es, series, value⟩ := List.mem_flatMap.1 value
  obtain ⟨e, member, value⟩ := List.mem_flatMap.1 value
  obtain ⟨storable, t, here, entry⟩ := entry_of_document h series member
  exact ⟨List.mem_flatMap.2 ⟨t, here, List.mem_flatMap.2 ⟨e, entry, value⟩⟩,
    storable.finite x value⟩

end HistoryStore

/-! ### Runs -/

namespace FileStore

/-- Nothing that was appended is missing from the document of generation `g`, unless it came
later. -/
def Covers (s : HistoryStore) (g : Nat) (P : HistoryDocument → Prop) : Prop :=
  g = s.generation → ∃ now, IsWord now ∧ P (s.document now)

/-- What holds at every moment from the opening on. -/
structure Sound (f : FileStore) : Prop where
  storable : f.store.Storable
  behind : f.store.flushed ≤ f.store.generation
  -- A failed flush leaves the store dirty.
  failure : f.store.lastError.isSome = true → f.store.flushed < f.store.generation
  pending : ∀ p ∈ f.pending, f.store.flushed < p.generation ∧ p.generation ≤ f.store.generation ∧
    Covers f.store p.generation fun d => p.document = d
  -- After the first flush that succeeds, the file holds all of a clean store.
  saved : 0 < f.store.flushed →
    Covers f.store f.store.flushed fun d => f.disk.read f.path = .ok (f.bytes d)

end FileStore

/-- The arguments of an operation are what their types promise. -/
def StoreOperation.WellTyped : StoreOperation → Prop
  | .append _ e => e.WellTyped
  | .ingest _ _ e => e.WellTyped
  | .takeIn _ d => d.WellTyped
  | .flushBegins now => IsWord now
  | .flushEnds _ _ => True

namespace FileStore

theorem sound_ofFile {config : StoreConfig} {path : String} {format : StorageFormat} {disk : Disk}
    {f : FileStore} (h : ofFile config path format disk = .ok f) : f.Sound := by
  obtain ⟨d, loaded, rfl⟩ := map_eq_ok.1 h
  exact {
    storable := HistoryStore.storable_ofDocument config (storable_of_loaded loaded)
    behind := Nat.le_refl 0
    failure := by simp [HistoryStore.ofDocument]
    pending := by simp
    saved := by simp [HistoryStore.ofDocument] }

/-- Appends keep the invariant up: they raise the generation, and no document covers it then. -/
theorem Sound.later {f : FileStore} (h : f.Sound) {s : HistoryStore}
    (later : HistoryStore.Later f.store s) : Sound { f with store := s } := by
  rcases later.raised with rfl | raised
  · exact h
  have behind := h.behind
  refine ⟨later.storable h.storable, ?_, ?_, ?_, ?_⟩
  · rw [later.flushed]
    show f.store.flushed ≤ s.generation
    omega
  · intro _
    rw [later.flushed]
    show f.store.flushed < s.generation
    omega
  · intro p waiting
    obtain ⟨ahead, bound, _⟩ := h.pending p waiting
    rw [later.flushed]
    show f.store.flushed < p.generation ∧ p.generation ≤ s.generation ∧ _
    refine ⟨ahead, by omega, fun same => ?_⟩
    change p.generation = s.generation at same
    omega
  · intro _ same
    rw [later.flushed] at same
    change f.store.flushed = s.generation at same
    omega

theorem Sound.beginFlush {f : FileStore} (h : f.Sound) {now : Int} (word : IsWord now) :
    (f.beginFlush now).Sound := by
  unfold FileStore.beginFlush
  split
  · exact h
  next idle =>
    refine { h with pending := fun p begun => ?_ }
    simp only [HistoryStore.beginFlush, Option.mem_def] at begun
    split at begun
    · cases begun
    next unsettled =>
      cases begun
      have behind := h.behind
      have ahead : f.store.flushed < f.store.generation := by
        by_cases failed : f.store.lastError.isSome = true
        · exact h.failure failed
        · have dirty : f.store.generation ≠ f.store.flushed := by
            intro same
            simp only [HistoryStore.isSettled, HistoryStore.isDirty, same] at unsettled
            simp at unsettled failed
            exact unsettled failed
          omega
      exact ⟨ahead, Nat.le_refl _, fun _ => ⟨now, word, rfl⟩⟩

private theorem Sound.fail {f : FileStore} (h : f.Sound) {p : HistoryStore.PendingFlush}
    (waiting : p ∈ f.pending) (now : Int) (error : PersistenceError) (left : Disk) :
    Sound { f with
      disk := left
      store := (f.store.endFlush p now (.error error)).1
      pending := none } := by
  obtain ⟨ahead, bound, _⟩ := h.pending p waiting
  have behind : f.store.flushed < f.store.generation := by omega
  refine ⟨h.storable, h.behind, fun _ => behind, by simp, fun _ same => ?_⟩
  exact absurd same (Nat.ne_of_lt behind)

private theorem Sound.succeed {f : FileStore} (h : f.Sound) {p : HistoryStore.PendingFlush}
    (waiting : p ∈ f.pending) (now : Int) {disk : Disk}
    (saved : f.disk.save f.path (f.bytes p.document) = (disk, .ok ())) :
    Sound { f with
      disk
      store := (f.store.endFlush p now (.ok ())).1
      pending := none } := by
  obtain ⟨_, bound, covers⟩ := h.pending p waiting
  refine ⟨h.storable, bound, by simp [HistoryStore.endFlush], by simp, fun _ same => ?_⟩
  obtain ⟨moment, word, document⟩ := covers same
  refine ⟨moment, word, ?_⟩
  have read := Disk.read_save saved
  rw [document] at read
  exact read

theorem Sound.endFlush {f : FileStore} (h : f.Sound) (now : Int) (ending : SaveEnding) :
    (f.endFlush now ending).Sound := by
  unfold FileStore.endFlush
  split
  · exact h
  next p waiting =>
    cases ending with
    | failed error left => exact h.fail waiting now error left
    | ran =>
      cases result : f.disk.save f.path (f.bytes p.document) with
      | mk disk result' =>
        simp only
        cases result' with
        | ok => exact h.succeed waiting now result
        | error e => exact h.fail waiting now _ disk

theorem Sound.step {f : FileStore} (h : f.Sound) {o : StoreOperation} (typed : o.WellTyped) :
    (f.step o).Sound := by
  cases o with
  | append series e =>
    refine h.later ?_
    unfold HistoryStore.appended
    split
    next accepted => exact HistoryStore.later_of_append typed accepted
    · exact .refl _
  | ingest config series e =>
    unfold FileStore.step
    simp only
    split
    next accepted => exact h.later (HistoryStore.later_of_accept typed accepted)
    · exact h
  | takeIn config d => exact h.later (HistoryStore.later_importDocument config f.store typed)
  | flushBegins now => exact h.beginFlush typed
  | flushEnds now ending => exact h.endFlush now ending

theorem Sound.run {f : FileStore} (h : f.Sound) {operations : List StoreOperation}
    (typed : ∀ o ∈ operations, o.WellTyped) : (f.run operations).Sound := by
  induction operations generalizing f with
  | nil => exact h
  | cons o operations ih =>
    exact ih (h.step (typed o (by simp))) fun o' member => typed o' (by simp [member])

end FileStore

/-! ### Two stores at work -/

namespace HistoryStore

/-- Both stores have the same series, and series of one name are related. -/
def Agree (R : Series → Series → Prop) (s s' : HistoryStore) : Prop :=
  ∀ name, Option.Rel R (s.series.get? name) (s'.series.get? name)

/-- No append changes the run time of a commit that its series has already. -/
def KeepsDates (s : HistoryStore) : List (String × CommitEntry) → Prop
  | [] => True
  | (series, e) :: rest =>
    (checkAppend series e = .ok () →
        KeepsDate e ((s.series.get? series).getD .empty).entries) ∧
      (s.appended series e).KeepsDates rest

theorem Agree.mono {R R' : Series → Series → Prop} {s s' : HistoryStore} (h : Agree R s s')
    (weaker : ∀ t t', R t t' → R' t t') : Agree R' s s' := by
  intro name
  have related := h name
  generalize s.series.get? name = t, s'.series.get? name = t' at related ⊢
  cases related with
  | none => exact .none
  | some related => exact .some (weaker _ _ related)

/-- An append keeps two stores in agreement if the insertion keeps the series related. -/
theorem Agree.appended {R : Series → Series → Prop} {s s' : HistoryStore} (h : Agree R s s')
    (series : String) (e : CommitEntry) (new : R .empty .empty)
    (upsert : checkAppend series e = .ok () → ∀ t, R ((s.series.get? series).getD .empty) t →
      R (((s.series.get? series).getD .empty).upsert e).1 (t.upsert e).1) :
    Agree R (s.appended series e) (s'.appended series e) := by
  unfold HistoryStore.appended append
  cases checked : checkAppend series e with
  | error r => exact h
  | ok _ =>
    have related :
        R ((s.series.get? series).getD .empty) ((s'.series.get? series).getD .empty) := by
      have known := h series
      generalize s.series.get? series = t, s'.series.get? series = t' at known
      cases known with
      | none => exact new
      | some known => exact known
    intro name
    simp only [put, NameMap.get?_insert]
    split
    · exact .some (upsert checked _ related)
    · exact h name

private theorem sameEntries_empty : Series.SameEntries .empty .empty :=
  ⟨⟨[], Series.represents_empty⟩, ⟨[], Series.represents_empty⟩, .refl _⟩

private theorem sameOrder_empty : Series.SameOrder .empty .empty :=
  { sameEntries_empty with ties := fun _ => rfl }

theorem agree_sameEntries {s s' : HistoryStore} (h : Agree Series.SameEntries s s')
    (appends : List (String × CommitEntry)) :
    Agree Series.SameEntries (s.appendAll appends) (s'.appendAll appends) := by
  induction appends generalizing s s' with
  | nil => exact h
  | cons a rest ih =>
    exact ih (h.appended a.1 a.2 sameEntries_empty fun _ _ related => related.upsert a.2)

theorem agree_sameOrder {s s' : HistoryStore} (h : Agree Series.SameOrder s s')
    {appends : List (String × CommitEntry)} (keeps : s.KeepsDates appends) :
    Agree Series.SameOrder (s.appendAll appends) (s'.appendAll appends) := by
  induction appends generalizing s s' with
  | nil => exact h
  | cons a rest ih =>
    obtain ⟨first, later⟩ := keeps
    exact ih (h.appended a.1 a.2 sameOrder_empty
      fun checked _ related => related.upsert (first checked)) later

/-! ### Readers -/

/-- What two readers of one series see is the same but for the order within a run time. -/
def SameSnapshots : Except Failure SeriesSnapshot → Except Failure SeriesSnapshot → Prop
  | .ok a, .ok b => a.entries.Perm b.entries ∧ a.entries.map (·.date) = b.entries.map (·.date)
  | .error a, .error b => a = b
  | _, _ => False

theorem Agree.sameSnapshots {s s' : HistoryStore} (h : Agree Series.SameEntries s s')
    (name : String) : SameSnapshots (s.getSeries name) (s'.getSeries name) := by
  have related := h name
  unfold getSeries
  generalize s.series.get? name = t, s'.series.get? name = t' at related ⊢
  cases related with
  | none => rfl
  | some related => exact related.views

theorem Agree.getSeries_eq {s s' : HistoryStore} (h : Agree Series.SameOrder s s')
    (name : String) : s'.getSeries name = s.getSeries name := by
  have related := h name
  unfold getSeries
  generalize s.series.get? name = t, s'.series.get? name = t' at related ⊢
  cases related with
  | none => rfl
  | some related => simp only [Series.snapshot, related.view_eq]

/-- A store agrees with the one that is loaded from its document. -/
theorem agree_reload {s : HistoryStore} (h : s.Storable) (config : StoreConfig) (now : Int) :
    Agree Series.SameOrder s (ofDocument config (some (s.document now))) := by
  intro name
  simp only [ofDocument, document, Option.getD_some, NameMap.get?_map]
  cases found : s.series.get? name with
  | none => exact .none
  | some t =>
    obtain ⟨_, represents, _⟩ := h name t found
    exact .some represents.sameOrder_reload

theorem seriesNames_reload (s : HistoryStore) (config : StoreConfig) (now : Int) :
    (ofDocument config (some (s.document now))).seriesNames = s.seriesNames := by
  simp [seriesNames, NameMap.names, ofDocument, document, NameMap.map]

end HistoryStore

/-! ### Restarts -/

namespace FileStore

theorem step_place (f : FileStore) (o : StoreOperation) :
    (f.step o).path = f.path ∧ (f.step o).format = f.format := by
  cases o with
  | append series e => exact ⟨rfl, rfl⟩
  | ingest config series e =>
    unfold step
    simp only
    split <;> exact ⟨rfl, rfl⟩
  | takeIn config d => exact ⟨rfl, rfl⟩
  | flushBegins now =>
    unfold step beginFlush
    simp only
    split <;> exact ⟨rfl, rfl⟩
  | flushEnds now ending =>
    unfold step endFlush
    simp only
    split <;> exact ⟨rfl, rfl⟩

/-- The file and its encoding stay the same. -/
theorem run_place (f : FileStore) (operations : List StoreOperation) :
    (f.run operations).path = f.path ∧ (f.run operations).format = f.format := by
  induction operations generalizing f with
  | nil => exact ⟨rfl, rfl⟩
  | cons o operations ih =>
    obtain ⟨path, format⟩ := ih (f.step o)
    obtain ⟨path', format'⟩ := step_place f o
    exact ⟨path.trans path', format.trans format'⟩

/-- A restart cannot be told by readers. Once a file-backed store is clean after an append, its
file can be opened; the opened store has the same series with the same snapshots and the same
repository, and is clean. After the same further appends the two still show the same entries with
the same run times in turn, and the same lists if no append changes the run time of a commit. That
the literals of finite doubles read back is assumed of the stored values. -/
theorem restart_transparent {config config' : StoreConfig} {path : String}
    {format : StorageFormat} {disk : Disk} {f : FileStore} {operations : List StoreOperation}
    (opened : ofFile config path format disk = .ok f) (typed : ∀ o ∈ operations, o.WellTyped)
    (clean : (f.run operations).store.isDirty = false)
    (appended : 0 < (f.run operations).store.generation) (noUrl : config'.repoUrl = none)
    (literals : ∀ x ∈ (f.run operations).store.values,
      x.isFinite = true → (Json.Number.real x).ReadsBack) :
    ∃ g, ofFile config' path format (f.run operations).disk = .ok g ∧
      g.store.seriesNames = (f.run operations).store.seriesNames ∧
      (∀ name, g.store.getSeries name = (f.run operations).store.getSeries name) ∧
      g.store.repoUrl = (f.run operations).store.repoUrl ∧
      g.store.isDirty = false ∧
      ∀ appends,
        (∀ name, HistoryStore.SameSnapshots
          (((f.run operations).store.appendAll appends).getSeries name)
          ((g.store.appendAll appends).getSeries name)) ∧
        ((f.run operations).store.KeepsDates appends →
          ∀ name, (g.store.appendAll appends).getSeries name
            = ((f.run operations).store.appendAll appends).getSeries name) := by
  have sound := (sound_ofFile opened).run typed
  have place := run_place f operations
  obtain ⟨_, _, rfl⟩ := map_eq_ok.1 opened
  generalize FileStore.run _ operations = e at *
  have settled : e.store.flushed = e.store.generation := by
    simp only [HistoryStore.isDirty, bne_eq_false_iff_eq] at clean
    exact clean.symm
  obtain ⟨now, word, file⟩ := sound.saved (by omega) settled
  have storable := sound.storable
  have loads : CommandLine.loaded path (e.disk.read path) = .ok (some (e.store.document now)) := by
    rw [place.1] at file
    rw [file, bytes, place.2]
    refine loaded_encode path format (HistoryStore.wellTyped_document storable word)
      fun x value => ?_
    obtain ⟨stored, finite⟩ := HistoryStore.values_document storable value
    exact literals x stored finite
  refine ⟨_, by rw [ofFile, loads]; rfl, ?_⟩
  have agree := HistoryStore.agree_reload storable config' now
  have agree' : HistoryStore.Agree Series.SameEntries e.store
      (.ofDocument config' (some (e.store.document now))) :=
    agree.mono fun _ _ related => related.toSameEntries
  refine ⟨HistoryStore.seriesNames_reload _ config' now, agree.getSeries_eq, ?_, rfl,
    fun appends => ⟨?_, fun keeps => ?_⟩⟩
  · simp [HistoryStore.ofDocument, noUrl, HistoryStore.document]
  · exact (HistoryStore.agree_sameEntries agree' appends).sameSnapshots
  · exact (HistoryStore.agree_sameOrder agree keeps).getSeries_eq

/-- An empty disk with a store that is about to be opened. -/
def newStore : FileStore :=
  ⟨"h/data.js", .dataJs, ⟨[], []⟩, .ofDocument {} none, none⟩

/-- Two runs of one moment and a flush, with an append while the document is being saved, then one
more flush. -/
def shortRun : List StoreOperation :=
  let entry (id : String) (value : Float) : CommitEntry :=
    .plain id 5 [⟨"b/op", value, "ns/op", none⟩]
  [.append "s" (entry "bbbb" 100.25), .append "s" (entry "aaaa" 0.5), .flushBegins 7,
    .append "s" (entry "bbbb" 2.0), .flushEnds 8 .ran, .flushBegins 9, .flushEnds 10 .ran]

theorem restart_after_shortRun :
    ∃ g, ofFile {} "h/data.js" .dataJs (newStore.run shortRun).disk = .ok g ∧
      ∀ name, g.store.getSeries name = (newStore.run shortRun).store.getSeries name := by
  have typed : ∀ o ∈ shortRun, o.WellTyped := by
    simp only [shortRun, List.forall_mem_cons, StoreOperation.WellTyped]
    refine ⟨⟨by decide, by decide⟩, ⟨by decide, by decide⟩, by decide, ⟨by decide, by decide⟩, ?_⟩
    refine ⟨trivial, by decide, trivial, by simp⟩
  have values : (newStore.run shortRun).store.values = [2.0, 0.5] := by decide +kernel
  have literals : ∀ x ∈ (newStore.run shortRun).store.values,
      x.isFinite = true → (Json.Number.real x).ReadsBack := by
    simp only [values, List.forall_mem_cons]
    exact ⟨fun _ => rfl, fun _ => rfl, by simp⟩
  have absent : newStore.disk.read "h/data.js" = .error .missing := by decide +kernel
  have opened : ofFile {} "h/data.js" .dataJs newStore.disk = .ok newStore := by
    rw [ofFile, absent]
    rfl
  have noUrl : ({} : StoreConfig).repoUrl = none := rfl
  obtain ⟨g, opens, _, same, _⟩ := restart_transparent opened typed (by decide +kernel)
    (by decide +kernel) noUrl literals
  exact ⟨g, opens, same⟩

end FileStore

end BenchLedger
