import BenchLedger.Proofs.AppendedEntries
import BenchLedger.Proofs.DocumentImport
import BenchLedger.Session.FileStore

/-!
Which entries get into a store. Main statements: `HistoryStore.importDocument_eq_putAll`: a document
puts in what the ingestor accepts of it, in order; and `FileStore.isViewOf_run`: at any moment
readers see what was loaded and what has entered since.
-/

namespace BenchLedger

/-! ### What the ingestor accepts -/

/-- The entries that the ingestor takes of those it is offered, normalized. -/
def accepted (config : IngestConfig) (entries : List (String × CommitEntry)) :
    List (String × CommitEntry) :=
  entries.filterMap fun p =>
    (prepareEntry config p.1 p.2).toOption.map fun e => (p.1, e)

theorem mem_accepted {config : IngestConfig} {entries : List (String × CommitEntry)}
    {name : String} {e : CommitEntry} :
    (name, e) ∈ accepted config entries ↔
      ∃ raw, (name, raw) ∈ entries ∧ raw.ValidFor name ∧ e = normalizeEntry config raw := by
  simp only [accepted, List.mem_filterMap, Option.map_eq_some_iff]
  constructor
  · rintro ⟨⟨series, raw⟩, member, prepared, passed, same⟩
    cases same
    cases result : prepareEntry config series raw with
    | error r =>
      rw [result] at passed
      cases passed
    | ok _ =>
      rw [result] at passed
      cases passed
      obtain ⟨valid, rfl⟩ := prepareEntry_eq_ok.1 result
      exact ⟨raw, member, valid, rfl⟩
  · rintro ⟨raw, member, valid, rfl⟩
    refine ⟨(name, raw), member, normalizeEntry config raw, ?_, rfl⟩
    rw [prepareEntry_eq_ok.2 ⟨valid, rfl⟩]
    rfl

section

variable {config : IngestConfig} {series : String} {e : CommitEntry}
  {rest : List (String × CommitEntry)}

theorem accepted_cons_of_valid (valid : validateEntry series e = .ok ()) :
    accepted config ((series, e) :: rest) =
      (series, normalizeEntry config e) :: accepted config rest := by
  have prepared : prepareEntry config series e = .ok (normalizeEntry config e) :=
    prepareEntry_eq_ok.2 ⟨validateEntry_eq_ok.1 valid, rfl⟩
  exact List.filterMap_cons_some (by rw [prepared]; rfl)

theorem accepted_cons_of_invalid {r : Rejection} (invalid : validateEntry series e = .error r) :
    accepted config ((series, e) :: rest) = accepted config rest := by
  apply List.filterMap_cons_none
  simp only [prepareEntry, invalid, bind, Except.bind]
  rfl

end

/-- What is accepted is valid, and has no two records of one name. -/
theorem valid_of_mem_accepted {config : IngestConfig} {entries : List (String × CommitEntry)}
    {name : String} {e : CommitEntry} (member : (name, e) ∈ accepted config entries) :
    e.ValidFor name := by
  obtain ⟨raw, _, valid, rfl⟩ := mem_accepted.1 member
  exact valid.normalizeEntry config

namespace HistoryStore

theorem importEach_eq_putAll (config : IngestConfig) (state : HistoryStore × ImportReport)
    (entries : List (String × CommitEntry)) :
    (importEach config state entries).1 = state.1.putAll (accepted config entries) := by
  induction entries generalizing state with
  | nil => rfl
  | cons p rest ih =>
    obtain ⟨series, e⟩ := p
    have first : importEach config state ((series, e) :: rest) =
        importEach config (importEntry config series state e) rest := rfl
    rw [first, ih]
    cases checked : validateEntry series e with
    | ok _ => rw [importEntry_of_valid checked, accepted_cons_of_valid checked, putAll_cons]
    | error r => rw [importEntry_of_invalid checked, accepted_cons_of_invalid checked]

/-- A document puts in what the ingestor accepts of its entries, in their order. -/
theorem importDocument_eq_putAll (config : IngestConfig) (s : HistoryStore) (d : HistoryDocument) :
    (s.importDocument config d).1 = s.putAll (accepted config d.inOrder) := by
  rw [importDocument_eq_importEach, importEach_eq_putAll]

/-- An entry that is ingested is put in if it is accepted, and refused otherwise. -/
theorem accept_cases (config : IngestConfig) (s : HistoryStore) (series : String)
    (e : CommitEntry) :
    (∃ p, s.accept config series e = .ok (s.putAll (accepted config [(series, e)]), p)) ∨
      accepted config [(series, e)] = [] ∧
        ∃ r, validateEntry series e = .error r ∧
          s.accept config series e = .error (.rejected r) := by
  cases checked : validateEntry series e with
  | ok _ =>
    rw [accept_of_valid checked, accepted_cons_of_valid checked]
    exact .inl ⟨_, rfl⟩
  | error r =>
    exact .inr ⟨accepted_cons_of_invalid checked, r, rfl, accept_of_invalid checked config⟩

/-- Only series matter for what series become. -/
theorem series_putAll_congr {s s' : HistoryStore} (same : s.series = s'.series)
    (entries : List (String × CommitEntry)) :
    (s.putAll entries).series = (s'.putAll entries).series := by
  induction entries generalizing s s' with
  | nil => exact same
  | cons p rest ih =>
    refine ih ?_
    simp only [put, same]

end HistoryStore

/-! ### What readers see -/

theorem HistoryDocument.entriesFor_inOrder (d : HistoryDocument) (name : String) :
    entriesFor name d.inOrder = (d.entries.get? name).getD [] := by
  have listed : ∀ ps : List (String × List CommitEntry), NamesIncrease ps →
      entriesFor name (ps.flatMap fun p => p.2.map fun e => (p.1, e)) =
        (findName name ps).getD [] := by
    intro ps increasing
    induction ps with
    | nil => rfl
    | cons p rest ih =>
      obtain ⟨series, es⟩ := p
      obtain ⟨smallest, increasing⟩ := List.pairwise_cons.1 increasing
      have own : entriesFor name (es.map fun e => (series, e)) =
          if series = name then es else [] := by
        by_cases same : series = name
        · simp [entriesFor, same, List.filter_map, Function.comp_def]
        · simp [entriesFor, same]
      rw [List.flatMap_cons, entriesFor_append, own, ih increasing, findName]
      by_cases same : series = name
      · subst same
        have absent : findName series rest = none := by
          cases found : findName series rest with
          | none => rfl
          | some es' =>
            have member := NameMap.get?_eq_some (m := ⟨rest, increasing⟩).1 found
            exact absurd (smallest _ member) (String.lt_irrefl series)
        rw [if_pos rfl, if_pos rfl, absent, Option.getD_none, List.append_nil, Option.getD_some]
      · rw [if_neg same, if_neg (Ne.symm same), List.nil_append]
  exact listed d.entries.pairs d.entries.increasing

theorem HistoryDocument.mem_inOrder {d : HistoryDocument} {name : String} {e : CommitEntry} :
    (name, e) ∈ d.inOrder ↔ ∃ es, d.entries.get? name = some es ∧ e ∈ es := by
  rw [← mem_entriesFor, entriesFor_inOrder]
  cases d.entries.get? name <;> simp

namespace HistoryStore

variable {config : StoreConfig} {loaded : Option HistoryDocument}

/-- Readers see what was loaded and what was put in since. -/
theorem isViewOf_getSeries {entries : List (String × CommitEntry)} {name : String}
    {snapshot : SeriesSnapshot}
    (found : ((ofDocument config loaded).putAll entries).getSeries name = .ok snapshot) :
    IsViewOf (entriesFor name ((loaded.getD .empty).inOrder ++ entries)) snapshot.entries := by
  have start : (((ofDocument config loaded).series.get? name).getD .empty).Represents
      (entriesFor name (loaded.getD .empty).inOrder) := by
    rw [HistoryDocument.entriesFor_inOrder]
    simp only [ofDocument, NameMap.get?_map]
    cases (loaded.getD .empty).entries.get? name with
    | none => exact Series.represents_empty
    | some es => exact Series.represents_ofEntries es
  unfold getSeries at found
  rw [get?_putAll] at found
  rw [entriesFor_append]
  by_cases none : entriesFor name entries = []
  · rw [if_pos none] at found
    cases known : (ofDocument config loaded).series.get? name with
    | none =>
      rw [known] at found
      cases found
    | some t =>
      rw [known] at found start
      cases found
      rw [none, List.append_nil]
      exact start.isViewOf
  · rw [if_neg none] at found
    cases found
    exact (start.upsertAll _).isViewOf

end HistoryStore

/-- `new` is `old` after entries were put into their series one after the other. -/
structure HistoryDocument.Absorbs (old : HistoryDocument) (entries : List (String × CommitEntry))
    (new : HistoryDocument) : Prop where
  names : ∀ name, (new.entries.get? name).isSome = true ↔
    (old.entries.get? name).isSome = true ∨ entriesFor name entries ≠ []
  series : ∀ name es, new.entries.get? name = some es →
    IsViewOf ((old.entries.get? name).getD [] ++ entriesFor name entries) es

/-- Every entry was there before or has been put in. -/
theorem HistoryDocument.Absorbs.mem {old new : HistoryDocument}
    {entries : List (String × CommitEntry)} (h : old.Absorbs entries new) {name : String}
    {es : List CommitEntry} (found : new.entries.get? name = some es) {e : CommitEntry}
    (member : e ∈ es) :
    (∃ before, old.entries.get? name = some before ∧ e ∈ before) ∨ (name, e) ∈ entries := by
  have given := (lastFor?_some ((h.series name es found).mem_iff.1 member)).1
  rcases List.mem_append.1 given with before | entered
  · left
    cases known : old.entries.get? name with
    | none =>
      rw [known] at before
      cases before
    | some es' =>
      rw [known] at before
      exact ⟨es', rfl, before⟩
  · exact .inr (mem_entriesFor.1 entered)

theorem HistoryDocument.Absorbs.values {old new : HistoryDocument}
    {entries : List (String × CommitEntry)} (h : old.Absorbs entries new) {x : Float}
    (value : x ∈ new.values) : x ∈ old.values ++ entries.flatMap fun p => p.2.values := by
  obtain ⟨es, series, value⟩ := List.mem_flatMap.1 value
  obtain ⟨e, member, value⟩ := List.mem_flatMap.1 value
  obtain ⟨name, found⟩ := NameMap.mem_values.1 series
  rcases h.mem found member with ⟨before, known, here⟩ | entered
  · apply List.mem_append_left
    exact List.mem_flatMap.2 ⟨before, NameMap.mem_values.2 ⟨name, known⟩,
      List.mem_flatMap.2 ⟨e, here, value⟩⟩
  · exact List.mem_append_right _ (List.mem_flatMap.2 ⟨(name, e), entered, value⟩)

/-- A new history that has taken up one entry has one series with this entry. -/
theorem HistoryDocument.Absorbs.get?_single {new : HistoryDocument} {name : String}
    {e : CommitEntry} (h : empty.Absorbs [(name, e)] new) :
    new.entries.get? name = some [e] := by
  have given : entriesFor name [(name, e)] = [e] := by simp [entriesFor]
  obtain ⟨es, found⟩ := Option.isSome_iff_exists.1 ((h.names name).2 (.inr (by simp [given])))
  have view : IsViewOf [e] es := by
    have seen := h.series name es found
    rwa [given] at seen
  rw [found, view.unique (.self (List.pairwise_singleton _ _) (List.nodup_singleton _))]

/-- What is written of a history is what was loaded with all that was put in. -/
theorem HistoryStore.absorbs_document (config : StoreConfig) (loaded : Option HistoryDocument)
    (entries : List (String × CommitEntry)) (now : Int) :
    (loaded.getD .empty).Absorbs entries
      (((ofDocument config loaded).putAll entries).document now) where
  names := by
    intro name
    simp only [HistoryStore.document, NameMap.get?_map, Option.isSome_map, get?_putAll]
    by_cases none : entriesFor name entries = []
    · simp [none, ofDocument]
    · simp [none]
  series := by
    intro name es found
    simp only [HistoryStore.document, NameMap.get?_map, Option.map_eq_some_iff] at found
    obtain ⟨t, here, rfl⟩ := found
    have seen : ((ofDocument config loaded).putAll entries).getSeries name =
        .ok (t.snapshot name) := by
      rw [getSeries, here]
    rw [← HistoryDocument.entriesFor_inOrder, ← entriesFor_append]
    exact isViewOf_getSeries seen

/-! ### Runs -/

/-- The entries that an operation puts into a store. -/
def StoreOperation.enters : StoreOperation → List (String × CommitEntry)
  | .append series e => if (HistoryStore.checkAppend series e).isOk then [(series, e)] else []
  | .ingest config series e => accepted config [(series, e)]
  | .takeIn config d => accepted config d.inOrder
  | .flushBegins _ => []
  | .flushEnds _ _ => []

namespace FileStore

open HistoryStore (putAll_append series_putAll_congr)

theorem series_step (f : FileStore) (o : StoreOperation) :
    (f.step o).store.series = (f.store.putAll o.enters).series := by
  cases o with
  | append series e =>
    simp only [step, StoreOperation.enters, HistoryStore.appended, HistoryStore.append]
    cases HistoryStore.checkAppend series e <;> rfl
  | ingest config series e =>
    simp only [step, StoreOperation.enters]
    rcases HistoryStore.accept_cases config f.store series e with
      ⟨p, taken⟩ | ⟨none, r, _, refused⟩
    · rw [taken]
    · rw [refused, none]
      rfl
  | takeIn config d =>
    simp only [step, StoreOperation.enters, HistoryStore.importDocument_eq_putAll]
  | flushBegins now =>
    simp only [step, beginFlush]
    cases f.pending <;> rfl
  | flushEnds now ending =>
    simp only [step, endFlush]
    cases f.pending with
    | none => rfl
    | some p =>
      cases ending with
      | ran =>
        dsimp only
        cases f.disk.save f.path (f.bytes p.document) with
        | mk disk result => cases result <;> rfl
      | failed error left => rfl

/-- The series of a store hold what has entered, one operation after the other. -/
theorem series_run (f : FileStore) (operations : List StoreOperation) :
    (f.run operations).store.series =
      (f.store.putAll (operations.flatMap StoreOperation.enters)).series := by
  induction operations generalizing f with
  | nil => rfl
  | cons o rest ih =>
    have first : f.run (o :: rest) = (f.step o).run rest := rfl
    rw [first, ih, List.flatMap_cons, putAll_append]
    exact series_putAll_congr (series_step f o) _

/-- At any moment readers see what was loaded and what has entered since. -/
theorem isViewOf_run {f : FileStore} {config : StoreConfig} {loaded : Option HistoryDocument}
    (opened : f.store = .ofDocument config loaded) (operations : List StoreOperation)
    {name : String} {snapshot : SeriesSnapshot}
    (found : (f.run operations).store.getSeries name = .ok snapshot) :
    IsViewOf (entriesFor name ((loaded.getD .empty).inOrder ++
      operations.flatMap StoreOperation.enters)) snapshot.entries := by
  have same : ((HistoryStore.ofDocument config loaded).putAll
      (operations.flatMap StoreOperation.enters)).getSeries name = .ok snapshot := by
    unfold HistoryStore.getSeries at found ⊢
    rw [← opened, ← series_run]
    exact found
  exact HistoryStore.isViewOf_getSeries same

end FileStore

end BenchLedger
