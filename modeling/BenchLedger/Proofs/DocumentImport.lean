import BenchLedger.Proofs.IngestOutcomes
import BenchLedger.Proofs.NameMapOrder

/-!
Taking a document in, compared with taking its entries in one after the other. Main statement:
`Session.importDocument_eq_ingestEach`: both come to the same, and the report says what came of
every entry; a document that is flushed at the end asks the storage at most once.
-/

namespace BenchLedger

/-! ### The entries of a document -/

namespace HistoryDocument

/-- All entries with their series, series in increasing order of their names. -/
def inOrder (d : HistoryDocument) : List (String × CommitEntry) :=
  d.entries.pairs.flatMap fun p => p.2.map fun e => (p.1, e)

theorem length_inOrder (d : HistoryDocument) : d.inOrder.length = d.entryCount := by
  unfold inOrder entryCount NameMap.total NameMap.values
  induction d.entries.pairs with
  | nil => rfl
  | cons p ps ih =>
    simp only [List.flatMap_cons, List.length_append, List.length_map, List.map_cons,
      List.foldr_cons, ih]

end HistoryDocument

namespace HistoryStore

/-- Takes entries in, and reports them, one after the other. -/
def importEach (config : IngestConfig) (state : HistoryStore × ImportReport)
    (entries : List (String × CommitEntry)) : HistoryStore × ImportReport :=
  entries.foldl (fun state p => importEntry config p.1 state p.2) state

theorem importDocument_eq_importEach (config : IngestConfig) (s : HistoryStore)
    (d : HistoryDocument) :
    s.importDocument config d = importEach config (s, .empty) d.inOrder := by
  simp only [importDocument, importEach, HistoryDocument.inOrder, List.foldl_flatMap,
    List.foldl_map]

end HistoryStore

/-! ### Reports -/

/-- An entry that was offered to a store, and what came of it. -/
structure Intake where
  series : String
  entry : CommitEntry
  result : Except Failure Position

/-- What a report says about an entry that was refused. -/
def Intake.refusal? (i : Intake) : Option RejectedEntry :=
  match i.result with
  | .error (.rejected r) => some ⟨i.series, i.entry.id, (Failure.rejected r).message⟩
  | _ => none

namespace ImportReport

/-- A report that counts the entries each series took, and lists the refused ones in their order. -/
structure Records (r : ImportReport) (intakes : List Intake) : Prop where
  imported : ∀ name n, r.imported.get? name = some n ↔
    0 < n ∧ n = intakes.countP fun i => i.series == name && i.refusal?.isNone
  rejected : r.rejected = intakes.filterMap Intake.refusal?
  complete : r.total + r.rejected.length = intakes.length

/-- Reports what came of one more entry. -/
def add (r : ImportReport) (i : Intake) : ImportReport :=
  match i.refusal? with
  | some refused => r.addRejected refused
  | none => r.addImported i.series

variable {r : ImportReport} {intakes : List Intake}

theorem add_of_taken {i : Intake} (taken : i.refusal? = none) :
    r.add i = r.addImported i.series := by
  simp only [add, taken]

theorem add_of_refused {i : Intake} {refused : RejectedEntry} (h : i.refusal? = some refused) :
    r.add i = r.addRejected refused := by
  simp only [add, h]

theorem total_addImported (r : ImportReport) (series : String) :
    (r.addImported series).total = r.total + 1 := by
  have replaced := NameMap.total_insert id r.imported series ((r.imported.get? series).getD 0 + 1)
  simp only [Option.map_id, id] at replaced
  unfold total addImported
  dsimp only
  omega

theorem records_empty : Records .empty [] := by
  constructor
  · intro name n
    constructor
    · intro found
      cases found
    · rintro ⟨positive, rfl⟩
      cases positive
  · rfl
  · rfl

theorem Records.add (h : r.Records intakes) (i : Intake) : (r.add i).Records (intakes ++ [i]) := by
  cases refused : i.refusal? with
  | some rejection =>
    rw [add_of_refused refused]
    constructor
    · intro name n
      simpa [addRejected, refused] using h.imported name n
    · simp [addRejected, h.rejected, refused]
    · have complete := h.complete
      simp only [addRejected, total, List.length_append, List.length_singleton] at complete ⊢
      omega
  | none =>
    rw [add_of_taken refused]
    constructor
    · intro name n
      by_cases same : name = i.series
      · subst same
        have before := h.imported i.series
        simp only [addImported, NameMap.get?_insert_self, Option.some.injEq, List.countP_append,
          List.countP_singleton, refused, beq_self_eq_true, Option.isNone_none, Bool.and_self,
          if_true]
        generalize intakes.countP _ = count at before ⊢
        cases found : r.imported.get? i.series with
        | none =>
          have none : ¬ 0 < count := fun some => by
            have counted := (before count).2 ⟨some, rfl⟩
            rw [found] at counted
            cases counted
          simp only [Option.getD_none]
          omega
        | some m =>
          have counted := ((before m).1 found).2
          simp only [Option.getD_some]
          omega
      · have other : (i.series == name) = false := by simpa using Ne.symm same
        simpa [addImported, NameMap.get?_insert_of_ne _ _ same, other] using h.imported name n
    · simpa [addImported, refused] using h.rejected
    · have complete := h.complete
      rw [total_addImported]
      simp only [addImported, List.length_append, List.length_singleton] at complete ⊢
      omega

theorem Records.foldl (h : r.Records intakes) (more : List Intake) :
    (more.foldl ImportReport.add r).Records (intakes ++ more) := by
  induction more generalizing r intakes with
  | nil =>
    rw [List.append_nil]
    exact h
  | cons i more ih =>
    rw [List.append_cons]
    exact ih (h.add i)

end ImportReport

/-! ### One entry after the other -/

namespace HistoryStore

theorem memory_put {s s' : HistoryStore} (same : s'.memory = s.memory) (series : String)
    (e : CommitEntry) : (s'.put series e).1.memory = (s.put series e).1.memory := by
  have only (s : HistoryStore) : (s.put series e).1.memory = (s.memory.put series e).1 := rfl
  rw [only, only, same]

variable {series : String} {e : CommitEntry}

theorem importEntry_of_valid (valid : validateEntry series e = .ok ()) (config : IngestConfig)
    (state : HistoryStore × ImportReport) :
    importEntry config series state e =
      ((state.1.put series (normalizeEntry config e)).1, state.2.addImported series) := by
  simp only [importEntry, accept_of_valid valid]

theorem importEntry_of_invalid {r : Rejection} (invalid : validateEntry series e = .error r)
    (config : IngestConfig) (state : HistoryStore × ImportReport) :
    importEntry config series state e =
      (state.1, state.2.addRejected ⟨series, e.id, (Failure.rejected r).message⟩) := by
  simp only [importEntry, accept_of_invalid invalid]

end HistoryStore

namespace Session

variable {s : Session} {state : HistoryStore × ImportReport} {series : String} {e : CommitEntry}

/-- Takes entries in one after the other. -/
def ingestEach (s : Session) : List (String × CommitEntry) → Session × List Intake
  | [] => (s, [])
  | (series, e) :: rest =>
    let (t, result) := s.ingestEntry series e
    let (t, intakes) := t.ingestEach rest
    (t, ⟨series, e, result⟩ :: intakes)

theorem ingestEach_cons (s : Session) (series : String) (e : CommitEntry)
    (rest : List (String × CommitEntry)) :
    s.ingestEach ((series, e) :: rest) =
      (((s.ingestEntry series e).1.ingestEach rest).1,
        ⟨series, e, (s.ingestEntry series e).2⟩ ::
          ((s.ingestEntry series e).1.ingestEach rest).2) :=
  rfl

theorem ingest_ingestEntry (s : Session) (series : String) (e : CommitEntry) :
    (s.ingestEntry series e).1.ingest = s.ingest := by
  cases checked : validateEntry series e with
  | error r =>
    rw [ingestEntry_of_invalid checked]
    rfl
  | ok _ =>
    rw [ingestEntry_of_valid checked]
    exact (KeepsMemory.settle (s.afterAppend series e) _).ingest

theorem settle_cases {α : Type} (s : Session) (value : α) :
    (s.settle value).2 = .ok value ∨
      s.store.config.policy = .onAppend ∧
        ∃ error, (s.settle value).2 = .error (.persistence error) := by
  by_cases onAppend : s.store.config.policy = .onAppend
  · rw [settle_of_onAppend onAppend]
    cases flushed : s.flush.2 with
    | ok outcome => exact .inl rfl
    | error failure =>
      obtain ⟨error, rfl⟩ := error_of_flush flushed
      exact .inr ⟨onAppend, error, rfl⟩
  · rw [settle_of_other onAppend]
    exact .inl rfl

/-- Whatever a report holds, an entry that is taken in is added to it in the same way. -/
theorem report_ingestEntry (s : Session) (state : HistoryStore × ImportReport) (series : String)
    (e : CommitEntry) :
    (HistoryStore.importEntry s.ingest series state e).2
      = state.2.add ⟨series, e, (s.ingestEntry series e).2⟩ := by
  cases checked : validateEntry series e with
  | error r =>
    rw [ingestEntry_of_invalid checked, HistoryStore.importEntry_of_invalid checked]
    rfl
  | ok _ =>
    rw [HistoryStore.importEntry_of_valid checked, ingestEntry_of_valid checked]
    symm
    apply ImportReport.add_of_taken
    rcases settle_cases (s.afterAppend series e)
      (s.store.put series (normalizeEntry s.ingest e)).2.position with
      stored | ⟨_, error, unsaved⟩
    · simp only [Intake.refusal?, stored]
    · simp only [Intake.refusal?, unsaved]

theorem memory_ingestEntry (same : s.store.memory = state.1.memory) (series : String)
    (e : CommitEntry) :
    (s.ingestEntry series e).1.store.memory
      = (HistoryStore.importEntry s.ingest series state e).1.memory := by
  cases checked : validateEntry series e with
  | error r =>
    rw [ingestEntry_of_invalid checked, HistoryStore.importEntry_of_invalid checked]
    exact same
  | ok _ =>
    rw [ingestEntry_of_valid checked, HistoryStore.importEntry_of_valid checked]
    rw [(KeepsMemory.settle (s.afterAppend series e) _).memory, store_afterAppend]
    exact HistoryStore.memory_put same series _

/-- Entries that are taken in one after the other leave in memory, and report, what they do as a
document. -/
theorem ingestEach_matches (same : s.store.memory = state.1.memory)
    (entries : List (String × CommitEntry)) :
    (s.ingestEach entries).1.store.memory =
        (HistoryStore.importEach s.ingest state entries).1.memory ∧
      (HistoryStore.importEach s.ingest state entries).2 =
        (s.ingestEach entries).2.foldl ImportReport.add state.2 := by
  induction entries generalizing s state with
  | nil => exact ⟨same, rfl⟩
  | cons p rest ih =>
    obtain ⟨series, e⟩ := p
    have later := ih (memory_ingestEntry same series e)
    rw [ingest_ingestEntry, report_ingestEntry s state series e] at later
    exact later

/-- Under another policy nothing is flushed, and so an entry is taken or refused. -/
theorem ok_of_taken (other : s.store.config.policy ≠ .onAppend)
    (taken : Intake.refusal? ⟨series, e, (s.ingestEntry series e).2⟩ = none) :
    ∃ p, (s.ingestEntry series e).2 = .ok p := by
  cases checked : validateEntry series e with
  | error r =>
    rw [ingestEntry_of_invalid checked] at taken
    cases taken
  | ok _ =>
    rw [ingestEntry_of_valid checked, settle_of_other (by rwa [store_afterAppend])]
    exact ⟨_, rfl⟩

theorem ok_of_taken_each (other : s.store.config.policy ≠ .onAppend)
    (entries : List (String × CommitEntry)) :
    ∀ i ∈ (s.ingestEach entries).2, i.refusal? = none → ∃ p, i.result = .ok p := by
  induction entries generalizing s with
  | nil =>
    intro i member
    cases member
  | cons p rest ih =>
    obtain ⟨series, e⟩ := p
    rw [ingestEach_cons]
    refine List.forall_mem_cons.2 ⟨ok_of_taken other, ih ?_⟩
    rwa [(Proceeds.ingestEntry s series e).policy]

/-! ### The whole session -/

theorem appended_appended (s : Session) {a b : HistoryStore}
    (policy : a.config.policy = b.config.policy) :
    (s.appended a).appended b = (s.appended b).appended b ∧
      ((s.appended a).appended a).appended b = (s.appended b).appended b := by
  obtain ⟨surroundings, ingest, ⟨store, turns, flusher, wake, cancelled⟩, leftovers⟩ := s
  cases flusher <;> by_cases interval : b.config.policy = .interval <;>
    simp [appended, Site.appended, Site.notify, policy, interval]

/-- One more append. -/
theorem appended_takeOver (s : Session) {a b : HistoryStore}
    (policy : a.config.policy = b.config.policy) (n : Nat) :
    (s.takeOver a n).appended b = s.takeOver b (n + 1) := by
  rcases n with _ | _ | n
  · rfl
  · exact (s.appended_appended policy).1
  · exact (s.appended_appended policy).2

/-- What holds of a store and a report after some entries of a document. -/
structure Halfway (s : Session) (state : HistoryStore × ImportReport) : Prop where
  grown : s.store.Grown state.1
  unchanged : state.2.total = 0 → state.1 = s.store

namespace Halfway

theorem start (s : Session) : s.Halfway (s.store, .empty) :=
  ⟨.refl _, fun _ => rfl⟩

theorem importEntry (h : s.Halfway state) (series : String) (e : CommitEntry) :
    s.Halfway (HistoryStore.importEntry s.ingest series state e) := by
  refine ⟨h.grown.trans (.importEntry s.ingest series state e), ?_⟩
  cases checked : validateEntry series e with
  | error r =>
    rw [HistoryStore.importEntry_of_invalid checked]
    exact h.unchanged
  | ok _ =>
    intro none
    rw [HistoryStore.importEntry_of_valid checked, ImportReport.total_addImported] at none
    cases none

theorem importDocument (s : Session) (d : HistoryDocument) :
    s.Halfway (s.store.importDocument s.ingest d) := by
  rw [HistoryStore.importDocument_eq_importEach]
  apply List.foldlRecOn (motive := s.Halfway) d.inOrder _ (start s)
  intro state h p _
  exact h.importEntry p.1 p.2

theorem store_during (h : s.Halfway state) : (s.during state).store = state.1 := by
  unfold during takeOver
  split
  next none => exact (h.unchanged none).symm
  · exact store_appended ..
  · exact store_appended ..

theorem policy_during (h : s.Halfway state) :
    (s.during state).store.config.policy = s.store.config.policy := by
  rw [h.store_during, h.grown.config]

end Halfway

theorem ingest_during (s : Session) (state : HistoryStore × ImportReport) :
    (s.during state).ingest = s.ingest := by
  unfold during takeOver
  split <;> rfl

theorem saveCalls_during (s : Session) (state : HistoryStore × ImportReport) :
    (s.during state).saveCalls = s.saveCalls := by
  unfold during takeOver
  split <;> rfl

/-- One entry of a document is taken in as by an ingestion. -/
theorem ingestEntry_during (h : s.Halfway state) (other : s.store.config.policy ≠ .onAppend)
    (series : String) (e : CommitEntry) :
    ((s.during state).ingestEntry series e).1 =
      s.during (HistoryStore.importEntry s.ingest series state e) := by
  cases checked : validateEntry series e with
  | error r =>
    rw [ingestEntry_of_invalid checked, HistoryStore.importEntry_of_invalid checked]
    simp only [during, ImportReport.addRejected, List.length_append, List.length_singleton,
      ← Nat.add_assoc]
    rfl
  | ok _ =>
    have taken := (s.during state).store_afterAppend series e
    rw [h.store_during, ingest_during] at taken
    have same : ((s.during state).afterAppend series e).store.config.policy ≠ .onAppend := by
      rw [taken]
      rwa [← h.grown.config] at other
    rw [ingestEntry_of_valid checked, settle_of_other same,
      HistoryStore.importEntry_of_valid checked]
    unfold afterAppend
    rw [h.store_during, ingest_during]
    have more := s.appended_takeOver (a := state.1)
      (b := (state.1.put series (normalizeEntry s.ingest e)).1) rfl state.2.total
    simp only [during, ImportReport.total_addImported, ← more, ← Nat.add_assoc]
    rfl

theorem ingestEach_during (h : s.Halfway state) (other : s.store.config.policy ≠ .onAppend)
    (entries : List (String × CommitEntry)) :
    ((s.during state).ingestEach entries).1 =
      s.during (HistoryStore.importEach s.ingest state entries) := by
  induction entries generalizing state with
  | nil => rfl
  | cons p rest ih =>
    obtain ⟨series, e⟩ := p
    have later := ih (h.importEntry series e)
    rw [← ingestEntry_during h other series e] at later
    exact later

/-- What a document leaves in memory and in its report. -/
theorem matches_importDocument (s : Session) (d : HistoryDocument) :
    (s.ingestEach d.inOrder).1.store.memory = (s.store.importDocument s.ingest d).1.memory ∧
      (s.store.importDocument s.ingest d).2.Records (s.ingestEach d.inOrder).2 := by
  have start : s.store.memory = (s.store, ImportReport.empty).1.memory := rfl
  obtain ⟨memory, report⟩ := ingestEach_matches start d.inOrder
  rw [← HistoryStore.importDocument_eq_importEach] at memory report
  refine ⟨memory, ?_⟩
  rw [report]
  exact ImportReport.records_empty.foldl _

theorem length_ingestEach (s : Session) (entries : List (String × CommitEntry)) :
    (s.ingestEach entries).2.length = entries.length := by
  induction entries generalizing s with
  | nil => rfl
  | cons p rest ih => exact congrArg (· + 1) (ih _)

theorem importDocument_of_other (other : s.store.config.policy ≠ .onAppend)
    (d : HistoryDocument) :
    s.importDocument d =
      ((s.ingestEach d.inOrder).1, .ok (s.store.importDocument s.ingest d).2) := by
  have each := ingestEach_during (.start s) other d.inOrder
  rw [← HistoryStore.importDocument_eq_importEach] at each
  rw [importDocument_eq, settle_of_other, ← each]
  · rfl
  · rwa [(Halfway.importDocument s d).policy_during]

/-- A document leaves in memory what its entries do, whether the flush after it succeeds or not. -/
theorem memory_importDocument (s : Session) (d : HistoryDocument) :
    (s.importDocument d).1.store.memory = (s.ingestEach d.inOrder).1.store.memory := by
  rw [importDocument_eq, (KeepsMemory.settle _ _).memory, (s.matches_importDocument d).1,
    (Halfway.importDocument s d).store_during]

theorem saveCalls_importDocument (rest : s.AtRest) (onAppend : s.store.config.policy = .onAppend)
    (d : HistoryDocument) :
    (s.importDocument d).1.saveCalls = s.saveCalls ∨
      (s.importDocument d).1.saveCalls = s.saveCalls + 1 := by
  have taken := Halfway.importDocument s d
  have policy := taken.policy_during.trans onAppend
  rw [importDocument_eq, settle_of_onAppend policy, ← saveCalls_during s]
  exact saveCalls_flush (rest.during taken.grown)

/-- A document comes to the same as its entries one after the other, series in increasing order of
their names. Unless the store is flushed after every append, this holds of all there is to a
session, and every entry is stored or refused. Otherwise it holds of what is in memory, and the
storage is asked to save once at most; if that fails, nothing is undone. In each case the report
says what came of the entries, one by one. -/
theorem importDocument_eq_ingestEach (s : Session) (d : HistoryDocument) :
    (s.store.config.policy ≠ .onAppend →
      ∃ report, s.importDocument d = ((s.ingestEach d.inOrder).1, .ok report) ∧
        report.Records (s.ingestEach d.inOrder).2 ∧
        report.total + report.rejected.length = d.entryCount ∧
        ∀ i ∈ (s.ingestEach d.inOrder).2, i.refusal? = none → ∃ p, i.result = .ok p) ∧
    (s.store.config.policy = .onAppend → s.Reached →
      (s.importDocument d).1.store.memory = (s.ingestEach d.inOrder).1.store.memory ∧
      ((s.importDocument d).1.saveCalls = s.saveCalls ∨
        (s.importDocument d).1.saveCalls = s.saveCalls + 1) ∧
      ((∃ report, (s.importDocument d).2 = .ok report ∧
          report.Records (s.ingestEach d.inOrder).2 ∧
          report.total + report.rejected.length = d.entryCount) ∨
        ∃ error, (s.importDocument d).2 = .error (.persistence error))) := by
  constructor
  · intro other
    have records := (s.matches_importDocument d).2
    refine ⟨_, importDocument_of_other other d, records, ?_, ok_of_taken_each other _⟩
    rw [records.complete, length_ingestEach, d.length_inOrder]
  · intro onAppend reached
    have rest : s.AtRest := reached.invariant.2 (by rw [onAppend]; decide)
    have taken := Halfway.importDocument s d
    have records := (s.matches_importDocument d).2
    refine ⟨s.memory_importDocument d, saveCalls_importDocument rest onAppend d, ?_⟩
    rw [importDocument_eq]
    rcases settle_cases _ _ with reported | ⟨_, error, failed⟩
    · refine .inl ⟨_, reported, records, ?_⟩
      rw [records.complete, length_ingestEach, d.length_inOrder]
    · exact .inr ⟨error, failed⟩

/-- A document with a refused entry and two of the same commit. -/
def mixedDocument : HistoryDocument :=
  ⟨none, none, .ofList [("b", [measuredEntry "bbbb"]),
    ("a", [measuredEntry "aaaa", measuredEntry "no hash", measuredEntry "aaaa"])]⟩

/-- A session that saves only when it is told to. -/
def quietSession : Session :=
  { unluckySession with site := .ofStore (.ofDocument { policy := .manual } none) }

theorem importDocument_eq_ingestEach_of_mixedDocument :
    (∃ report,
      quietSession.importDocument mixedDocument
        = ((quietSession.ingestEach mixedDocument.inOrder).1, .ok report) ∧
      report.imported.get? "a" = some 2 ∧ report.imported.get? "b" = some 1 ∧
      report.rejected = [⟨"a", "no hash",
        (Failure.rejected (.notCommitHash "no hash")).message⟩]) ∧
    (unluckySession.importDocument mixedDocument).1.store.memory
      = (unluckySession.ingestEach mixedDocument.inOrder).1.store.memory ∧
    (unluckySession.importDocument mixedDocument).2.isOk = false := by
  have begun := reached_unluckySession
  constructor
  · obtain ⟨report, same, records, _⟩ :=
      (importDocument_eq_ingestEach quietSession mixedDocument).1 (by decide)
    refine ⟨report, same, (records.imported _ _).2 ?_, (records.imported _ _).2 ?_, ?_⟩
    · decide +kernel
    · decide +kernel
    · rw [records.rejected]
      decide +kernel
  · obtain ⟨memory, _⟩ := (importDocument_eq_ingestEach unluckySession mixedDocument).2 rfl begun
    exact ⟨memory, by decide +kernel⟩

end Session

end BenchLedger
