import BenchLedger.Proofs.FlushOutcomes
import BenchLedger.Proofs.NormalizedRecords
import BenchLedger.Proofs.ReachedSessions

/-!
What the outcome of an ingestion says about the store. Main statement: `Session.ingest_outcomes`: an
entry is refused just if it fails validation, and leaves no trace then; otherwise it is stored, even
if the flush after it fails.
-/

namespace BenchLedger

/-! ### The checks of an append -/

theorem not_isBlank_of_isHexDigit {c : Char} (h : isHexDigit c = true) :
    Text.isBlank c = false := by
  have range : (48 ≤ c.toNat ∧ c.toNat ≤ 57) ∨ (65 ≤ c.toNat ∧ c.toNat ≤ 102) := by
    simp only [isHexDigit, Bool.or_eq_true, Bool.and_eq_true, decide_eq_true_eq, Char.le_def,
      UInt32.le_iff_toNat_le] at h
    rcases h with (digit | lower) | upper
    · exact .inl digit
    · exact .inr ⟨Nat.le_trans (by decide) lower.1, lower.2⟩
    · exact .inr ⟨upper.1, Nat.le_trans upper.2 (by decide)⟩
  simp only [Text.isBlank, Bool.or_eq_false_iff, Bool.and_eq_false_iff, decide_eq_false_iff_not,
    beq_eq_false_iff_ne]
  omega

/-- A commit hash is not blank. -/
theorem not_isBlankText_of_isCommitHash {id : String} (hash : isCommitHash id = true) :
    Text.isBlankText id = false := by
  simp only [isCommitHash, Bool.and_eq_true, decide_eq_true_eq, List.all_eq_true] at hash
  obtain ⟨⟨long, _⟩, digits⟩ := hash
  cases chars : id.toList with
  | nil =>
    rw [chars] at long
    cases long
  | cons c cs =>
    have first := not_isBlank_of_isHexDigit (digits c (by simp [chars]))
    simp [Text.isBlankText, Text.allBlank, chars, first]

/-- An append refuses nothing that the ingestor accepts. -/
theorem CommitEntry.ValidFor.checkAppend {series : String} {e : CommitEntry}
    (valid : e.ValidFor series) : HistoryStore.checkAppend series e = .ok () := by
  have finite : HistoryStore.nonFinite? e.benches = none := by
    refine List.findIdx?_eq_none_iff.2 fun r member => ?_
    simp [(valid.records r member).value]
  have notNegative : ¬e.date < 0 := Int.not_lt.2 valid.notNegative
  simp [HistoryStore.checkAppend, valid.series, not_isBlankText_of_isCommitHash valid.commit,
    notNegative, finite]

/-! ### One entry -/

namespace Series

/-- `s'` is `s` with an entry in a slot: that of the earlier entry of its commit, if there is one,
and otherwise a new one behind all others. -/
structure Took (s s' : Series) (e : CommitEntry) (p : Position) : Prop where
  -- In the order of arrival.
  slot : s'.entries[p]? = some e
  elsewhere : ∀ i ≠ p, s'.entries[i]? = s.entries[i]?
  -- As readers see it.
  view : ∀ f, f ∈ s'.view ↔ f = e ∨ f ∈ s.view ∧ f.id ≠ e.id
  distinct : (s'.entries.map CommitEntry.id).Nodup ∧ (s'.view.map CommitEntry.id).Nodup

/-- Only one slot is written to. -/
theorem insert_elsewhere (s : Series) (e : CommitEntry) {i : Position}
    (other : i ≠ (s.insert e).2.position) : (s.insert e).1.entries[i]? = s.entries[i]? := by
  cases known : s.index.get? e.id with
  | some slot =>
    simp only [insert, known] at other ⊢
    exact List.getElem?_set_ne (Ne.symm other)
  | none =>
    simp only [insert, known] at other ⊢
    rcases Nat.lt_or_ge i s.entries.length with before | behind
    · exact List.getElem?_append_left before
    · have last : s.entries.length < i := Nat.lt_of_le_of_ne behind (Ne.symm other)
      rw [List.getElem?_eq_none (by simpa using last), List.getElem?_eq_none behind]

theorem took_upsert {s : Series} {history : List CommitEntry} (h : s.Represents history)
    (e : CommitEntry) : s.Took (s.upsert e).1 e (s.upsert e).2.position := by
  have after := h.upsert e
  have ids := after.toHolds.nodup_ids
  refine ⟨?_, fun i other => insert_elsewhere s e other, fun f => ?_, ids,
    ((after.view.perm.map _).nodup_iff).2 ids⟩
  · have placed : (s.upsert e).2 = _ := (h.toHolds.insert e).2
    have known : e.id ∈ commitIds (history ++ [e]) := mem_commitIds.2 ⟨e, by simp, rfl⟩
    have here : ((s.upsert e).1.entries.map some)[rank (history ++ [e]) e.id]?
        = some (some e) := by
      rw [after.entries, List.getElem?_map, rank, List.getElem?_idxOf known]
      simp [lastFor?_concat]
    rw [placed]
    simpa using here
  · rw [after.view.perm.mem_iff, after.toHolds.mem_entries, h.view.perm.mem_iff,
      h.toHolds.mem_entries, lastFor?_concat]
    by_cases same : e.id = f.id
    · simp [same, eq_comm]
    · have other : f ≠ e := fun equal => same (by rw [equal])
      simp [same, other, Ne.symm same]

end Series

namespace HistoryStore

/-- `s'` is `s` with an entry in a series, which may be new, and every reader of the series finds
it. -/
structure Took (s s' : HistoryStore) (series : String) (e : CommitEntry) (p : Position) : Prop where
  here : ∃ after, s'.series.get? series = some after ∧
    ((s.series.get? series).getD .empty).Took after e p
  others : ∀ name ≠ series, s'.series.get? name = s.series.get? name
  readable : ∃ snapshot, s'.getSeries series = .ok snapshot ∧ snapshot.find? e.id = some e

theorem took_put {s : HistoryStore} (represented : s.Represented) (series : String)
    (e : CommitEntry) : s.Took (s.put series e).1 series e (s.put series e).2.position := by
  obtain ⟨history, before⟩ :
      ∃ history, ((s.series.get? series).getD .empty).Represents history := by
    cases known : s.series.get? series with
    | none => exact ⟨[], Series.represents_empty⟩
    | some t =>
      obtain ⟨history, represents, _⟩ := represented series t known
      exact ⟨history, represents⟩
  have stored : (s.put series e).1.series.get? series
      = some (((s.series.get? series).getD .empty).upsert e).1 := NameMap.get?_insert_self ..
  refine ⟨⟨_, stored, Series.took_upsert before e⟩, fun name other => ?_, ?_⟩
  · exact NameMap.get?_insert_of_ne _ _ other
  · refine ⟨(((s.series.get? series).getD .empty).upsert e).1.snapshot series, ?_, ?_⟩
    · simp only [getSeries, stored]
    · rw [(before.upsert e).find?, lastFor?_concat, if_pos rfl]

theorem Took.of_series {s s' s'' : HistoryStore} {series : String} {e : CommitEntry} {p : Position}
    (h : s.Took s' series e p) (same : s''.series = s'.series) : s.Took s'' series e p := by
  have readers : s''.getSeries series = s'.getSeries series := by
    simp only [getSeries, same]
  refine ⟨?_, ?_, ?_⟩
  · rw [same]
    exact h.here
  · rw [same]
    exact h.others
  · rw [readers]
    exact h.readable

variable {s : HistoryStore} {series : String} {e : CommitEntry}

theorem accept_of_invalid {r : Rejection} (invalid : validateEntry series e = .error r)
    (config : IngestConfig) : s.accept config series e = .error (.rejected r) := by
  simp [accept, prepareEntry, invalid, bind, Except.bind]

/-- What passes validation is stored. -/
theorem accept_of_valid (valid : validateEntry series e = .ok ()) (config : IngestConfig) :
    s.accept config series e = .ok ((s.put series (normalizeEntry config e)).1,
      (s.put series (normalizeEntry config e)).2.position) := by
  have entry := validateEntry_eq_ok.1 valid
  have prepared : prepareEntry config series e = .ok (normalizeEntry config e) :=
    prepareEntry_eq_ok.2 ⟨entry, rfl⟩
  simp [accept, prepared, append, (entry.normalizeEntry config).checkAppend]

end HistoryStore

/-! ### Ingestions among other tasks -/

namespace SharedStore

variable {requests : Nat → AppendRequest} {s t t' : SharedStore} {config : StoreConfig}
  {loaded : Option HistoryDocument} {events before after : List SharedEvent} {series : String}
  {e : CommitEntry} {a : Nat}

/-- An append of an entry that passes the checks is not refused. -/
theorem not_refused (run : (ofDocument config loaded).run? requests events = some s)
    (fine : HistoryStore.checkAppend (requests a).series (requests a).entry = .ok ())
    (r : Rejection) : s.appends a ≠ .refused r := by
  refine run_induction (P := fun _ s => s.appends a ≠ .refused r) ?_ ?_ run
  · exact fun refused => by cases refused
  · intro events s e s' _ h step refused
    rcases append_of_step step a with same | move
    · exact h (same ▸ refused)
    · rw [refused] at move
      generalize s.appends a = old at move
      cases move
      cases step with
      | refuses _ why => cases fine.symm.trans why
      | begins _ _ =>
        rw [setAppend_self] at refused
        cases refused

/-- The write of an append puts its entry into its series. -/
theorem took_of_writes (run : (ofDocument config loaded).run? requests before = some t)
    (step : Step requests t (.appendWrites a) t') :
    ∃ p, t'.appends a = .written p ∧
      t.store.Took t'.store (requests a).series (requests a).entry p := by
  have represented : t.store.Represented := by
    intro name series found
    have represents := represents_run run name
    rw [found] at represents
    exact ⟨_, represents, fun _ _ => trivial⟩
  cases step with
  | writes _ =>
    refine ⟨_, setAppend_self .., ?_⟩
    exact (HistoryStore.took_put represented _ _).of_series rfl

/-- What the flush `n` says that an ingestion asks for after its append has returned. -/
theorem flush_after_append {n : Nat} (run : (ofDocument config loaded).run? requests
      (before ++ .flushBegins n :: after) = some s) (returned : .appendReturns a ∈ before) :
    (∀ outcome, (s.flushes (.explicit n)).outcome? = some outcome →
      (∃ d ∈ s.saved, Carries requests (before ++ .flushBegins n :: after) a d) ∧
      ((∀ b, .appendReturns b ∉ after) → s.store.isDirty = false ∧
        ∃ d, s.saved.getLast? = some d ∧
          Carries requests (before ++ .flushBegins n :: after) a d)) ∧
    ∀ failure e, (s.flushes (.explicit n)).failure? = some failure → after.getLast? = some e →
      e.flush? = some (.explicit n) → s.store.isDirty = true := by
  obtain ⟨t, early, late⟩ := run?_append_eq_some.1 run
  constructor
  · intro outcome succeeded
    have unread := unread_of_begins late
    obtain ⟨d, saved, carries⟩ := carried_later early late unread succeeded returned
    refine ⟨⟨d, saved, carries a returned⟩, fun uncounted => ?_⟩
    have clean := clean_of_outcome early late (by simpa using uncounted) unread succeeded
    exact ⟨clean, (persisted_run run (List.mem_append_left _ returned)).resolve_left
      (by simp [clean])⟩
  · intro failure e failed last mine
    obtain ⟨document, finished⟩ := FlushStage.failure?_eq_some.1 failed
    exact dirty_of_failed_last run (by simp [List.getLast?_cons, last]) mine finished

/-- What holds of the ingestion of an entry that passes validation while other appends and flushes
take their steps: the append `a` is made for it, and then a flush if the policy asks for one. -/
structure Ingests (requests : Nat → AppendRequest) (start : SharedStore)
    (events : List SharedEvent) (s : SharedStore) (a : Nat) : Prop where
  accepted : ∀ r, s.appends a ≠ .refused r
  took : ∀ before t t', Takes requests start events before t (.appendWrites a) t' →
    ∃ p, t'.appends a = .written p ∧
      t.store.Took t'.store (requests a).series (requests a).entry p
  -- The flush has succeeded: the entry or a later one of its commit is saved.
  saved : ∀ n before after outcome, events = before ++ .flushBegins n :: after →
    .appendReturns a ∈ before → (s.flushes (.explicit n)).outcome? = some outcome →
    (∃ d ∈ s.saved, Carries requests events a d) ∧
    ((∀ b, .appendReturns b ∉ after) → s.store.isDirty = false ∧
      ∃ d, s.saved.getLast? = some d ∧ Carries requests events a d)
  -- The flush has just failed.
  unsaved : ∀ n before after failure e, events = before ++ .flushBegins n :: after →
    .appendReturns a ∈ before → (s.flushes (.explicit n)).failure? = some failure →
    after.getLast? = some e → e.flush? = some (.explicit n) → s.store.isDirty = true

theorem ingests_of_valid (run : (ofDocument config loaded).run? requests events = some s)
    (fine : HistoryStore.checkAppend (requests a).series (requests a).entry = .ok ()) :
    Ingests requests (ofDocument config loaded) events s a where
  accepted := not_refused run fine
  took before t t' takes := took_of_writes takes.reached (step?_eq_some.1 takes.step)
  saved := by
    rintro n before after outcome rfl returned succeeded
    exact (flush_after_append run returned).1 outcome succeeded
  unsaved := by
    rintro n before after failure e rfl returned failed last mine
    exact (flush_after_append run returned).2 failure e failed last mine

end SharedStore

/-! ### Sessions -/

namespace Session

variable {s : Session} {series : String} {e : CommitEntry}

/-- The session after an entry was appended and before the flush. -/
def afterAppend (s : Session) (series : String) (e : CommitEntry) : Session :=
  (s.appended (s.store.put series (normalizeEntry s.ingest e)).1).count fun c =>
    { c with ingested := c.ingested + 1 }

theorem ingestEntry_of_valid (valid : validateEntry series e = .ok ()) :
    s.ingestEntry series e = (s.afterAppend series e).settle
      (s.store.put series (normalizeEntry s.ingest e)).2.position := by
  simp only [ingestEntry, HistoryStore.accept_of_valid valid, afterAppend]

theorem ingestEntry_of_invalid {r : Rejection} (invalid : validateEntry series e = .error r) :
    s.ingestEntry series e = (s.count fun c => { c with rejected := c.rejected + 1 },
      .error (.rejected r)) := by
  simp only [ingestEntry, HistoryStore.accept_of_invalid invalid]

theorem store_afterAppend (s : Session) (series : String) (e : CommitEntry) :
    (s.afterAppend series e).store = (s.store.put series (normalizeEntry s.ingest e)).1 :=
  store_appended ..

theorem settle_of_other {α : Type} (other : s.store.config.policy ≠ .onAppend) (value : α) :
    s.settle value = (s, .ok value) :=
  if_neg other

theorem settle_of_onAppend {α : Type} (onAppend : s.store.config.policy = .onAppend) (value : α) :
    s.settle value = (s.flush.1, s.flush.2.map fun _ => value) := by
  unfold settle
  rw [if_pos onAppend]
  generalize s.flush = after
  obtain ⟨s', result⟩ := after
  cases result <;> rfl

/-- The entry is saved with all that readers see. -/
structure Saves (s' : Session) (series : String) (e : CommitEntry) : Prop where
  clean : s'.store.isDirty = false
  saved : ∃ d es, s'.storage.document = some d ∧ d.entries = s'.store.views ∧
    d.entries.get? series = some es ∧ e ∈ es

/-- The entry is not saved. -/
structure Misses (s s' : Session) : Prop where
  dirty : s'.store.isDirty = true
  saved : s'.storage.document = s.storage.document

/-- What a flush after every append makes of an entry that was stored. -/
theorem flush_afterAppend (h : s.AtRest) {p : Position}
    (took : s.store.Took (s.afterAppend series e).store series (normalizeEntry s.ingest e) p) :
    ((∃ outcome, (s.afterAppend series e).flush.2 = .ok outcome) ∧
        (s.afterAppend series e).flush.1.Saves series (normalizeEntry s.ingest e)) ∨
      (∃ error, (s.afterAppend series e).flush.2 = .error (.persistence error)) ∧
        s.Misses (s.afterAppend series e).flush.1 := by
  have rest : (s.afterAppend series e).AtRest := (h.appended (.put ..)).count _
  have dirty : (s.afterAppend series e).store.isDirty = true := by
    have counted := h.counted
    rw [store_afterAppend]
    simp only [HistoryStore.isDirty, HistoryStore.put, bne_iff_ne]
    omega
  have kept := HistoryStore.series_of_memory (KeepsMemory.flush (s.afterAppend series e)).memory
  obtain ⟨after, stored, here⟩ := took.here
  rcases flush_of_dirty rest dirty with
    ⟨outcome, succeeded, clean, saved⟩ | ⟨error, failed, dirty, saved⟩
  · refine .inl ⟨⟨outcome, succeeded⟩, clean, _, after.view, saved, ?_, ?_, ?_⟩
    · simp only [HistoryStore.document, HistoryStore.views, kept]
    · simp only [HistoryStore.document, NameMap.get?_map, stored, Option.map_some]
    · exact (here.view _).2 (.inl rfl)
  · exact .inr ⟨⟨error, failed⟩, dirty, saved⟩

/-- The outcomes of an ingestion that is not refused. -/
inductive Ends (s s' : Session) (series : String) (e : CommitEntry) (p : Position) :
    Except Failure Position → Prop where
  -- The entry is stored, and saved if the policy asks for it.
  | stored (saves : s.store.config.policy = .onAppend → s'.Saves series e) :
    Ends s s' series e p (.ok p)
  -- The entry is stored, but could not be saved.
  | unsaved {error : PersistenceError} (onAppend : s.store.config.policy = .onAppend)
    (misses : s.Misses s') : Ends s s' series e p (.error (.persistence error))

theorem ends_of_valid (reached : s.Reached) (valid : validateEntry series e = .ok ()) :
    ∃ p, s.store.Took (s.ingestEntry series e).1.store series (normalizeEntry s.ingest e) p ∧
      s.Ends (s.ingestEntry series e).1 series (normalizeEntry s.ingest e) p
        (s.ingestEntry series e).2 := by
  obtain ⟨represented, rests⟩ := reached.invariant
  have took : s.store.Took (s.afterAppend series e).store series (normalizeEntry s.ingest e) _ :=
    store_afterAppend s series e ▸ HistoryStore.took_put represented series _
  have policy : (s.afterAppend series e).store.config.policy = s.store.config.policy := by
    rw [store_afterAppend]
    rfl
  rw [ingestEntry_of_valid valid]
  refine ⟨(s.store.put series (normalizeEntry s.ingest e)).2.position, ?_, ?_⟩
  · exact took.of_series (HistoryStore.series_of_memory (KeepsMemory.settle _ _).memory)
  by_cases onAppend : s.store.config.policy = .onAppend
  · rw [settle_of_onAppend (policy.trans onAppend)]
    have rest := rests (by rw [onAppend]; decide)
    rcases flush_afterAppend rest took with ⟨⟨outcome, flushed⟩, saves⟩ | ⟨⟨error, flushed⟩, misses⟩
    · rw [flushed]
      exact .stored fun _ => saves
    · rw [flushed]
      exact .unsaved onAppend misses
  · rw [settle_of_other (by rwa [policy])]
    exact .stored fun same => absurd same onAppend

/-- An ingestion has three outcomes. The entry is refused just if it fails validation, and then only
the counter of refused entries changes; the checks of the append refuse nothing that has passed.
Otherwise its normalized form is stored, and the flush after every append saves it or, when it
fails, leaves the store dirty. So it is, too, if other tasks of a shared store take their steps
meanwhile. -/
theorem ingest_outcomes (reached : s.Reached) (series : String) (e : CommitEntry) :
    (∀ r, (s.ingestEntry series e).2 = .error (.rejected r) ↔ validateEntry series e = .error r) ∧
    (∀ r, validateEntry series e = .error r →
      (s.ingestEntry series e).1 = s.count fun c => { c with rejected := c.rejected + 1 }) ∧
    (validateEntry series e = .ok () →
      HistoryStore.checkAppend series (normalizeEntry s.ingest e) = .ok () ∧
      (∃ p, s.store.Took (s.ingestEntry series e).1.store series (normalizeEntry s.ingest e) p ∧
        s.Ends (s.ingestEntry series e).1 series (normalizeEntry s.ingest e) p
          (s.ingestEntry series e).2) ∧
      ∀ requests config loaded events t a,
        (SharedStore.ofDocument config loaded).run? requests events = some t →
        requests a = ⟨series, normalizeEntry s.ingest e⟩ →
        SharedStore.Ingests requests (.ofDocument config loaded) events t a) := by
  cases checked : validateEntry series e with
  | error r =>
    rw [ingestEntry_of_invalid checked]
    refine ⟨fun r' => ?_, fun r' same => rfl, fun valid => by cases valid⟩
    simp
  | ok _ =>
    have fine : HistoryStore.checkAppend series (normalizeEntry s.ingest e) = .ok () :=
      ((validateEntry_eq_ok.1 checked).normalizeEntry s.ingest).checkAppend
    have ends := ends_of_valid reached checked
    refine ⟨fun r => ⟨fun refused => ?_, fun refused => (by cases refused)⟩,
      fun r refused => (by cases refused), fun _ => ⟨fine, ends, ?_⟩⟩
    · obtain ⟨p, _, ends⟩ := ends
      rw [refused] at ends
      cases ends
    · intro requests config loaded events t a run request
      exact SharedStore.ingests_of_valid run (by rw [request]; exact fine)

/-- A session that saves after every append; its first save fails. -/
def unluckySession : Session where
  surroundings := ⟨0, 0, ⟨none, 0, {}, [{ fault := some (.backend "busy") }]⟩, .zero⟩
  ingest := {}
  site := .ofStore (.ofDocument { policy := .onAppend } none)
  leftovers := []

theorem reached_unluckySession : unluckySession.Reached := by
  have opens : start { policy := .onAppend } {} unluckySession.storage 0 = .ok unluckySession := rfl
  exact .opened opens

/-- A run with a composite record. -/
def measuredEntry (id : String) : CommitEntry :=
  .plain id 5 [⟨"b", 100.25, "ns/op\t8 B/op", none⟩]

/-- The first ingestion cannot be saved, the second one is refused, and the third one is saved. -/
theorem ingest_outcomes_of_unluckySession :
    let first := unluckySession.ingestEntry "s" (measuredEntry "aaaa")
    let second := first.1.ingestEntry "s" (measuredEntry "no hash")
    let third := second.1.ingestEntry "s" (measuredEntry "bbbb")
    (∃ p, unluckySession.store.Took first.1.store "s"
        (normalizeEntry {} (measuredEntry "aaaa")) p) ∧ first.1.store.isDirty = true ∧
      second.1 = first.1.count (fun c => { c with rejected := c.rejected + 1 }) ∧
      ∃ p, third.2 = .ok p ∧
        third.1.Saves "s" (normalizeEntry {} (measuredEntry "bbbb")) := by
  have begun := reached_unluckySession
  intro first second third
  have reached : second.1.Reached := (begun.ingested _ _).ingested _ _
  have fine (id : String) (ok : (validateEntry "s" (measuredEntry id)).isOk = true) :
      validateEntry "s" (measuredEntry id) = .ok () := by
    cases here : validateEntry "s" (measuredEntry id) with
    | ok _ => rfl
    | error r =>
      rw [here] at ok
      cases ok
  obtain ⟨_, ⟨p, took, unsaved⟩, _⟩ := (ingest_outcomes begun "s" _).2.2
    (fine "aaaa" (by decide +kernel))
  obtain ⟨_, ⟨q, _, saved⟩, _⟩ := (ingest_outcomes reached "s" _).2.2
    (fine "bbbb" (by decide +kernel))
  refine ⟨⟨p, took⟩, ?_, ?_, q, ?_⟩
  · have failed : first.2.isOk = false := by decide +kernel
    generalize ended : (unluckySession.ingestEntry "s" (measuredEntry "aaaa")).2 = result at unsaved
    cases unsaved with
    | stored _ =>
      rw [ended] at failed
      cases failed
    | unsaved _ misses => exact misses.dirty
  · have failed : (validateEntry "s" (measuredEntry "no hash")).isOk = false := by decide +kernel
    cases checked : validateEntry "s" (measuredEntry "no hash") with
    | ok _ =>
      rw [checked] at failed
      cases failed
    | error r => exact (ingest_outcomes (begun.ingested _ _) "s" _).2.1 r checked
  · have succeeded : third.2.isOk = true := by decide +kernel
    generalize ended : (second.1.ingestEntry "s" (measuredEntry "bbbb")).2 = result at saved
    cases saved with
    | stored saves => exact ⟨rfl, saves rfl⟩
    | unsaved _ _ =>
      rw [ended] at succeeded
      cases succeeded

end Session

end BenchLedger
