import BenchLedger.Proofs.Coherence
import BenchLedger.Proofs.SeriesReload
import BenchLedger.Proofs.ValidEntries

/-!
Durability of appends to a shared store. Main statement: `SharedStore.durable`: however appends and
flushes interleave, and whichever saves fail, a clean store with no append in progress is saved as
its readers see it, and a document that was written holds every append that had returned when its
flush read the generation.
-/

namespace BenchLedger

theorem AppendStage.result?_eq_some {stage : AppendStage} {position : Position} :
    stage.result? = some position ↔ stage = .returned position := by
  cases stage <;> simp [AppendStage.result?]

namespace FlushStage

theorem outcome?_eq_some {stage : FlushStage} {outcome : FlushOutcome} :
    stage.outcome? = some outcome ↔ ∃ document, stage = .finished document (.ok outcome) := by
  cases stage with
  | finished document result => cases result <;> simp [outcome?]
  | _ => simp [outcome?]

/-- Whether a flush at this stage has read the generation. -/
def hasRead : FlushStage → Bool
  | .idle | .queued | .locked => false
  | .listing _ | .collecting .. | .saving _ | .recording .. | .finished .. => true

/-- The flush has read the generation, and `P` holds of its document or depends on a series `name`
that is still to be collected. -/
def Secures (P : HistoryDocument → Prop) (name : String) : FlushStage → Prop
  | .idle | .queued | .locked => False
  | .listing _ => True
  | .collecting left pending => name ∈ left ∨ P pending.document
  | .saving pending | .recording pending _ => P pending.document
  | .finished document _ => ∀ d, document = some d → P d

theorem Secures.mono {P Q : HistoryDocument → Prop} {name : String} {stage : FlushStage}
    (h : stage.Secures P name) (weaker : ∀ d, P d → Q d) : stage.Secures Q name := by
  cases stage with
  | idle => cases h
  | queued => cases h
  | locked => cases h
  | listing generation => trivial
  | collecting left pending => exact Or.imp id (weaker _) h
  | saving pending => exact weaker _ h
  | recording pending ending => exact weaker _ h
  | finished document result => exact fun d here => weaker d (h d here)

end FlushStage

namespace SharedStore

variable {requests : Nat → AppendRequest} {s s' : SharedStore} {config : StoreConfig}
  {loaded : Option HistoryDocument} {events : List SharedEvent}

/-! ### What a run has written -/

/-- The entry that a step writes to a series. -/
def writtenBy? (requests : Nat → AppendRequest) (series : String) :
    SharedEvent → Option CommitEntry
  | .appendWrites a =>
    if (requests a).series = series then some (requests a).entry else none
  | _ => none

/-- The entries that a run has written to a series, in the order of the writes. -/
def written (requests : Nat → AppendRequest) (series : String) (events : List SharedEvent) :
    List CommitEntry :=
  events.filterMap (writtenBy? requests series)

/-- The entries that were loaded into a series. -/
def loadedEntries (loaded : Option HistoryDocument) (series : String) : List CommitEntry :=
  ((loaded.getD .empty).entries.get? series).getD []

theorem writtenBy?_eq_some {name : String} {e : SharedEvent} {f : CommitEntry} :
    writtenBy? requests name e = some f
      ↔ ∃ a, e = .appendWrites a ∧ (requests a).series = name ∧ (requests a).entry = f := by
  cases e <;> simp [writtenBy?]

theorem written_concat (name : String) (events : List SharedEvent) (e : SharedEvent) :
    written requests name (events ++ [e])
      = written requests name events ++ (writtenBy? requests name e).toList := by
  rw [written, List.filterMap_append]
  cases here : writtenBy? requests name e <;> simp [written, here]

/-- A step changes a series by what it writes to it. -/
theorem series_of_step {e : SharedEvent} (step : Step requests s e s') (name : String) :
    (s'.store.series.get? name).getD .empty = ((s.store.series.get? name).getD .empty).upsertAll
      (writtenBy? requests name e).toList := by
  cases step with
  | begins _ _ => exact HistoryStore.getD_ensureSeries ..
  | @writes a _ =>
    simp only [writtenBy?, HistoryStore.write, setAppend, NameMap.get?_insert]
    by_cases here : (requests a).series = name
    · simp [here]
    · simp [here, Ne.symm here]
  | @records _ _ ending _ _ => cases ending <;> rfl
  | @saveEnds _ _ ending _ => cases ending <;> rfl
  | _ => rfl

/-- After every run a series represents what was loaded and then written. -/
theorem represents_run (run : (ofDocument config loaded).run? requests events = some s)
    (name : String) :
    ((s.store.series.get? name).getD .empty).Represents
      (loadedEntries loaded name ++ written requests name events) := by
  refine run_induction (P := fun events s => ((s.store.series.get? name).getD .empty).Represents
    (loadedEntries loaded name ++ written requests name events)) ?_ ?_ run
  · have opened : (ofDocument config loaded).store.series.get? name
        = ((loaded.getD .empty).entries.get? name).map Series.ofEntries :=
      NameMap.get?_map ..
    rw [opened, loadedEntries]
    cases (loaded.getD .empty).entries.get? name with
    | none => exact Series.represents_empty
    | some es => simpa [written] using Series.represents_ofEntries es
  · intro events s e s' _ h step
    rw [series_of_step step, written_concat, ← List.append_assoc]
    exact h.upsertAll _

/-! ### Later replacements -/

/-- Call `b` writes the entry of call `a` or a later replacement of it. -/
structure Supersedes (requests : Nat → AppendRequest) (events : List SharedEvent) (a b : Nat) :
    Prop where
  series : (requests b).series = (requests a).series
  commit : (requests b).entry.id = (requests a).entry.id
  later : b = a ∨ [.appendWrites a, .appendWrites b].Sublist events

theorem Supersedes.append {a b : Nat} (h : Supersedes requests events a b)
    (more : List SharedEvent) :
    Supersedes requests (events ++ more) a b :=
  ⟨h.series, h.commit, h.later.imp id fun order => order.trans (List.sublist_append_left ..)⟩

/-- The last write to a commit of a series is the write of `a` or a later one. -/
theorem exists_last_write {a : Nat} (wrote : .appendWrites a ∈ events) (loaded : List CommitEntry) :
    ∃ b, Supersedes requests events a b ∧
      lastFor? (loaded ++ written requests (requests a).series events) (requests a).entry.id
        = some (requests b).entry := by
  have own : writtenBy? requests (requests a).series (.appendWrites a)
      = some (requests a).entry := if_pos rfl
  -- By the last event: if it does not write to the commit, an earlier one wrote last.
  induction events using List.reverseRecOn with
  | nil => cases wrote
  | append_singleton events e ih =>
    rw [written_concat, ← List.append_assoc]
    cases here : writtenBy? requests (requests a).series e with
    | none =>
      have before : .appendWrites a ∈ events := by
        rcases List.mem_append.1 wrote with before | last
        · exact before
        · rw [← List.mem_singleton.1 last, own] at here
          cases here
      obtain ⟨b, supersedes, found⟩ := ih before
      exact ⟨b, supersedes.append _, by simpa using found⟩
    | some f =>
      obtain ⟨b, rfl, series, rfl⟩ := writtenBy?_eq_some.1 here
      simp only [Option.toList_some, lastFor?_concat]
      by_cases commit : (requests b).entry.id = (requests a).entry.id
      · refine ⟨b, ⟨series, commit, ?_⟩, if_pos commit⟩
        rcases List.mem_append.1 wrote with before | last
        · exact .inr (.append (List.singleton_sublist.2 before) (.refl _))
        · cases List.mem_singleton.1 last
          exact .inl rfl
      · have before : .appendWrites a ∈ events := by
          rcases List.mem_append.1 wrote with before | last
          · exact before
          · cases List.mem_singleton.1 last
            exact absurd rfl commit
        obtain ⟨c, supersedes, found⟩ := ih before
        exact ⟨c, supersedes.append _, by rw [if_neg commit]; exact found⟩

/-- Readers see the entry of an append that has written, or a later replacement of it. -/
theorem visible_of_written (run : (ofDocument config loaded).run? requests events = some s)
    {a : Nat} (wrote : .appendWrites a ∈ events) :
    ∃ b, Supersedes requests events a b ∧
      (requests b).entry ∈ s.store.viewOf (requests a).series := by
  obtain ⟨b, supersedes, found⟩ :=
    exists_last_write wrote (loadedEntries loaded (requests a).series)
  have represents := represents_run run (requests a).series
  rw [← supersedes.commit] at found
  exact ⟨b, supersedes, represents.view.perm.mem_iff.2 (represents.mem_entries.2 found)⟩

theorem known_of_written (run : (ofDocument config loaded).run? requests events = some s)
    {a : Nat} (wrote : .appendWrites a ∈ events) : (requests a).series ∈ s.store.seriesNames := by
  obtain ⟨b, _, visible⟩ := visible_of_written run wrote
  rw [HistoryStore.seriesNames, NameMap.mem_names]
  cases known : s.store.series.get? (requests a).series with
  | some series => rfl
  | none =>
    rw [HistoryStore.viewOf, known] at visible
    cases visible

/-! ### One flush from its read on -/

/-- A document holds the entry of an append or a later replacement of it. -/
def Carries (requests : Nat → AppendRequest) (events : List SharedEvent) (a : Nat)
    (d : HistoryDocument) : Prop :=
  ∃ es b, d.entries.get? (requests a).series = some es ∧ Supersedes requests events a b ∧
    (requests b).entry ∈ es

theorem Carries.append {a : Nat} {d : HistoryDocument} (h : Carries requests events a d)
    (more : List SharedEvent) :
    Carries requests (events ++ more) a d := by
  obtain ⟨es, b, found, supersedes, member⟩ := h
  exact ⟨es, b, found, supersedes.append more, member⟩

/-- Calls return after they have written. -/
theorem wrote_of_returned (run : (ofDocument config loaded).run? requests events = some s)
    {a : Nat} (returned : .appendReturns a ∈ events) : .appendWrites a ∈ events := by
  -- A call that is about to return has written already.
  have all : (∀ position, s.appends a = .written position → .appendWrites a ∈ events) ∧
      (.appendReturns a ∈ events → .appendWrites a ∈ events) := by
    refine run_induction (P := fun events s =>
      (∀ position, s.appends a = .written position → .appendWrites a ∈ events) ∧
        (.appendReturns a ∈ events → .appendWrites a ∈ events)) ?_ ?_ run
    · exact ⟨fun _ written => (by cases written), fun returned => (by cases returned)⟩
    · intro events s e s' _ h step
      constructor
      · intro position written
        rcases append_of_step step a with same | move
        · exact List.mem_append_left _ (h.1 position (same ▸ written))
        · rw [written] at move
          generalize s.appends a = old at move
          cases move
          exact List.mem_concat_self
      · intro returned
        rcases List.mem_append.1 returned with before | last
        · exact List.mem_append_left _ (h.2 before)
        · cases List.mem_singleton.1 last
          cases step with
          | returns written => exact List.mem_append_left _ (h.1 _ written)
  exact all.2 returned

/-- Once a call has returned, the generation is not zero. -/
theorem generation_pos (run : (ofDocument config loaded).run? requests events = some s)
    {a : Nat} {position : Position} (returned : s.appends a = .returned position) :
    0 < s.store.generation := by
  refine run_induction (P := fun _ s => ∀ position, s.appends a = .returned position →
    0 < s.store.generation) ?_ ?_ run position returned
  · exact fun _ returned => by cases returned
  · intro events s e s' _ h step position returned
    rcases append_of_step step a with same | move
    · exact Nat.lt_of_lt_of_le (h position (same ▸ returned)) (generation_of_step step)
    · rw [returned] at move
      generalize s.appends a = old at move
      cases move
      cases step with
      | returns _ => exact Nat.succ_pos _

/-- A flush that has read the generation keeps what it secures, or is still to collect it. -/
theorem secures_step (run : (ofDocument config loaded).run? requests events = some s)
    {e : SharedEvent} (step : Step requests s e s') {a : Nat}
    (wrote : .appendWrites a ∈ events) {c : FlushCall}
    (h : (s.flushes c).Secures (Carries requests events a) (requests a).series) :
    (s'.flushes c).Secures (Carries requests (events ++ [e]) a) (requests a).series := by
  have kept := h.mono fun d carries => Carries.append carries [e]
  rcases flush_of_step step (round_idle run _ (Nat.le_refl _)) c with same | move
  · rw [same]
    exact kept
  · generalize s.flushes c = old, s'.flushes c = new at h kept move
    cases move with
    -- A flush reads only once.
    | asks => cases h
    | locks => cases h
    | skips => cases h
    | reads => cases h
    | lists all => exact .inl (all.mem_iff.2 (known_of_written run wrote))
    | @collects name left pending =>
      by_cases here : (requests a).series = name
      · -- What is collected is what readers see at this moment.
        obtain ⟨b, supersedes, visible⟩ := visible_of_written run wrote
        refine .inr ⟨_, b, ?_, supersedes.append _, visible⟩
        rw [HistoryDocument.collect, here, NameMap.get?_insert_self]
      · rcases kept with waiting | ⟨es, b, found, rest⟩
        · exact .inl (List.mem_of_ne_of_mem here waiting)
        · refine .inr ⟨es, b, ?_, rest⟩
          rw [HistoryDocument.collect, NameMap.get?_insert_of_ne _ _ here]
          exact found
    | sends => exact kept.resolve_left List.not_mem_nil
    | saveEnds => exact kept
    | records =>
      intro d here
      cases here
      exact kept

theorem read_of_finished (run : (ofDocument config loaded).run? requests events = some s)
    {c : FlushCall} (read : (s.flushes c).hasRead = true) : .flushReads c ∈ events := by
  refine run_induction (P := fun events s => (s.flushes c).hasRead = true →
    .flushReads c ∈ events) ?_ ?_ run read
  · exact fun read => by cases read
  · intro events s e s' run h step read
    rcases flush_of_step step (round_idle run _ (Nat.le_refl _)) c with same | move
    · exact List.mem_append_left _ (h (same ▸ read))
    · generalize s.flushes c = old, s'.flushes c = new at h read move
      cases move with
      | asks => cases read
      | locks => cases read
      | skips => exact List.mem_concat_self
      | reads => exact List.mem_concat_self
      | _ => exact List.mem_append_left _ (h rfl)

/-- A flush that read the generation after an append had returned carries it from then on. -/
theorem secures_run {before after : List SharedEvent} {c : FlushCall}
    (run : (ofDocument config loaded).run? requests (before ++ .flushReads c :: after) = some s)
    {a : Nat} (returned : .appendReturns a ∈ before) :
    (s.flushes c).Secures (Carries requests (before ++ .flushReads c :: after) a)
      (requests a).series := by
  obtain ⟨t, early, late⟩ := run?_append_eq_some.1 run
  obtain ⟨u, reads, rest⟩ := run?_cons_eq_some.1 late
  have wrote := wrote_of_returned early returned
  -- From the read on, every step keeps what the flush secures.
  refine run_induction (P := fun after s => (s.flushes c).Secures
    (Carries requests (before ++ .flushReads c :: after) a) (requests a).series) ?_ ?_ rest
  · cases reads with
    | skips _ _ =>
      rw [setFlush_self]
      exact fun d missing => by cases missing
    | reads _ _ =>
      rw [setFlush_self]
      trivial
  · intro after s e s' middle h step
    have reached : (ofDocument config loaded).run? requests (before ++ .flushReads c :: after)
        = some s :=
      run?_append_eq_some.2 ⟨t, early, run?_cons_eq_some.2 ⟨u, reads, middle⟩⟩
    have carried := secures_step reached step (List.mem_append_left _ wrote) h
    rwa [List.append_assoc] at carried

/-! ### Durability -/

theorem sorted_of_views (run : (ofDocument config loaded).run? requests events = some s)
    {name : String} {es : List CommitEntry} (found : s.store.views.get? name = some es) :
    DatesIncrease es := by
  simp only [HistoryStore.views, NameMap.get?_map, Option.map_eq_some_iff] at found
  obtain ⟨series, here, rfl⟩ := found
  have represents := represents_run run name
  rw [here] at represents
  exact represents.view.sorted

/-- A call that has not begun is idle. -/
theorem idle_of_not_begun (run : (ofDocument config loaded).run? requests events = some s)
    {a : Nat} (absent : .appendBegins a ∉ events) : s.appends a = .idle := by
  refine run_induction (P := fun events s => .appendBegins a ∉ events → s.appends a = .idle)
    ?_ ?_ run absent
  · exact fun _ => rfl
  · intro events s e s' _ h step absent
    simp only [List.mem_append, List.mem_singleton, not_or] at absent
    have idle := h absent.1
    rcases append_of_step step a with same | move
    · rw [same]
      exact idle
    · rw [idle] at move
      generalize s'.appends a = new at move
      cases move with
      | refuses => exact absurd rfl absent.2
      | begins => exact absurd rfl absent.2

/-- However appends and flushes interleave and whichever saves fail: once an append has returned and
none is in progress, a clean store is saved as its readers see it; and a document that a flush has
written holds each append that had returned when the flush read the generation, or a later
replacement of it. -/
theorem durable {config : StoreConfig} {loaded : Option HistoryDocument}
    {events : List SharedEvent} (run : (ofDocument config loaded).run? requests events = some s) :
    ((∀ a, (s.appends a).inProgress = false) → (∃ a position, s.appends a = .returned position) →
      s.store.isDirty = false →
      ∃ d, s.saved.getLast? = some d ∧ ∀ name,
        d.entries.get? name = (s.store.getSeries name).toOption.map SeriesSnapshot.entries ∧
          ∀ es, d.entries.get? name = some es → DatesIncrease es) ∧
    (∀ c document series entries,
      s.flushes c = .finished document (.ok (.written series entries)) →
      ∃ d, document = some d ∧ d ∈ s.saved ∧ series = d.entries.size ∧ entries = d.entryCount ∧
        .flushReads c ∈ events ∧
        ∀ before after, events = before ++ .flushReads c :: after →
          ∀ a, .appendReturns a ∈ before → Carries requests events a d) := by
  have coherent := coherent_run run
  constructor
  · rintro calm ⟨a, position, returned⟩ clean
    have same : s.store.generation = s.store.flushed := by
      simpa [HistoryStore.isDirty] using clean
    have some : 0 < s.store.flushed := same ▸ generation_pos run returned
    rcases coherent.lastSaved some with disturbed | ⟨d, last, entries⟩
    · -- Nothing was counted since the flush, and nothing is in progress.
      rcases disturbed with counted | ⟨b, busy⟩
      · exact absurd counted (by omega)
      · rw [calm b] at busy
        cases busy
    · refine ⟨d, last, fun name => ⟨?_, fun es found => ?_⟩⟩
      · rw [entries, HistoryStore.get?_views_eq_getSeries]
      · rw [entries] at found
        exact sorted_of_views run found
  · intro c document series entries finished
    have sound := coherent.sound c
    rw [finished] at sound
    obtain ⟨d, rfl, member, sizes⟩ := sound series entries rfl
    refine ⟨d, rfl, member, sizes.1, sizes.2, ?_, ?_⟩
    · exact read_of_finished run (by rw [finished]; rfl)
    · rintro before after rfl a returned
      have secured := secures_run run returned
      rw [finished] at secured
      exact secured d rfl

/-- Three calls: two runs for different series, and a repeated run of the first one. -/
def busyRequests (a : Nat) : AppendRequest :=
  let entry (id : String) (value : Float) : CommitEntry :=
    .plain id 5 [⟨"b/op", value, "ns/op", none⟩]
  if a = 0 then ⟨"s", entry "aaaa" 0.5⟩
  else if a = 1 then ⟨"t", entry "bbbb" 100.25⟩
  else ⟨"s", entry "aaaa" 2.0⟩

/-- A flush during which a series is added and whose save times out, and one that has read the
generation when an entry is replaced; then a third one. -/
def busyRun : List SharedEvent :=
  [.appendBegins 0, .appendWrites 0, .appendReturns 0, .flushBegins 0,
    .flushLocks (.explicit 0), .flushReads (.explicit 0), .flushLists (.explicit 0) 6 ["s"],
    .appendBegins 1, .appendWrites 1, .flushCollects (.explicit 0), .flushSends (.explicit 0),
    .appendReturns 1, .flushBegins 1, .saveEnds (.explicit 0) (.error (.timeout 10)),
    .flushRecords (.explicit 0) 7,
    .flushLocks (.explicit 1), .flushReads (.explicit 1), .flushLists (.explicit 1) 8 ["t", "s"],
    .flushCollects (.explicit 1), .appendBegins 2, .appendWrites 2, .appendReturns 2,
    .flushCollects (.explicit 1), .flushSends (.explicit 1), .saveEnds (.explicit 1) (.ok ()),
    .flushRecords (.explicit 1) 9, .flushBegins 2,
    .flushLocks (.explicit 2), .flushReads (.explicit 2), .flushLists (.explicit 2) 10 ["s", "t"],
    .flushCollects (.explicit 2), .flushCollects (.explicit 2), .flushSends (.explicit 2),
    .saveEnds (.explicit 2) (.ok ()), .flushRecords (.explicit 2) 11]

theorem durable_after_busyRun :
    ∃ s, (ofDocument {} none).run? busyRequests busyRun = some s ∧ s.store.isDirty = false ∧
      (∃ d, s.saved.getLast? = some d ∧ ∀ name,
        d.entries.get? name = (s.store.getSeries name).toOption.map SeriesSnapshot.entries) ∧
      ∃ d, s.flushes (.explicit 1) = .finished (some d) (.ok (.written 2 2)) ∧
        Carries busyRequests busyRun 0 d ∧ Carries busyRequests busyRun 1 d := by
  have ends : ((ofDocument {} none).run? busyRequests busyRun).any (fun s =>
      !s.store.isDirty && (List.range 3).all (fun a => (s.appends a).result?.isSome) &&
        (s.flushes (.explicit 1)).outcome? == some (.written 2 2)) = true := by decide +kernel
  obtain ⟨s, run, known⟩ := Option.any_eq_true .. |>.1 ends
  simp only [Bool.and_eq_true, List.all_eq_true, List.mem_range, Bool.not_eq_true',
    beq_iff_eq] at known
  obtain ⟨⟨clean, calls⟩, flush⟩ := known
  have returned (a : Nat) (made : a < 3) : ∃ position, s.appends a = .returned position := by
    obtain ⟨position, result⟩ := Option.isSome_iff_exists.1 (calls a made)
    exact ⟨position, AppendStage.result?_eq_some.1 result⟩
  have calm (a : Nat) : (s.appends a).inProgress = false := by
    by_cases made : a < 3
    · obtain ⟨position, here⟩ := returned a made
      rw [here]
      rfl
    · rw [idle_of_not_begun run (by simp [busyRun]; omega)]
      rfl
  obtain ⟨document, finished⟩ := FlushStage.outcome?_eq_some.1 flush
  obtain ⟨last, carried⟩ := durable run
  refine ⟨s, run, clean, ?_, ?_⟩
  · obtain ⟨d, saved, entries⟩ := last calm ⟨0, returned 0 (by decide)⟩ clean
    exact ⟨d, saved, fun name => (entries name).1⟩
  · obtain ⟨d, rfl, _, _, _, _, carries⟩ := carried _ _ _ _ finished
    have split : busyRun = busyRun.take 16 ++ .flushReads (.explicit 1) :: busyRun.drop 17 := rfl
    exact ⟨d, finished, carries _ _ split 0 (by simp [busyRun]),
      carries _ _ split 1 (by simp [busyRun])⟩

end SharedStore

end BenchLedger
