import BenchLedger.Proofs.FlushRuns

/-!
What a shutdown leaves behind. Main statement: `SharedStore.shutdown_complete`: wherever the
background flusher is when a shutdown begins and however its save ends, a shutdown that succeeds has
saved the store and leaves no flusher that saves, and after one that fails the next flush that
succeeds saves everything.
-/

namespace BenchLedger

namespace FlushStage

/-- Whether a flush has been asked for and has not returned. -/
def isUnderWay : FlushStage → Bool
  | .idle | .finished .. => false
  | .queued | .locked | .listing _ | .collecting .. | .saving _ | .recording .. => true

end FlushStage

/-- Whether a flusher makes no more rounds. -/
def FlusherStage.hasEnded : FlusherStage → Bool
  | .absent | .stopped => true
  | .waiting | .sleeping | .flushing _ => false

namespace SharedStore

variable {requests : Nat → AppendRequest} {s s' t : SharedStore} {config : StoreConfig}
  {loaded : Option HistoryDocument} {events before after : List SharedEvent} {e : SharedEvent}

/-! ### The flusher and its rounds -/

/-- The flusher is in every round whose flush is under way. -/
def Attended (s : SharedStore) : Prop :=
  ∀ round, (s.flushes (.round round)).isUnderWay = true → s.flusher = .flushing round

theorem Attended.move (h : s.Attended) {c : FlushCall} {old : FlushStage} (here : s.flushes c = old)
    (going : old.isUnderWay = true) (stage : FlushStage) : (s.setFlush c stage).Attended := by
  intro round underWay
  by_cases same : .round round = c
  · subst same
    exact h round (by rw [here]; exact going)
  · rw [setFlush_of_ne _ _ same] at underWay
    exact h round underWay

theorem Attended.step (h : s.Attended) (step : Step requests s e s') : s'.Attended := by
  -- While the flusher is in no round, no flush of a round is under way.
  have none (resting : ∀ round, s.flusher ≠ .flushing round) (round : Nat)
      (underWay : (s.flushes (.round round)).isUnderWay = true) : False :=
    resting round (h round underWay)
  -- The flush of the round that the flusher is in has returned.
  have returned {round : Nat} {document : Option HistoryDocument}
      {result : Except Failure FlushOutcome} (flushing : s.flusher = .flushing round)
      (finished : s.flushes (.round round) = .finished document result) (other : Nat)
      (underWay : (s.flushes (.round other)).isUnderWay = true) : False := by
    have there := h other underWay
    rw [flushing] at there
    cases there
    rw [finished] at underWay
    cases underWay
  cases step with
  | @asks n idle =>
    intro round underWay
    rw [setFlush_of_ne _ _ (by simp)] at underWay
    exact h round underWay
  | locks queued _ => exact h.move queued rfl _
  | skips locked _ => exact h.move locked rfl _
  | reads locked _ => exact h.move locked rfl _
  | lists listing _ => exact h.move listing rfl _
  | collects collecting => exact h.move collecting rfl _
  | sends collected => exact h.move collected rfl _
  | @saveEnds _ _ ending saving => cases ending <;> exact h.move saving rfl _
  | records recording => exact h.move recording rfl _
  | flushes sleeping _ =>
    intro round underWay
    by_cases same : round = s.rounds
    · rw [same]
      rfl
    · rw [setFlush_of_ne _ _ (by simpa using same)] at underWay
      exact (none (by simp [sleeping]) round underWay).elim
  | rests sleeping _ => exact fun round underWay => (none (by simp [sleeping]) round underWay).elim
  | succeeds flushing finished =>
    exact fun round underWay => (returned flushing finished round underWay).elim
  | fails flushing finished =>
    exact fun round underWay => (returned flushing finished round underWay).elim
  | wakes waiting _ => exact fun round underWay => (none (by simp [waiting]) round underWay).elim
  | stops resting _ =>
    refine fun round underWay => (none (fun other flushing => ?_) round underWay).elim
    rw [flushing] at resting
    rcases resting with waiting | sleeping
    · cases waiting
    · cases sleeping
  | _ => exact h

theorem attended_run (run : (ofDocument config loaded).run? requests events = some s) :
    s.Attended :=
  run_induction (P := fun _ s => s.Attended) (fun _ underWay => by cases underWay)
    (fun _ _ _ _ _ h step => h.step step) run

/-- A flusher that has ended makes no further round. -/
theorem ended_step (step : Step requests s e s') (ended : s.flusher.hasEnded = true) :
    s'.flusher.hasEnded = true := by
  cases step with
  | wakes waiting _ => rw [waiting] at ended; cases ended
  | flushes sleeping _ => rw [sleeping] at ended; cases ended
  | rests sleeping _ => rw [sleeping] at ended; cases ended
  | succeeds flushing _ => rw [flushing] at ended; cases ended
  | fails flushing _ => rw [flushing] at ended; cases ended
  | stops _ _ => rfl
  | @saveEnds _ _ ending _ => cases ending <;> exact ended
  | _ => exact ended

/-- Once the flusher has ended, no round of it calls the backend. -/
theorem unsent_of_ended (early : (ofDocument config loaded).run? requests before = some t)
    (late : t.run? requests after = some s) (ended : t.flusher.hasEnded = true) (round : Nat) :
    .flushSends (.round round) ∉ after := by
  intro member
  obtain ⟨steps, rest, rfl⟩ := List.append_of_mem member
  obtain ⟨u, middle, more⟩ := run?_append_eq_some.1 late
  obtain ⟨v, step, _⟩ := run?_cons_eq_some.1 more
  have still : u.flusher.hasEnded = true :=
    run_induction (P := fun _ s => s.flusher.hasEnded = true) ended
      (fun _ _ _ _ _ ended step => ended_step step ended) middle
  have attended := attended_run (run?_append_eq_some.2 ⟨t, early, middle⟩)
  cases step with
  | sends collected =>
    rw [attended round (by rw [collected]; rfl)] at still
    cases still

/-! ### What a clean store has saved -/

/-- The latest version of every commit that was loaded or written is in the series as it is read,
and nothing else is. -/
theorem mem_views_iff (run : (ofDocument config loaded).run? requests events = some s)
    (name : String) (f : CommitEntry) :
    (∃ es, s.store.views.get? name = some es ∧ f ∈ es)
      ↔ lastFor? (loadedEntries loaded name ++ written requests name events) f.id = some f := by
  have represents := represents_run run name
  rw [← represents.mem_entries, ← represents.view.perm.mem_iff]
  simp only [HistoryStore.views, NameMap.get?_map, Option.map_eq_some_iff]
  cases s.store.series.get? name with
  | none => simp [Series.empty]
  | some series => simp

/-- A document holds the latest version of every commit that was loaded or written, and nothing
else. -/
def Complete (requests : Nat → AppendRequest) (loaded : Option HistoryDocument)
    (events : List SharedEvent) (d : HistoryDocument) : Prop :=
  ∀ name f, (∃ es, d.entries.get? name = some es ∧ f ∈ es)
    ↔ lastFor? (loadedEntries loaded name ++ written requests name events) f.id = some f

/-- The document that a clean store has saved last: it holds what every append that has returned has
written or a later replacement of it, and if no append is in progress, all that readers see. -/
structure SavedLast (requests : Nat → AppendRequest) (loaded : Option HistoryDocument)
    (events : List SharedEvent) (s : SharedStore) (d : HistoryDocument) : Prop where
  last : s.saved.getLast? = some d
  carries : ∀ a, .appendReturns a ∈ events → Carries requests events a d
  complete : (∀ a, (s.appends a).inProgress = false) →
    d.entries = s.store.views ∧ Complete requests loaded events d

/-- Once an append has returned, a clean store has been saved. -/
theorem savedLast_of_clean (run : (ofDocument config loaded).run? requests events = some s)
    (clean : s.store.isDirty = false) {a : Nat} (returned : .appendReturns a ∈ events) :
    ∃ d, SavedLast requests loaded events s d := by
  have kept (b : Nat) (returned : .appendReturns b ∈ events) :=
    (persisted_run run returned).resolve_left (by simp [clean])
  obtain ⟨d, last, _⟩ := kept a returned
  refine ⟨d, last, fun b returned => ?_, fun calm => ?_⟩
  · obtain ⟨d', last', carries⟩ := kept b returned
    cases last.symm.trans last'
    exact carries
  · have same : s.store.generation = s.store.flushed := by
      simpa [HistoryStore.isDirty] using clean
    have counted := (generation_later run).2 a returned
    rcases (coherent_run run).lastSaved (same ▸ Nat.zero_lt_of_lt counted) with disturbed | saved
    · -- Nothing was counted since the flush, and nothing is in progress.
      rcases disturbed with counted | ⟨b, busy⟩
      · exact absurd counted (by omega)
      · rw [calm b] at busy
        cases busy
    · obtain ⟨d', last', views⟩ := saved
      cases last.symm.trans last'
      refine ⟨views, fun name f => ?_⟩
      rw [views]
      exact mem_views_iff run name f

/-! ### Memory -/

/-- Later steps change a series by what they write to it. -/
theorem series_later (late : t.run? requests after = some s) (name : String) :
    (s.store.series.get? name).getD .empty = ((t.store.series.get? name).getD .empty).upsertAll
      (written requests name after) := by
  refine run_induction (P := fun after s => (s.store.series.get? name).getD .empty
    = ((t.store.series.get? name).getD .empty).upsertAll (written requests name after)) rfl ?_ late
  intro after s e s' _ h step
  rw [series_of_step step, h, written_concat, Series.upsertAll_append]

/-- Without appends, later steps change nothing in memory. -/
theorem memory_later (late : t.run? requests after = some s)
    (quiet : ∀ e ∈ after, e.isAppend = false) :
    s.store.series = t.store.series ∧ s.store.generation = t.store.generation := by
  refine run_induction (P := fun after s => (∀ e ∈ after, e.isAppend = false) →
    s.store.series = t.store.series ∧ s.store.generation = t.store.generation) ?_ ?_ late quiet
  · exact fun _ => ⟨rfl, rfl⟩
  · intro after s e s' _ h step quiet
    obtain ⟨series, generation⟩ := h fun e member => quiet e (List.mem_append_left _ member)
    obtain ⟨series', generation', _⟩ := memory_of_step step (quiet e List.mem_concat_self)
    exact ⟨series'.trans series, generation'.trans generation⟩

/-! ### Shutdowns -/

/-- A call of shutdown and the steps that are taken meanwhile. It tells the flusher to stop and
waits until the flusher has ended, unless an earlier call has taken over to wait for it; then it
flushes as `number`, and returns with its flush. -/
structure Shutdown (requests : Nat → AppendRequest) (called : SharedStore)
    (waiting flushing : List SharedEvent) (number : Nat) (s : SharedStore)
    (result : Except Failure FlushOutcome) : Prop where
  waits : ∃ rested, called.run? requests (.shutdownBegins :: waiting) = some rested ∧
    (rested.flusher.hasEnded = true ∨ called.cancelled = true) ∧
    rested.run? requests (.flushBegins number :: flushing) = some s
  returned : ∃ document, s.flushes (.explicit number) = .finished document result
  returns : ∃ e, flushing.getLast? = some e ∧ e.flush? = some (.explicit number)

/-- Only appends make a store dirty. -/
theorem exists_returned_of_dirty (run : (ofDocument config loaded).run? requests events = some s)
    (dirty : s.store.isDirty = true) : ∃ a, .appendReturns a ∈ events := by
  by_contra absent
  rw [not_exists] at absent
  have opened : (ofDocument config loaded).run? requests [] = some (ofDocument config loaded) := rfl
  have clean := (clean_run opened run absent rfl).1
  rw [clean] at dirty
  cases dirty

/-- The steps of a run up to the end of a shutdown. -/
def throughShutdown (before waiting : List SharedEvent) (number : Nat)
    (flushing : List SharedEvent) : List SharedEvent :=
  before ++ .shutdownBegins :: waiting ++ .flushBegins number :: flushing

theorem Shutdown.reached {waiting flushing : List SharedEvent} {number : Nat}
    {result : Except Failure FlushOutcome}
    (early : (ofDocument config loaded).run? requests before = some t)
    (down : Shutdown requests t waiting flushing number s result) :
    (ofDocument config loaded).run? requests (throughShutdown before waiting number flushing)
      = some s := by
  obtain ⟨rested, waits, _, flushes⟩ := down.waits
  exact run?_append_eq_some.2 ⟨rested, run?_append_eq_some.2 ⟨t, early, waits⟩, flushes⟩

/-- Wherever the background flusher is when a shutdown begins, and however its save ends: a shutdown
that succeeds while no append returns leaves a clean store that has been saved in full, and no round
of the flusher calls the backend again. One that fails leaves the store dirty with all that is in
memory, and the next flush that succeeds saves it. -/
theorem shutdown_complete {config : StoreConfig} {loaded : Option HistoryDocument}
    {before waiting flushing : List SharedEvent} {called : SharedStore} {number : Nat}
    {result : Except Failure FlushOutcome}
    (early : (ofDocument config loaded).run? requests before = some called)
    (down : Shutdown requests called waiting flushing number s result) :
    (∀ outcome, result = .ok outcome → (∀ a, .appendReturns a ∉ waiting ++ flushing) →
      s.store.isDirty = false ∧
      ((∃ a, .appendReturns a ∈ before) →
        ∃ d, SavedLast requests loaded (throughShutdown before waiting number flushing) s d) ∧
      ∀ later u, s.run? requests later = some u →
        (called.cancelled = false ∨ ∀ a, .appendReturns a ∉ later) →
        ∀ round, .flushSends (.round round) ∉ later) ∧
    ∀ failure, result = .error failure →
      (∀ name, (s.store.series.get? name).getD .empty
        = ((called.store.series.get? name).getD .empty).upsertAll
          (written requests name (waiting ++ flushing))) ∧
      ((∀ e ∈ waiting ++ flushing, e.isAppend = false) →
        s.store.series = called.store.series ∧ s.store.generation = called.store.generation) ∧
      s.store.isDirty = true ∧
      ∀ c later u outcome, s.run? requests later = some u → (s.flushes c).hasRead = false →
        (u.flushes c).outcome? = some outcome →
        (∃ d ∈ u.saved, ∀ a,
          .appendReturns a ∈ throughShutdown before waiting number flushing →
          Carries requests (throughShutdown before waiting number flushing ++ later) a d) ∧
        ((∀ a, .appendReturns a ∉ later) → u.store.isDirty = false ∧
          ∃ d, SavedLast requests loaded
            (throughShutdown before waiting number flushing ++ later) u d) := by
  have reached := down.reached early
  obtain ⟨document, finished⟩ := down.returned
  obtain ⟨rested, waits, handle, flushes⟩ := down.waits
  have awaited := run?_append_eq_some.2 ⟨called, early, waits⟩
  constructor
  · rintro outcome rfl uncounted
    have clean : s.store.isDirty = false := by
      have succeeded := FlushStage.outcome?_eq_some.2 ⟨_, finished⟩
      refine clean_of_outcome awaited flushes ?_ (unread_of_begins flushes) succeeded
      simpa using fun a returned => uncounted a (List.mem_append_right _ returned)
    refine ⟨clean, ?_, ?_⟩
    · rintro ⟨a, returned⟩
      have listed : .appendReturns a ∈ throughShutdown before waiting number flushing := by
        simp [throughShutdown, returned]
      exact savedLast_of_clean reached clean listed
    · rintro later u late (going | quiet) round
      · have ended : rested.flusher.hasEnded = true := handle.resolve_right (by simp [going])
        have still : s.flusher.hasEnded = true :=
          run_induction (P := fun _ s => s.flusher.hasEnded = true) ended
            (fun _ _ _ _ _ ended step => ended_step step ended) flushes
        exact unsent_of_ended reached late still round
      · exact (clean_run reached late quiet clean).2 (.round round)
  · rintro failure rfl
    have dirty : s.store.isDirty = true := by
      obtain ⟨e, last, mine⟩ := down.returns
      exact dirty_of_failed_last reached
        (by simp [throughShutdown, List.getLast?_cons, last]) mine finished
    have during : called.run? requests
        (.shutdownBegins :: waiting ++ .flushBegins number :: flushing) = some s :=
      run?_append_eq_some.2 ⟨rested, waits, flushes⟩
    obtain ⟨a, returned⟩ := exists_returned_of_dirty reached dirty
    refine ⟨fun name => ?_, fun quiet => ?_, dirty, ?_⟩
    · rw [series_later during name]
      simp [written, List.filterMap_append, List.filterMap_cons, writtenBy?]
    · refine memory_later during fun e member => ?_
      rw [List.cons_append, List.mem_cons, List.mem_append, List.mem_cons] at member
      rcases member with rfl | waited | rfl | flushed
      · rfl
      · exact quiet e (List.mem_append_left _ waited)
      · rfl
      · exact quiet e (List.mem_append_right _ flushed)
    · intro c later u outcome late unread succeeded
      refine ⟨carried_later reached late unread succeeded returned, fun quiet => ?_⟩
      have clean := clean_of_outcome reached late quiet unread succeeded
      exact ⟨clean, savedLast_of_clean (run?_append_eq_some.2 ⟨s, reached, late⟩) clean
        (List.mem_append_left _ returned)⟩

/-- An append, and a round of the flusher up to the middle of its save. -/
def caughtRun : List SharedEvent :=
  [.appendBegins 0, .appendWrites 0, .appendReturns 0, .flusherWakes, .flusherLooks,
    .flushLocks (.round 0), .flushReads (.round 0), .flushLists (.round 0) 6 ["s"],
    .flushCollects (.round 0), .flushSends (.round 0)]

/-- The save of that round times out, and the flusher stops. -/
def stoppingRun : List SharedEvent :=
  [.saveEnds (.round 0) (.error (.timeout 10)), .flushRecords (.round 0) 7, .flusherRests,
    .flusherStops]

/-- The flush of the shutdown. -/
def lastFlush (ending : Except PersistenceError Unit) : List SharedEvent :=
  [.flushLocks (.explicit 0), .flushReads (.explicit 0), .flushLists (.explicit 0) 8 ["s"],
    .flushCollects (.explicit 0), .flushSends (.explicit 0), .saveEnds (.explicit 0) ending,
    .flushRecords (.explicit 0) 9]

theorem shutdown_complete_amid_save :
    ∃ called, (ofDocument { policy := .interval } none).run? retriedRequests caughtRun
        = some called ∧ called.flusher = .flushing 0 ∧
      (∃ s, Shutdown retriedRequests called stoppingRun (lastFlush (.ok ())) 0 s
          (.ok (.written 1 1)) ∧
        s.store.isDirty = false ∧ ∃ d, SavedLast retriedRequests none
          (throughShutdown caughtRun stoppingRun 0 (lastFlush (.ok ()))) s d) ∧
      ∃ s failure, Shutdown retriedRequests called stoppingRun
          (lastFlush (.error (.timeout 10))) 0 s (.error failure) ∧
        s.store.isDirty = true ∧ s.store.series = called.store.series := by
  have caught : ((ofDocument { policy := .interval } none).run? retriedRequests caughtRun).any
      (fun called => called.flusher == .flushing 0 &&
        (called.run? retriedRequests (.shutdownBegins :: stoppingRun)).any fun rested =>
          rested.flusher.hasEnded &&
            (rested.run? retriedRequests (.flushBegins 0 :: lastFlush (.ok ()))).any (fun s =>
              (s.flushes (.explicit 0)).outcome? == some (.written 1 1)) &&
            (rested.run? retriedRequests
              (.flushBegins 0 :: lastFlush (.error (.timeout 10)))).any fun s =>
              (s.flushes (.explicit 0)).failure?.isSome) = true := by decide +kernel
  obtain ⟨called, run, known⟩ := Option.any_eq_true .. |>.1 caught
  simp only [Bool.and_eq_true, beq_iff_eq] at known
  obtain ⟨flushing, known⟩ := known
  obtain ⟨rested, waits, known⟩ := Option.any_eq_true .. |>.1 known
  simp only [Bool.and_eq_true] at known
  obtain ⟨⟨ended, saves⟩, fails⟩ := known
  refine ⟨called, run, flushing, ?_, ?_⟩
  · obtain ⟨s, flushes, outcome⟩ := Option.any_eq_true .. |>.1 saves
    have down : Shutdown retriedRequests called stoppingRun (lastFlush (.ok ())) 0 s
        (.ok (.written 1 1)) := {
      waits := ⟨rested, waits, .inl ended, flushes⟩
      returned := FlushStage.outcome?_eq_some.1 (beq_iff_eq.1 outcome)
      returns := ⟨_, rfl, rfl⟩ }
    obtain ⟨clean, saved, _⟩ := (shutdown_complete run down).1 _ rfl (by
      simp [stoppingRun, lastFlush])
    exact ⟨s, down, clean, saved ⟨0, by simp [caughtRun]⟩⟩
  · obtain ⟨s, flushes, failed⟩ := Option.any_eq_true .. |>.1 fails
    obtain ⟨failure, here⟩ := Option.isSome_iff_exists.1 failed
    have down : Shutdown retriedRequests called stoppingRun (lastFlush (.error (.timeout 10))) 0 s
        (.error failure) := {
      waits := ⟨rested, waits, .inl ended, flushes⟩
      returned := FlushStage.failure?_eq_some.1 here
      returns := ⟨_, rfl, rfl⟩ }
    obtain ⟨_, kept, dirty, _⟩ := (shutdown_complete run down).2 _ rfl
    have quiet : ∀ e ∈ stoppingRun ++ lastFlush (.error (.timeout 10)), e.isAppend = false := by
      decide
    exact ⟨s, failure, down, dirty, (kept quiet).1⟩

end SharedStore

end BenchLedger
