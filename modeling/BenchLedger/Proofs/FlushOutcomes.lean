import BenchLedger.Proofs.LoneFlush

/-!
How flushes end. Main statement: `SharedStore.flush_outcomes`: however flushes, appends and failures
mix, a flush calls the backend exactly if it finds the store dirty, one that fails changes only the
error of the last flush, and one that succeeds saves what it would have saved by itself.
-/

namespace BenchLedger

namespace FlushStage

/-- Whether a flush has called the backend. -/
def hasSent : FlushStage → Bool
  | .saving _ | .recording .. | .finished (some _) _ => true
  | _ => false

/-- The document of a flush, collected in part or in full. -/
def document? : FlushStage → Option HistoryDocument
  | .collecting _ pending | .saving pending | .recording pending _ => some pending.document
  | .finished document _ => document
  | _ => none

end FlushStage

namespace SharedStore

variable {requests : Nat → AppendRequest} {s s' t t' : SharedStore} {config : StoreConfig}
  {loaded : Option HistoryDocument} {events before after : List SharedEvent} {e : SharedEvent}
  {c : FlushCall}

/-- A run takes the step `e` from `t` to `t'` after the steps `before`. -/
structure Takes (requests : Nat → AppendRequest) (start : SharedStore) (events : List SharedEvent)
    (before : List SharedEvent) (t : SharedStore) (e : SharedEvent) (t' : SharedStore) :
    Prop where
  listed : before ++ [e] <+: events
  reached : start.run? requests before = some t
  step : t.step? requests e = some t'

/-- What comes after a step that a run takes. -/
theorem Takes.exists_rest {start : SharedStore} (takes : Takes requests start events before t e t')
    (run : start.run? requests events = some s) :
    ∃ after, events = before ++ e :: after ∧ Step requests t e t' ∧
      start.run? requests (before ++ [e]) = some t' ∧ t'.run? requests after = some s := by
  obtain ⟨after, rfl⟩ := takes.listed
  have step := step?_eq_some.1 takes.step
  have reached := run?_concat_eq_some.2 ⟨t, takes.reached, step⟩
  obtain ⟨u, reached', late⟩ := run?_append_eq_some.1 run
  cases reached.symm.trans reached'
  exact ⟨after, by simp, step, reached, late⟩

/-! ### Flushes that skip the backend -/

theorem sent_of_mem (run : (ofDocument config loaded).run? requests events = some s)
    (sends : .flushSends c ∈ events) : (s.flushes c).hasSent = true := by
  obtain ⟨before, after, rfl⟩ := List.append_of_mem sends
  obtain ⟨t, early, rest⟩ := run?_append_eq_some.1 run
  obtain ⟨u, step, late⟩ := run?_cons_eq_some.1 rest
  have reached := run?_concat_eq_some.2 ⟨t, early, step⟩
  refine stage_induction reached late (P := fun stage => stage.hasSent = true) ?_ ?_
  · cases step with
    | sends _ =>
      rw [setFlush_self]
      rfl
  · intro s e old new _ move h
    cases move with
    | saveEnds => rfl
    | records => rfl
    | _ => cases h

/-- A flush returns clean just if it finds the store clean, and then it does not call the
backend. -/
theorem outcome_of_read (run : (ofDocument config loaded).run? requests events = some s)
    (takes : Takes requests (ofDocument config loaded) events before t (.flushReads c) t') :
    ((s.flushes c).outcome? = some .clean ↔ t.store.isDirty = false) ∧
      (t.store.isDirty = false → .flushSends c ∉ events) := by
  obtain ⟨after, rfl, step, reached, late⟩ := takes.exists_rest run
  have coherent := coherent_run takes.reached
  have skips (clean : t.store.isDirty = false) : s.flushes c = .finished none (.ok .clean) := by
    cases step with
    | skips _ _ => exact finished_later reached late (setFlush_self ..)
    | reads _ unsettled =>
      rw [coherent.isSettled_eq, clean] at unsettled
      cases unsettled
  refine ⟨⟨fun returned => ?_, fun clean => ?_⟩, fun clean sends => ?_⟩
  · obtain ⟨document, finished⟩ := FlushStage.outcome?_eq_some.1 returned
    exact (clean_of_finished run takes.reached finished).1
  · rw [skips clean]
    rfl
  · have sent := sent_of_mem run sends
    rw [skips clean] at sent
    cases sent

/-- After a flush has succeeded, the store is clean and no flush calls the backend until another
append is counted. -/
theorem clean_of_success {now : Int} {middle : List SharedEvent}
    (run : (ofDocument config loaded).run? requests
      (before ++ .flushReads c :: (middle ++ .flushRecords c now :: after)) = some s)
    (succeeded : (s.flushes c).outcome?.isSome = true)
    (uncounted : ∀ a, .appendReturns a ∉ middle ++ after) :
    s.store.isDirty = false ∧ ∀ b, .flushSends b ∉ after := by
  have split : before ++ .flushReads c :: (middle ++ .flushRecords c now :: after)
      = before ++ (.flushReads c :: middle ++ [.flushRecords c now]) ++ after := by simp
  rw [split] at run
  obtain ⟨u, reached, late⟩ := run?_append_eq_some.1 run
  obtain ⟨t, early, flush⟩ := run?_append_eq_some.1 reached
  have unread : (t.flushes c).hasRead = false := by
    obtain ⟨t', step, _⟩ := run?_cons_eq_some.1 flush
    cases step with
    | skips locked _ => rw [locked]; rfl
    | reads locked _ => rw [locked]; rfl
  obtain ⟨outcome, here⟩ : ∃ outcome, (u.flushes c).outcome? = some outcome := by
    obtain ⟨v, _, step⟩ := run?_concat_eq_some.1 flush
    cases step with
    | records _ =>
      have same := finished_later reached late (setFlush_self ..)
      rw [same] at succeeded
      rw [setFlush_self]
      exact Option.isSome_iff_exists.1 succeeded
  have between (a : Nat) : .appendReturns a ∉ .flushReads c :: middle ++ [.flushRecords c now] := by
    have quiet := uncounted a
    simp only [List.mem_append, not_or] at quiet
    simpa using quiet.1
  have clean := clean_of_outcome early flush between unread here
  exact clean_run reached late (fun a member => uncounted a (List.mem_append_right _ member)) clean

/-! ### Flushes that fail -/

/-- The steps of a flush that fails change nothing but the error of the last flush. -/
theorem kept_of_failed (run : (ofDocument config loaded).run? requests events = some s)
    {document : Option HistoryDocument} {failure : Failure}
    (failed : s.flushes c = .finished document (.error failure))
    (takes : Takes requests (ofDocument config loaded) events before t e t')
    (mine : e.flush? = some c) :
    t'.store = { t.store with lastError := t'.store.lastError } ∧ t'.saved = t.saved := by
  obtain ⟨after, rfl, step, reached, late⟩ := takes.exists_rest run
  have never : (t'.flushes c).succeeds = false := by
    by_contra succeeds
    have succeeded := succeeds_later reached late (by simpa using succeeds)
    rw [failed] at succeeded
    cases succeeded
  cases step with
  | @saveEnds b pending ending _ =>
    cases mine
    cases ending with
    | ok done =>
      rw [setFlush_self] at never
      cases never
    | error error => exact ⟨rfl, rfl⟩
  | @records b pending ending now _ =>
    cases mine
    cases ending with
    | ok done =>
      rw [setFlush_self] at never
      cases never
    | error error => exact ⟨rfl, rfl⟩
  | refuses _ _ => cases mine
  | begins _ _ => cases mine
  | writes _ => cases mine
  | returns _ => cases mine
  | _ => exact ⟨rfl, rfl⟩

/-! ### Flushes that succeed -/

/-- Every document of a flush has the store's link to its repository. -/
theorem repoUrl_of_document (run : (ofDocument config loaded).run? requests events = some s)
    {d : HistoryDocument} (here : (s.flushes c).document? = some d) :
    d.repoUrl = (HistoryStore.ofDocument config loaded).repoUrl := by
  have kept := run_induction (P := fun _ s =>
    s.store.repoUrl = (HistoryStore.ofDocument config loaded).repoUrl ∧
      ∀ c d, (s.flushes c).document? = some d →
        d.repoUrl = (HistoryStore.ofDocument config loaded).repoUrl) ?_ ?_ run
  · exact kept.2 c d here
  · exact ⟨rfl, fun c d here => by cases here⟩
  · rintro events s e s' reached ⟨link, documents⟩ step
    refine ⟨(repoUrl_of_step step).trans link, fun c d here => ?_⟩
    rcases flush_of_step step (round_idle reached _ (Nat.le_refl _)) c with same | move
    · exact documents c d (same ▸ here)
    · have before := documents c
      generalize s.flushes c = old, s'.flushes c = new at before here move
      cases move with
      | lists =>
        cases here
        exact link
      | @collects name left pending =>
        cases here
        exact before pending.document rfl
      | sends => exact before d here
      | saveEnds => exact before d here
      | records => exact before d here
      | _ => cases here

/-- Other flushes do not matter for what the flush `c` of a run saves: it saves `d` if it takes
place alone, and nothing else in any run with the same steps of it and of the appends. -/
structure SavesAnyway (requests : Nat → AppendRequest) (start : SharedStore)
    (events : List SharedEvent) (c : FlushCall) (d : HistoryDocument) : Prop where
  alone : ∃ t, (start.setFlush c .queued).run? requests (events.filter (SharedEvent.concerns c))
    = some t ∧ t.flushes c = .finished (some d) (.ok (.written d.entries.size d.entryCount))
  besides : ∀ events' s', start.run? requests events' = some s' →
    events'.filter (SharedEvent.concerns c) = events.filter (SharedEvent.concerns c) →
    ∀ d' result, s'.flushes c = .finished (some d') result → d' = d

theorem savesAnyway_of_written (run : (ofDocument config loaded).run? requests events = some s)
    {d : HistoryDocument} (written : s.flushes c
      = .finished (some d) (.ok (.written d.entries.size d.entryCount))) :
    SavesAnyway requests (ofDocument config loaded) events c d := by
  obtain ⟨t, alone, same⟩ := alone_of_run run c
  have saved := same.stage_eq written (by simp) (by simp)
  refine ⟨⟨t, alone, saved⟩, fun events' s' run' equal d' result finished => ?_⟩
  obtain ⟨t', alone', same'⟩ := alone_of_run run' c
  rw [equal] at alone'
  cases alone.symm.trans alone'
  cases saved.symm.trans (same'.stage_eq finished (by simp) (by simp))
  rfl

/-- A flush that succeeds clears the error of the last flush. -/
theorem cleared_of_succeeded (run : (ofDocument config loaded).run? requests events = some s)
    {document : Option HistoryDocument} {outcome : FlushOutcome}
    (finished : s.flushes c = .finished document (.ok outcome)) {now : Int}
    (takes : Takes requests (ofDocument config loaded) events before t (.flushRecords c now) t') :
    t'.store.lastError = none := by
  obtain ⟨after, rfl, step, reached, late⟩ := takes.exists_rest run
  cases step with
  | @records _ pending ending _ _ =>
    cases ending with
    | ok done => rfl
    | error error =>
      have same := finished_later reached late (setFlush_self ..)
      rw [finished] at same
      cases same

/-! ### Flushes that nothing interrupts -/

/-- The steps of a flush with something to do that nothing interrupts. -/
def flushAlone (c : FlushCall) (now : Int) (order : List String)
    (ending : Except PersistenceError Unit) (later : Int) : List SharedEvent :=
  [.flushLocks c, .flushReads c, .flushLists c now order] ++
    List.replicate order.length (.flushCollects c) ++ [.flushSends c] ++
    [.saveEnds c ending, .flushRecords c later]

/-- A flush of a dirty store saves the store as it is, unless the save fails. -/
theorem run_flushAlone (queued : s.flushes c = .queued) (free : s.lock = none)
    (unsettled : s.store.isSettled = false) {now : Int} {order : List String}
    (all : order.Perm s.store.seriesNames) (ending : Except PersistenceError Unit) (later : Int) :
    ∃ s', s.run? requests (flushAlone c now order ending later) = some s' ∧
      s'.store = (s.store.endFlush ⟨s.store.generation, s.store.document now⟩ later ending).1 ∧
      s'.flushes c = .finished (some (s.store.document now))
        (s.store.endFlush ⟨s.store.generation, s.store.document now⟩ later ending).2 ∧
      s'.saved = (s.saves (s.store.document now) ending).saved := by
  have begun : s.store.beginFlush now = some ⟨s.store.generation, s.store.document now⟩ := by
    simp [HistoryStore.beginFlush, unsettled]
  have sent : s.run? requests _ = some _ := run_beginFlush queued free begun all
  refine ⟨_, run?_append_eq_some.2 ⟨_, sent, run_endFlush (setFlush_self ..) ending later⟩, ?_⟩
  rw [setFlush_self]
  cases ending <;> exact ⟨rfl, rfl, rfl⟩

/-! ### All flushes -/

/-- However appends, flushes and failures mix: the generation saved last never passes the store's,
and an error of the last flush stands for changes that are not saved. A flush that has the lock
leaves the backend alone just if the store is clean, so no flush calls it between a flush that
succeeded and the next append. A flush that fails leaves no trace but its error. One that succeeds
clears it, and saves what it would have saved had no other flush taken place. -/
theorem flush_outcomes {config : StoreConfig} {loaded : Option HistoryDocument}
    {events : List SharedEvent} (run : (ofDocument config loaded).run? requests events = some s) :
    -- The generation saved last is no later than the store's, and an error stands for changes.
    (s.store.flushed ≤ s.store.generation ∧
      (s.store.lastError.isSome = true → s.store.isDirty = true)) ∧
    -- A flush that has the lock returns clean, without the backend, just if the store is clean.
    (∀ c before t t', Takes requests (ofDocument config loaded) events before t (.flushReads c) t' →
      t.lock = some c ∧ ((s.flushes c).outcome? = some .clean ↔ t.store.isDirty = false) ∧
        (t.store.isDirty = false → .flushSends c ∉ events)) ∧
    -- After a flush has succeeded, none calls the backend until another append is counted.
    (∀ c now before middle after,
      events = before ++ .flushReads c :: (middle ++ .flushRecords c now :: after) →
      (s.flushes c).outcome?.isSome = true → (∀ a, .appendReturns a ∉ middle ++ after) →
      s.store.isDirty = false ∧ ∀ b, .flushSends b ∉ after) ∧
    -- A flush that fails changes nothing but the error of the last flush.
    (∀ c document failure, s.flushes c = .finished document (.error failure) →
      ∀ before t e t', Takes requests (ofDocument config loaded) events before t e t' →
        e.flush? = some c →
        t'.store = { t.store with lastError := t'.store.lastError } ∧ t'.saved = t.saved) ∧
    -- A flush that succeeds saves what it would have saved if no other flush had taken place.
    (∀ c document series entries, s.flushes c = .finished document (.ok (.written series entries)) →
      ∃ d, document = some d ∧ d ∈ s.saved ∧ series = d.entries.size ∧ entries = d.entryCount ∧
        d.repoUrl = (HistoryStore.ofDocument config loaded).repoUrl ∧
        SavesAnyway requests (ofDocument config loaded) events c d ∧
        ∀ now before t t',
          Takes requests (ofDocument config loaded) events before t (.flushRecords c now) t' →
          t'.store.lastError = none) ∧
    -- After any failures, a flush of the dirty store whose save succeeds saves the store as it is.
    (∀ c now order later, s.flushes c = .queued → s.lock = none → s.store.isDirty = true →
      order.Perm s.store.seriesNames →
      ∃ s', s.run? requests (flushAlone c now order (.ok ()) later) = some s' ∧
        s'.store = { s.store with
          flushed := s.store.generation, lastFlush := some later, lastError := none } ∧
        s'.flushes c = .finished (some (s.store.document now)) (.ok (.written
          (s.store.document now).entries.size (s.store.document now).entryCount)) ∧
        s'.saved = s.saved ++ [s.store.document now]) := by
  have coherent := coherent_run run
  refine ⟨⟨coherent.counted, fun failed => coherent.dirty_iff.2 (coherent.failed failed)⟩,
    ?_, ?_, ?_, ?_, ?_⟩
  · intro c before t t' takes
    refine ⟨?_, outcome_of_read run takes⟩
    have locked : t.flushes c = .locked := by
      cases step?_eq_some.1 takes.step with
      | skips locked _ => exact locked
      | reads locked _ => exact locked
    exact (coherent_run takes.reached).mine locked rfl
  · rintro c now before middle after rfl succeeded uncounted
    exact clean_of_success run succeeded uncounted
  · intro c document failure failed before t e t' takes mine
    exact kept_of_failed run failed takes mine
  · intro c document series entries finished
    obtain ⟨d, rfl, member, rfl, rfl⟩ := coherent.sound_at finished series entries rfl
    exact ⟨d, rfl, member, rfl, rfl, repoUrl_of_document run (by rw [finished]; rfl),
      savesAnyway_of_written run finished, fun now before t t' => cleared_of_succeeded run finished⟩
  · intro c now order later queued free dirty all
    have unsettled : s.store.isSettled = false := by
      rw [coherent.isSettled_eq, dirty, Bool.not_true]
    exact run_flushAlone queued free unsettled all (.ok ()) later

/-- The first flush of `busyRun` times out, and the third one saves what it would have saved without
the others. -/
theorem flush_outcomes_after_busyRun :
    ∃ s, (ofDocument {} none).run? busyRequests busyRun = some s ∧
      s.store.flushed ≤ s.store.generation ∧
      ((s.flushes (.explicit 0)).failure?.isSome = true ∧
        ∀ before t e t', Takes busyRequests (ofDocument {} none) busyRun before t e t' →
          e.flush? = some (.explicit 0) → t'.saved = t.saved) ∧
      ∃ d, s.flushes (.explicit 2) = .finished (some d) (.ok (.written 2 2)) ∧ d ∈ s.saved ∧
        SavesAnyway busyRequests (ofDocument {} none) busyRun (.explicit 2) d := by
  have ends : ((ofDocument {} none).run? busyRequests busyRun).any (fun s =>
      (s.flushes (.explicit 0)).failure?.isSome &&
        (s.flushes (.explicit 2)).outcome? == some (.written 2 2)) = true := by decide +kernel
  obtain ⟨s, run, known⟩ := Option.any_eq_true .. |>.1 ends
  simp only [Bool.and_eq_true, beq_iff_eq] at known
  obtain ⟨failed, succeeded⟩ := known
  obtain ⟨⟨counted, _⟩, _, _, kept, saves, _⟩ := flush_outcomes run
  refine ⟨s, run, counted, ⟨failed, fun before t e t' takes mine => ?_⟩, ?_⟩
  · obtain ⟨failure, here⟩ := Option.isSome_iff_exists.1 failed
    obtain ⟨document, finished⟩ := FlushStage.failure?_eq_some.1 here
    exact (kept _ _ _ finished before t e t' takes mine).2
  · obtain ⟨document, finished⟩ := FlushStage.outcome?_eq_some.1 succeeded
    obtain ⟨d, rfl, saved, _, _, _, anyway, _⟩ := saves _ _ _ _ finished
    exact ⟨d, finished, saved, anyway⟩

end SharedStore

end BenchLedger
