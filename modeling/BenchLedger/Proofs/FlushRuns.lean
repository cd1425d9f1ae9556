import BenchLedger.Proofs.Durability
import BenchLedger.Proofs.WakeUps

/-!
Flushes over the whole of a run. Main statements: `SharedStore.clean_run`: a clean store stays clean
and its backend is left alone until an append is counted, `SharedStore.covers_run`: a flush that
succeeds with no append counted since it began leaves the store clean, and
`SharedStore.persisted_run`: what an append has written is in the document saved last, or the store
is dirty.
-/

namespace BenchLedger

namespace SharedEvent

/-- Whether an append takes the step. -/
def isAppend : SharedEvent → Bool
  | .appendBegins _ | .appendWrites _ | .appendReturns _ => true
  | _ => false

/-- The flush that takes the step. -/
def flush? : SharedEvent → Option FlushCall
  | .flushBegins number => some (.explicit number)
  | .flushLocks call | .flushReads call | .flushLists call _ _ | .flushCollects call
  | .flushSends call | .saveEnds call _ | .flushRecords call _ => some call
  | _ => none

end SharedEvent

namespace FlushStage

/-- The generation that a flush which is under way has read. -/
def generation? : FlushStage → Option Nat
  | .listing generation => some generation
  | .collecting _ pending | .saving pending | .recording pending _ => some pending.generation
  | .idle | .queued | .locked | .finished .. => none

/-- Whether the save of a flush has succeeded, or there was nothing to save. -/
def succeeds : FlushStage → Bool
  | .recording _ (.ok _) | .finished _ (.ok _) => true
  | _ => false

/-- What a flush has failed with. -/
def failure? : FlushStage → Option Failure
  | .finished _ (.error failure) => some failure
  | _ => none

theorem failure?_eq_some {stage : FlushStage} {failure : Failure} :
    stage.failure? = some failure ↔ ∃ document, stage = .finished document (.error failure) := by
  cases stage with
  | finished document result => cases result <;> simp [failure?]
  | _ => simp [failure?]

/-- A flush that is under way has the lock and has read the generation. -/
theorem of_generation {stage : FlushStage} {read : Nat} (under : stage.generation? = some read) :
    stage.holdsLock = true ∧ stage.hasRead = true := by
  cases stage with
  | idle => cases under
  | queued => cases under
  | locked => cases under
  | finished document result => cases under
  | _ => exact ⟨rfl, rfl⟩

theorem Covers.mono {stage : FlushStage} {generation : Nat} {dirty dirty' : Bool}
    (h : stage.Covers generation dirty) (keeps : dirty = false → dirty' = false) :
    stage.Covers generation dirty' := by
  cases stage with
  | finished document result =>
    cases result with
    | ok outcome => exact keeps h
    | error failure => trivial
  | _ => exact h

end FlushStage

namespace SharedStore

variable {requests : Nat → AppendRequest} {s s' t : SharedStore} {config : StoreConfig}
  {loaded : Option HistoryDocument} {before after : List SharedEvent} {e : SharedEvent}
  {c : FlushCall}

/-! ### Steps -/

/-- Unless an append takes it, a step leaves the store as it is or records how a save ended. -/
theorem store_of_step (step : Step requests s e s') (quiet : e.isAppend = false) :
    s'.store = s.store ∨ ∃ c pending ending now, e = .flushRecords c now ∧
      s.flushes c = .recording pending ending ∧
        s'.store = (s.store.endFlush pending now ending).1 := by
  cases step with
  | refuses _ _ => cases quiet
  | begins _ _ => cases quiet
  | writes _ => cases quiet
  | returns _ => cases quiet
  | @saveEnds _ _ ending _ => cases ending <;> exact .inl rfl
  | records recording => exact .inr ⟨_, _, _, _, rfl, recording, rfl⟩
  | _ => exact .inl rfl

/-- Only appends change what is in memory. -/
theorem memory_of_step (step : Step requests s e s') (quiet : e.isAppend = false) :
    s'.store.series = s.store.series ∧ s'.store.generation = s.store.generation ∧
      s'.store.repoUrl = s.store.repoUrl := by
  rcases store_of_step step quiet with same | ⟨c, pending, ending, now, _, _, recorded⟩
  · rw [same]
    exact ⟨rfl, rfl, rfl⟩
  · rw [recorded]
    cases ending <;> exact ⟨rfl, rfl, rfl⟩

theorem ensureSeries_repoUrl (s : HistoryStore) (series : String) :
    (s.ensureSeries series).repoUrl = s.repoUrl := by
  unfold HistoryStore.ensureSeries
  split <;> rfl

theorem repoUrl_of_step (step : Step requests s e s') : s'.store.repoUrl = s.store.repoUrl := by
  cases step with
  | begins _ _ => exact ensureSeries_repoUrl ..
  | @saveEnds _ _ ending _ => cases ending <;> rfl
  | @records _ _ ending _ _ => cases ending <;> rfl
  | _ => rfl

/-- The generation rises when an append returns, and only then. -/
theorem generation_of_uncounted (step : Step requests s e s')
    (uncounted : ∀ a, e ≠ .appendReturns a) : s'.store.generation = s.store.generation := by
  cases step with
  | begins _ _ => exact (ensureSeries_frame s.store _).2.2
  | returns _ => exact absurd rfl (uncounted _)
  | @saveEnds _ _ ending _ => cases ending <;> rfl
  | @records _ _ ending _ _ => cases ending <;> rfl
  | _ => rfl

namespace Coherent

theorem dirty_iff (h : Coherent s) :
    s.store.isDirty = true ↔ s.store.flushed < s.store.generation := by
  have counted := h.counted
  simp only [HistoryStore.isDirty, bne_iff_ne]
  omega

/-- An error of the last flush stands only as long as the store is dirty, so that a flush has
nothing to do just if the store is clean. -/
theorem isSettled_eq (h : Coherent s) : s.store.isSettled = !s.store.isDirty := by
  cases dirty : s.store.isDirty with
  | true => simp [HistoryStore.isSettled, dirty]
  | false =>
    have sound : s.store.lastError.isSome = false := by
      by_contra failed
      rw [Bool.not_eq_false] at failed
      have behind := h.dirty_iff.2 (h.failed failed)
      rw [dirty] at behind
      cases behind
    simpa [HistoryStore.isSettled, dirty] using sound

/-- While a flush is under way, the store is dirty. -/
theorem dirty_of_generation (h : Coherent s) {read : Nat}
    (under : (s.flushes c).generation? = some read) : s.store.isDirty = true := by
  have pending : s.Pending read := by
    have sound := h.sound c
    generalize s.flushes c = stage at under sound
    cases stage with
    | listing generation =>
      cases under
      exact sound
    | collecting left pending =>
      cases under
      exact sound.1
    | saving pending =>
      cases under
      exact sound.1
    | recording pending ending =>
      cases under
      exact sound.1
    | _ => cases under
  exact h.dirty_iff.2 (Nat.lt_of_lt_of_le pending.1 pending.2)

/-- A clean store stays clean until an append is counted, and no flush calls the backend. -/
theorem clean_step (h : Coherent s) (step : Step requests s e s')
    (uncounted : ∀ a, e ≠ .appendReturns a) (clean : s.store.isDirty = false) :
    s'.store.isDirty = false ∧ ∀ c, e ≠ .flushSends c := by
  have idle (c : FlushCall) (stage : FlushStage) (here : s.flushes c = stage) (read : Nat)
      (under : stage.generation? = some read) : False := by
    have dirty := h.dirty_of_generation (here ▸ under)
    rw [clean] at dirty
    cases dirty
  constructor
  · cases step with
    | begins _ _ =>
      obtain ⟨flushed, _, generation⟩ := ensureSeries_frame s.store _
      rw [HistoryStore.isDirty] at clean ⊢
      rw [← flushed, ← generation] at clean
      exact clean
    | returns _ => exact absurd rfl (uncounted _)
    | @saveEnds _ _ ending _ => cases ending <;> exact clean
    | records recording => exact (idle _ _ recording _ rfl).elim
    | _ => exact clean
  · rintro c rfl
    cases step with
    | sends collected => exact idle _ _ collected _ rfl

/-- What a flush covers, it covers until an append is counted. -/
theorem covers_step (h : Coherent s) (fresh : s.flushes (.round s.rounds) = .idle)
    (step : Step requests s e s') (uncounted : ∀ a, e ≠ .appendReturns a)
    (covers : (s.flushes c).Covers s.store.generation s.store.isDirty) :
    (s'.flushes c).Covers s'.store.generation s'.store.isDirty := by
  have generation := generation_of_uncounted step uncounted
  rw [generation]
  rcases flush_of_step step fresh c with same | move
  · rw [same]
    exact covers.mono fun clean => (h.clean_step step uncounted clean).1
  · generalize here : s.flushes c = old, there : s'.flushes c = new at covers move
    cases move with
    | asks => trivial
    | locks => trivial
    | skips =>
      cases step with
      | skips _ settled =>
        rw [h.isSettled_eq, Bool.not_eq_true'] at settled
        exact settled
      | reads _ _ =>
        rw [setFlush_self] at there
        cases there
    | reads => rfl
    | lists all => exact covers
    | collects => exact covers
    | sends => exact covers
    | saveEnds => exact covers
    | @records pending ending now =>
      cases ending with
      | error error => trivial
      | ok done =>
        cases step with
        | records recording =>
          cases here.symm.trans recording
          -- The generation that is recorded is the one that the store still has.
          have counted : s.store.generation = pending.generation := covers
          simp [FlushStage.Covers, HistoryStore.endFlush, HistoryStore.isDirty, setFlush, counted]

end Coherent

/-! ### The rest of a run -/

/-- What holds at some moment of a run and is kept by every later step holds at the end. -/
theorem later_induction (early : (ofDocument config loaded).run? requests before = some t)
    {P : SharedStore → Prop} (base : P t)
    (next : ∀ s e s', e ∈ after → Coherent s → s.flushes (.round s.rounds) = .idle → P s →
      Step requests s e s' → P s')
    (late : t.run? requests after = some s) : P s := by
  induction after using List.reverseRecOn generalizing s with
  | nil =>
    cases late
    exact base
  | append_singleton after e ih =>
    obtain ⟨u, middle, step⟩ := run?_concat_eq_some.1 late
    have reached := run?_append_eq_some.2 ⟨t, early, middle⟩
    have held := ih (fun s e s' member => next s e s' (List.mem_append_left _ member)) middle
    exact next u e s (by simp) (coherent_run reached) (round_idle reached _ (Nat.le_refl _)) held
      step

/-- What every step of a flush keeps holds of it from then on. -/
theorem stage_induction (early : (ofDocument config loaded).run? requests before = some t)
    (late : t.run? requests after = some s) {P : FlushStage → Prop} (base : P (t.flushes c))
    (next : ∀ s e old new, e ∈ after → FlushMove s c e old new → P old → P new) :
    P (s.flushes c) := by
  refine later_induction early (P := fun s => P (s.flushes c)) base ?_ late
  intro s e s' member _ fresh h step
  rcases flush_of_step step fresh c with same | move
  · rwa [same]
  · exact next s e _ _ member move h

/-- A flush that has finished stays so. -/
theorem finished_later (early : (ofDocument config loaded).run? requests before = some t)
    (late : t.run? requests after = some s) {document : Option HistoryDocument}
    {result : Except Failure FlushOutcome} (finished : t.flushes c = .finished document result) :
    s.flushes c = .finished document result := by
  refine stage_induction early late (P := (· = .finished document result)) finished ?_
  rintro s e old new _ move rfl
  cases move

/-- A flush whose save has succeeded does not fail. -/
theorem succeeds_later (early : (ofDocument config loaded).run? requests before = some t)
    (late : t.run? requests after = some s) (succeeds : (t.flushes c).succeeds = true) :
    (s.flushes c).succeeds = true := by
  refine stage_induction early late (P := fun stage => stage.succeeds = true) succeeds ?_
  intro s e old new _ move h
  cases move with
  | @records pending ending now =>
    cases ending with
    | ok done => rfl
    | error error => cases h
  | skips => rfl
  | saveEnds => cases h
  | _ => cases h

theorem exists_read (early : (ofDocument config loaded).run? requests before = some t)
    (late : t.run? requests after = some s) (unread : (t.flushes c).hasRead = false)
    (read : (s.flushes c).hasRead = true) : .flushReads c ∈ after := by
  by_contra absent
  have still := stage_induction early late (P := fun stage => stage.hasRead = false) unread ?_
  · rw [read] at still
    cases still
  · intro s e old new member move h
    cases move with
    | asks => rfl
    | locks => rfl
    | skips => exact absurd member absent
    | reads => exact absurd member absent
    | _ => cases h

/-- A clean store stays clean until an append is counted, and no flush calls the backend. -/
theorem clean_run (early : (ofDocument config loaded).run? requests before = some t)
    (late : t.run? requests after = some s) (uncounted : ∀ a, .appendReturns a ∉ after)
    (clean : t.store.isDirty = false) :
    s.store.isDirty = false ∧ ∀ c, .flushSends c ∉ after := by
  have kept (steps : List SharedEvent) (u : SharedStore) (run : t.run? requests steps = some u)
      (initial : steps <+: after) : u.store.isDirty = false := by
    refine later_induction early (P := fun s => s.store.isDirty = false) clean ?_ run
    intro s e s' member coherent _ clean step
    refine (coherent.clean_step step (fun a same => ?_) clean).1
    exact uncounted a (same ▸ initial.subset member)
  refine ⟨kept after s late (List.prefix_refl _), fun c member => ?_⟩
  obtain ⟨steps, rest, rfl⟩ := List.append_of_mem member
  obtain ⟨u, middle, more⟩ := run?_append_eq_some.1 late
  obtain ⟨v, step, _⟩ := run?_cons_eq_some.1 more
  have coherent := coherent_run (run?_append_eq_some.2 ⟨t, early, middle⟩)
  exact (coherent.clean_step step (by simp) (kept steps u middle (List.prefix_append ..))).2 c rfl

/-- What a flush covers, it covers until an append is counted. In particular a flush that has not
read the generation yet and then succeeds leaves the store clean. -/
theorem covers_run (early : (ofDocument config loaded).run? requests before = some t)
    (late : t.run? requests after = some s) (uncounted : ∀ a, .appendReturns a ∉ after)
    (covers : (t.flushes c).Covers t.store.generation t.store.isDirty) :
    (s.flushes c).Covers s.store.generation s.store.isDirty := by
  refine later_induction early
    (P := fun s => (s.flushes c).Covers s.store.generation s.store.isDirty) covers ?_ late
  intro s e s' member coherent fresh h step
  exact coherent.covers_step fresh step (fun a same => uncounted a (same ▸ member)) h

theorem clean_of_outcome (early : (ofDocument config loaded).run? requests before = some t)
    (late : t.run? requests after = some s) (uncounted : ∀ a, .appendReturns a ∉ after)
    (unread : (t.flushes c).hasRead = false) {outcome : FlushOutcome}
    (succeeded : (s.flushes c).outcome? = some outcome) : s.store.isDirty = false := by
  have covers : (t.flushes c).Covers t.store.generation t.store.isDirty := by
    generalize t.flushes c = stage at unread
    cases stage with
    | idle => trivial
    | queued => trivial
    | locked => trivial
    | _ => cases unread
  have covered := covers_run early late uncounted covers
  obtain ⟨document, finished⟩ := FlushStage.outcome?_eq_some.1 succeeded
  rwa [finished] at covered

/-- The generation never falls, and rises with every append that returns. -/
theorem generation_later (late : t.run? requests after = some s) :
    t.store.generation ≤ s.store.generation ∧
      ∀ a, .appendReturns a ∈ after → t.store.generation < s.store.generation := by
  induction after using List.reverseRecOn generalizing s with
  | nil =>
    cases late
    exact ⟨Nat.le_refl _, fun a member => by cases member⟩
  | append_singleton after e ih =>
    obtain ⟨u, middle, step⟩ := run?_concat_eq_some.1 late
    obtain ⟨grown, counted⟩ := ih middle
    have rises := generation_of_step step
    refine ⟨Nat.le_trans grown rises, fun a member => ?_⟩
    rcases List.mem_append.1 member with early | last
    · exact Nat.lt_of_lt_of_le (counted a early) rises
    · cases List.mem_singleton.1 last
      cases step with
      | returns _ => exact Nat.lt_succ_of_le grown

/-! ### What is saved -/

variable {events : List SharedEvent}

/-- A flush that is under way holds what an append has written, or is still to collect it, or the
append was counted after the flush had read the generation. -/
theorem secures_or_counted (run : (ofDocument config loaded).run? requests events = some s)
    {a : Nat} (returned : .appendReturns a ∈ events) {read : Nat}
    (under : (s.flushes c).generation? = some read) :
    (s.flushes c).Secures (Carries requests events a) (requests a).series ∨
      read < s.store.generation := by
  have begun := FlushStage.of_generation under
  obtain ⟨before, after, rfl⟩ := List.append_of_mem (read_of_finished run begun.2)
  by_cases early : .appendReturns a ∈ before
  · exact .inl (secures_run run early)
  · have later : .appendReturns a ∈ after := by simpa [early] using returned
    obtain ⟨t, first, rest⟩ := run?_append_eq_some.1 run
    obtain ⟨u, reads, late⟩ := run?_cons_eq_some.1 rest
    have reached := run?_concat_eq_some.2 ⟨t, first, reads⟩
    -- From its read on, the flush keeps the generation that the store had then.
    have same := stage_induction reached late (c := c)
      (P := fun stage => stage.hasRead = true ∧
        ∀ read, stage.generation? = some read → read = t.store.generation) ?_ ?_
    · refine .inr ?_
      rw [same.2 read under]
      exact Nat.lt_of_le_of_lt (generation_of_step reads) ((generation_later late).2 a later)
    · cases reads with
      | skips _ _ =>
        rw [setFlush_self]
        exact ⟨rfl, fun read none => by cases none⟩
      | reads _ _ =>
        rw [setFlush_self]
        exact ⟨rfl, fun read here => (Option.some.inj here).symm⟩
    · rintro s e old new _ move ⟨begun, read⟩
      cases move with
      | asks => cases begun
      | locks => cases begun
      | skips => cases begun
      | reads => cases begun
      | records => exact ⟨rfl, fun read none => by cases none⟩
      | _ => exact ⟨rfl, read⟩

/-- What a returned append has written is in the document saved last, as it is or replaced later, or
the store is dirty. -/
theorem persisted_run (run : (ofDocument config loaded).run? requests events = some s) {a : Nat}
    (returned : .appendReturns a ∈ events) :
    s.store.isDirty = true ∨ ∃ d, s.saved.getLast? = some d ∧ Carries requests events a d := by
  refine run_induction (P := fun events s => .appendReturns a ∈ events →
    s.store.isDirty = true ∨ ∃ d, s.saved.getLast? = some d ∧ Carries requests events a d)
    ?_ ?_ run returned
  · exact fun returned => by cases returned
  · intro events s e s' run h step returned
    have coherent := coherent_run run
    have coherent' := coherent.step step
    -- A step that neither counts nor saves nor records leaves everything as it was.
    have aside (dirty : s'.store.isDirty = s.store.isDirty) (saved : s'.saved = s.saved)
        (other : e ≠ .appendReturns a) : s'.store.isDirty = true ∨
          ∃ d, s'.saved.getLast? = some d ∧ Carries requests (events ++ [e]) a d := by
      have before : .appendReturns a ∈ events := by
        simpa [Ne.symm other] using returned
      rw [dirty, saved]
      exact (h before).imp id fun ⟨d, last, carries⟩ => ⟨d, last, carries.append _⟩
    cases step with
    | begins _ _ =>
      obtain ⟨flushed, _, generation⟩ := ensureSeries_frame s.store _
      refine aside ?_ rfl (by simp)
      rw [HistoryStore.isDirty, HistoryStore.isDirty, ← flushed, ← generation]
      rfl
    | returns _ => exact .inl (coherent'.dirty_iff.2 (Nat.lt_succ_of_le coherent.counted))
    | @saveEnds c pending ending saving =>
      have dirty : s.store.isDirty = true :=
        coherent.dirty_of_generation (congrArg FlushStage.generation? saving)
      cases ending <;> exact .inl dirty
    | @records c pending ending now recording =>
      have dirty : s.store.isDirty = true :=
        coherent.dirty_of_generation (congrArg FlushStage.generation? recording)
      have before : .appendReturns a ∈ events := by simpa using returned
      cases ending with
      | error error => exact .inl dirty
      | ok done =>
        obtain ⟨_, _, last⟩ := coherent.sound_at recording
        rcases secures_or_counted run before (congrArg FlushStage.generation? recording) with
          secured | counted
        · rw [recording] at secured
          exact .inr ⟨pending.document, last rfl, Carries.append secured _⟩
        · exact .inl (coherent'.dirty_iff.2 counted)
    | _ => exact aside rfl rfl (by simp)

/-- Nothing that was saved is forgotten. -/
theorem saved_later (late : t.run? requests after = some s) {d : HistoryDocument}
    (saved : d ∈ t.saved) : d ∈ s.saved := by
  refine run_induction (P := fun _ s => d ∈ s.saved) saved ?_ late
  intro _ s e s' _ h step
  cases step with
  | @saveEnds _ _ ending _ =>
    cases ending with
    | ok done => exact List.mem_append_left _ h
    | error error => exact h
  | _ => exact h

/-- A flush that returns clean has found the store clean when it read the generation, and goes no
further. -/
theorem clean_of_finished (run : (ofDocument config loaded).run? requests
      (before ++ .flushReads c :: after) = some s)
    (early : (ofDocument config loaded).run? requests before = some t)
    {document : Option HistoryDocument} (finished : s.flushes c = .finished document (.ok .clean)) :
    t.store.isDirty = false ∧ document = none := by
  obtain ⟨t', early', rest⟩ := run?_append_eq_some.1 run
  cases early.symm.trans early'
  obtain ⟨u, step, late⟩ := run?_cons_eq_some.1 rest
  have reached := run?_concat_eq_some.2 ⟨t, early, step⟩
  cases step with
  | skips _ settled =>
    have same := finished_later reached late (setFlush_self ..)
    rw [finished] at same
    cases same
    rw [(coherent_run early).isSettled_eq, Bool.not_eq_true'] at settled
    exact ⟨settled, rfl⟩
  | reads _ _ =>
    have never := stage_induction reached late (c := c)
      (P := fun stage => stage.hasRead = true ∧ stage.outcome? ≠ some .clean) ?_ ?_
    · rw [finished] at never
      exact absurd rfl never.2
    · rw [setFlush_self]
      exact ⟨rfl, by simp [FlushStage.outcome?]⟩
    · rintro s e old new _ move ⟨begun, _⟩
      cases move with
      | asks => cases begun
      | locks => cases begun
      | skips => cases begun
      | reads => cases begun
      | @records pending ending now =>
        cases ending <;> exact ⟨rfl, by simp [FlushStage.outcome?, HistoryStore.endFlush]⟩
      | _ => exact ⟨rfl, by simp [FlushStage.outcome?]⟩

/-- A flush that succeeds has saved, or finds saved, what was written by every append that had
returned when it read the generation. -/
theorem carried_of_outcome {a : Nat} (run : (ofDocument config loaded).run? requests
      (before ++ .flushReads c :: after) = some s)
    {outcome : FlushOutcome} (succeeded : (s.flushes c).outcome? = some outcome)
    (returned : .appendReturns a ∈ before) :
    ∃ d ∈ s.saved, ∀ b, .appendReturns b ∈ before →
      Carries requests (before ++ .flushReads c :: after) b d := by
  obtain ⟨document, finished⟩ := FlushStage.outcome?_eq_some.1 succeeded
  cases outcome with
  | written series entries =>
    have sound := (coherent_run run).sound_at finished
    obtain ⟨d, rfl, member, _⟩ := sound series entries rfl
    refine ⟨d, member, fun b returned => ?_⟩
    have secured := secures_run run returned
    rw [finished] at secured
    exact secured d rfl
  | clean =>
    obtain ⟨t, early, late⟩ := run?_append_eq_some.1 run
    obtain ⟨clean, _⟩ := clean_of_finished run early finished
    have last (b : Nat) (returned : .appendReturns b ∈ before) :=
      (persisted_run early returned).resolve_left (by simp [clean])
    obtain ⟨d, here, _⟩ := last a returned
    refine ⟨d, saved_later late (List.mem_of_getLast? here), fun b returned => ?_⟩
    obtain ⟨d', there, carries⟩ := last b returned
    cases here.symm.trans there
    exact carries.append _

/-- What a flush saves that has not begun to read and then succeeds. -/
theorem carried_later (early : (ofDocument config loaded).run? requests before = some t)
    (late : t.run? requests after = some s) (unread : (t.flushes c).hasRead = false)
    {outcome : FlushOutcome} (succeeded : (s.flushes c).outcome? = some outcome) {a : Nat}
    (returned : .appendReturns a ∈ before) :
    ∃ d ∈ s.saved, ∀ b, .appendReturns b ∈ before → Carries requests (before ++ after) b d := by
  have read : (s.flushes c).hasRead = true := by
    obtain ⟨document, finished⟩ := FlushStage.outcome?_eq_some.1 succeeded
    rw [finished]
    rfl
  obtain ⟨first, rest, rfl⟩ := List.append_of_mem (exists_read early late unread read)
  have run := run?_append_eq_some.2 ⟨t, early, late⟩
  rw [← List.append_assoc] at run ⊢
  obtain ⟨d, saved, carries⟩ :=
    carried_of_outcome run succeeded (List.mem_append_left first returned)
  exact ⟨d, saved, fun b returned => carries b (List.mem_append_left _ returned)⟩

/-! ### The last step of a flush -/

/-- The step with which a flush fails leaves the store dirty. -/
theorem dirty_of_failed (coherent : Coherent s') (step : Step requests s e s')
    (mine : e.flush? = some c) {document : Option HistoryDocument} {failure : Failure}
    (failed : s'.flushes c = .finished document (.error failure)) : s'.store.isDirty = true := by
  have reached {u : SharedStore} {stage : FlushStage}
      (here : (u.setFlush c stage).flushes c = .finished document (.error failure)) :
      stage = .finished document (.error failure) := by
    rwa [setFlush_self] at here
  cases step with
  | @records b pending ending now _ =>
    cases mine
    cases ending with
    | ok done => cases reached failed
    | error error => exact coherent.dirty_iff.2 (coherent.failed rfl)
  | asks _ => cases mine; cases reached failed
  | locks _ _ => cases mine; cases reached failed
  | skips _ _ => cases mine; cases reached failed
  | reads _ _ => cases mine; cases reached failed
  | lists _ _ => cases mine; cases reached failed
  | collects _ => cases mine; cases reached failed
  | sends _ => cases mine; cases reached failed
  | saveEnds _ => cases mine; cases reached failed
  | _ => cases mine

/-- A run that ends as a flush fails ends with a dirty store. -/
theorem dirty_of_failed_last (run : (ofDocument config loaded).run? requests events = some s)
    (last : events.getLast? = some e) (mine : e.flush? = some c)
    {document : Option HistoryDocument} {failure : Failure}
    (failed : s.flushes c = .finished document (.error failure)) : s.store.isDirty = true := by
  have coherent := coherent_run run
  obtain ⟨steps, rfl⟩ := List.getLast?_eq_some_iff.1 last
  obtain ⟨t, _, step⟩ := run?_concat_eq_some.1 run
  exact dirty_of_failed coherent step mine failed

/-- An explicit flush that is about to be asked for has read nothing. -/
theorem unread_of_begins {number : Nat}
    (run : t.run? requests (.flushBegins number :: after) = some s) :
    (t.flushes (.explicit number)).hasRead = false := by
  obtain ⟨u, step, _⟩ := run?_cons_eq_some.1 run
  cases step with
  | asks idle =>
    rw [idle]
    rfl

end SharedStore

end BenchLedger
