import BenchLedger.Proofs.FlushRuns

/-!
A flush among others and the same flush alone. Main statement: `SharedStore.alone_of_run`: if all
steps of other flushes and of the background flusher are left out of a run, what remains can be run,
and a flush that saves saves the same document in it.
-/

namespace BenchLedger

/-- Whether a step is one of an append or one that a flush takes once it is asked for. -/
def SharedEvent.concerns (c : FlushCall) : SharedEvent → Bool
  | .flushBegins _ => false
  | e => e.isAppend || e.flush? == some c

/-- How a flush stands that was asked for before anything else happened, compared with where it
stands in a run. Only if it finds nothing to do in the run does it go on otherwise alone. -/
inductive FlushStage.StandsAlike : FlushStage → FlushStage → Prop where
  | unasked : StandsAlike .idle .queued
  | same {stage : FlushStage} (asked : stage ≠ .idle) : StandsAlike stage stage
  | skipped {result : Except Failure FlushOutcome} {stage : FlushStage} :
      StandsAlike (.finished none result) stage

namespace SharedStore

/-- Two stores have the same in memory, and their appends are as far. -/
structure SameMemory (s t : SharedStore) : Prop where
  series : t.store.series = s.store.series
  generation : t.store.generation = s.store.generation
  repoUrl : t.store.repoUrl = s.store.repoUrl
  appends : t.appends = s.appends

/-- The store `t`, in which no flush but `c` takes place, has come as far as `s`. -/
structure Alone (c : FlushCall) (s t : SharedStore) : Prop extends SameMemory s t where
  stage : (s.flushes c).StandsAlike (t.flushes c)
  free : (t.flushes c).holdsLock = false → t.lock = none
  unflushed : (t.flushes c).hasRead = false → t.store.flushed = 0

variable {requests : Nat → AppendRequest} {s s' t t' : SharedStore} {config : StoreConfig}
  {loaded : Option HistoryDocument} {events : List SharedEvent} {e : SharedEvent} {c : FlushCall}

namespace Alone

theorem start (config : StoreConfig) (loaded : Option HistoryDocument) (c : FlushCall) :
    Alone c (ofDocument config loaded) ((ofDocument config loaded).setFlush c .queued) where
  series := rfl
  generation := rfl
  repoUrl := rfl
  appends := rfl
  stage := by
    rw [setFlush_self]
    exact .unasked
  free _ := rfl
  unflushed _ := rfl

theorem stage_eq (h : Alone c s t) {stage : FlushStage} (here : s.flushes c = stage)
    (asked : stage ≠ .idle) (going : ∀ result, stage ≠ .finished none result) :
    t.flushes c = stage := by
  have stands := h.stage
  rw [here] at stands
  generalize t.flushes c = other at stands
  cases stands with
  | unasked => exact absurd rfl asked
  | same _ => rfl
  | skipped => exact absurd rfl (going _)

/-! ### Steps that are left out -/

theorem appends_of_step (step : Step requests s e s') (quiet : e.isAppend = false) :
    s'.appends = s.appends := by
  funext a
  rcases append_of_step step a with same | move
  · exact same
  · generalize s.appends a = old, s'.appends a = new at move
    cases move <;> cases quiet

theorem stays (h : Alone c s t) (fresh : s.flushes (.round s.rounds) = .idle)
    (step : Step requests s e s') (other : e.concerns c = false) : Alone c s' t := by
  have quiet : e.isAppend = false := by
    cases e with
    | appendBegins a => cases other
    | appendWrites a => cases other
    | appendReturns a => cases other
    | _ => rfl
  obtain ⟨series, generation, repoUrl⟩ := memory_of_step step quiet
  refine {
    series := h.series.trans series.symm
    generation := h.generation.trans generation.symm
    repoUrl := h.repoUrl.trans repoUrl.symm
    appends := h.appends.trans (appends_of_step step quiet).symm
    stage := ?_
    free := h.free
    unflushed := h.unflushed }
  rcases flush_of_step step fresh c with same | move
  · rw [same]
    exact h.stage
  · have stands := h.stage
    generalize s.flushes c = old, s'.flushes c = new at stands move
    cases move with
    | asks =>
      -- Alone, the flush was asked for from the start.
      generalize t.flushes c = alone at stands
      cases stands with
      | unasked => exact .same (by simp)
      | same asked => exact absurd rfl asked
    | _ => simp [SharedEvent.concerns, SharedEvent.flush?] at other

/-! ### Steps that remain -/

/-- The flush goes to the same stage in both. -/
theorem of_stage {stage : FlushStage} (memory : SameMemory s' t') (here : s'.flushes c = stage)
    (there : t'.flushes c = stage) (asked : stage ≠ .idle)
    (free : stage.holdsLock = false → t'.lock = none)
    (unflushed : stage.hasRead = false → t'.store.flushed = 0) : Alone c s' t' where
  toSameMemory := memory
  stage := by
    rw [here, there]
    exact .same asked
  free := by
    rw [there]
    exact free
  unflushed := by
    rw [there]
    exact unflushed

/-- The flush is under way in both. -/
theorem of_underWay {stage : FlushStage} {read : Nat} (memory : SameMemory s' t')
    (here : s'.flushes c = stage) (there : t'.flushes c = stage)
    (under : stage.generation? = some read) : Alone c s' t' := by
  obtain ⟨holds, begun⟩ := FlushStage.of_generation under
  have asked : stage ≠ .idle := by
    rintro rfl
    cases under
  exact .of_stage memory here there asked (by simp [holds]) (by simp [begun])

/-- The flush stays where it is in both. -/
theorem of_append (h : Alone c s t) (memory : SameMemory s' t') (here : s'.flushes = s.flushes)
    (there : t'.flushes = t.flushes) (lock : t'.lock = t.lock)
    (flushed : t'.store.flushed = t.store.flushed) : Alone c s' t' where
  toSameMemory := memory
  stage := by
    rw [here, there]
    exact h.stage
  free := by
    rw [there, lock]
    exact h.free
  unflushed := by
    rw [there, flushed]
    exact h.unflushed

/-- A step of an append can be taken alone. -/
theorem follows_append (h : Alone c s t) (step : Step requests s e s')
    (append : e.isAppend = true) : ∃ t', Step requests t e t' ∧ Alone c s' t' := by
  have appends (a : Nat) (stage : AppendStage) :
      (t.setAppend a stage).appends = (s.setAppend a stage).appends := by
    simp only [setAppend, h.appends]
  cases step with
  | @refuses a rejection idle why =>
    rw [← h.appends] at idle
    exact ⟨_, .refuses idle why,
      h.of_append ⟨h.series, h.generation, h.repoUrl, appends a _⟩ rfl rfl rfl rfl⟩
  | @begins a idle fine =>
    rw [← h.appends] at idle
    have series : (t.store.ensureSeries (requests a).series).series
        = (s.store.ensureSeries (requests a).series).series := by
      simp only [HistoryStore.ensureSeries, h.series]
      split <;> simp [h.series]
    have generation : (t.store.ensureSeries (requests a).series).generation
        = (s.store.ensureSeries (requests a).series).generation := by
      rw [(ensureSeries_frame t.store _).2.2, (ensureSeries_frame s.store _).2.2]
      exact h.generation
    have repoUrl : (t.store.ensureSeries (requests a).series).repoUrl
        = (s.store.ensureSeries (requests a).series).repoUrl := by
      rw [ensureSeries_repoUrl, ensureSeries_repoUrl]
      exact h.repoUrl
    exact ⟨_, .begins idle fine, h.of_append ⟨series, generation, repoUrl, appends a _⟩ rfl rfl rfl
      (ensureSeries_frame t.store _).1⟩
  | @writes a waiting =>
    rw [← h.appends] at waiting
    have written (e : CommitEntry) (series : String) :
        (t.store.write series e).2 = (s.store.write series e).2 ∧
          (t.store.write series e).1.series = (s.store.write series e).1.series := by
      simp only [HistoryStore.write, h.series, and_self]
    obtain ⟨placed, series⟩ := written (requests a).entry (requests a).series
    refine ⟨_, .writes waiting, ?_⟩
    rw [placed]
    exact h.of_append ⟨series, h.generation, h.repoUrl, appends a _⟩ rfl rfl rfl rfl
  | @returns a position written =>
    rw [← h.appends] at written
    exact ⟨_, .returns written, h.of_append
      ⟨h.series, congrArg (· + 1) h.generation, h.repoUrl, appends a _⟩ rfl rfl rfl rfl⟩
  | _ => cases append

/-- A step of the flush can be taken alone. -/
theorem follows_flush (h : Alone c s t) (coherent : Coherent s) (step : Step requests s e s')
    (flush : e.flush? = some c) (mine : e.concerns c = true) :
    ∃ t', Step requests t e t' ∧ Alone c s' t' := by
  cases step with
  | asks _ => cases mine
  | locks queued _ =>
    cases flush
    have here := h.stage_eq queued (by simp) (by simp)
    exact ⟨_, .locks here (h.free (by rw [here]; rfl)),
      .of_stage ⟨h.series, h.generation, h.repoUrl, h.appends⟩ (setFlush_self ..)
        (setFlush_self ..) (by simp) (fun unlocked => by cases unlocked)
        fun _ => h.unflushed (by rw [here]; rfl)⟩
  | skips locked _ =>
    cases flush
    have here := h.stage_eq locked (by simp) (by simp)
    -- Alone, the flush may find appends that another flush has saved in the run.
    cases settled : t.store.isSettled with
    | true =>
      exact ⟨_, .skips here settled,
        .of_stage ⟨h.series, h.generation, h.repoUrl, h.appends⟩ (setFlush_self ..)
          (setFlush_self ..) (by simp) (fun _ => rfl) fun unread => by cases unread⟩
    | false =>
      refine ⟨_, .reads here settled, ?_⟩
      exact {
        series := h.series
        generation := h.generation
        repoUrl := h.repoUrl
        appends := h.appends
        stage := by
          rw [setFlush_self]
          exact .skipped
        free := by
          rw [setFlush_self]
          exact fun unlocked => by cases unlocked
        unflushed := by
          rw [setFlush_self]
          exact fun unread => by cases unread }
  | reads locked unsettled =>
    cases flush
    have here := h.stage_eq locked (by simp) (by simp)
    have dirty : t.store.isSettled = false := by
      have pending := coherent.pending_of_unsettled unsettled
      have unflushed := h.unflushed (by rw [here]; rfl)
      have counted : t.store.generation ≠ t.store.flushed := by
        rw [h.generation, unflushed]
        exact Nat.ne_of_gt (Nat.lt_of_le_of_lt (Nat.zero_le _) pending.1)
      simp [HistoryStore.isSettled, HistoryStore.isDirty, counted]
    refine ⟨_, .reads here dirty, ?_⟩
    rw [h.generation]
    exact .of_underWay ⟨h.series, h.generation, h.repoUrl, h.appends⟩ (setFlush_self ..)
      (setFlush_self ..) rfl
  | @lists _ generation now order listing all =>
    cases flush
    have here := h.stage_eq listing (by simp) (by simp)
    have known : t.store.seriesNames = s.store.seriesNames := by
      rw [HistoryStore.seriesNames, h.series, HistoryStore.seriesNames]
    have blank : t.store.blankDocument now = s.store.blankDocument now := by
      rw [HistoryStore.blankDocument, h.repoUrl, HistoryStore.blankDocument]
    refine ⟨_, .lists here (known ▸ all), ?_⟩
    rw [blank]
    exact .of_underWay ⟨h.series, h.generation, h.repoUrl, h.appends⟩ (setFlush_self ..)
      (setFlush_self ..) rfl
  | @collects _ name left pending collecting =>
    cases flush
    have here := h.stage_eq collecting (by simp) (by simp)
    have view : t.store.viewOf name = s.store.viewOf name := by
      rw [HistoryStore.viewOf, h.series, HistoryStore.viewOf]
    refine ⟨_, .collects here, ?_⟩
    rw [view]
    exact .of_underWay ⟨h.series, h.generation, h.repoUrl, h.appends⟩ (setFlush_self ..)
      (setFlush_self ..) rfl
  | sends collected =>
    cases flush
    have here := h.stage_eq collected (by simp) (by simp)
    exact ⟨_, .sends here, .of_underWay ⟨h.series, h.generation, h.repoUrl, h.appends⟩
      (setFlush_self ..) (setFlush_self ..) rfl⟩
  | @saveEnds _ pending ending saving =>
    cases flush
    have here := h.stage_eq saving (by simp) (by simp)
    refine ⟨_, .saveEnds here, ?_⟩
    cases ending <;> exact .of_underWay ⟨h.series, h.generation, h.repoUrl, h.appends⟩
      (setFlush_self ..) (setFlush_self ..) rfl
  | @records _ pending ending now recording =>
    cases flush
    have here := h.stage_eq recording (by simp) (by simp)
    refine ⟨_, .records here, ?_⟩
    cases ending <;> exact .of_stage ⟨h.series, h.generation, h.repoUrl, h.appends⟩
      (setFlush_self ..) (setFlush_self ..) (by simp) (fun _ => rfl) fun unread => by cases unread
  | _ => cases flush

theorem follows (h : Alone c s t) (coherent : Coherent s) (step : Step requests s e s')
    (mine : e.concerns c = true) : ∃ t', Step requests t e t' ∧ Alone c s' t' := by
  cases append : e.isAppend with
  | true => exact h.follows_append step append
  | false =>
    have flush : e.flush? = some c := by
      cases e with
      | flushBegins number => cases mine
      | _ => simpa [SharedEvent.concerns, append] using mine
    exact h.follows_flush coherent step flush mine

end Alone

/-! ### Runs -/

/-- What is left of a run without the steps of other flushes and of the background flusher can be
run by itself, with the flush asked for at the start, and comes equally far. -/
theorem alone_of_run (run : (ofDocument config loaded).run? requests events = some s)
    (c : FlushCall) :
    ∃ t, ((ofDocument config loaded).setFlush c .queued).run? requests
        (events.filter (SharedEvent.concerns c)) = some t ∧ Alone c s t := by
  refine run_induction (P := fun events s => ∃ t,
    ((ofDocument config loaded).setFlush c .queued).run? requests
      (events.filter (SharedEvent.concerns c)) = some t ∧ Alone c s t) ?_ ?_ run
  · exact ⟨_, rfl, .start config loaded c⟩
  · rintro events s e s' reached ⟨t, run, alone⟩ step
    have fresh := round_idle reached _ (Nat.le_refl _)
    cases concerned : e.concerns c with
    | false =>
      rw [List.filter_append, List.filter_cons_of_neg (by simp [concerned])]
      exact ⟨t, by simpa using run, alone.stays fresh step concerned⟩
    | true =>
      obtain ⟨t', taken, alone'⟩ := alone.follows (coherent_run reached) step concerned
      rw [List.filter_append, List.filter_cons_of_pos concerned]
      exact ⟨t', run?_concat_eq_some.2 ⟨t, run, taken⟩, alone'⟩

end SharedStore

end BenchLedger
