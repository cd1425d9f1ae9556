import BenchLedger.Proofs.SiteSteps
import BenchLedger.Session.Basic

/-!
What waiting does to a session. Main statements: `Site.polled_poll`: what becomes of a call that is
taken as far as it can go, `Session.KeepsMemory.await`: however long a caller waits and whatever is
flushed meanwhile, the series in memory, their generation and all settings stay as they are, and
`Session.error_of_flush`: a flush fails only if its save does.
-/

namespace BenchLedger

/-! ### Memory -/

namespace HistoryStore

/-- A store without what it knows about its flushes. -/
def memory (s : HistoryStore) : HistoryStore :=
  { s with flushed := 0, lastFlush := none, lastError := none }

@[simp] theorem memory_endFlush (s : HistoryStore) (p : PendingFlush) (now : Int)
    (ending : Except PersistenceError Unit) : (s.endFlush p now ending).1.memory = s.memory := by
  cases ending <;> rfl

variable {s s' : HistoryStore}

theorem config_of_memory (same : s'.memory = s.memory) : s'.config = s.config := by
  injection same

theorem series_of_memory (same : s'.memory = s.memory) : s'.series = s.series := by
  injection same

end HistoryStore

/-! ### Calls and flushers -/

namespace Call

/-- Whether a call waits for its turn. -/
def asks : Call → Bool
  | .queued | .looking => true
  | .saving .. | .finished _ => false

/-- If a call has failed, then its save has. -/
def FailsBySave (call : Call) : Prop :=
  ∀ failure, call = .finished (.error failure) → ∃ error, failure = .persistence error

end Call

namespace Site

/-- What becomes of a call that is taken as far as it can go. -/
inductive Polled (w : Surroundings) (t : Site) (turn : Turn) :
    Call → Surroundings → Site → Call → Prop where
  | waits {call : Call} (asks : call.asks = true) (unserved : t.hasTurn turn = false) :
      Polled w t turn call w t call
  | skips (served : t.hasTurn turn = true) (settled : t.store.isSettled = true) :
      Polled w t turn .queued w t.release (.finished (.ok .clean))
  | saves {pending : HistoryStore.PendingFlush} {ending : Except PersistenceError Unit}
      {w' : Surroundings} {t' : Site} {next : Call} (served : t.hasTurn turn = true)
      (begun : t.store.beginFlush w.wallClock = some pending)
      (planned : w.storage.nextPlan.1.ending t.store.config.timeout = (0, ending))
      (ended : t.finishSave { w with storage := w.storage.nextPlan.2 } pending ending
        = (w', t', next)) : Polled w t turn .queued w' t' next
  | begins {pending : HistoryStore.PendingFlush} {ending : Except PersistenceError Unit}
      {delay : Nat} (served : t.hasTurn turn = true)
      (begun : t.store.beginFlush w.wallClock = some pending)
      (planned : w.storage.nextPlan.1.ending t.store.config.timeout = (delay, ending))
      (slow : 0 < delay) :
      Polled w t turn .queued { w with storage := w.storage.nextPlan.2 } t
        (.saving pending ending (w.now + delay))
  | looks (served : t.hasTurn turn = true) :
      Polled w t turn .looking w t.release (.finished (.ok .clean))
  | ends {pending : HistoryStore.PendingFlush} {ending : Except PersistenceError Unit}
      {finish : Nat} {w' : Surroundings} {t' : Site} {next : Call} (due : finish ≤ w.now)
      (ended : t.finishSave w pending ending = (w', t', next)) :
      Polled w t turn (.saving pending ending finish) w' t' next
  | holds {pending : HistoryStore.PendingFlush} {ending : Except PersistenceError Unit}
      {finish : Nat} (early : w.now < finish) :
      Polled w t turn (.saving pending ending finish) w t (.saving pending ending finish)
  | returned {result : Except Failure FlushOutcome} :
      Polled w t turn (.finished result) w t (.finished result)

theorem polled_poll (w : Surroundings) (t : Site) (turn : Turn) (call : Call) :
    Polled w t turn call (t.poll w turn call).1 (t.poll w turn call).2.1
      (t.poll w turn call).2.2 := by
  cases call with
  | queued =>
    unfold poll
    dsimp only
    split
    next served =>
      split
      next none =>
        have settled : t.store.isSettled = true := by
          simpa [HistoryStore.beginFlush] using none
        exact .skips served settled
      next pending begun =>
        split
        next now =>
          exact .saves served begun (Prod.ext now rfl) rfl
        next slow =>
          exact .begins served begun rfl (Nat.pos_of_ne_zero slow)
    next unserved => exact .waits rfl (by simpa using unserved)
  | looking =>
    unfold poll
    dsimp only
    split
    next served => exact .looks served
    next unserved => exact .waits rfl (by simpa using unserved)
  | saving pending ending finish =>
    unfold poll
    dsimp only
    split
    next due => exact .ends due rfl
    next early => exact .holds (Nat.lt_of_not_le early)
  | finished result => exact .returned

variable {w w' : Surroundings} {t t' : Site}

theorem memory_finishSave {pending : HistoryStore.PendingFlush}
    {ending : Except PersistenceError Unit} {next : Call}
    (ended : t.finishSave w pending ending = (w', t', next)) :
    t'.store.memory = t.store.memory := by
  cases ended
  exact HistoryStore.memory_endFlush ..

theorem failsBySave_finishSave {pending : HistoryStore.PendingFlush}
    {ending : Except PersistenceError Unit} {next : Call}
    (ended : t.finishSave w pending ending = (w', t', next)) : next.FailsBySave := by
  cases ended
  intro failure failed
  cases ending with
  | ok done => cases failed
  | error error =>
    cases failed
    exact ⟨error, rfl⟩

theorem Polled.failsBySave {turn : Turn} {call next : Call} (h : Polled w t turn call w' t' next)
    (before : call.FailsBySave) : next.FailsBySave := by
  cases h with
  | saves _ _ _ ended => exact failsBySave_finishSave ended
  | ends _ ended => exact failsBySave_finishSave ended
  | waits _ _ => exact before
  | returned => exact before
  | _ =>
    intro failure failed
    cases failed

theorem Polled.memory {turn : Turn} {call next : Call} (h : Polled w t turn call w' t' next) :
    t'.store.memory = t.store.memory := by
  cases h with
  | saves _ _ _ ended => exact memory_finishSave ended
  | ends _ ended => exact memory_finishSave ended
  | _ => rfl

theorem memory_stepFlusher (h : t.stepFlusher w = some (w', t')) :
    t'.store.memory = t.store.memory := by
  have ofPoll {call next : Call} {v : Surroundings} {u : Site}
      (polled : t.poll w .flusher call = (v, u, next)) : u.store.memory = t.store.memory := by
    have kept := (polled_poll w t .flusher call).memory
    rwa [polled] at kept
  cases flusherStep_of_stepFlusher h with
  | goesOn _ polled _ =>
    have kept := ofPoll polled
    exact kept
  | succeeds _ polled =>
    have kept := ofPoll polled
    exact kept
  | fails _ polled =>
    have kept := ofPoll polled
    exact kept
  | _ => rfl

theorem memory_runFlusher (fuel : Nat) (w : Surroundings) (t : Site) :
    (t.runFlusher fuel w).2.store.memory = t.store.memory := by
  induction fuel generalizing w t with
  | zero => rfl
  | succ fuel ih =>
    unfold runFlusher
    split
    next w' t' stepped => exact (ih w' t').trans (memory_stepFlusher stepped)
    · rfl

theorem runFlusher_absent (absent : t.flusher = .absent) (fuel : Nat) :
    t.runFlusher fuel w = (w, t) := by
  cases fuel with
  | zero => rfl
  | succ fuel => simp [runFlusher, stepFlusher, absent]

end Site

/-! ### Sessions -/

namespace Session

/-- The later session has the same in memory and takes runs in the same way. -/
structure KeepsMemory (s s' : Session) : Prop where
  memory : s'.store.memory = s.store.memory
  ingest : s'.ingest = s.ingest

namespace KeepsMemory

variable {s s' s'' : Session}

theorem refl (s : Session) : KeepsMemory s s :=
  ⟨rfl, rfl⟩

theorem trans (h : KeepsMemory s s') (h' : KeepsMemory s' s'') : KeepsMemory s s'' :=
  ⟨h'.memory.trans h.memory, h'.ingest.trans h.ingest⟩

theorem policy (h : KeepsMemory s s') : s'.store.config.policy = s.store.config.policy :=
  congrArg StoreConfig.policy (HistoryStore.config_of_memory h.memory)

theorem pollCalls (number : Nat) (s : Session) (calls : List Call) :
    KeepsMemory s (s.pollCalls number calls).1 := by
  induction calls generalizing s number with
  | nil => exact .refl s
  | cons call calls ih =>
    have first : KeepsMemory s { s with
        surroundings := (s.site.poll s.surroundings (.caller number) call).1
        site := (s.site.poll s.surroundings (.caller number) call).2.1 } :=
      ⟨(Site.polled_poll s.surroundings s.site (.caller number) call).memory, rfl⟩
    exact first.trans (ih (number + 1) _)

theorem runFlushers (s : Session) : KeepsMemory s s.runFlushers := by
  constructor
  · exact Site.memory_runFlusher s.flusherFuel _ s.site
  · rfl

/-- Time passes. -/
theorem passes (s : Session) (time : Nat) :
    KeepsMemory s { s with surroundings := { s.surroundings with now := time } } :=
  ⟨rfl, rfl⟩

theorem wait (fuel : Nat) (s : Session) (w : Waiting) : KeepsMemory s (s.wait fuel w).1 := by
  induction fuel generalizing s w with
  | zero => exact .refl s
  | succ fuel ih =>
    have polled := pollCalls 0 s w.calls
    have ran := polled.trans (runFlushers _)
    unfold Session.wait
    dsimp only
    split
    · exact polled
    split
    · exact ran.trans (ih _ _)
    split
    · exact (ran.trans (passes _ _)).trans (ih _ _)
    · exact ran

theorem await (s : Session) (w : Waiting) : KeepsMemory s (s.await w).1 :=
  wait s.waitFuel s w

theorem enqueue (s : Session) (number : Nat) : KeepsMemory s (s.enqueue number) :=
  ⟨rfl, rfl⟩

theorem flush (s : Session) : KeepsMemory s s.flush.1 :=
  (enqueue s 0).trans (await _ { calls := [.queued] })

theorem settle {α : Type} (s : Session) (value : α) : KeepsMemory s (s.settle value).1 := by
  unfold Session.settle
  split
  · have kept := flush s
    split <;> (next same => rw [same] at kept; exact kept)
  · exact .refl s

end KeepsMemory

/-! ### Failures -/

variable {calls : List Call}

theorem failsBySave_pollCalls (number : Nat) (s : Session)
    (before : ∀ c ∈ calls, c.FailsBySave) :
    ∀ c ∈ (s.pollCalls number calls).2, c.FailsBySave := by
  induction calls generalizing number s with
  | nil => exact before
  | cons call calls ih =>
    obtain ⟨first, rest⟩ := List.forall_mem_cons.1 before
    refine List.forall_mem_cons.2 ⟨?_, ih (number + 1) _ rest⟩
    exact (Site.polled_poll s.surroundings s.site (.caller number) call).failsBySave first

theorem failsBySave_wait (fuel : Nat) (s : Session) (w : Waiting)
    (before : ∀ c ∈ w.calls, c.FailsBySave) : ∀ c ∈ (s.wait fuel w).2.calls, c.FailsBySave := by
  induction fuel generalizing s w with
  | zero => exact before
  | succ fuel ih =>
    have polled := failsBySave_pollCalls 0 s before
    unfold Session.wait
    dsimp only
    split
    · exact polled
    split
    · exact ih _ _ polled
    split
    · exact ih _ _ polled
    · exact polled

/-- The only errors of a flush are those of its save. -/
theorem error_of_flush {s : Session} {failure : Failure} (failed : s.flush.2 = .error failure) :
    ∃ error, failure = .persistence error := by
  have fails := failsBySave_wait (s.enqueue 0).waitFuel (s.enqueue 0) { calls := [.queued] }
    (by simp [Call.FailsBySave])
  simp only [flush, await] at failed
  generalize (s.enqueue 0).wait (s.enqueue 0).waitFuel { calls := [.queued] } = waited
    at failed fails
  rw [List.headD_eq_head?_getD] at failed
  cases first : (List.filterMap _ waited.2.calls).head? with
  | none =>
    rw [first] at failed
    cases failed
  | some result =>
    rw [first] at failed
    obtain ⟨call, member, returned⟩ := List.mem_filterMap.1 (List.mem_of_head? first)
    split at returned
    · cases returned
      exact fails _ member failure (congrArg Call.finished failed)
    · cases returned

end Session

end BenchLedger
