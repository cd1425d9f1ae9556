import BenchLedger.Proofs.Coherence
import BenchLedger.Proofs.FlusherSteps
import BenchLedger.Proofs.ValidEntries

/-!
Wakes of the background flusher. Main statement: `SharedStore.awake_of_dirty`: under the interval
policy a dirty store that has not been shut down keeps a wake for its flusher, or the flusher has
taken one and sleeps or flushes.
-/

namespace BenchLedger

namespace FlushStage

/-- What a flush has left to do, in a store that has counted `generation` appends: nothing was
appended since the flush has read the generation, and a flush that did not fail leaves the store
clean. -/
def Covers (generation : Nat) (dirty : Bool) : FlushStage → Prop
  | .idle | .queued | .locked => True
  | .listing read => generation = read
  | .collecting _ pending | .saving pending | .recording pending _ =>
    generation = pending.generation
  | .finished _ (.ok _) => dirty = false
  | .finished _ (.error _) => True

/-- What a flush without the lock covers of a dirty store does not depend on the store. -/
theorem Covers.of_unlocked {stage : FlushStage} {generation : Nat}
    (h : stage.Covers generation true) (unlocked : stage.holdsLock = false) (later : Nat)
    (dirty : Bool) : stage.Covers later dirty := by
  cases stage with
  | idle => trivial
  | queued => trivial
  | finished document result =>
    cases result with
    | ok outcome => cases h
    | error failure => trivial
  | _ => cases unlocked

end FlushStage

namespace SharedStore

variable {requests : Nat → AppendRequest} {s s' start : SharedStore}

/-- The flusher takes care of what was appended: it waits only with a wake or with nothing to do,
and ends only when it is told to. -/
structure Watched (s : SharedStore) : Prop where
  runs : s.flusher = .absent ∨ s.flusher = .stopped → s.cancelled = true
  waits : s.flusher = .waiting → s.wake = true ∨ s.store.isDirty = false
  flushes : ∀ round, s.flusher = .flushing round →
    s.wake = true ∨ (s.flushes (.round round)).Covers s.store.generation s.store.isDirty

namespace Watched

/-! What is left to show once the flusher's stage is known. -/

theorem of_sleeping (here : s.flusher = .sleeping) : s.Watched :=
  ⟨by simp [here], by simp [here], by simp [here]⟩

theorem of_waiting (here : s.flusher = .waiting)
    (awake : s.wake = true ∨ s.store.isDirty = false) : s.Watched :=
  ⟨by simp [here], fun _ => awake, by simp [here]⟩

theorem of_flushing {round : Nat} (here : s.flusher = .flushing round)
    (covers : (s.flushes (.round round)).Covers s.store.generation s.store.isDirty) :
    s.Watched := by
  refine ⟨by simp [here], by simp [here], fun other flushing => .inr ?_⟩
  rw [here] at flushing
  cases flushing
  exact covers

theorem of_stopped (here : s.flusher = .stopped) (cancelled : s.cancelled = true) : s.Watched :=
  ⟨fun _ => cancelled, by simp [here], by simp [here]⟩

end Watched

/-! ### Steps of appends and flushes -/

/-- A step that leaves the flusher, its wake and the generations as they are. -/
structure Aside (s s' : SharedStore) : Prop where
  flusher : s'.flusher = s.flusher
  wake : s'.wake = s.wake
  cancelled : s.cancelled = true → s'.cancelled = true
  generation : s'.store.generation = s.store.generation
  flushed : s'.store.flushed = s.store.flushed

namespace Watched

theorem aside (h : s.Watched) (aside : Aside s s')
    (covers : ∀ c, (s.flushes c).Covers s.store.generation s.store.isDirty →
      (s'.flushes c).Covers s.store.generation s.store.isDirty) : s'.Watched := by
  have dirty : s'.store.isDirty = s.store.isDirty := by
    rw [HistoryStore.isDirty, HistoryStore.isDirty, aside.generation, aside.flushed]
  refine ⟨fun ended => ?_, fun waiting => ?_, fun round flushing => ?_⟩
  · rw [aside.flusher] at ended
    exact aside.cancelled (h.runs ended)
  · rw [aside.flusher] at waiting
    rw [aside.wake, dirty]
    exact h.waits waiting
  · rw [aside.flusher] at flushing
    rw [aside.wake, aside.generation, dirty]
    exact (h.flushes round flushing).imp id (covers _)

/-- One flush goes to another stage, and may take the lock or give it back. -/
theorem move (h : s.Watched) {c : FlushCall} (old : FlushStage) (here : s.flushes c = old)
    (lock : Option FlushCall) {stage : FlushStage}
    (covers : old.Covers s.store.generation s.store.isDirty →
      stage.Covers s.store.generation s.store.isDirty) :
    Watched ({ s with lock }.setFlush c stage) := by
  refine h.aside ⟨rfl, rfl, id, rfl, rfl⟩ fun other covered => ?_
  by_cases mine : other = c
  · subst mine
    rw [setFlush_self]
    rw [here] at covered
    exact covers covered
  · rw [setFlush_of_ne _ _ mine]
    exact covered

/-- An append that returns keeps a wake for the flusher, whatever the flusher is doing. -/
theorem of_return (h : s.Watched) (interval : s.store.config.policy = .interval) (a : Nat)
    (position : Position) :
    Watched ({ s with store := s.store.count }.notify.setAppend a (.returned position)) := by
  have woken : ({ s with store := s.store.count }.notify.setAppend a
      (.returned position)).wake = true := by
    simp [setAppend, notify, HistoryStore.count, interval]
  exact ⟨h.runs, fun _ => .inl woken, fun _ _ => .inl woken⟩

/-- A save that is recorded leaves the store dirty only if appends came after its flush had read the
generation. Each of those has kept a wake, or the flusher is still to flush. -/
theorem of_record (h : s.Watched) (coherent : Coherent s) {c : FlushCall}
    {pending : HistoryStore.PendingFlush} {ending : Except PersistenceError Unit}
    (recording : s.flushes c = .recording pending ending) (now : Int) :
    Watched ({ s with store := (s.store.endFlush pending now ending).1, lock := none }.setFlush c
      (.finished (some pending.document) (s.store.endFlush pending now ending).2)) := by
  -- The flush has read a later generation than the one flushed last, so the store is dirty so far.
  have dirty : s.store.isDirty = true := by
    obtain ⟨known, _⟩ := coherent.sound_at recording
    have behind := Nat.lt_of_lt_of_le known.1 known.2
    simp only [HistoryStore.isDirty, bne_iff_ne]
    omega
  refine ⟨h.runs, fun waiting => ?_, fun round flushing => ?_⟩
  · exact .inl ((h.waits waiting).resolve_right (by simp [dirty]))
  · refine (h.flushes round flushing).imp id fun covered => ?_
    by_cases mine : .round round = c
    · subst mine
      rw [recording] at covered
      rw [setFlush_self]
      cases ending with
      | ok done =>
        have counted : s.store.generation = pending.generation := covered
        simp [FlushStage.Covers, HistoryStore.endFlush, HistoryStore.isDirty, setFlush, counted]
      | error error => trivial
    · have unlocked : (s.flushes (.round round)).holdsLock = false :=
        coherent.unlocked (by
          rw [coherent.mine recording rfl]
          exact fun theirs => mine (Option.some.inj theirs).symm)
      rw [setFlush_of_ne _ _ mine]
      rw [dirty] at covered
      exact covered.of_unlocked unlocked _ _

theorem step {e : SharedEvent} (h : s.Watched) (coherent : Coherent s)
    (interval : s.store.config.policy = .interval) (step : Step requests s e s') :
    s'.Watched := by
  cases step with
  | refuses _ _ => exact h.aside ⟨rfl, rfl, id, rfl, rfl⟩ fun _ => id
  | begins _ _ =>
    obtain ⟨flushed, _, generation⟩ := ensureSeries_frame s.store _
    exact h.aside ⟨rfl, rfl, id, generation, flushed⟩ fun _ => id
  | writes _ => exact h.aside ⟨rfl, rfl, id, rfl, rfl⟩ fun _ => id
  | returns _ => exact h.of_return interval _ _
  | asks idle => exact h.move _ idle s.lock id
  | locks queued _ => exact h.move _ queued _ id
  | skips locked settled =>
    have clean : s.store.isDirty = false := by
      simp only [HistoryStore.isSettled, Bool.and_eq_true, Bool.not_eq_true'] at settled
      exact settled.1
    exact h.move _ locked _ fun _ => clean
  | reads locked _ => exact h.move _ locked s.lock fun _ => rfl
  | lists listing _ => exact h.move _ listing s.lock id
  | collects collecting => exact h.move _ collecting s.lock id
  | sends collected => exact h.move _ collected s.lock id
  | @saveEnds _ _ ending saving =>
    have moved : Watched (s.setFlush _ (.recording _ ending)) := h.move _ saving s.lock id
    cases ending with
    | ok done => exact moved.aside ⟨rfl, rfl, id, rfl, rfl⟩ fun _ => id
    | error error => exact moved
  | records recording => exact h.of_record coherent recording _
  | wakes _ _ => exact .of_sleeping rfl
  | flushes _ _ =>
    refine .of_flushing rfl ?_
    rw [setFlush_self]
    trivial
  | rests _ clean => exact .of_waiting rfl (.inr clean)
  | succeeds flushing finished =>
    have covered := h.flushes _ flushing
    rw [finished] at covered
    exact .of_waiting rfl covered
  | fails _ _ => exact .of_waiting rfl (.inl rfl)
  | cancels => exact h.aside ⟨rfl, rfl, fun _ => rfl, rfl, rfl⟩ fun _ => id
  | stops _ cancelled => exact .of_stopped rfl cancelled

end Watched

/-! ### All that can be reached -/

theorem config_of_step {e : SharedEvent} (step : Step requests s e s') :
    s'.store.config = s.store.config := by
  cases step with
  | begins _ _ =>
    simp only [setAppend, HistoryStore.ensureSeries]
    split <;> rfl
  | @saveEnds _ _ ending _ => cases ending <;> rfl
  | @records _ _ ending _ _ => cases ending <;> rfl
  | _ => rfl

theorem Reachable.coherent {config : StoreConfig} {loaded : Option HistoryDocument}
    (reachable : Reachable requests (ofDocument config loaded) s) : Coherent s := by
  induction reachable with
  | start => exact .start config loaded
  | step _ step h => exact h.step step
  | rewoken _ _ _ h => exact h.of_quiet (.of_store rfl rfl rfl) rfl rfl

theorem Reachable.config (reachable : Reachable requests start s) :
    s.store.config = start.store.config := by
  induction reachable with
  | start => rfl
  | step _ step h => exact (config_of_step step).trans h
  | rewoken _ _ _ h => exact h

theorem Reachable.watched {config : StoreConfig} {loaded : Option HistoryDocument}
    (interval : config.policy = .interval)
    (reachable : Reachable requests (ofDocument config loaded) s) : s.Watched := by
  induction reachable with
  | start => exact .of_waiting (if_pos interval) (.inr rfl)
  | step before step h =>
    have policy := congrArg StoreConfig.policy before.config
    exact h.step before.coherent (policy.trans interval) step
  | rewoken _ _ _ _ => exact .of_sleeping rfl

/-- A site at the same point as a store whose flusher takes care of it does not wait for a wake
while the store is dirty. -/
theorem Follows.awake {w : Surroundings} {t : Site} (h : Follows w t s) (watched : s.Watched)
    (dirty : s.store.isDirty = true) :
    t.flusher ≠ .waiting ∧ (t.flusher = .starting → t.wake = true) := by
  have waits (waiting : s.flusher = .waiting) : s.wake = true :=
    (watched.waits waiting).resolve_right (by simp [dirty])
  have stands := h.flusher
  constructor
  · intro waiting
    rw [waiting] at stands
    cases stands with
    | waiting here wake none =>
      rw [waits here, none] at wake
      cases wake
  · intro starting
    rw [starting] at stands
    cases stands with
    | starting here wake => exact wake.symm.trans (waits here)

/-- Under the interval policy, in whatever order appends, flushes and the background flusher take
their steps and however the saves end: a dirty store that has not been shut down keeps a wake for
its flusher, or the flusher has taken one and sleeps, or is in a flush that has not returned or has
failed. So the flusher never waits without a wake, nor does one at a site at the same point. -/
theorem awake_of_dirty {config : StoreConfig} {loaded : Option HistoryDocument}
    (interval : config.policy = .interval)
    (reachable : Reachable requests (ofDocument config loaded) s) (going : s.cancelled = false)
    (dirty : s.store.isDirty = true) :
    (s.wake = true ∨ s.flusher = .sleeping ∨
      ∃ round, s.flusher = .flushing round ∧ (s.flushes (.round round)).outcome? = none) ∧
    s.flusher ≠ .absent ∧ s.flusher ≠ .stopped ∧ (s.flusher = .waiting → s.wake = true) ∧
    ∀ w t, Follows w t s → t.flusher ≠ .waiting ∧ (t.flusher = .starting → t.wake = true) := by
  have watched := reachable.watched interval
  have runs : ¬(s.flusher = .absent ∨ s.flusher = .stopped) := by
    intro ended
    have cancelled := watched.runs ended
    rw [going] at cancelled
    cases cancelled
  have waits (waiting : s.flusher = .waiting) : s.wake = true :=
    (watched.waits waiting).resolve_right (by simp [dirty])
  refine ⟨?_, fun absent => runs (.inl absent), fun stopped => runs (.inr stopped), waits, ?_⟩
  · cases here : s.flusher with
    | absent => exact absurd (.inl here) runs
    | stopped => exact absurd (.inr here) runs
    | waiting => exact .inl (waits here)
    | sleeping => exact .inr (.inl rfl)
    | flushing round =>
      refine (watched.flushes round here).imp id fun covered => .inr ⟨round, rfl, ?_⟩
      rw [dirty] at covered
      cases stage : s.flushes (.round round) with
      | finished document result =>
        rw [stage] at covered
        cases result with
        | ok outcome => cases covered
        | error failure => rfl
      | _ => rfl
  · exact fun w t follows => follows.awake watched dirty

/-- Runs of three commits of one series. -/
def retriedRequests (a : Nat) : AppendRequest :=
  ⟨"s", .plain (if a = 0 then "aaaa" else if a = 1 then "bbbb" else "cccc") 5
    [⟨"b/op", 0.5, "ns/op", none⟩]⟩

/-- A round of the flusher that times out, with an append between its read and its save, and one
that succeeds while another append returns. -/
def retriedRun : List SharedEvent :=
  [.appendBegins 0, .appendWrites 0, .appendReturns 0, .flusherWakes, .flusherLooks,
    .flushLocks (.round 0), .flushReads (.round 0), .flushLists (.round 0) 6 ["s"],
    .appendBegins 1, .appendWrites 1, .appendReturns 1, .flushCollects (.round 0),
    .flushSends (.round 0), .saveEnds (.round 0) (.error (.timeout 10)),
    .flushRecords (.round 0) 7, .flusherRests, .flusherWakes, .flusherLooks,
    .flushLocks (.round 1), .flushReads (.round 1), .flushLists (.round 1) 8 ["s"],
    .flushCollects (.round 1), .flushSends (.round 1), .appendBegins 2, .appendWrites 2,
    .appendReturns 2, .saveEnds (.round 1) (.ok ()), .flushRecords (.round 1) 9, .flusherRests]

theorem awake_after_retriedRun :
    ∃ s, (ofDocument { policy := .interval } none).run? retriedRequests retriedRun = some s ∧
      s.cancelled = false ∧ s.store.isDirty = true ∧ s.flusher = .waiting ∧ s.wake = true := by
  have ends : ((ofDocument { policy := .interval } none).run? retriedRequests retriedRun).any
      (fun s => !s.cancelled && s.store.isDirty && s.flusher == .waiting) = true := by
    decide +kernel
  obtain ⟨s, run, known⟩ := Option.any_eq_true .. |>.1 ends
  simp only [Bool.and_eq_true, Bool.not_eq_true', beq_iff_eq] at known
  obtain ⟨⟨going, dirty⟩, waiting⟩ := known
  obtain ⟨_, _, _, waits, _⟩ := awake_of_dirty rfl (.of_run run) going dirty
  exact ⟨s, run, going, dirty, waiting, waits waiting⟩

end SharedStore

end BenchLedger
