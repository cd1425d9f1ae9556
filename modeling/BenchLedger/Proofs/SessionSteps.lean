import BenchLedger.Proofs.SharedSteps
import BenchLedger.Proofs.WaitingSessions

/-!
The calls of a session are tasks of a shared store. Main statement: `SharedStore.exists_run_poll`:
whatever a site does to a flush at one moment is a run of the steps of that flush, with the same
store, the same result and the same document saved last, and the flush lock stays with the flush
whose turn it is.
-/

namespace BenchLedger

/-- A call of a session is as far as a flush of a shared store. -/
inductive Call.StandsAt : Call → FlushStage → Prop where
  | queued : StandsAt .queued .queued
  | saving (pending : HistoryStore.PendingFlush) (ending : Except PersistenceError Unit)
      (finish : Nat) : StandsAt (.saving pending ending finish) (.saving pending)
  | finished (document : Option HistoryDocument) (result : Except Failure FlushOutcome) :
      StandsAt (.finished result) (.finished document result)

/-- The turn that a flush takes at a site. -/
def FlushCall.turn : FlushCall → Turn
  | .explicit number => .caller number
  | .round _ => .flusher

namespace SharedStore

variable {requests : Nat → AppendRequest} {w w' : Surroundings} {t t' : Site} {call next : Call}
  {s s' : SharedStore} {c : FlushCall}

/-- A site and its surroundings show a flush of a shared store. -/
structure Shows (w : Surroundings) (t : Site) (call : Call) (s : SharedStore) (c : FlushCall) :
    Prop where
  store : t.store = s.store
  stands : call.StandsAt (s.flushes c)
  saved : ∀ d, s.saved.getLast? = some d → w.storage.document = some d

/-- What the steps of one flush leave as it is. -/
structure Beside (s s' : SharedStore) (c : FlushCall) : Prop where
  flusher : s'.flusher = s.flusher
  wake : s'.wake = s.wake
  cancelled : s'.cancelled = s.cancelled
  appends : s'.appends = s.appends
  others : ∀ b, b ≠ c → s'.flushes b = s.flushes b

/-- A flush can be under way: of all rounds, only the one that the flusher is at. -/
def Current (s : SharedStore) (c : FlushCall) : Prop :=
  ∀ round, c = .round round → s.flusher = .flushing round

/-- A flush has the first turn and waits for its save. -/
structure Serves (s : SharedStore) (turns : List Turn) (c : FlushCall) : Prop where
  turn : turns.head? = some c.turn
  saving : ∃ pending, s.flushes c = .saving pending
  current : s.Current c

/-- Whoever holds the flush lock has the first turn. -/
def LockedInTurn (s : SharedStore) (turns : List Turn) : Prop :=
  ∀ c, s.lock = some c → s.Serves turns c

theorem LockedInTurn.of_free (free : s.lock = none) (turns : List Turn) :
    s.LockedInTurn turns := by
  intro c locked
  rw [free] at locked
  cases locked

/-- Flushes that can be under way have different turns. -/
theorem Current.eq_of_turn {b : FlushCall} (first : s.Current b) (second : s.Current c)
    (same : b.turn = c.turn) : b = c := by
  cases b with
  | explicit n =>
    cases c with
    | explicit m =>
      cases same
      rfl
    | round r => cases same
  | round q =>
    cases c with
    | explicit m => cases same
    | round r =>
      have here := (first q rfl).symm.trans (second r rfl)
      cases here
      rfl

/-- A flush that has its turn and waits for the lock can take it. -/
theorem LockedInTurn.free (h : s.LockedInTurn t.turns) (current : s.Current c)
    (queued : s.flushes c = .queued) (served : t.hasTurn c.turn = true) : s.lock = none := by
  cases locked : s.lock with
  | none => rfl
  | some b =>
    obtain ⟨turn, ⟨pending, saving⟩, present⟩ := h b locked
    have first : t.turns.head? = some c.turn := by simpa [Site.hasTurn] using served
    obtain rfl : b = c := present.eq_of_turn current (Option.some.inj (turn.symm.trans first))
    rw [queued] at saving
    cases saving

private theorem nextPlan_document (b : Storage) : b.nextPlan.2.document = b.document := by
  unfold Storage.nextPlan
  split <;> rfl

private theorem beside_setFlush (s : SharedStore) (c : FlushCall) (stage : FlushStage) :
    Beside s (s.setFlush c stage) c :=
  ⟨rfl, rfl, rfl, rfl, fun _ other => setFlush_of_ne _ _ other _⟩

/-- The end of a save at a site is the end of the save of the flush. -/
private theorem shows_finishSave {pending : HistoryStore.PendingFlush}
    {ending : Except PersistenceError Unit} (store : t.store = s.store)
    (saving : s.flushes c = .saving pending)
    (saved : ∀ d, s.saved.getLast? = some d → w.storage.document = some d)
    (ended : t.finishSave w pending ending = (w', t', next)) :
    ∃ events s', s.run? requests events = some s' ∧ Beside s s' c ∧ Shows w' t' next s' c ∧
      s'.lock = none := by
  refine ⟨_, _, run_endFlush saving ending w.wallClock, ?_, ⟨?_, ?_, ?_⟩, ?_⟩
  · cases ending <;> exact ⟨rfl, rfl, rfl, rfl, fun _ other => setFlush_of_ne _ _ other _⟩
  · cases ended
    rw [← store]
    cases ending <;> rfl
  · cases ended
    rw [setFlush_self, ← store]
    cases ending <;> exact .finished _ _
  · cases ended
    cases ending with
    | ok done =>
      intro d last
      have same : (s.saved ++ [pending.document]).getLast? = some d := last
      rw [List.getLast?_concat] at same
      exact same
    | error error => exact saved
  · cases ending <;> rfl

/-- Whatever a site does to a call at one moment is a run of the steps of its flush. -/
theorem exists_run_poll (requests : Nat → AppendRequest) (h : Shows w t call s c)
    (locked : s.LockedInTurn t.turns) (current : s.Current c)
    (polled : t.Polled w c.turn call w' t' next) :
    ∃ events s', s.run? requests events = some s' ∧ Beside s s' c ∧ Shows w' t' next s' c ∧
      s'.LockedInTurn t'.turns := by
  obtain ⟨store, stands, saved⟩ := h
  have untouched : Beside s s c := ⟨rfl, rfl, rfl, rfl, fun _ _ => rfl⟩
  have planned : ∀ d, s.saved.getLast? = some d → w.storage.nextPlan.2.document = some d := by
    intro d last
    rw [nextPlan_document]
    exact saved d last
  -- A flush that begins to save, with the lock.
  have saves {pending : HistoryStore.PendingFlush} (queued : s.flushes c = .queued)
      (served : t.hasTurn c.turn = true) (begun : t.store.beginFlush w.wallClock = some pending) :
      ∃ events u, s.run? requests events = some u ∧ Beside s u c ∧ t.store = u.store ∧
        u.saved = s.saved ∧ u.flushes c = .saving pending ∧ u.lock = some c := by
    rw [store] at begun
    exact ⟨_, _, run_beginFlush queued (locked.free current queued served) begun (.refl _),
      ⟨rfl, rfl, rfl, rfl, fun _ other => setFlush_of_ne _ _ other _⟩, store, rfl,
      setFlush_self .., rfl⟩
  cases polled with
  | waits asks unserved => exact ⟨[], s, rfl, untouched, ⟨store, stands, saved⟩, locked⟩
  | holds early => exact ⟨[], s, rfl, untouched, ⟨store, stands, saved⟩, locked⟩
  | returned => exact ⟨[], s, rfl, untouched, ⟨store, stands, saved⟩, locked⟩
  | looks served => cases stands
  | skips served settled =>
    generalize here : s.flushes c = stage at stands
    cases stands with
    | queued =>
      have free := locked.free current here served
      rw [store] at settled
      have begun : s.store.beginFlush w.wallClock = none := if_pos settled
      refine ⟨_, _, run_skipFlush here free begun, beside_setFlush s c _, ⟨store, ?_, saved⟩,
        .of_free (s := s.setFlush c _) free _⟩
      rw [setFlush_self]
      exact .finished _ _
  | saves served begun _ ended =>
    generalize here : s.flushes c = stage at stands
    cases stands with
    | queued =>
      obtain ⟨events, u, run, beside, same, kept, saving, _⟩ := saves here served begun
      obtain ⟨later, s', ends, after, shown, free⟩ :=
        shows_finishSave same saving (kept ▸ planned) ended
      have across : Beside s s' c :=
        ⟨after.1.trans beside.1, after.2.trans beside.2, after.3.trans beside.3,
          after.4.trans beside.4, fun b other => (after.5 b other).trans (beside.5 b other)⟩
      exact ⟨_, s', run?_append_eq_some.2 ⟨u, run, ends⟩, across, shown, .of_free free _⟩
  | @begins pending ending delay served begun _ _ =>
    generalize here : s.flushes c = stage at stands
    cases stands with
    | queued =>
      obtain ⟨events, u, run, beside, same, kept, saving, mine⟩ := saves here served begun
      refine ⟨events, u, run, beside, ⟨same, saving ▸ .saving .., kept ▸ planned⟩, ?_⟩
      intro b theirs
      rw [mine] at theirs
      cases theirs
      refine ⟨by simpa [Site.hasTurn] using served, ⟨pending, saving⟩, fun round round' => ?_⟩
      exact beside.flusher.trans (current round round')
  | ends due ended =>
    generalize here : s.flushes c = stage at stands
    cases stands with
    | saving pending ending finish =>
      obtain ⟨events, s', run, beside, shown, free⟩ := shows_finishSave store here saved ended
      exact ⟨events, s', run, beside, shown, .of_free free _⟩

end SharedStore

end BenchLedger
