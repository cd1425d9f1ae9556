import BenchLedger.Proofs.WaitingSessions

/-!
Sessions without a background flusher. Their callers take turns in the order of their numbers, and
only the one who has the turn can be at a save. Main statements: `Session.wait_serves`: a wait is
over only when all calls have returned, `Session.flush_of_begun`: what a flush does, and
`Session.AtRest`: between two operations no turn is taken.
-/

namespace BenchLedger

/-! ### Calls in turn -/

namespace Session

/-- The turns of the calls that have not returned, for calls counted from `number`. -/
def turnsOf (number : Nat) : List Call → List Turn
  | [] => []
  | call :: calls =>
    if isFinished call then turnsOf (number + 1) calls
    else .caller number :: turnsOf (number + 1) calls

/-- Of the calls that have not returned, only the first one can be at its save. -/
inductive InTurn (generation : Nat) : List Call → Prop where
  | none : InTurn generation []
  | returned {result : Except Failure FlushOutcome} {calls : List Call}
      (rest : InTurn generation calls) : InTurn generation (.finished result :: calls)
  | asks {call : Call} {calls : List Call} (first : call.asks = true)
      (rest : ∀ c ∈ calls, c.asks = true) : InTurn generation (call :: calls)
  | saves {pending : HistoryStore.PendingFlush} {ending : Except PersistenceError Unit}
      {finish : Nat} {calls : List Call} (known : pending.generation ≤ generation)
      (rest : ∀ c ∈ calls, c.asks = true) :
      InTurn generation (.saving pending ending finish :: calls)

/-- The first call that has not returned is at a save that ends at `finish`. -/
inductive SavesUntil (finish : Nat) : List Call → Prop where
  | returned {result : Except Failure FlushOutcome} {calls : List Call}
      (rest : SavesUntil finish calls) : SavesUntil finish (.finished result :: calls)
  | saves {pending : HistoryStore.PendingFlush} {ending : Except PersistenceError Unit}
      {calls : List Call} (rest : ∀ c ∈ calls, c.asks = true) :
      SavesUntil finish (.saving pending ending finish :: calls)

theorem turnsOf_returned (number : Nat) (result : Except Failure FlushOutcome)
    (calls : List Call) : turnsOf number (.finished result :: calls) = turnsOf (number + 1) calls :=
  rfl

theorem turnsOf_unfinished {call : Call} (unfinished : isFinished call = false) (number : Nat)
    (calls : List Call) :
    turnsOf number (call :: calls) = .caller number :: turnsOf (number + 1) calls := by
  rw [turnsOf, unfinished]
  rfl

theorem InTurn.of_asks {generation : Nat} {calls : List Call}
    (asks : ∀ c ∈ calls, c.asks = true) : InTurn generation calls := by
  cases calls with
  | nil => exact .none
  | cons call calls =>
    obtain ⟨first, rest⟩ := List.forall_mem_cons.1 asks
    exact .asks first rest

theorem InTurn.mono {generation later : Nat} {calls : List Call} (h : InTurn generation calls)
    (known : generation ≤ later) : InTurn later calls := by
  induction h with
  | none => exact .none
  | returned _ ih => exact .returned ih
  | asks first rest => exact .asks first rest
  | saves read rest => exact .saves (Nat.le_trans read known) rest

theorem isFinished_of_asks {call : Call} (asks : call.asks = true) : isFinished call = false := by
  cases call with
  | queued => rfl
  | looking => rfl
  | saving => cases asks
  | finished => cases asks

variable {s : Session} {calls : List Call} {number : Nat}

/-- Calls that wait behind another one stay as they are. -/
theorem pollCalls_behind {first : Nat} (taken : s.site.turns.head? = some (.caller first))
    (asks : ∀ c ∈ calls, c.asks = true) (behind : first < number) :
    s.pollCalls number calls = (s, calls) := by
  induction calls generalizing number with
  | nil => rfl
  | cons call calls ih =>
    obtain ⟨here, rest⟩ := List.forall_mem_cons.1 asks
    have unserved : s.site.hasTurn (.caller number) = false := by
      simpa [Site.hasTurn, taken] using Nat.ne_of_lt behind
    have stays : s.site.poll s.surroundings (.caller number) call
        = (s.surroundings, s.site, call) := by
      cases call with
      | queued => simp [Site.poll, unserved]
      | looking => simp [Site.poll, unserved]
      | saving => cases here
      | finished => cases here
    simp only [Session.pollCalls, stays, ih rest (Nat.lt_succ_of_lt behind)]

/-- What holds of a session and its calls between two of their steps. -/
structure Serving (s : Session) (number : Nat) (calls : List Call) : Prop where
  turns : s.site.turns = turnsOf number calls
  inTurn : InTurn s.store.generation calls
  counted : s.store.flushed ≤ s.store.generation

/-- What becomes of calls that are taken as far as they can go: they have returned, or the first one
that has not waits for its save. If the save of one was over before, more have returned. -/
structure Served (s s' : Session) (number : Nat) (calls calls' : List Call) : Prop
    extends Serving s' number calls' where
  flusher : s'.site.flusher = s.site.flusher
  leftovers : s'.leftovers = s.leftovers
  now : s'.now = s.now
  halts : (∀ c ∈ calls', isFinished c = true) ∨ ∃ finish, s.now < finish ∧ SavesUntil finish calls'
  fewer : (turnsOf number calls').length ≤ (turnsOf number calls).length
  returns : ∀ finish ≤ s.now, SavesUntil finish calls →
    (turnsOf number calls').length < (turnsOf number calls).length

/-- A call has returned, and the ones after it are taken on. -/
theorem Served.of_return {u s' : Session} {call : Call} {calls' : List Call}
    {result : Except Failure FlushOutcome} (rest : Served u s' (number + 1) calls calls')
    (unfinished : isFinished call = false) (flusher : u.site.flusher = s.site.flusher)
    (leftovers : u.leftovers = s.leftovers) (now : u.now = s.now) :
    Served s s' number (call :: calls) (.finished result :: calls') where
  turns := rest.turns
  inTurn := .returned rest.inTurn
  counted := rest.counted
  flusher := rest.flusher.trans flusher
  leftovers := rest.leftovers.trans leftovers
  now := rest.now.trans now
  halts := by
    rcases rest.halts with all | ⟨finish, early, saves⟩
    · exact .inl (List.forall_mem_cons.2 ⟨rfl, all⟩)
    · exact .inr ⟨finish, now ▸ early, .returned saves⟩
  fewer := by
    rw [turnsOf_returned, turnsOf_unfinished unfinished]
    exact Nat.le_succ_of_le rest.fewer
  returns _ _ _ := by
    rw [turnsOf_returned, turnsOf_unfinished unfinished]
    exact Nat.lt_succ_of_le rest.fewer

/-- A call is at a save that is not over yet, and the ones after it wait. -/
theorem Served.of_save {u : Session} {call : Call} {pending : HistoryStore.PendingFlush}
    {ending : Except PersistenceError Unit} {finish : Nat}
    (serving : Serving s number (call :: calls)) (unfinished : isFinished call = false)
    (rest : ∀ c ∈ calls, c.asks = true) (known : pending.generation ≤ s.store.generation)
    (early : s.now < finish)
    (fresh : ∀ before, SavesUntil before (call :: calls) → before = finish)
    (site : u.site = s.site) (leftovers : u.leftovers = s.leftovers) (now : u.now = s.now) :
    Served s (u.pollCalls (number + 1) calls).1 number (call :: calls)
      (.saving pending ending finish :: (u.pollCalls (number + 1) calls).2) := by
  have turns := serving.turns
  rw [turnsOf_unfinished unfinished] at turns
  have taken : u.site.turns.head? = some (.caller number) := by
    rw [site, turns]
    rfl
  rw [pollCalls_behind taken rest (Nat.lt_succ_self number)]
  have store : u.store = s.store := congrArg Site.store site
  exact {
    turns := by rw [site, turns, turnsOf_unfinished rfl]
    inTurn := .saves (store ▸ known) rest
    counted := store ▸ serving.counted
    flusher := by rw [site]
    leftovers := leftovers
    now := now
    halts := .inr ⟨finish, early, .saves rest⟩
    fewer := Nat.le_of_eq (by rw [turnsOf_unfinished unfinished, turnsOf_unfinished rfl])
    returns := fun before due saves => by
      have same := fresh before saves
      omega }

theorem Served.of_returned {s' : Session} {calls' : List Call}
    {result : Except Failure FlushOutcome} (rest : Served s s' (number + 1) calls calls') :
    Served s s' number (.finished result :: calls) (.finished result :: calls') where
  turns := rest.turns
  inTurn := .returned rest.inTurn
  counted := rest.counted
  flusher := rest.flusher
  leftovers := rest.leftovers
  now := rest.now
  halts := by
    rcases rest.halts with all | ⟨finish, early, saves⟩
    · exact .inl (List.forall_mem_cons.2 ⟨rfl, all⟩)
    · exact .inr ⟨finish, early, .returned saves⟩
  fewer := rest.fewer
  returns finish due saves := by
    cases saves with
    | returned saves => exact rest.returns finish due saves

theorem generation_of_begun {w : Surroundings} {pending : HistoryStore.PendingFlush}
    (begun : s.site.store.beginFlush w.wallClock = some pending) :
    pending.generation ≤ s.store.generation := by
  unfold HistoryStore.beginFlush at begun
  split at begun
  · cases begun
  · cases begun
    exact Nat.le_refl _

/-- The session after its first call has returned at the end of a save. -/
private theorem serving_finishSave {w w' : Surroundings} {t' : Site} {next : Call}
    {pending : HistoryStore.PendingFlush} {ending : Except PersistenceError Unit}
    (taken : s.site.turns = .caller number :: turnsOf (number + 1) calls)
    (rest : ∀ c ∈ calls, c.asks = true) (counted : s.store.flushed ≤ s.store.generation)
    (known : pending.generation ≤ s.store.generation)
    (ended : s.site.finishSave w pending ending = (w', t', next)) :
    Serving { s with surroundings := w', site := t' } (number + 1) calls ∧
      t'.flusher = s.site.flusher ∧ w'.now = w.now ∧ ∃ result, next = .finished result := by
  cases ended
  refine ⟨⟨?_, .of_asks rest, ?_⟩, rfl, ?_, _, rfl⟩
  · simp [Site.release, taken]
  · cases ending with
    | ok done => exact known
    | error error => exact counted
  · cases ending <;> rfl

theorem pollCalls_served (serving : Serving s number calls) :
    Served s (s.pollCalls number calls).1 number calls (s.pollCalls number calls).2 := by
  induction calls generalizing s number with
  | nil =>
    exact { serving with
      flusher := rfl
      leftovers := rfl
      now := rfl
      halts := .inl (by simp [pollCalls])
      fewer := Nat.le_refl _
      returns := fun _ _ saves => by cases saves }
  | cons call calls ih =>
    obtain ⟨turns, inTurn, counted⟩ := id serving
    have polled := Site.polled_poll s.surroundings s.site (.caller number) call
    simp only [pollCalls]
    generalize s.site.poll s.surroundings (.caller number) call = after at polled ⊢
    obtain ⟨w', t', next⟩ := after
    cases inTurn with
    | returned rest =>
      cases polled with
      | waits asks _ => cases asks
      | returned => exact .of_returned (ih ⟨turns, rest, counted⟩)
    | asks first rest =>
      have unfinished := isFinished_of_asks first
      rw [turnsOf_unfinished unfinished] at turns
      have served : s.site.hasTurn (.caller number) = true := by
        simp [Site.hasTurn, turns]
      have released : Serving { s with site := s.site.release } (number + 1) calls :=
        ⟨by simp [Site.release, turns], .of_asks rest, counted⟩
      cases polled with
      | waits _ unserved =>
        rw [served] at unserved
        cases unserved
      | skips => exact .of_return (ih released) unfinished rfl rfl rfl
      | looks => exact .of_return (ih released) unfinished rfl rfl rfl
      | saves _ begun _ ended =>
        obtain ⟨saved, flusher, now, result, rfl⟩ :=
          serving_finishSave turns rest counted (generation_of_begun begun) ended
        exact .of_return (ih saved) unfinished flusher rfl now
      | @begins _ _ _ _ begun _ slow =>
        refine .of_save serving unfinished rest (generation_of_begun begun)
          (Nat.lt_add_of_pos_right slow) ?_ rfl rfl rfl
        intro before saves
        cases saves
      | ends => cases first
      | holds => cases first
      | returned => cases first
    | @saves pending ending finish _ known rest =>
      have unfinished : isFinished (.saving pending ending finish) = false := rfl
      rw [turnsOf_unfinished unfinished] at turns
      cases polled with
      | waits asks _ => cases asks
      | ends _ ended =>
        obtain ⟨saved, flusher, now, result, rfl⟩ :=
          serving_finishSave turns rest counted known ended
        exact .of_return (ih saved) unfinished flusher rfl now
      | holds early =>
        refine .of_save serving unfinished rest known early ?_ rfl rfl rfl
        intro before saves
        cases saves
        rfl

/-! ### Waits -/

theorem SavesUntil.unfinished {finish : Nat} (saves : SavesUntil finish calls) :
    calls.all isFinished = false := by
  induction saves with
  | returned _ ih => simpa [isFinished] using ih
  | saves _ => simp [isFinished]

/-- The save is all that can end the wait. -/
theorem SavesUntil.timers {finish : Nat} (saves : SavesUntil finish calls) :
    calls.filterMap callTimer? = [finish] := by
  induction saves with
  | returned _ ih => rwa [List.filterMap_cons_none rfl]
  | saves rest =>
    have none : ∀ c ∈ _, callTimer? c = none := fun c member => by
      have asks := rest c member
      cases c with
      | saving => cases asks
      | _ => rfl
    simpa [callTimer?, List.filterMap_eq_nil_iff] using none

/-- The first call that has not returned has the turn, and is at its save. -/
theorem SavesUntil.taken {finish : Nat} (saves : SavesUntil finish calls) :
    ∃ i pending ending, (turnsOf number calls).head? = some (.caller (number + i)) ∧
      calls[i]? = some (.saving pending ending finish) := by
  induction saves generalizing number with
  | returned _ ih =>
    obtain ⟨i, pending, ending, turn, call⟩ := @ih (number + 1)
    refine ⟨i + 1, pending, ending, ?_, by simpa using call⟩
    rw [turnsOf_returned, turn, Nat.add_right_comm, Nat.add_assoc]
  | @saves pending ending calls _ =>
    refine ⟨0, pending, ending, ?_, rfl⟩
    rw [turnsOf_unfinished rfl]
    rfl

/-- There is no background flusher, neither of the present store nor of an earlier one. -/
structure Unattended (s : Session) : Prop where
  flusher : s.site.flusher = .absent
  leftovers : s.leftovers = []

theorem Unattended.runFlushers (h : s.Unattended) : s.runFlushers = s := by
  simp only [Session.runFlushers, h.leftovers, List.foldl_nil, Site.runFlusher_absent h.flusher]
  rw [← h.leftovers]

/-- Moreover, nothing is under way: no turn is taken, and no flush has saved more than there is. -/
structure AtRest (s : Session) : Prop extends Unattended s where
  turns : s.site.turns = []
  counted : s.store.flushed ≤ s.store.generation

theorem turnsOf_eq_nil (all : ∀ c ∈ calls, isFinished c = true) (number : Nat) :
    turnsOf number calls = [] := by
  induction calls generalizing number with
  | nil => rfl
  | cons call calls ih =>
    obtain ⟨first, rest⟩ := List.forall_mem_cons.1 all
    rw [turnsOf, if_pos first, ih rest]

theorem isOver_calls (s : Session) (calls : List Call) :
    s.isOver { calls } = calls.all isFinished := by
  simp [isOver]

/-- While the first call that has not returned waits for its save, time has to pass. -/
theorem Unattended.halted {finish : Nat} (h : s.Unattended) (turns : s.site.turns = turnsOf 0 calls)
    (saves : SavesUntil finish calls) :
    s.isReady { calls } = false ∧ s.nextTimer? { calls } = some finish := by
  constructor
  · obtain ⟨i, pending, ending, turn, call⟩ := @SavesUntil.taken _ 0 _ saves
    simp only [isReady, turns, turn, Nat.zero_add, call]
  · simp [nextTimer?, saves.timers, h.leftovers, Site.flusherTimer?, h.flusher]

/-- A wait is over when all calls have returned. -/
theorem wait_of_returned {s' : Session} {calls' : List Call}
    (polled : s.pollCalls 0 calls = (s', calls')) (all : ∀ c ∈ calls', isFinished c = true)
    (fuel : Nat) : s.wait (fuel + 1) { calls } = (s', { calls := calls' }) := by
  have ended : s'.isOver { calls := calls' } = true := by
    rw [isOver_calls]
    exact List.all_eq_true.2 all
  simp only [wait, polled, ended, if_true]

/-- A wait goes on at the end of the save that is under way. -/
theorem wait_of_save {s' : Session} {calls' : List Call} {finish : Nat}
    (polled : s.pollCalls 0 calls = (s', calls')) (unattended : s'.Unattended)
    (turns : s'.site.turns = turnsOf 0 calls') (saves : SavesUntil finish calls') (fuel : Nat) :
    s.wait (fuel + 1) { calls } = wait fuel
      { s' with surroundings := { s'.surroundings with now := max s'.now finish } }
      { calls := calls' } := by
  obtain ⟨unready, timer⟩ := unattended.halted turns saves
  have pending : s'.isOver { calls := calls' } = false := by
    rw [isOver_calls, saves.unfinished]
  simp only [wait, polled, pending, unattended.runFlushers, unready, timer, Bool.or_self,
    Bool.false_eq_true, if_false]

/-- Without a background flusher a caller waits until all calls have returned, given enough fuel:
some for each call that has not returned, and some more unless the save of the first one is over. -/
theorem wait_serves {fuel : Nat} (unattended : s.Unattended) (serving : Serving s 0 calls)
    (enough : (turnsOf 0 calls).length < fuel ∨
      (turnsOf 0 calls).length ≤ fuel ∧ ∃ finish ≤ s.now, SavesUntil finish calls) :
    (s.wait fuel { calls }).1.AtRest ∧
      ∀ c ∈ (s.wait fuel { calls }).2.calls, isFinished c = true := by
  induction fuel generalizing s calls with
  | zero =>
    rcases enough with less | ⟨none, finish, _, saves⟩
    · exact absurd less (Nat.not_lt_zero _)
    · obtain ⟨i, _, _, taken, _⟩ := @SavesUntil.taken _ 0 _ saves
      rw [List.eq_nil_of_length_eq_zero (Nat.le_zero.1 none)] at taken
      cases taken
  | succ fuel ih =>
    have served := pollCalls_served serving
    generalize polled : s.pollCalls 0 calls = after at served
    obtain ⟨s', calls'⟩ := after
    have unattended' : s'.Unattended :=
      ⟨served.flusher.trans unattended.flusher, served.leftovers.trans unattended.leftovers⟩
    rcases served.halts with all | ⟨finish, early, saves⟩
    · rw [wait_of_returned polled all]
      refine ⟨{ unattended' with turns := ?_, counted := served.counted }, all⟩
      exact served.turns.trans (turnsOf_eq_nil all 0)
    · rw [wait_of_save polled unattended' served.turns saves]
      have fewer : (turnsOf 0 calls').length ≤ fuel := by
        rcases enough with less | ⟨least, before, due, saving⟩
        · exact Nat.le_of_lt_succ (Nat.lt_of_le_of_lt served.fewer less)
        · exact Nat.le_of_lt_succ (Nat.lt_of_lt_of_le (served.returns before due saving) least)
      exact ih ⟨unattended'.flusher, unattended'.leftovers⟩
        ⟨served.turns, served.inTurn, served.counted⟩
        (.inr ⟨fewer, finish, Nat.le_max_right _ _, saves⟩)

/-! ### One flush -/

/-- When the next save of a session is over, and how it ends. -/
def nextEnding (s : Session) : Nat × Except PersistenceError Unit :=
  s.storage.nextPlan.1.ending s.store.config.timeout

/-- The session after a flush that had something to do. -/
def saved (s : Session) (pending : HistoryStore.PendingFlush) : Session :=
  let waited :=
    { s.surroundings with now := s.now + s.nextEnding.1, storage := s.storage.nextPlan.2 }
  { s with
    surroundings := (s.site.finishSave waited pending s.nextEnding.2).1
    site := { s.site with store := (s.store.endFlush pending s.wallClock s.nextEnding.2).1 } }

theorem pollCalls_one {w : Surroundings} {t : Site} {call next : Call}
    (polled : s.site.poll s.surroundings (.caller number) call = (w, t, next)) :
    s.pollCalls number [call] = ({ s with surroundings := w, site := t }, [next]) := by
  simp only [pollCalls, polled]

theorem flush_of_wait {s' : Session} {result : Except Failure FlushOutcome}
    (waited : ∀ fuel, (s.enqueue 0).wait (fuel + 2) { calls := [.queued] }
      = (s', { calls := [.finished result] })) : s.flush = (s', result) := by
  obtain ⟨fuel, enough⟩ : ∃ fuel, (s.enqueue 0).waitFuel = fuel + 2 := ⟨_, rfl⟩
  simp only [flush, await, enough, waited]
  rfl

theorem release_enqueue (free : s.site.turns = []) : (s.enqueue 0).site.release = s.site := by
  simp only [enqueue, Site.enqueue, Site.release, free, List.nil_append, List.drop_one,
    List.tail_cons]
  rw [← free]

theorem hasTurn_enqueue (free : s.site.turns = []) :
    (s.enqueue 0).site.hasTurn (.caller 0) = true := by
  simp [enqueue, Site.enqueue, Site.hasTurn, free]

/-- A look at the flush state when no turn is taken. -/
theorem stats_of_free (free : s.site.turns = []) : s.stats = (s, s.store.stats) := by
  have polled : (s.enqueue 0).site.poll (s.enqueue 0).surroundings (.caller 0) .looking
      = (s.surroundings, s.site, .finished (.ok .clean)) := by
    simp only [Site.poll, hasTurn_enqueue free, if_true, release_enqueue free]
    rfl
  obtain ⟨fuel, enough⟩ : ∃ fuel, (s.enqueue 0).waitFuel = fuel + 1 := ⟨_, rfl⟩
  simp only [stats, await, enough]
  rw [wait_of_returned (pollCalls_one polled) (by simp [isFinished])]
  rfl

/-- A flush that has nothing to do. -/
theorem flush_of_settled (h : s.AtRest) (settled : s.store.isSettled = true) :
    s.flush = (s, .ok .clean) := by
  refine flush_of_wait fun fuel => ?_
  have none : (s.enqueue 0).site.store.beginFlush (s.enqueue 0).surroundings.wallClock = none :=
    if_pos settled
  have polled : (s.enqueue 0).site.poll (s.enqueue 0).surroundings (.caller 0) .queued
      = (s.surroundings, s.site, .finished (.ok .clean)) := by
    simp only [Site.poll, hasTurn_enqueue h.turns, if_true, none, release_enqueue h.turns]
    rfl
  exact wait_of_returned (pollCalls_one polled) (by simp [isFinished]) _

/-- The end of the save of a flush that was asked for first. -/
theorem AtRest.finishSave_enqueue (h : s.AtRest) (w : Surroundings)
    (pending : HistoryStore.PendingFlush) (ending : Except PersistenceError Unit) :
    (s.enqueue 0).site.finishSave w pending ending
      = ((s.site.finishSave w pending ending).1,
        { s.site with store := (s.store.endFlush pending w.wallClock ending).1 },
        .finished (s.store.endFlush pending w.wallClock ending).2) := by
  have turns := h.turns
  simp only [Site.finishSave, enqueue, Site.enqueue, Site.release, turns, List.nil_append,
    List.drop_one, List.tail_cons]
  rw [← turns]
  cases ending <;> rfl

/-- A flush that has something to do. -/
theorem flush_of_begun (h : s.AtRest) {pending : HistoryStore.PendingFlush}
    (begun : s.store.beginFlush s.wallClock = some pending) :
    s.flush = (s.saved pending, (s.store.endFlush pending s.wallClock s.nextEnding.2).2) := by
  refine flush_of_wait fun fuel => ?_
  have started : (s.enqueue 0).site.store.beginFlush (s.enqueue 0).surroundings.wallClock
      = some pending := begun
  by_cases instant : s.nextEnding.1 = 0
  · have polled : (s.enqueue 0).site.poll (s.enqueue 0).surroundings (.caller 0) .queued
        = ((s.saved pending).surroundings, (s.saved pending).site,
          .finished (s.store.endFlush pending s.wallClock s.nextEnding.2).2) := by
      have now : ((s.enqueue 0).surroundings.storage.nextPlan.1.ending
          (s.enqueue 0).site.store.config.timeout).1 = 0 := instant
      simp only [Site.poll, hasTurn_enqueue h.turns, if_true, started, now, h.finishSave_enqueue]
      simp only [saved, instant, Nat.add_zero]
      rfl
    exact wait_of_returned (pollCalls_one polled) (by simp [isFinished]) _
  · -- The caller waits until the save is over, and is then polled once more.
    let began : Session :=
      { s.enqueue 0 with surroundings := { s.surroundings with storage := s.storage.nextPlan.2 } }
    have polled : (s.enqueue 0).site.poll (s.enqueue 0).surroundings (.caller 0) .queued
        = (began.surroundings, began.site,
          .saving pending s.nextEnding.2 (s.now + s.nextEnding.1)) := by
      have later : ¬((s.enqueue 0).surroundings.storage.nextPlan.1.ending
          (s.enqueue 0).site.store.config.timeout).1 = 0 := instant
      simp only [Site.poll, hasTurn_enqueue h.turns, if_true, started, later, if_false]
      rfl
    have again : began.site.poll
        { began.surroundings with now := max s.now (s.now + s.nextEnding.1) } (.caller 0)
        (.saving pending s.nextEnding.2 (s.now + s.nextEnding.1))
        = ((s.saved pending).surroundings, (s.saved pending).site,
          .finished (s.store.endFlush pending s.wallClock s.nextEnding.2).2) := by
      simp only [Site.poll, if_pos (Nat.le_max_right s.now (s.now + s.nextEnding.1))]
      rw [Nat.max_eq_right (Nat.le_add_right ..)]
      exact h.finishSave_enqueue _ pending s.nextEnding.2
    have turns : began.site.turns
        = turnsOf 0 [.saving pending s.nextEnding.2 (s.now + s.nextEnding.1)] := by
      rw [turnsOf_unfinished rfl]
      exact congrArg (· ++ [Turn.caller 0]) h.turns
    rw [wait_of_save (pollCalls_one polled) ⟨h.flusher, h.leftovers⟩ turns (.saves (by simp))]
    exact wait_of_returned (pollCalls_one again) (by simp [isFinished]) _

/-- How often the storage has been asked to save. -/
def saveCalls (s : Session) : Nat :=
  s.storage.saves + s.counters.flushFailures

theorem nextPlan_saves (b : Storage) :
    b.nextPlan.2.document = b.document ∧ b.nextPlan.2.saves = b.saves := by
  unfold Storage.nextPlan
  split <;> exact ⟨rfl, rfl⟩

theorem saveCalls_saved (s : Session) (pending : HistoryStore.PendingFlush) :
    (s.saved pending).saveCalls = s.saveCalls + 1 := by
  obtain ⟨_, saves⟩ := nextPlan_saves s.storage
  cases ending : s.nextEnding.2 <;>
  · simp only [saveCalls, saved, ending, Site.finishSave, Session.storage, Session.counters,
      Storage.save] at saves ⊢
    omega

/-- A flush has nothing to do, or it is over after one save. -/
theorem flush_cases (h : s.AtRest) :
    s.flush = (s, .ok .clean) ∨
      ∃ pending, s.flush
        = (s.saved pending, (s.store.endFlush pending s.wallClock s.nextEnding.2).2) := by
  cases begun : s.store.beginFlush s.wallClock with
  | none =>
    have settled : s.store.isSettled = true := by simpa [HistoryStore.beginFlush] using begun
    exact .inl (flush_of_settled h settled)
  | some pending => exact .inr ⟨pending, flush_of_begun h begun⟩

/-- A flush asks the storage once if it has something to do. -/
theorem saveCalls_flush (h : s.AtRest) :
    s.flush.1.saveCalls = s.saveCalls ∨ s.flush.1.saveCalls = s.saveCalls + 1 := by
  rcases flush_cases h with nothing | ⟨pending, once⟩
  · rw [nothing]
    exact .inl rfl
  · rw [once]
    exact .inr (saveCalls_saved s pending)

/-- A flush that fails leaves its error in the store. -/
theorem lastError_of_flush (h : s.AtRest) {failure : Failure}
    (failed : s.flush.2 = .error failure) : s.flush.1.store.lastError = some failure.message := by
  rcases flush_cases h with nothing | ⟨pending, once⟩
  · rw [nothing] at failed
    cases failed
  · rw [once] at failed ⊢
    cases ending : s.nextEnding.2 with
    | ok done =>
      rw [ending] at failed
      cases failed
    | error error =>
      rw [ending] at failed
      cases failed
      simp only [saved, ending, Session.store, HistoryStore.endFlush, Failure.message]

/-- If the save of a flush of a dirty store succeeds, what was saved is what was in memory, and if
it fails, the store stays dirty. -/
theorem flush_of_dirty (h : s.AtRest) (dirty : s.store.isDirty = true) :
    (∃ outcome, s.flush.2 = .ok outcome ∧ s.flush.1.store.isDirty = false ∧
        s.flush.1.storage.document = some (s.store.document s.wallClock)) ∨
      ∃ error, s.flush.2 = .error (.persistence error) ∧ s.flush.1.store.isDirty = true ∧
        s.flush.1.storage.document = s.storage.document := by
  have begun : s.store.beginFlush s.wallClock
      = some ⟨s.store.generation, s.store.document s.wallClock⟩ := by
    simp [HistoryStore.beginFlush, HistoryStore.isSettled, dirty]
  obtain ⟨document, _⟩ := nextPlan_saves s.storage
  rw [flush_of_begun h begun]
  cases ending : s.nextEnding.2 with
  | ok done =>
    refine .inl ⟨_, rfl, ?_, ?_⟩
    · simp [saved, ending, Session.store, HistoryStore.endFlush, HistoryStore.isDirty]
    · simp only [saved, ending, Site.finishSave, Session.storage, Storage.save]
  | error error =>
    refine .inr ⟨error, rfl, ?_, ?_⟩
    · simp only [saved, ending, Session.store, HistoryStore.endFlush]
      exact dirty
    · simpa only [saved, ending, Site.finishSave, Session.storage] using document

end Session

end BenchLedger
