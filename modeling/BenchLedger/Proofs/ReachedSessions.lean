import BenchLedger.Proofs.StoredEntries
import BenchLedger.Proofs.UnattendedSessions

/-!
All that a session can go through. Main statement: `Session.Reached.invariant`: every series of a
session has come about by insertions, and unless the policy has a background flusher, nothing is
under way between two operations.
-/

namespace BenchLedger

/-! ### Appends -/

namespace HistoryStore

/-- Every series has come about by insertions. -/
def Represented (s : HistoryStore) : Prop :=
  s.AllEntries fun _ _ => True

/-- `s'` has come from `s` by appends. -/
structure Grown (s s' : HistoryStore) : Prop where
  config : s'.config = s.config
  repoUrl : s'.repoUrl = s.repoUrl
  flushed : s'.flushed = s.flushed
  lastFlush : s'.lastFlush = s.lastFlush
  lastError : s'.lastError = s.lastError
  generation : s.generation ≤ s'.generation
  represented : s.Represented → s'.Represented

namespace Grown

variable {s s' s'' : HistoryStore}

theorem refl (s : HistoryStore) : Grown s s :=
  ⟨rfl, rfl, rfl, rfl, rfl, Nat.le_refl _, id⟩

theorem trans (h : Grown s s') (h' : Grown s' s'') : Grown s s'' :=
  ⟨h'.config.trans h.config, h'.repoUrl.trans h.repoUrl, h'.flushed.trans h.flushed,
    h'.lastFlush.trans h.lastFlush, h'.lastError.trans h.lastError,
    Nat.le_trans h.generation h'.generation, fun represented =>
      h'.represented (h.represented represented)⟩

theorem counted (h : Grown s s') (counted : s.flushed ≤ s.generation) :
    s'.flushed ≤ s'.generation := by
  rw [h.flushed]
  exact Nat.le_trans counted h.generation

theorem put (s : HistoryStore) (series : String) (e : CommitEntry) : Grown s (s.put series e).1 :=
  ⟨rfl, rfl, rfl, rfl, rfl, Nat.le_succ _, fun represented => represented.put series trivial⟩

theorem append {series : String} {e : CommitEntry} {p : Position}
    (appended : s.append series e = .ok (s', p)) : Grown s s' := by
  unfold HistoryStore.append at appended
  split at appended
  · cases appended
  · cases appended
    exact put s series e

theorem accept {config : IngestConfig} {series : String} {e : CommitEntry} {p : Position}
    (accepted : s.accept config series e = .ok (s', p)) : Grown s s' := by
  unfold HistoryStore.accept at accepted
  split at accepted
  · cases accepted
  · exact append accepted

theorem importEntry (config : IngestConfig) (series : String)
    (state : HistoryStore × ImportReport) (e : CommitEntry) :
    Grown state.1 (importEntry config series state e).1 := by
  unfold HistoryStore.importEntry
  split
  next accepted => exact accept accepted
  · exact .refl _

theorem importDocument (config : IngestConfig) (s : HistoryStore) (d : HistoryDocument) :
    Grown s (s.importDocument config d).1 := by
  apply importDocument_keeps (motive := Grown s) (.refl s)
  intro _ _ _ _ t t' _ accepted grown
  exact grown.trans (accept accepted)

end Grown

theorem represented_ofDocument (config : StoreConfig) (d : Option HistoryDocument) :
    (ofDocument config d).Represented :=
  allEntries_ofDocument config fun _ _ _ _ _ _ _ => trivial

end HistoryStore

/-! ### Operations on a session at rest -/

/-- Besides the store, an append changes only what a background flusher knows. -/
theorem Site.appended_frame (t : Site) (store : HistoryStore) :
    (t.appended store).store = store ∧ (t.appended store).turns = t.turns ∧
      (t.flusher = .absent → (t.appended store).flusher = .absent) := by
  obtain ⟨before, turns, flusher, wake, cancelled⟩ := t
  unfold appended
  split
  · cases flusher <;> exact ⟨rfl, rfl, fun absent => by cases absent <;> rfl⟩
  · exact ⟨rfl, rfl, id⟩

namespace Session

variable {s : Session}

theorem store_appended (s : Session) (store : HistoryStore) :
    (s.appended store).store = store :=
  (s.site.appended_frame store).1

theorem turns_appended (s : Session) (store : HistoryStore) :
    (s.appended store).site.turns = s.site.turns :=
  (s.site.appended_frame store).2.1

theorem Unattended.appended (h : s.Unattended) (store : HistoryStore) :
    (s.appended store).Unattended :=
  ⟨(s.site.appended_frame store).2.2 h.flusher, h.leftovers⟩

theorem Serving.appended {calls : List Call} (h : Serving s 0 calls) {store : HistoryStore}
    (grown : s.store.Grown store) : Serving (s.appended store) 0 calls where
  turns := (turns_appended s store).trans h.turns
  inTurn := by
    rw [store_appended]
    exact h.inTurn.mono grown.generation
  counted := by
    rw [store_appended]
    exact grown.counted h.counted

/-- Takes a store over after some number of appends. From the second one on a background flusher is
awake already, and its wake is kept. -/
def takeOver (s : Session) (store : HistoryStore) : Nat → Session
  | 0 => s
  | 1 => s.appended store
  | _ => (s.appended store).appended store

/-- The session when a store and a report have come of the entries that were taken in so far. -/
def during (s : Session) (state : HistoryStore × ImportReport) : Session :=
  (s.takeOver state.1 state.2.total).count fun c => { c with
    ingested := c.ingested + state.2.total
    rejected := c.rejected + state.2.rejected.length }

theorem importDocument_eq (s : Session) (d : HistoryDocument) :
    s.importDocument d =
      (s.during (s.store.importDocument s.ingest d)).settle
        (s.store.importDocument s.ingest d).2 := by
  unfold importDocument
  generalize s.store.importDocument s.ingest d = after
  obtain ⟨store, report⟩ := after
  unfold during
  dsimp only
  rcases report.total with _ | _ | n
  · rfl
  · rfl
  · have several : 1 < n + 1 + 1 := Nat.succ_lt_succ (Nat.succ_pos n)
    simp only [several, if_true, Nat.succ_ne_zero, if_false]
    rfl

/-- The append meets a flush that has gone as far as it can at once. -/
theorem flushWhileAppend_fst (s : Session) (series : String) (e : CommitEntry) :
    (s.flushWhileAppend series e).1 =
      ((((s.enqueue 0).pollCalls 0 [.queued]).1.append series e).1.await
        { calls := ((s.enqueue 0).pollCalls 0 [.queued]).2 }).1 := by
  unfold flushWhileAppend
  generalize (s.enqueue 0).pollCalls 0 [.queued] = polled
  obtain ⟨t, calls⟩ := polled
  rfl

theorem atRest_await {calls : List Call} (unattended : s.Unattended) (serving : Serving s 0 calls)
    (few : (turnsOf 0 calls).length < 64) : (s.await { calls }).1.AtRest :=
  (wait_serves unattended serving (.inl (Nat.lt_add_left _ few))).1

namespace AtRest

theorem serving_enqueue (h : s.AtRest) {call : Call} (asks : call.asks = true) :
    Serving (s.enqueue 0) 0 [call] where
  turns := by
    rw [turnsOf_unfinished (isFinished_of_asks asks)]
    exact congrArg (· ++ [Turn.caller 0]) h.turns
  inTurn := .of_asks (by simpa using asks)
  counted := h.counted

theorem flush (h : s.AtRest) : s.flush.1.AtRest :=
  atRest_await ⟨h.flusher, h.leftovers⟩ (h.serving_enqueue rfl) (by decide)

theorem stats (h : s.AtRest) : s.stats.1.AtRest :=
  atRest_await ⟨h.flusher, h.leftovers⟩ (h.serving_enqueue rfl) (by decide)

theorem flushTwice (h : s.AtRest) : s.flushTwice.1.AtRest := by
  have serving : Serving ((s.enqueue 0).enqueue 1) 0 [.queued, .queued] := {
    turns := congrArg (· ++ [Turn.caller 0] ++ [Turn.caller 1]) h.turns
    inTurn := .of_asks (by simp [Call.asks])
    counted := h.counted }
  exact atRest_await ⟨h.flusher, h.leftovers⟩ serving (by decide)

theorem appended (h : s.AtRest) {store : HistoryStore} (grown : s.store.Grown store) :
    (s.appended store).AtRest where
  toUnattended := h.toUnattended.appended store
  turns := (turns_appended s store).trans h.turns
  counted := by
    rw [store_appended]
    exact grown.counted h.counted

theorem append (h : s.AtRest) (series : String) (e : CommitEntry) :
    (s.append series e).1.AtRest := by
  unfold Session.append
  split
  next appended => exact h.appended (.append appended)
  · exact h

theorem count (h : s.AtRest) (change : Counters → Counters) : (s.count change).AtRest :=
  ⟨⟨h.flusher, h.leftovers⟩, h.turns, h.counted⟩

theorem settle {α : Type} (h : s.AtRest) (value : α) : (s.settle value).1.AtRest := by
  unfold Session.settle
  split
  · have flushed := h.flush
    split <;> (next same => rw [same] at flushed; exact flushed)
  · exact h

theorem ingestEntry (h : s.AtRest) (series : String) (e : CommitEntry) :
    (s.ingestEntry series e).1.AtRest := by
  unfold Session.ingestEntry
  split
  next accepted => exact ((h.appended (.accept accepted)).count _).settle _
  · exact h.count fun c => { c with rejected := c.rejected + 1 }

/-- A wait without calls changes the time at most. -/
theorem wait (h : s.AtRest) {w : Waiting} (none : w.calls = []) (fuel : Nat) :
    (s.wait fuel w).1.AtRest := by
  induction fuel generalizing s with
  | zero => exact h
  | succ fuel ih =>
    have later (time : Nat) : AtRest
        { s with surroundings := { s.surroundings with now := time } } :=
      ⟨⟨h.flusher, h.leftovers⟩, h.turns, h.counted⟩
    have same : { w with calls := [] } = w := by rw [← none]
    unfold Session.wait
    simp only [none, pollCalls, same, h.toUnattended.runFlushers]
    split
    · exact h
    split
    · exact ih h
    split
    · exact ih (later _)
    · exact h

theorem await (h : s.AtRest) (w : Waiting) (none : w.calls = []) : (s.await w).1.AtRest :=
  h.wait none s.waitFuel

theorem advance (h : s.AtRest) (millis : Nat) : (s.advance millis).AtRest :=
  h.await { until? := some (s.now + millis) } rfl

theorem shutdown (h : s.AtRest) : s.shutdown.1.AtRest := by
  have told : AtRest { s with site := { s.site with cancelled := true } } :=
    ⟨⟨h.flusher, h.leftovers⟩, h.turns, h.counted⟩
  unfold Session.shutdown
  dsimp only
  exact (told.await { flusherEnd := true } rfl).flush

theorem flushWhileAppend (h : s.AtRest) (series : String) (e : CommitEntry) :
    (s.flushWhileAppend series e).1.AtRest := by
  have queued : Serving (s.enqueue 0) 0 [.queued] := h.serving_enqueue rfl
  have served := pollCalls_served queued
  have unattended : ((s.enqueue 0).pollCalls 0 [.queued]).1.Unattended :=
    ⟨served.flusher.trans h.flusher, served.leftovers.trans h.leftovers⟩
  have few : (turnsOf 0 ((s.enqueue 0).pollCalls 0 [.queued]).2).length < 64 :=
    Nat.lt_of_le_of_lt served.fewer (by decide)
  have serving := served.toServing
  rw [flushWhileAppend_fst]
  generalize (s.enqueue 0).pollCalls 0 [.queued] = polled at unattended serving few
  unfold Session.append
  split
  next appended =>
    exact atRest_await (unattended.appended _) (serving.appended (.append appended)) few
  · exact atRest_await unattended serving few

theorem takeOver (h : s.AtRest) {store : HistoryStore} (grown : s.store.Grown store) (n : Nat) :
    (s.takeOver store n).AtRest := by
  unfold Session.takeOver
  split
  · exact h
  · exact h.appended grown
  · refine (h.appended grown).appended ?_
    rw [store_appended]
    exact .refl _

theorem during (h : s.AtRest) {state : HistoryStore × ImportReport}
    (grown : s.store.Grown state.1) : (s.during state).AtRest :=
  (h.takeOver grown _).count _

theorem importDocument (h : s.AtRest) (d : HistoryDocument) : (s.importDocument d).1.AtRest := by
  rw [importDocument_eq]
  exact (h.during (.importDocument s.ingest s.store d)).settle _

theorem reopen (h : s.AtRest) (unattended : s.store.config.policy ≠ .interval) :
    s.reopen.AtRest := by
  have waited := h.advance s.storage.loading.delay
  have policy := (KeepsMemory.await s
    { until? := some (s.now + s.storage.loading.delay) }).policy
  unfold Session.reopen
  have known : (s.advance s.storage.loading.delay).store.config.policy ≠ .interval :=
    policy ▸ unattended
  generalize s.advance s.storage.loading.delay = u at waited known
  refine ⟨⟨if_neg known, ?_⟩, rfl, Nat.le_refl _⟩
  simp only [waited.flusher, waited.leftovers]

end AtRest

/-! ### All operations -/

/-- Whatever a session that was started on any storage can have gone through: appends, runs and
documents that were taken in with any settings, flushes with or without success, time that passed,
shutdowns, and the store being opened again on what was saved. -/
inductive Reached : Session → Prop where
  | opened {config : StoreConfig} {ingest : IngestConfig} {storage : Storage} {wallClock : Int}
    {s : Session} (opens : start config ingest storage wallClock = .ok s) : Reached s
  | configured {s : Session} (reached : Reached s) (ingest : IngestConfig) :
    Reached { s with ingest }
  | appended {s : Session} (reached : Reached s) (series : String) (e : CommitEntry) :
    Reached (s.append series e).1
  | ingested {s : Session} (reached : Reached s) (series : String) (e : CommitEntry) :
    Reached (s.ingestEntry series e).1
  | tookIn {s : Session} (reached : Reached s) (d : HistoryDocument) :
    Reached (s.importDocument d).1
  | flushed {s : Session} (reached : Reached s) : Reached s.flush.1
  | flushedTwice {s : Session} (reached : Reached s) : Reached s.flushTwice.1
  | flushedWhileAppending {s : Session} (reached : Reached s) (series : String) (e : CommitEntry) :
    Reached (s.flushWhileAppend series e).1
  | looked {s : Session} (reached : Reached s) : Reached s.stats.1
  | asked {s : Session} (reached : Reached s) {α : Type} (kind : QueryKind)
    (answer : HistoryStore → α) : Reached (s.query kind answer).1
  | waited {s : Session} (reached : Reached s) (millis : Nat) : Reached (s.advance millis)
  | ticked {s : Session} (reached : Reached s) (wallClock : Int) :
    Reached { s with surroundings := { s.surroundings with wallClock } }
  | shutDown {s : Session} (reached : Reached s) : Reached s.shutdown.1
  | reopened {s : Session} (reached : Reached s) : Reached s.reopen

/-- The later session has the policy of the earlier one, and its series have come about by
insertions if those of the earlier one have. -/
structure Proceeds (s s' : Session) : Prop where
  policy : s'.store.config.policy = s.store.config.policy
  represented : s.store.Represented → s'.store.Represented

namespace Proceeds

variable {s' s'' : Session}

theorem trans (h : Proceeds s s') (h' : Proceeds s' s'') : Proceeds s s'' :=
  ⟨h'.policy.trans h.policy, fun represented => h'.represented (h.represented represented)⟩

theorem of_store (same : s'.store = s.store) : Proceeds s s' :=
  ⟨by rw [same], by rw [same]; exact id⟩

theorem of_keepsMemory (kept : KeepsMemory s s') : Proceeds s s' := by
  refine ⟨kept.policy, fun represented name series found => represented name series ?_⟩
  rwa [HistoryStore.series_of_memory kept.memory] at found

theorem appended {store : HistoryStore} (grown : s.store.Grown store) :
    Proceeds s (s.appended store) := by
  have same := store_appended s store
  constructor
  · rw [same, grown.config]
  · rw [same]
    exact grown.represented

theorem count (s : Session) (change : Counters → Counters) : Proceeds s (s.count change) :=
  of_store rfl

theorem append (s : Session) (series : String) (e : CommitEntry) :
    Proceeds s (s.append series e).1 := by
  unfold Session.append
  split
  next accepted => exact appended (.append accepted)
  · exact of_store rfl

theorem ingestEntry (s : Session) (series : String) (e : CommitEntry) :
    Proceeds s (s.ingestEntry series e).1 := by
  unfold Session.ingestEntry
  split
  next accepted =>
    exact ((appended (.accept accepted)).trans (count _ _)).trans (of_keepsMemory (.settle _ _))
  · exact of_store rfl

theorem takeOver {store : HistoryStore} (grown : s.store.Grown store) (n : Nat) :
    Proceeds s (s.takeOver store n) := by
  unfold Session.takeOver
  split
  · exact of_store rfl
  · exact appended grown
  · refine (appended grown).trans (appended ?_)
    rw [store_appended]
    exact .refl _

theorem importDocument (s : Session) (d : HistoryDocument) :
    Proceeds s (s.importDocument d).1 := by
  rw [importDocument_eq]
  have taken := takeOver (.importDocument s.ingest s.store d)
    (s.store.importDocument s.ingest d).2.total
  exact (taken.trans (count _ _)).trans (of_keepsMemory (.settle _ _))

theorem await (s : Session) (w : Waiting) : Proceeds s (s.await w).1 :=
  of_keepsMemory (.await s w)

theorem flushWhileAppend (s : Session) (series : String) (e : CommitEntry) :
    Proceeds s (s.flushWhileAppend series e).1 := by
  have polled := of_keepsMemory
    ((KeepsMemory.enqueue s 0).trans (.pollCalls 0 (s.enqueue 0) [.queued]))
  rw [flushWhileAppend_fst]
  exact (polled.trans (append _ series e)).trans (await _ _)

theorem flush (s : Session) : Proceeds s s.flush.1 :=
  of_keepsMemory (.flush s)

theorem flushTwice (s : Session) : Proceeds s s.flushTwice.1 :=
  of_keepsMemory (((KeepsMemory.enqueue s 0).trans (.enqueue _ 1)).trans
    (.await _ { calls := [.queued, .queued] }))

theorem stats (s : Session) : Proceeds s s.stats.1 :=
  of_keepsMemory ((KeepsMemory.enqueue s 0).trans (.await _ { calls := [.looking] }))

theorem advance (s : Session) (millis : Nat) : Proceeds s (s.advance millis) :=
  await s { until? := some (s.now + millis) }

theorem shutdown (s : Session) : Proceeds s s.shutdown.1 := by
  have told : Proceeds s { s with site := { s.site with cancelled := true } } := of_store rfl
  exact (told.trans (await _ { flusherEnd := true })).trans (flush _)

theorem reopen (s : Session) : Proceeds s s.reopen where
  policy := (advance s s.storage.loading.delay).policy
  represented _ := HistoryStore.represented_ofDocument _ _

end Proceeds

/-- The store of a session has come about by insertions, and unless its policy has a background
flusher, nothing is under way. -/
theorem Reached.invariant (reached : s.Reached) :
    s.store.Represented ∧ (s.store.config.policy ≠ .interval → s.AtRest) := by
  have goesOn {s s' : Session} (h : s.store.Represented ∧
      (s.store.config.policy ≠ .interval → s.AtRest)) (proceeds : Proceeds s s')
      (rests : s.store.config.policy ≠ .interval → s.AtRest → s'.AtRest) :
      s'.store.Represented ∧ (s'.store.config.policy ≠ .interval → s'.AtRest) := by
    refine ⟨proceeds.represented h.1, fun unattended => ?_⟩
    rw [proceeds.policy] at unattended
    exact rests unattended (h.2 unattended)
  induction reached with
  | opened opens =>
    unfold start at opens
    split at opens
    · cases opens
    · cases opens
      refine ⟨HistoryStore.represented_ofDocument _ _, fun unattended => ?_⟩
      exact ⟨⟨if_neg unattended, rfl⟩, rfl, Nat.le_refl _⟩
  | configured _ ingest h =>
    exact goesOn h (.of_store rfl) fun _ rest => ⟨⟨rest.flusher, rest.leftovers⟩, rest.turns,
      rest.counted⟩
  | appended _ series e h => exact goesOn h (.append _ series e) fun _ rest => rest.append series e
  | ingested _ series e h =>
    exact goesOn h (.ingestEntry _ series e) fun _ rest => rest.ingestEntry series e
  | tookIn _ d h => exact goesOn h (.importDocument _ d) fun _ rest => rest.importDocument d
  | flushed _ h => exact goesOn h (.flush _) fun _ rest => rest.flush
  | flushedTwice _ h => exact goesOn h (.flushTwice _) fun _ rest => rest.flushTwice
  | flushedWhileAppending _ series e h =>
    exact goesOn h (.flushWhileAppend _ series e) fun _ rest => rest.flushWhileAppend series e
  | looked _ h => exact goesOn h (.stats _) fun _ rest => rest.stats
  | asked _ kind _ h =>
    exact goesOn h (.count _ (·.addQuery kind)) fun _ rest => rest.count (·.addQuery kind)
  | waited _ millis h => exact goesOn h (.advance _ millis) fun _ rest => rest.advance millis
  | ticked _ _ h =>
    exact goesOn h (.of_store rfl) fun _ rest => ⟨⟨rest.flusher, rest.leftovers⟩, rest.turns,
      rest.counted⟩
  | shutDown _ h => exact goesOn h (.shutdown _) fun _ rest => rest.shutdown
  | reopened _ h => exact goesOn h (.reopen _) fun unattended rest => rest.reopen unattended

end Session

end BenchLedger
