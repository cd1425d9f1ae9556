import BenchLedger.History.Store
import BenchLedger.Session.Counters
import BenchLedger.Session.Storage

/-!
A store at work. Flushes take turns in the order in which they were asked for, and each may have to
wait for its save. Under the interval policy a background flusher sleeps until an append wakes it,
lets further appends gather for an interval, then flushes; a failed flush wakes it again. One wake
that arrives while the flusher is busy is kept for it.
-/

namespace BenchLedger

/-- What surrounds a store: the time, its storage and its counters. -/
structure Surroundings where
  -- Milliseconds since the start.
  now : Nat
  -- The time of day written into documents, in milliseconds since 1970.
  wallClock : Int
  storage : Storage
  counters : Counters

/-- Who takes a turn: a caller, by number, or the background flusher. -/
inductive Turn where
  | caller (number : Nat)
  | flusher
  deriving DecidableEq, Repr

/-- How far a call that takes a turn has come. -/
inductive Call where
  -- A flush that waits for its turn.
  | queued
  -- A look at the flush state that waits for its turn.
  | looking
  -- A flush whose save ends at a known time in a known way.
  | saving (pending : HistoryStore.PendingFlush) (ending : Except PersistenceError Unit)
      (finish : Nat)
  | finished (result : Except Failure FlushOutcome)

inductive Flusher where
  -- There is none.
  | absent
  -- About to look for a wake.
  | starting
  -- Waiting for a wake.
  | waiting
  -- Woken, but not running yet.
  | woken
  -- Letting appends gather until a time.
  | sleeping (finish : Nat)
  | flushing (call : Call)
  | stopped

/-- A store with its turns and its background flusher. -/
structure Site where
  store : HistoryStore
  -- Those who have or wait for the turn, the one who has it first.
  turns : List Turn
  flusher : Flusher
  -- Whether a wake is kept for the flusher.
  wake : Bool
  -- Whether the flusher has been told to stop.
  cancelled : Bool

namespace Site

/-- A site around a store that was just opened. -/
def ofStore (store : HistoryStore) : Site where
  store
  turns := []
  flusher := if store.config.policy = .interval then .starting else .absent
  wake := false
  cancelled := false

/-- Wakes the flusher, now or when it looks next. -/
def notify (t : Site) : Site :=
  match t.flusher with
  | .waiting => { t with flusher := .woken }
  | _ => { t with wake := true }

/-- Takes over a changed store after an append. -/
def appended (t : Site) (store : HistoryStore) : Site :=
  let t := { t with store }
  if store.config.policy = .interval then t.notify else t

def enqueue (t : Site) (turn : Turn) : Site :=
  { t with turns := t.turns ++ [turn] }

def release (t : Site) : Site :=
  { t with turns := t.turns.drop 1 }

def hasTurn (t : Site) (turn : Turn) : Bool :=
  t.turns.head? == some turn

/-- Ends the save of a flush and gives the turn to the next. -/
def finishSave (w : Surroundings) (t : Site) (pending : HistoryStore.PendingFlush)
    (ending : Except PersistenceError Unit) : Surroundings × Site × Call :=
  let w := match ending with
    | .ok () => { w with storage := w.storage.save pending.document }
    | .error _ =>
      { w with counters := { w.counters with flushFailures := w.counters.flushFailures + 1 } }
  let (store, result) := t.store.endFlush pending w.wallClock ending
  (w, { t with store }.release, .finished result)

/-- Takes a call as far as it can go at the present time. -/
def poll (w : Surroundings) (t : Site) (turn : Turn) (call : Call) : Surroundings × Site × Call :=
  match call with
  | .queued =>
    if t.hasTurn turn then
      match t.store.beginFlush w.wallClock with
      | none => (w, t.release, .finished (.ok .clean))
      | some pending =>
        let (plan, storage) := w.storage.nextPlan
        let w := { w with storage }
        let (delay, ending) := plan.ending t.store.config.timeout
        if delay = 0 then finishSave w t pending ending
        else (w, t, .saving pending ending (w.now + delay))
    else (w, t, call)
  | .looking => if t.hasTurn turn then (w, t.release, .finished (.ok .clean)) else (w, t, call)
  | .saving pending ending finish =>
    if finish ≤ w.now then finishSave w t pending ending else (w, t, call)
  | .finished _ => (w, t, call)

/-- Takes the background flusher one step further, if it can go on at the present time. -/
def stepFlusher (w : Surroundings) (t : Site) : Option (Surroundings × Site) :=
  let sleep (t : Site) : Site :=
    { t with flusher := .sleeping (w.now + t.store.config.interval) }
  match t.flusher with
  | .absent | .stopped => none
  | .starting =>
    if t.cancelled then some (w, { t with flusher := .stopped })
    else if t.wake then some (w, sleep { t with wake := false })
    else some (w, { t with flusher := .waiting })
  | .waiting => if t.cancelled then some (w, { t with flusher := .stopped }) else none
  | .woken => if t.cancelled then some (w, { t with flusher := .stopped }) else some (w, sleep t)
  | .sleeping finish =>
    if t.cancelled then some (w, { t with flusher := .stopped })
    else if finish ≤ w.now then
      if t.store.isDirty then
        some (w, { t.enqueue .flusher with flusher := .flushing .queued })
      else some (w, { t with flusher := .starting })
    else none
  | .flushing call =>
    let ready := match call with
      | .queued | .looking => t.hasTurn .flusher
      | .saving _ _ finish => finish ≤ w.now
      | .finished _ => true
    if ready then
      let (w, t, call) := t.poll w .flusher call
      match call with
      | .finished (.ok _) => some (w, { t with flusher := .starting })
      | .finished (.error _) => some (w, { t with flusher := .starting, wake := true })
      | _ => some (w, { t with flusher := .flushing call })
    else none

/-- Lets the background flusher run until it has to wait. -/
def runFlusher : Nat → Surroundings → Site → Surroundings × Site
  | 0, w, t => (w, t)
  | fuel + 1, w, t =>
    match t.stepFlusher w with
    | some (w, t) => runFlusher fuel w t
    | none => (w, t)

/-- The time for which the background flusher waits. -/
def flusherTimer? (t : Site) : Option Nat :=
  match t.flusher with
  | .sleeping finish => some finish
  | .flushing (.saving _ _ finish) => some finish
  | _ => none

end Site

end BenchLedger
