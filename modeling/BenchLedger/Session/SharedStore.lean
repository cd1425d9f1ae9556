import BenchLedger.History.Store

/-!
A store that many tasks share. Appends, flushes and the background flusher take steps in any order,
and between two steps of one of them all others may take theirs. An append that has its series
still waits for the turn to write to it. A flush takes the flush lock, reads the generation,
collects the series one by one, saves, and records how the save ended; appends never wait for it.
-/

namespace BenchLedger

namespace HistoryStore

/-- The store in which a series is there, empty if it is new. -/
def ensureSeries (s : HistoryStore) (series : String) : HistoryStore :=
  if s.series.contains series then s
  else { s with series := s.series.insert series .empty }

/-- The entries that a reader of a series sees; none if there is no such series. -/
def viewOf (s : HistoryStore) (series : String) : List CommitEntry :=
  ((s.series.get? series).getD .empty).view

/-- Writes an entry to its series, and does not count it yet. -/
def write (s : HistoryStore) (series : String) (e : CommitEntry) :
    HistoryStore × Series.Placement :=
  let (updated, placement) := ((s.series.get? series).getD .empty).upsert e
  ({ s with series := s.series.insert series updated }, placement)

/-- Counts an append. -/
def count (s : HistoryStore) : HistoryStore :=
  { s with generation := s.generation + 1 }

/-- The document of a flush that has not collected any series yet. -/
def blankDocument (s : HistoryStore) (now : Int) : HistoryDocument :=
  ⟨some now, s.repoUrl, .empty⟩

end HistoryStore

/-- Collects one series into a document. -/
def HistoryDocument.collect (d : HistoryDocument) (name : String) (view : List CommitEntry) :
    HistoryDocument :=
  { d with entries := d.entries.insert name view }

/-! ### Tasks -/

/-- What a call of append is asked for. -/
structure AppendRequest where
  series : String
  entry : CommitEntry

/-- How far a call of append has come. -/
inductive AppendStage where
  -- It has not been made.
  | idle
  | refused (rejection : Rejection)
  -- The series is there, and the call waits for the turn to write to it.
  | waiting
  -- The entry is written and not counted.
  | written (position : Position)
  | returned (position : Position)

def AppendStage.inProgress : AppendStage → Bool
  | .waiting | .written _ => true
  | .idle | .refused _ | .returned _ => false

/-- The position that a call has returned. -/
def AppendStage.result? : AppendStage → Option Position
  | .returned position => some position
  | .idle | .refused _ | .waiting | .written _ => none

/-- A flush: one that a caller asks for, or one that the background flusher makes in a round. -/
inductive FlushCall where
  | explicit (number : Nat)
  | round (number : Nat)
  deriving DecidableEq, Repr

/-- How far a flush has come. -/
inductive FlushStage where
  -- It has not been asked for.
  | idle
  -- It waits for the flush lock.
  | queued
  | locked
  -- It has read the generation.
  | listing (generation : Nat)
  -- It has still to collect the series with the names `left`.
  | collecting (left : List String) (pending : HistoryStore.PendingFlush)
  | saving (pending : HistoryStore.PendingFlush)
  | recording (pending : HistoryStore.PendingFlush) (ending : Except PersistenceError Unit)
  -- It has returned; the document is the one that it tried to save, if it did.
  | finished (document : Option HistoryDocument) (result : Except Failure FlushOutcome)

/-- What a flush has returned that did not fail. -/
def FlushStage.outcome? : FlushStage → Option FlushOutcome
  | .finished _ (.ok outcome) => some outcome
  | _ => none

/-- What the background flusher is doing. -/
inductive FlusherStage where
  | absent
  -- It waits until it is woken.
  | waiting
  -- It lets appends gather for an interval.
  | sleeping
  | flushing (round : Nat)
  | stopped
  deriving DecidableEq, Repr

/-- One step of one task. -/
inductive SharedEvent where
  -- The append checks its entry and sees to it that the series is there.
  | appendBegins (call : Nat)
  | appendWrites (call : Nat)
  -- The append counts its entry, wakes the flusher and returns.
  | appendReturns (call : Nat)
  | flushBegins (number : Nat)
  | flushLocks (call : FlushCall)
  -- The flush reads the generation, and returns if there is nothing to do.
  | flushReads (call : FlushCall)
  -- The flush lists the series, in any order.
  | flushLists (call : FlushCall) (now : Int) (order : List String)
  | flushCollects (call : FlushCall)
  | flushSends (call : FlushCall)
  | saveEnds (call : FlushCall) (ending : Except PersistenceError Unit)
  -- The flush records how its save ended, gives the lock back and returns.
  | flushRecords (call : FlushCall) (now : Int)
  | flusherWakes
  -- The interval is over; the flusher flushes if appends wait for it.
  | flusherLooks
  -- The flush of the round has returned; one that failed wakes the flusher again.
  | flusherRests
  | shutdownBegins
  | flusherStops

/-! ### Shared stores -/

structure SharedStore where
  store : HistoryStore
  -- The documents of all saves that succeeded, the latest one last.
  saved : List HistoryDocument
  -- The calls of append, by number.
  appends : Nat → AppendStage
  flushes : FlushCall → FlushStage
  -- The flush that has the flush lock.
  lock : Option FlushCall
  flusher : FlusherStage
  -- How many flushes the background flusher has begun.
  rounds : Nat
  -- Whether a wake is kept for the flusher.
  wake : Bool
  -- Whether the flusher has been told to stop.
  cancelled : Bool

namespace SharedStore

/-- A store that was just opened on what was loaded, if anything. -/
def ofDocument (config : StoreConfig) (loaded : Option HistoryDocument) : SharedStore where
  store := .ofDocument config loaded
  saved := []
  appends := fun _ => .idle
  flushes := fun _ => .idle
  lock := none
  flusher := if config.policy = .interval then .waiting else .absent
  rounds := 0
  wake := false
  cancelled := false

def setAppend (s : SharedStore) (call : Nat) (stage : AppendStage) : SharedStore :=
  { s with appends := fun other => if other = call then stage else s.appends other }

def setFlush (s : SharedStore) (call : FlushCall) (stage : FlushStage) : SharedStore :=
  { s with flushes := fun other => if other = call then stage else s.flushes other }

/-- Keeps a wake for the flusher if the policy has one. -/
def notify (s : SharedStore) : SharedStore :=
  { s with wake := s.wake || s.store.config.policy = .interval }

/-- Takes a document that was saved into the list, if the save succeeded. -/
def saves (s : SharedStore) (d : HistoryDocument) : Except PersistenceError Unit → SharedStore
  | .ok () => { s with saved := s.saved ++ [d] }
  | .error _ => s

variable (requests : Nat → AppendRequest)

/-- The store after a step; none if the step cannot be taken. -/
def step? (s : SharedStore) : SharedEvent → Option SharedStore
  | .appendBegins call => match s.appends call with
    | .idle => match HistoryStore.checkAppend (requests call).series (requests call).entry with
      | .error rejection => some (s.setAppend call (.refused rejection))
      | .ok () =>
        let store := s.store.ensureSeries (requests call).series
        some ({ s with store }.setAppend call .waiting)
    | _ => none
  | .appendWrites call => match s.appends call with
    | .waiting =>
      let (store, placement) := s.store.write (requests call).series (requests call).entry
      some ({ s with store }.setAppend call (.written placement.position))
    | _ => none
  | .appendReturns call => match s.appends call with
    | .written position =>
      some ({ s with store := s.store.count }.notify.setAppend call (.returned position))
    | _ => none
  | .flushBegins number => match s.flushes (.explicit number) with
    | .idle => some (s.setFlush (.explicit number) .queued)
    | _ => none
  | .flushLocks call => match s.flushes call, s.lock with
    | .queued, none => some ({ s with lock := some call }.setFlush call .locked)
    | _, _ => none
  | .flushReads call => match s.flushes call with
    | .locked =>
      if s.store.isSettled then
        some ({ s with lock := none }.setFlush call (.finished none (.ok .clean)))
      else some (s.setFlush call (.listing s.store.generation))
    | _ => none
  | .flushLists call now order => match s.flushes call with
    | .listing generation =>
      if order.isPerm s.store.seriesNames then
        some (s.setFlush call (.collecting order ⟨generation, s.store.blankDocument now⟩))
      else none
    | _ => none
  | .flushCollects call => match s.flushes call with
    | .collecting (name :: left) pending =>
      let document := pending.document.collect name (s.store.viewOf name)
      some (s.setFlush call (.collecting left { pending with document }))
    | _ => none
  | .flushSends call => match s.flushes call with
    | .collecting [] pending => some (s.setFlush call (.saving pending))
    | _ => none
  | .saveEnds call ending => match s.flushes call with
    | .saving pending =>
      some ((s.saves pending.document ending).setFlush call (.recording pending ending))
    | _ => none
  | .flushRecords call now => match s.flushes call with
    | .recording pending ending =>
      let (store, result) := s.store.endFlush pending now ending
      some ({ s with store, lock := none }.setFlush call
        (.finished (some pending.document) result))
    | _ => none
  | .flusherWakes => match s.flusher with
    | .waiting => if s.wake then some { s with flusher := .sleeping, wake := false } else none
    | _ => none
  | .flusherLooks => match s.flusher with
    | .sleeping =>
      if s.store.isDirty then
        some ({ s with flusher := .flushing s.rounds, rounds := s.rounds + 1 }.setFlush
          (.round s.rounds) .queued)
      else some { s with flusher := .waiting }
    | _ => none
  | .flusherRests => match s.flusher with
    | .flushing round => match s.flushes (.round round) with
      | .finished _ (.ok _) => some { s with flusher := .waiting }
      | .finished _ (.error _) => some { s with flusher := .waiting, wake := true }
      | _ => none
    | _ => none
  | .shutdownBegins => some { s with cancelled := true }
  | .flusherStops => match s.flusher with
    | .waiting | .sleeping => if s.cancelled then some { s with flusher := .stopped } else none
    | _ => none

/-- The store after several steps in turn; none if one of them cannot be taken. -/
def run? (s : SharedStore) (events : List SharedEvent) : Option SharedStore :=
  events.foldlM (step? requests) s

end SharedStore

end BenchLedger
