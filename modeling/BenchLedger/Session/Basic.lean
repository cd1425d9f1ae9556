import BenchLedger.Ingest.Ingestor
import BenchLedger.Query.Engine
import BenchLedger.Session.Site

/-!
Sessions: one caller after another works on a store, and time passes only while a caller waits. It
then jumps from one timer to the next, and the background flusher runs in between. A session can
open the store again on the same storage; a flush that the old flusher has begun goes on then.
-/

namespace BenchLedger

structure Session where
  surroundings : Surroundings
  ingest : IngestConfig
  site : Site
  -- Earlier stores whose flushers have not finished their last flush.
  leftovers : List Site

structure Waiting where
  -- A time to come.
  until? : Option Nat := none
  -- Calls that have taken or wait for turns.
  calls : List Call := []
  -- The end of the background flusher.
  flusherEnd : Bool := false

namespace Session

def start (config : StoreConfig) (ingest : IngestConfig) (storage : Storage) (wallClock : Int) :
    Except PersistenceError Session :=
  match storage.loading.fault with
  | some fault => .error fault
  | none =>
    .ok {
      surroundings := ⟨storage.loading.delay, wallClock, storage, .zero⟩
      ingest
      site := .ofStore (.ofDocument config storage.document)
      leftovers := [] }

def store (s : Session) : HistoryStore :=
  s.site.store

def now (s : Session) : Nat :=
  s.surroundings.now

def wallClock (s : Session) : Int :=
  s.surroundings.wallClock

def storage (s : Session) : Storage :=
  s.surroundings.storage

def counters (s : Session) : Counters :=
  s.surroundings.counters

def count (s : Session) (change : Counters → Counters) : Session :=
  { s with surroundings := { s.surroundings with counters := change s.counters } }

/-! ### Waiting -/

/-- Takes the caller's calls as far as they can go, counting from `number`. -/
def pollCalls (number : Nat) (s : Session) : List Call → Session × List Call
  | [] => (s, [])
  | call :: calls =>
    let (surroundings, site, call) := s.site.poll s.surroundings (.caller number) call
    let (s, calls) := pollCalls (number + 1) { s with surroundings, site } calls
    (s, call :: calls)

def isFinished : Call → Bool
  | .finished _ => true
  | _ => false

def flusherEnded (s : Session) : Bool :=
  match s.site.flusher with
  | .absent | .stopped => true
  | _ => false

def isOver (s : Session) (w : Waiting) : Bool :=
  (w.until?.all (· ≤ s.now)) && w.calls.all isFinished && (!w.flusherEnd || s.flusherEnded)

/-- How many steps a flusher may take before it has to wait: some for each plan that may fail. -/
def flusherFuel (s : Session) : Nat :=
  8 * s.storage.saving.length + 16

/-- Lets all background flushers run, those of earlier stores first: they were ready first. -/
def runFlushers (s : Session) : Session :=
  let (w, leftovers) := s.leftovers.foldl
    (fun state t =>
      let (w, t) := t.runFlusher s.flusherFuel state.1
      (w, state.2 ++ [t]))
    (s.surroundings, [])
  let (w, site) := s.site.runFlusher s.flusherFuel w
  { s with surroundings := w, site, leftovers }

/-- Whether something can go on before time passes: a call has got its turn. -/
def isReady (s : Session) (w : Waiting) : Bool :=
  match s.site.turns.head? with
  | some (.caller number) => match w.calls[number]? with
    | some .queued | some .looking => true
    | _ => false
  | some .flusher => match s.site.flusher with
    | .flushing .queued => true
    | _ => false
  | none => false

def callTimer? : Call → Option Nat
  | .saving _ _ finish => some finish
  | _ => none

/-- The next time for which anyone waits. -/
def nextTimer? (s : Session) (w : Waiting) : Option Nat :=
  (w.until?.toList ++ w.calls.filterMap callTimer? ++
    (s.site :: s.leftovers).filterMap Site.flusherTimer?).min?

/-- Lets the caller wait. The fuel bounds the number of timers that go off. -/
def wait : Nat → Session → Waiting → Session × Waiting
  | 0, s, w => (s, w)
  | fuel + 1, s, w =>
    let (s, calls) := s.pollCalls 0 w.calls
    let w := { w with calls }
    if s.isOver w then (s, w)
    else
      let s := s.runFlushers
      if s.isReady w || s.isOver w then wait fuel s w
      else match s.nextTimer? w with
        | some time =>
          wait fuel { s with surroundings := { s.surroundings with now := max s.now time } } w
        | none => (s, w)

/-- Enough fuel for every plan to take several turns. -/
def waitFuel (s : Session) : Nat :=
  16 * s.storage.saving.length + 64

/-- Waits, and gives the results of the calls. -/
def await (s : Session) (w : Waiting) : Session × List (Except Failure FlushOutcome) :=
  let (s, w) := s.wait s.waitFuel w
  (s, w.calls.filterMap fun
    | .finished r => some r
    | _ => none)

def advance (s : Session) (millis : Nat) : Session :=
  (s.await { until? := some (s.now + millis) }).1

/-! ### Flushing -/

def enqueue (s : Session) (number : Nat) : Session :=
  { s with site := s.site.enqueue (.caller number) }

def flush (s : Session) : Session × Except Failure FlushOutcome :=
  let (s, results) := (s.enqueue 0).await { calls := [.queued] }
  (s, results.headD (.ok .clean))

/-- Two flushes that are asked for one after the other and awaited together. -/
def flushTwice (s : Session) : Session × List (Except Failure FlushOutcome) :=
  ((s.enqueue 0).enqueue 1).await { calls := [.queued, .queued] }

/-- Statistics of the store. They wait for a flush that is under way. -/
def stats (s : Session) : Session × StoreStats :=
  let (s, _) := (s.enqueue 0).await { calls := [.looking] }
  (s, s.store.stats)

/-- Stops the background flusher and saves what has changed. -/
def shutdown (s : Session) : Session × Except Failure FlushOutcome :=
  let s := { s with site := { s.site with cancelled := true } }
  let (s, _) := s.await { flusherEnd := true }
  s.flush

/-- Opens the store again on what its storage holds. What was not flushed is lost. -/
def reopen (s : Session) : Session :=
  let s := s.advance s.storage.loading.delay
  let leftovers := match s.site.flusher with
    | .flushing _ => s.leftovers ++ [{ s.site with cancelled := true }]
    | _ => s.leftovers
  { s with site := .ofStore (.ofDocument s.store.config s.storage.document), leftovers }

/-! ### Appending -/

/-- Takes a changed store over, and wakes the flusher if the policy has one. -/
def appended (s : Session) (store : HistoryStore) : Session :=
  { s with site := s.site.appended store }

def append (s : Session) (series : String) (e : CommitEntry) :
    Session × Except Failure Position :=
  match s.store.append series e with
  | .ok (store, position) => (s.appended store, .ok position)
  | .error failure => (s, .error failure)

/-- A flush and an append that are started in this order and awaited together. -/
def flushWhileAppend (s : Session) (series : String) (e : CommitEntry) :
    Session × Except Failure FlushOutcome × Except Failure Position :=
  let (s, calls) := (s.enqueue 0).pollCalls 0 [.queued]
  let (s, position) := s.append series e
  let (s, results) := s.await { calls }
  (s, results.headD (.ok .clean), position)

/-- Flushes if the policy asks for it after an ingestion. -/
def settle {α : Type} (s : Session) (value : α) : Session × Except Failure α :=
  if s.store.config.policy = .onAppend then
    match s.flush with
    | (s, .ok _) => (s, .ok value)
    | (s, .error failure) => (s, .error failure)
  else (s, .ok value)

/-- Takes one entry in. The append stays even if the flush after it fails. -/
def ingestEntry (s : Session) (series : String) (e : CommitEntry) :
    Session × Except Failure Position :=
  match s.store.accept s.ingest series e with
  | .ok (store, position) =>
    ((s.appended store).count fun c => { c with ingested := c.ingested + 1 }).settle position
  | .error failure => (s.count fun c => { c with rejected := c.rejected + 1 }, .error failure)

/-- Takes a document in, and flushes once at the end if the policy asks for it. -/
def importDocument (s : Session) (d : HistoryDocument) : Session × Except Failure ImportReport :=
  let (store, report) := s.store.importDocument s.ingest d
  let s := if report.total = 0 then s else s.appended store
  -- A second append finds the flusher awake already, and its wake is kept.
  let s := if 1 < report.total then s.appended store else s
  (s.count fun c => { c with
    ingested := c.ingested + report.total
    rejected := c.rejected + report.rejected.length }).settle report

/-- One line about the store: where it saves, how many series it has, and when it flushes. -/
def description (s : Session) : String :=
  "HistoryStore \x7b backend: \"memory\", series: " ++
    String.ofList (Text.digitsOf s.store.series.size) ++ ", flush_policy: " ++
    s.store.config.policy.title ++ " \x7d"

/-! ### Queries -/

def query {α : Type} (s : Session) (kind : QueryKind) (answer : HistoryStore → α) : Session × α :=
  (s.count (·.addQuery kind), answer s.store)

end Session

end BenchLedger
