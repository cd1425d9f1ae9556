import BenchLedger.Proofs.SiteSteps
import BenchLedger.Proofs.ValidStores
import BenchLedger.Session.Basic

/-!
Sessions that fill a store through the ingestor, and filled stores in general. Main statement:
`HistoryStore.passes_of_filled`: whatever was taken in, flushed and opened again, on file or in
memory, every entry of the store and of what was saved passes the ingestor's checks.
-/

namespace BenchLedger

/-! ### Storage, flushes and flushers -/

/-- The document that was saved has valid entries. -/
def Surroundings.Valid (w : Surroundings) : Prop :=
  ∀ d, w.storage.document = some d → d.Valid

/-- A flush that waits for its save writes valid entries. -/
def Call.Valid : Call → Prop
  | .saving p _ _ => p.document.Valid
  | _ => True

def Flusher.Valid : Flusher → Prop
  | .flushing call => call.Valid
  | _ => True

structure Site.Valid (t : Site) : Prop where
  store : t.store.Valid
  flusher : t.flusher.Valid

namespace Site

variable {w w' : Surroundings} {t t' : Site}

theorem valid_ofStore {s : HistoryStore} (valid : s.Valid) : (ofStore s).Valid := by
  refine ⟨valid, ?_⟩
  unfold ofStore
  split <;> trivial

theorem Valid.appended (valid : t.Valid) {s : HistoryStore} (changed : s.Valid) :
    (t.appended s).Valid := by
  have kept : Site.Valid { t with store := s } := ⟨changed, valid.flusher⟩
  unfold Site.appended
  dsimp only
  split
  · unfold notify
    split
    · exact ⟨changed, trivial⟩
    · exact ⟨changed, valid.flusher⟩
  · exact kept

/-- The end of a save, and each step of a call, leaves everything valid. -/
theorem Valid.finishSave (valid : t.Valid) (here : w.Valid) {p : HistoryStore.PendingFlush}
    (document : p.document.Valid) (ending : Except PersistenceError Unit) :
    (t.finishSave w p ending).1.Valid ∧ (t.finishSave w p ending).2.1.Valid ∧
      (t.finishSave w p ending).2.2.Valid := by
  refine ⟨?_, ⟨valid.store.endFlush p _ ending, valid.flusher⟩, trivial⟩
  cases ending with
  | ok done =>
    intro d saved
    cases saved
    exact document
  | error error => exact here

private theorem valid_nextPlan (here : w.Valid) :
    Surroundings.Valid { w with storage := w.storage.nextPlan.2 } := by
  unfold Storage.nextPlan
  split <;> exact here

theorem Valid.poll (valid : t.Valid) (here : w.Valid) {call : Call} (flush : call.Valid)
    (turn : Turn) :
    (t.poll w turn call).1.Valid ∧ (t.poll w turn call).2.1.Valid ∧
      (t.poll w turn call).2.2.Valid := by
  have released : t.release.Valid := ⟨valid.store, valid.flusher⟩
  cases call with
  | queued =>
    unfold Site.poll
    dsimp only
    split
    · split
      · exact ⟨here, released, trivial⟩
      next p begun =>
        have document : p.document.Valid := valid.store.beginFlush begun
        split
        · exact valid.finishSave (valid_nextPlan here) document _
        · exact ⟨valid_nextPlan here, valid, document⟩
    · exact ⟨here, valid, trivial⟩
  | looking =>
    unfold Site.poll
    dsimp only
    split
    · exact ⟨here, released, trivial⟩
    · exact ⟨here, valid, trivial⟩
  | saving p ending finish =>
    unfold Site.poll
    dsimp only
    split
    · exact valid.finishSave here flush ending
    · exact ⟨here, valid, flush⟩
  | finished result => exact ⟨here, valid, trivial⟩

theorem Valid.stepFlusher (valid : t.Valid) (here : w.Valid)
    (h : t.stepFlusher w = some (w', t')) : w'.Valid ∧ t'.Valid := by
  -- Only a flush can change more than where the flusher stands.
  have ofPoll {call next : Call} {v : Surroundings} {u : Site}
      (flushing : t.flusher = .flushing call) (polled : t.poll w .flusher call = (v, u, next)) :
      v.Valid ∧ u.store.Valid ∧ next.Valid := by
    have flush : call.Valid := by
      have standing := valid.flusher
      rwa [flushing] at standing
    have stepped := valid.poll here flush .flusher
    rw [polled] at stepped
    exact ⟨stepped.1, stepped.2.1.store, stepped.2.2⟩
  cases flusherStep_of_stepFlusher h with
  | stops => exact ⟨here, valid.store, trivial⟩
  | hears => exact ⟨here, valid.store, trivial⟩
  | waits => exact ⟨here, valid.store, trivial⟩
  | sleeps => exact ⟨here, valid.store, trivial⟩
  | flushes => exact ⟨here, valid.store, trivial⟩
  | rests => exact ⟨here, valid.store, trivial⟩
  | goesOn flushing polled =>
    obtain ⟨here', store, next⟩ := ofPoll flushing polled
    exact ⟨here', store, next⟩
  | succeeds flushing polled =>
    obtain ⟨here', store, _⟩ := ofPoll flushing polled
    exact ⟨here', store, trivial⟩
  | fails flushing polled =>
    obtain ⟨here', store, _⟩ := ofPoll flushing polled
    exact ⟨here', store, trivial⟩

theorem Valid.runFlusher (valid : t.Valid) (here : w.Valid) (fuel : Nat) :
    (t.runFlusher fuel w).1.Valid ∧ (t.runFlusher fuel w).2.Valid := by
  induction fuel generalizing w t with
  | zero => exact ⟨here, valid⟩
  | succ fuel ih =>
    unfold Site.runFlusher
    split
    next w' t' stepped =>
      obtain ⟨here', valid'⟩ := valid.stepFlusher here stepped
      exact ih valid' here'
    · exact ⟨here, valid⟩

end Site

/-! ### Sessions -/

namespace Session

/-- All entries are valid: in memory, in what was saved and in the flushes that are under way. -/
structure Valid (s : Session) : Prop where
  surroundings : s.surroundings.Valid
  site : s.site.Valid
  leftovers : ∀ t ∈ s.leftovers, t.Valid

variable {s : Session}

theorem Valid.pollCalls (valid : s.Valid) {calls : List Call} (flushes : ∀ c ∈ calls, c.Valid)
    (number : Nat) :
    (s.pollCalls number calls).1.Valid ∧ ∀ c ∈ (s.pollCalls number calls).2, c.Valid := by
  induction calls generalizing s number with
  | nil => exact ⟨valid, flushes⟩
  | cons call calls ih =>
    obtain ⟨first, others⟩ := List.forall_mem_cons.1 flushes
    obtain ⟨here, site, next⟩ := valid.site.poll valid.surroundings first (.caller number)
    obtain ⟨after, rest⟩ := ih (s := { s with
      surroundings := (s.site.poll s.surroundings (.caller number) call).1
      site := (s.site.poll s.surroundings (.caller number) call).2.1 })
      ⟨here, site, valid.leftovers⟩ others (number + 1)
    exact ⟨after, List.forall_mem_cons.2 ⟨next, rest⟩⟩

theorem Valid.runFlushers (valid : s.Valid) : s.runFlushers.Valid := by
  let Kept (state : Surroundings × List Site) : Prop := state.1.Valid ∧ ∀ t ∈ state.2, t.Valid
  have earlier : Kept (s.leftovers.foldl (fun state t =>
      ((t.runFlusher s.flusherFuel state.1).1,
        state.2 ++ [(t.runFlusher s.flusherFuel state.1).2])) (s.surroundings, [])) := by
    apply List.foldlRecOn (motive := Kept) s.leftovers _ ⟨valid.surroundings, by simp⟩
    rintro state ⟨here, before⟩ t member
    obtain ⟨here', after⟩ := (valid.leftovers t member).runFlusher here s.flusherFuel
    refine ⟨here', fun t' listed => ?_⟩
    rcases List.mem_append.1 listed with old | new
    · exact before t' old
    · rw [List.mem_singleton.1 new]
      exact after
  obtain ⟨here, leftovers⟩ := earlier
  obtain ⟨here', site⟩ := valid.site.runFlusher here s.flusherFuel
  exact ⟨here', site, leftovers⟩

theorem Valid.wait (valid : s.Valid) (w : Waiting) (flushes : ∀ c ∈ w.calls, c.Valid)
    (fuel : Nat) : (s.wait fuel w).1.Valid := by
  induction fuel generalizing s w with
  | zero => exact valid
  | succ fuel ih =>
    obtain ⟨polled, calls⟩ := valid.pollCalls flushes 0
    have ran := polled.runFlushers
    unfold Session.wait
    dsimp only
    split
    · exact polled
    split
    · exact ih ran _ calls
    split
    · refine ih ?_ _ calls
      exact ⟨ran.surroundings, ran.site, ran.leftovers⟩
    · exact ran

theorem Valid.await (valid : s.Valid) (w : Waiting) (flushes : ∀ c ∈ w.calls, c.Valid) :
    (s.await w).1.Valid :=
  valid.wait w flushes s.waitFuel

theorem Valid.advance (valid : s.Valid) (millis : Nat) : (s.advance millis).Valid :=
  valid.await _ (by simp)

theorem Valid.enqueue (valid : s.Valid) (number : Nat) : (s.enqueue number).Valid :=
  ⟨valid.surroundings, ⟨valid.site.store, valid.site.flusher⟩, valid.leftovers⟩

theorem Valid.flush (valid : s.Valid) : s.flush.1.Valid :=
  (valid.enqueue 0).await { calls := [.queued] } (by simp [Call.Valid])

theorem Valid.flushTwice (valid : s.Valid) : s.flushTwice.1.Valid :=
  ((valid.enqueue 0).enqueue 1).await { calls := [.queued, .queued] } (by simp [Call.Valid])

theorem Valid.stats (valid : s.Valid) : s.stats.1.Valid :=
  (valid.enqueue 0).await { calls := [.looking] } (by simp [Call.Valid])

theorem Valid.shutdown (valid : s.Valid) : s.shutdown.1.Valid := by
  have told : Session.Valid { s with site := { s.site with cancelled := true } } :=
    ⟨valid.surroundings, ⟨valid.site.store, valid.site.flusher⟩, valid.leftovers⟩
  unfold Session.shutdown
  dsimp only
  exact (told.await { flusherEnd := true } (by simp)).flush

/-- What is opened again is what was saved. -/
theorem Valid.reopen (valid : s.Valid) : s.reopen.Valid := by
  have waited := valid.advance s.storage.loading.delay
  unfold Session.reopen
  generalize s.advance s.storage.loading.delay = u at waited
  have saved : HistoryStore.Valid (.ofDocument u.store.config u.storage.document) :=
    HistoryStore.allEntries_ofDocument _ fun d stored => waited.surroundings d stored
  refine ⟨waited.surroundings, Site.valid_ofStore saved, ?_⟩
  dsimp only
  split
  · intro t listed
    rcases List.mem_append.1 listed with old | new
    · exact waited.leftovers t old
    · rw [List.mem_singleton.1 new]
      exact ⟨waited.site.store, waited.site.flusher⟩
  · exact waited.leftovers

theorem Valid.appended (valid : s.Valid) {store : HistoryStore} (changed : store.Valid) :
    (s.appended store).Valid :=
  ⟨valid.surroundings, valid.site.appended changed, valid.leftovers⟩

theorem Valid.count (valid : s.Valid) (change : Counters → Counters) : (s.count change).Valid :=
  ⟨valid.surroundings, valid.site, valid.leftovers⟩

theorem Valid.settle {α : Type} (valid : s.Valid) (value : α) : (s.settle value).1.Valid := by
  unfold Session.settle
  split
  · have flushed := valid.flush
    split <;> (next same => rw [same] at flushed; exact flushed)
  · exact valid

theorem Valid.ingestEntry (valid : s.Valid) (series : String) (e : CommitEntry) :
    (s.ingestEntry series e).1.Valid := by
  unfold Session.ingestEntry
  split
  next accepted =>
    exact ((valid.appended (valid.site.store.accept accepted)).count _).settle _
  · exact valid.count fun c => { c with rejected := c.rejected + 1 }

theorem Valid.importDocument (valid : s.Valid) (d : HistoryDocument) :
    (s.importDocument d).1.Valid := by
  have store := valid.site.store.importDocument s.ingest d
  -- The store is taken over not at all, once or twice, by the number of entries.
  have appended {u : Session} (valid : u.Valid) (skipped : Prop) [Decidable skipped] :
      Session.Valid (if skipped then u else u.appended (s.store.importDocument s.ingest d).1) := by
    split
    · exact valid
    · exact valid.appended store
  unfold Session.importDocument
  dsimp only
  refine Valid.settle (Valid.count ?_ _) _
  split
  · exact (appended valid _).appended store
  · exact appended valid _

/-- A session that was started without series and has since taken in entries and documents through
the ingestor, whose settings may change, has flushed with or without success, let time pass, shut
down, and opened the store again on what was saved. -/
inductive Filled : Session → Prop where
  | opened {config : StoreConfig} {ingest : IngestConfig} {storage : Storage} {wallClock : Int}
    {s : Session} (opens : start config ingest storage wallClock = .ok s)
    (empty : s.store.seriesNames = []) : Filled s
  | configured {s : Session} (filled : Filled s) (ingest : IngestConfig) : Filled { s with ingest }
  | ingested {s : Session} (filled : Filled s) (series : String) (e : CommitEntry) :
    Filled (s.ingestEntry series e).1
  | tookIn {s : Session} (filled : Filled s) (d : HistoryDocument) : Filled (s.importDocument d).1
  | flushed {s : Session} (filled : Filled s) : Filled s.flush.1
  | flushedTwice {s : Session} (filled : Filled s) : Filled s.flushTwice.1
  | looked {s : Session} (filled : Filled s) : Filled s.stats.1
  | waited {s : Session} (filled : Filled s) (millis : Nat) : Filled (s.advance millis)
  | shutDown {s : Session} (filled : Filled s) : Filled s.shutdown.1
  | reopened {s : Session} (filled : Filled s) : Filled s.reopen

theorem Filled.valid (filled : s.Filled) : s.Valid := by
  induction filled with
  | @opened config ingest storage wallClock s opens empty =>
    unfold start at opens
    split at opens
    · cases opens
    · cases opens
      have stored : ∀ d ∈ storage.document, d.Valid := HistoryStore.valid_of_seriesNames empty
      exact {
        surroundings := fun d here => stored d here
        site := Site.valid_ofStore (HistoryStore.allEntries_ofDocument config stored)
        leftovers := by simp }
  | configured _ ingest valid => exact ⟨valid.surroundings, valid.site, valid.leftovers⟩
  | ingested _ series e valid => exact valid.ingestEntry series e
  | tookIn _ d valid => exact valid.importDocument d
  | flushed _ valid => exact valid.flush
  | flushedTwice _ valid => exact valid.flushTwice
  | looked _ valid => exact valid.stats
  | waited _ millis valid => exact valid.advance millis
  | shutDown _ valid => exact valid.shutdown
  | reopened _ valid => exact valid.reopen

end Session

/-! ### Filled stores -/

namespace HistoryStore

/-- A store that was filled through the ingestor, on a file or in memory, and the document that was
saved, if there is one. -/
inductive Filled : HistoryStore → Option HistoryDocument → Prop where
  | onFile {f : FileStore} (filled : f.Filled) : Filled f.store f.saved?
  | inMemory {s : Session} (filled : s.Filled) : Filled s.store s.storage.document

variable {s : HistoryStore} {saved : Option HistoryDocument}

theorem Filled.valid (filled : Filled s saved) : s.Valid ∧ ∀ d ∈ saved, d.Valid := by
  cases filled with
  | onFile filled => exact ⟨filled.valid.store, filled.valid.saved⟩
  | inMemory filled => exact ⟨filled.valid.site.store, filled.valid.surroundings⟩

/-- Every entry of every series of a filled store, in the order of arrival or as readers see it, and
every entry of the document that was saved passes the ingestor's checks for its series, whether it
came as it is or was changed by normalization. -/
theorem passes_of_filled (filled : Filled s saved) :
    (∀ name series, s.series.get? name = some series →
      ∀ e, e ∈ series.entries ∨ e ∈ series.view → validateEntry name e = .ok ()) ∧
    ∀ d ∈ saved, ∀ name es, d.entries.get? name = some es →
      ∀ e ∈ es, validateEntry name e = .ok () := by
  obtain ⟨store, document⟩ := filled.valid
  refine ⟨fun name series found e member => ?_, fun d given name es found e member => ?_⟩
  · rcases member with entry | seen
    · exact validateEntry_eq_ok.2 (store.of_mem_entries found entry)
    · exact validateEntry_eq_ok.2 (store.of_mem_view found seen)
  · exact validateEntry_eq_ok.2 (document d given name es found e member)

/-- A session over empty storage whose first save fails. -/
def newSession : Session where
  surroundings := ⟨0, 0, ⟨none, 0, {}, [{ fault := some (.backend "busy") }]⟩, .zero⟩
  ingest := {}
  site := .ofStore (.ofDocument { policy := .manual } none)
  leftovers := []

/-- A composite record beside one that has the name of a measure already. -/
def compositeEntry (id unit : String) : CommitEntry :=
  .plain id 5 [⟨"b", 100.25, unit, none⟩, ⟨"b - B/op", 7.0, "B/op", none⟩]

/-- Composite records are taken in twice, first kept and then dropped, and an entry is refused; the
first flush fails. -/
def compositeRun : Session :=
  let s := (newSession.ingestEntry "s"
    (compositeEntry "aaaa" "ns/op\t8 B/op\t2 allocs/op")).1.flush.1
  let s := ({ s with ingest := ⟨false⟩ }.ingestEntry "s"
    (compositeEntry "bbbb" "ns/op\t1 allocs/op")).1
  (s.ingestEntry "s" (compositeEntry "no hash" "ns")).1.flush.1.reopen

theorem passes_after_compositeRun :
    (∃ series, compositeRun.store.series.get? "s" = some series ∧
      series.view.map (fun e => e.benches.map (·.name)) =
        [["b", "b - ns/op", "b - allocs/op", "b - B/op"],
          ["b - ns/op", "b - allocs/op", "b - B/op"]] ∧
      ∀ e, e ∈ series.entries ∨ e ∈ series.view → validateEntry "s" e = .ok ()) ∧
    ∃ d, compositeRun.storage.document = some d ∧
      ∀ name es, d.entries.get? name = some es → ∀ e ∈ es, validateEntry name e = .ok () := by
  have opens : Session.start { policy := .manual } {} newSession.storage 0 = .ok newSession := rfl
  have first := ((Session.Filled.opened opens rfl).ingested "s"
    (compositeEntry "aaaa" "ns/op\t8 B/op\t2 allocs/op")).flushed
  have second := (first.configured ⟨false⟩).ingested "s"
    (compositeEntry "bbbb" "ns/op\t1 allocs/op")
  have third := (second.ingested "s" (compositeEntry "no hash" "ns")).flushed.reopened
  have filled : Filled compositeRun.store compositeRun.storage.document := .inMemory third
  obtain ⟨memory, document⟩ := passes_of_filled filled
  have shown : (compositeRun.store.series.get? "s").map
      (fun series => series.view.map fun e => e.benches.map (·.name)) =
        some [["b", "b - ns/op", "b - allocs/op", "b - B/op"],
          ["b - ns/op", "b - allocs/op", "b - B/op"]] := by
    decide +kernel
  have saved : compositeRun.storage.document.isSome = true := by
    decide +kernel
  obtain ⟨series, found, names⟩ := Option.map_eq_some_iff.1 shown
  obtain ⟨d, here⟩ := Option.isSome_iff_exists.1 saved
  exact ⟨⟨series, found, names, memory "s" series found⟩, d, here, document d here⟩

end HistoryStore

end BenchLedger
