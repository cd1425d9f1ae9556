import BenchLedger.Proofs.SiteRuns
import BenchLedger.Proofs.WakeUps

/-!
Wakes at a site. Main statements: `Site.Scene.flusher_attends`: whatever callers do at a site with
the interval policy, and however long saves take, the flusher attends to a dirty store; and
`Session.flusher_attends`: so it does in a session that takes entries in while time passes.
-/

namespace BenchLedger

namespace Site

/-- The background flusher runs and will look at the store: it does not wait for a wake, nor is it
about to without one, and it is not at the end of a flush that did not fail. -/
structure Attends (t : Site) : Prop where
  runs : t.flusher ≠ .absent ∧ t.flusher ≠ .stopped
  awake : t.flusher ≠ .waiting ∧ (t.flusher = .starting → t.wake = true)

namespace Scene

variable {w : Surroundings} {config : StoreConfig} {loaded : Option HistoryDocument} {v v' : Scene}

/-- A shared store at the same point as a site that something has happened at. -/
theorem exists_follows (reached : Relation.ReflTransGen Move (opened w config loaded) v) :
    ∃ requests s, SharedStore.Reachable requests (.ofDocument config loaded) s ∧
      SharedStore.Follows v.surroundings v.site s := by
  obtain ⟨s, reachable, abreast⟩ := exists_abreast
    (fun a => v.appended[a]?.getD ⟨"", .plain "" 0 []⟩) reached fun a r here => by simp [here]
  exact ⟨_, s, reachable, abreast.toFollows⟩

theorem config_of_reached (reached : Relation.ReflTransGen Move (opened w config loaded) v) :
    v.site.store.config = config := by
  obtain ⟨_, s, reachable, follows⟩ := exists_follows reached
  rw [follows.store, reachable.config]
  rfl

/-- The flusher of a site attends to a dirty store until it is told to stop. -/
theorem flusher_attends (interval : config.policy = .interval)
    (reached : Relation.ReflTransGen Move (opened w config loaded) v)
    (going : v.site.cancelled = false) (dirty : v.site.store.isDirty = true) :
    v.site.Attends := by
  obtain ⟨_, s, reachable, follows⟩ := exists_follows reached
  have watched := reachable.watched interval
  rw [follows.store] at dirty
  rw [follows.cancelled] at going
  have runs : ¬(s.flusher = .absent ∨ s.flusher = .stopped) := by
    intro ended
    have cancelled := watched.runs ended
    rw [going] at cancelled
    cases cancelled
  refine ⟨⟨fun absent => ?_, fun stopped => ?_⟩, follows.awake watched dirty⟩
  · have stands := follows.flusher
    rw [absent] at stands
    cases stands with
    | absent here => exact runs (.inl here)
  · have stands := follows.flusher
    rw [stopped] at stands
    cases stands with
    | stopped here => exact runs (.inr here)

end Scene

/-- The background flusher is never told to stop by what it does itself. -/
theorem cancelled_stepFlusher {w w' : Surroundings} {t t' : Site}
    (stepped : t.stepFlusher w = some (w', t')) : t'.cancelled = t.cancelled := by
  have ofPoll {call next : Call} {v : Surroundings} {u : Site}
      (polled : t.poll w .flusher call = (v, u, next)) : u.cancelled = t.cancelled := by
    have kept := (t.polled_poll w .flusher call).frame.2.2
    rwa [polled] at kept
  cases flusherStep_of_stepFlusher stepped with
  | goesOn _ polled _ =>
    have kept := ofPoll polled
    exact kept
  | succeeds _ polled =>
    have kept := ofPoll polled
    exact kept
  | fails _ polled =>
    have kept := ofPoll polled
    exact kept
  | _ => rfl

end Site

/-! ### Sessions -/

namespace Session

open Site (Scene)

variable {w : Surroundings} {config : StoreConfig} {loaded : Option HistoryDocument}
  {s s' : Session}

/-- A session whose site has come from a scene by moves, which did not tell its flusher to stop.
There are no earlier stores beside it. -/
structure CameFrom (start : Scene) (s : Session) : Prop where
  moved : ∃ calls appended,
    Relation.ReflTransGen Scene.Move start ⟨s.surroundings, s.site, calls, appended⟩
  going : s.site.cancelled = false
  alone : s.leftovers = []

namespace CameFrom

variable {start : Scene}

theorem passes (h : s.CameFrom start) {w : Surroundings} (storage : w.storage = s.storage) :
    CameFrom start { s with surroundings := w } := by
  obtain ⟨calls, appended, moved⟩ := h.moved
  exact ⟨⟨calls, appended, moved.tail (.passes storage)⟩, h.going, h.alone⟩

theorem runFlusher (h : s.CameFrom start) (fuel : Nat) :
    CameFrom start { s with
      surroundings := (s.site.runFlusher fuel s.surroundings).1
      site := (s.site.runFlusher fuel s.surroundings).2 } := by
  induction fuel generalizing s with
  | zero => exact h
  | succ fuel ih =>
    unfold Site.runFlusher
    split
    next w t stepped =>
      obtain ⟨calls, appended, moved⟩ := h.moved
      have next : CameFrom start { s with surroundings := w, site := t } :=
        ⟨⟨calls, appended, moved.tail (.runs stepped)⟩,
          (Site.cancelled_stepFlusher stepped).trans h.going, h.alone⟩
      exact ih next
    next => exact h

theorem runFlushers (h : s.CameFrom start) : s.runFlushers.CameFrom start := by
  have ran := h.runFlusher s.flusherFuel
  simp only [Session.runFlushers, h.alone, List.foldl_nil]
  exact ⟨ran.moved, ran.going, rfl⟩

/-- While a caller waits for no call, time passes and the flusher runs. -/
theorem wait (h : s.CameFrom start) {w : Waiting} (none : w.calls = []) (fuel : Nat) :
    (s.wait fuel w).1.CameFrom start := by
  induction fuel generalizing s with
  | zero => exact h
  | succ fuel ih =>
    have ran := h.runFlushers
    have same : { w with calls := [] } = w := by rw [← none]
    unfold Session.wait
    simp only [none, pollCalls, same]
    split
    · exact h
    split
    · exact ih ran
    split
    · exact ih (ran.passes rfl)
    · exact ran

theorem advance (h : s.CameFrom start) (millis : Nat) : (s.advance millis).CameFrom start :=
  h.wait (w := { until? := some (s.now + millis) }) rfl s.waitFuel

theorem appended (h : s.CameFrom start) {series : String} {e : CommitEntry}
    {store : HistoryStore} {position : Position}
    (accepted : s.store.append series e = .ok (store, position)) :
    (s.appended store).CameFrom start := by
  obtain ⟨calls, appended, moved⟩ := h.moved
  refine ⟨⟨calls, _, moved.tail (.appends (r := ⟨series, e⟩) accepted)⟩, ?_, h.alone⟩
  rw [← h.going]
  unfold Session.appended Site.appended Site.notify
  dsimp only
  split
  · split <;> rfl
  · rfl

theorem append (h : s.CameFrom start) (series : String) (e : CommitEntry) :
    (s.append series e).1.CameFrom start := by
  unfold Session.append
  split
  next accepted => exact h.appended accepted
  · exact h

/-- An entry that is taken in is appended, and a session with a background flusher leaves the rest
to it. -/
theorem ingestEntry (h : s.CameFrom (.opened w config loaded))
    (interval : config.policy = .interval) (series : String) (e : CommitEntry) :
    (s.ingestEntry series e).1.CameFrom (.opened w config loaded) := by
  unfold Session.ingestEntry
  split
  next store position accepted =>
    unfold HistoryStore.accept at accepted
    split at accepted
    · cases accepted
    have counted := (h.appended accepted).passes
      (w := { (s.appended store).surroundings with
        counters := { s.counters with ingested := s.counters.ingested + 1 } }) rfl
    have policy : ((s.appended store).count fun c => { c with
        ingested := c.ingested + 1 }).store.config.policy ≠ .onAppend := by
      obtain ⟨_, _, moved⟩ := counted.moved
      have kept := Scene.config_of_reached moved
      rw [show ((s.appended store).count _).store.config = config from kept, interval]
      decide
    rw [settle, if_neg policy]
    exact counted
  · exact h.passes rfl

theorem opened {ingest : IngestConfig} {storage : Storage} {wallClock : Int}
    (opens : Session.start config ingest storage wallClock = .ok s) :
    s.CameFrom (.opened s.surroundings config storage.document) := by
  unfold Session.start at opens
  split at opens
  · cases opens
  · cases opens
    exact ⟨⟨_, _, .refl⟩, rfl, rfl⟩

end CameFrom

/-- A session that was opened with a configuration, and has taken entries in while time passed. -/
inductive Gathers (config : StoreConfig) : Session → Prop where
  | opened {ingest : IngestConfig} {storage : Storage} {wallClock : Int} {s : Session}
      (opens : start config ingest storage wallClock = .ok s) : Gathers config s
  | appended {s : Session} (before : Gathers config s) (series : String) (e : CommitEntry) :
      Gathers config (s.append series e).1
  | ingested {s : Session} (before : Gathers config s) (series : String) (e : CommitEntry) :
      Gathers config (s.ingestEntry series e).1
  | asked {s : Session} (before : Gathers config s) {α : Type} (kind : QueryKind)
      (answer : HistoryStore → α) : Gathers config (s.query kind answer).1
  | waited {s : Session} (before : Gathers config s) (millis : Nat) :
      Gathers config (s.advance millis)
  | ticked {s : Session} (before : Gathers config s) (wallClock : Int) :
      Gathers config { s with surroundings := { s.surroundings with wallClock } }

theorem Gathers.cameFrom (interval : config.policy = .interval) (gathers : s.Gathers config) :
    ∃ w loaded, s.CameFrom (.opened w config loaded) := by
  induction gathers with
  | opened opens => exact ⟨_, _, .opened opens⟩
  | appended _ series e ih =>
    obtain ⟨w, loaded, came⟩ := ih
    exact ⟨w, loaded, came.append series e⟩
  | ingested _ series e ih =>
    obtain ⟨w, loaded, came⟩ := ih
    exact ⟨w, loaded, came.ingestEntry interval series e⟩
  | asked _ kind answer ih =>
    obtain ⟨w, loaded, came⟩ := ih
    exact ⟨w, loaded, came.passes rfl⟩
  | waited _ millis ih =>
    obtain ⟨w, loaded, came⟩ := ih
    exact ⟨w, loaded, came.advance millis⟩
  | ticked _ wallClock ih =>
    obtain ⟨w, loaded, came⟩ := ih
    exact ⟨w, loaded, came.passes rfl⟩

/-- In a session that takes entries in under the interval policy, the flusher attends to them until
they are saved. -/
theorem flusher_attends (interval : config.policy = .interval) (gathers : s.Gathers config)
    (dirty : s.store.isDirty = true) : s.site.Attends := by
  obtain ⟨w, loaded, came⟩ := gathers.cameFrom interval
  obtain ⟨calls, appended, moved⟩ := came.moved
  exact Scene.flusher_attends interval moved came.going dirty

end Session

end BenchLedger
