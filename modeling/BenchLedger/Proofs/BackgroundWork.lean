import BenchLedger.Proofs.ReachedSessions
import Mathlib.Logic.Relation

/-!
What goes on in a session besides the work of its callers. Main statements:
`Session.background_stats`: a look at the flush state leaves all to the background flushers that it
waits for, and `Session.Untouched.stats`: if there is none to wait for, it leaves no trace.
-/

namespace BenchLedger.Session

/-- A step that is no caller's work on the store. -/
inductive Aside : Session → Session → Prop where
  -- The background flusher takes a step.
  | flusher {s : Session} {w : Surroundings} {t : Site}
      (step : s.site.stepFlusher s.surroundings = some (w, t)) :
      Aside s { s with surroundings := w, site := t }
  -- So does the one of an earlier store.
  | leftover {s : Session} {before after : List Site} {t t' : Site} {w : Surroundings}
      (known : s.leftovers = before ++ t :: after)
      (step : t.stepFlusher s.surroundings = some (w, t')) :
      Aside s { s with surroundings := w, leftovers := before ++ t' :: after }
  -- Time passes.
  | passes (s : Session) {time : Nat} (later : s.now ≤ time) :
      Aside s { s with surroundings := { s.surroundings with now := time } }
  -- A caller asks for a turn.
  | asks (s : Session) (number : Nat) : Aside s (s.enqueue number)
  -- A caller who has the turn gives it back.
  | leaves {s : Session} {number : Nat} (served : s.site.hasTurn (.caller number) = true) :
      Aside s { s with site := s.site.release }
  | counts (s : Session) (change : Counters → Counters) : Aside s (s.count change)

/-- Any number of such steps. -/
abbrev Background : Session → Session → Prop :=
  Relation.ReflTransGen Aside

variable {s s' : Session}

theorem Aside.keepsMemory (h : Aside s s') : KeepsMemory s s' := by
  cases h with
  | flusher step => exact ⟨Site.memory_stepFlusher step, rfl⟩
  | _ => exact ⟨rfl, rfl⟩

theorem Background.keepsMemory (h : Background s s') : KeepsMemory s s' := by
  induction h with
  | refl => exact .refl s
  | tail _ step kept => exact kept.trans step.keepsMemory

/-! ### Flushers -/

theorem background_runFlusher (fuel : Nat) (s : Session) :
    Background s { s with
      surroundings := (s.site.runFlusher fuel s.surroundings).1
      site := (s.site.runFlusher fuel s.surroundings).2 } := by
  induction fuel generalizing s with
  | zero => exact .refl
  | succ fuel ih =>
    unfold Site.runFlusher
    split
    next w t step => exact .head (.flusher step) (ih _)
    · exact .refl

theorem background_runLeftover {before after : List Site} {t : Site}
    (known : s.leftovers = before ++ t :: after) (fuel : Nat) :
    Background s { s with
      surroundings := (t.runFlusher fuel s.surroundings).1
      leftovers := before ++ (t.runFlusher fuel s.surroundings).2 :: after } := by
  have same : { s with leftovers := before ++ t :: after } = s := by rw [← known]
  induction fuel generalizing s t with
  | zero => exact same.symm ▸ .refl
  | succ fuel ih =>
    unfold Site.runFlusher
    split
    next w t' step => exact .head (.leftover known step) (ih rfl rfl)
    · exact same.symm ▸ .refl

/-- The flusher of an earlier store runs, and the store is put behind those before it. -/
def runLeftover (fuel : Nat) (state : Surroundings × List Site) (t : Site) :
    Surroundings × List Site :=
  ((t.runFlusher fuel state.1).1, state.2 ++ [(t.runFlusher fuel state.1).2])

theorem background_runLeftovers {before after : List Site}
    (known : s.leftovers = before ++ after) (fuel : Nat) :
    Background s { s with
      surroundings := (after.foldl (runLeftover fuel) (s.surroundings, before)).1
      leftovers := (after.foldl (runLeftover fuel) (s.surroundings, before)).2 } := by
  induction after generalizing s before with
  | nil =>
    have same : { s with leftovers := before } = s := by rw [← List.append_nil before, ← known]
    exact same.symm ▸ .refl
  | cons t after ih =>
    refine (background_runLeftover known fuel).trans (ih ?_)
    simp

theorem background_runFlushers (s : Session) : Background s s.runFlushers := by
  have earlier := background_runLeftovers (List.nil_append s.leftovers).symm s.flusherFuel
  exact earlier.trans (background_runFlusher s.flusherFuel _)

/-! ### Waits -/

variable {calls : List Call}

/-- Calls that only look at the flush state give their turn back as soon as they have it. -/
theorem background_pollCalls (looks : ∀ c ∈ calls, c = .looking ∨ isFinished c = true)
    (number : Nat) (s : Session) :
    Background s (s.pollCalls number calls).1 ∧
      ∀ c ∈ (s.pollCalls number calls).2, c = .looking ∨ isFinished c = true := by
  induction calls generalizing number s with
  | nil => exact ⟨.refl, looks⟩
  | cons call calls ih =>
    obtain ⟨first, rest⟩ := List.forall_mem_cons.1 looks
    have polled := Site.polled_poll s.surroundings s.site (.caller number) call
    unfold pollCalls
    generalize s.site.poll s.surroundings (.caller number) call = next at polled
    obtain ⟨w, t, next⟩ := next
    dsimp only at polled ⊢
    obtain ⟨later, others⟩ := ih rest (number + 1) { s with surroundings := w, site := t }
    cases polled with
    | waits asks unserved => exact ⟨later, List.forall_mem_cons.2 ⟨first, others⟩⟩
    | looks served =>
      exact ⟨.head (.leaves served) later, List.forall_mem_cons.2 ⟨.inr rfl, others⟩⟩
    | returned => exact ⟨later, List.forall_mem_cons.2 ⟨.inr rfl, others⟩⟩
    | _ => simp [isFinished] at first

theorem background_wait (fuel : Nat) (s : Session) (w : Waiting)
    (looks : ∀ c ∈ w.calls, c = .looking ∨ isFinished c = true) :
    Background s (s.wait fuel w).1 := by
  induction fuel generalizing s w with
  | zero => exact .refl
  | succ fuel ih =>
    obtain ⟨polled, looks'⟩ := background_pollCalls looks 0 s
    have ran := polled.trans (background_runFlushers _)
    unfold Session.wait
    dsimp only
    split
    · exact polled
    split
    · exact ran.trans (ih _ _ looks')
    split
    · exact (ran.tail (.passes _ (Nat.le_max_left ..))).trans (ih _ _ looks')
    · exact ran

theorem background_await (s : Session) (w : Waiting)
    (looks : ∀ c ∈ w.calls, c = .looking ∨ isFinished c = true) : Background s (s.await w).1 :=
  background_wait s.waitFuel s w looks

theorem background_stats (s : Session) : Background s s.stats.1 :=
  .head (.asks s 0) (background_await _ { calls := [.looking] } (by simp))

/-! ### Callers who change nothing -/

/-- A caller has changed nothing of the session but counters. -/
structure Untouched (s s' : Session) : Prop where
  memory : s'.store.memory = s.store.memory
  -- The background flusher changes nothing either unless it is at a flush.
  quiet : s.site.turns = [] ∨ s.store.config.policy ≠ .interval → ∃ change, s' = s.count change
  background : Background s s'

namespace Untouched

theorem count (s : Session) (change : Counters → Counters) : Untouched s (s.count change) where
  memory := rfl
  quiet _ := ⟨change, rfl⟩
  background := .single (.counts s change)

theorem refl (s : Session) : Untouched s s :=
  count s id

/-- A look at the flush state waits for a flush that is under way. -/
theorem stats (reached : s.Reached) : Untouched s s.stats.1 where
  memory := (background_stats s).keepsMemory.memory
  quiet idle := by
    have free : s.site.turns = [] :=
      idle.elim id fun unattended => (reached.invariant.2 unattended).turns
    rw [stats_of_free free]
    exact ⟨id, rfl⟩
  background := background_stats s

end Untouched

end BenchLedger.Session
