import BenchLedger.Session.Site

/-!
The steps of a background flusher at its site. Main statement:
`Site.flusherStep_of_stepFlusher`: what each step needs and does.
-/

namespace BenchLedger.Site

/-- What a step of the background flusher needs and does. -/
inductive FlusherStep (w : Surroundings) (t : Site) : Surroundings → Site → Prop where
  | stops (resting : t.flusher = .starting ∨ t.flusher = .waiting ∨ t.flusher = .woken ∨
        ∃ finish, t.flusher = .sleeping finish) (cancelled : t.cancelled = true) :
      FlusherStep w t w { t with flusher := .stopped }
  | hears (starting : t.flusher = .starting) (going : t.cancelled = false)
      (kept : t.wake = true) :
      FlusherStep w t w
        { t with wake := false, flusher := .sleeping (w.now + t.store.config.interval) }
  | waits (starting : t.flusher = .starting) (going : t.cancelled = false)
      (none : t.wake = false) : FlusherStep w t w { t with flusher := .waiting }
  | sleeps (woken : t.flusher = .woken) (going : t.cancelled = false) :
      FlusherStep w t w { t with flusher := .sleeping (w.now + t.store.config.interval) }
  | flushes {finish : Nat} (sleeping : t.flusher = .sleeping finish)
      (going : t.cancelled = false) (due : finish ≤ w.now) (dirty : t.store.isDirty = true) :
      FlusherStep w t w { t.enqueue .flusher with flusher := .flushing .queued }
  | rests {finish : Nat} (sleeping : t.flusher = .sleeping finish)
      (going : t.cancelled = false) (due : finish ≤ w.now) (clean : t.store.isDirty = false) :
      FlusherStep w t w { t with flusher := .starting }
  | goesOn {call next : Call} {w' : Surroundings} {t' : Site}
      (flushing : t.flusher = .flushing call) (polled : t.poll w .flusher call = (w', t', next))
      (unfinished : ∀ result, next ≠ .finished result) :
      FlusherStep w t w' { t' with flusher := .flushing next }
  | succeeds {call : Call} {outcome : FlushOutcome} {w' : Surroundings} {t' : Site}
      (flushing : t.flusher = .flushing call)
      (polled : t.poll w .flusher call = (w', t', .finished (.ok outcome))) :
      FlusherStep w t w' { t' with flusher := .starting }
  | fails {call : Call} {failure : Failure} {w' : Surroundings} {t' : Site}
      (flushing : t.flusher = .flushing call)
      (polled : t.poll w .flusher call = (w', t', .finished (.error failure))) :
      FlusherStep w t w' { t' with flusher := .starting, wake := true }

/-- A flusher that can go on takes one of the steps. -/
theorem flusherStep_of_stepFlusher {w w' : Surroundings} {t t' : Site}
    (h : t.stepFlusher w = some (w', t')) : FlusherStep w t w' t' := by
  unfold stepFlusher at h
  dsimp only at h
  cases standing : t.flusher with
  | absent => simp [standing] at h
  | stopped => simp [standing] at h
  | starting =>
    simp only [standing] at h
    split at h
    next cancelled =>
      cases h
      exact .stops (.inl standing) cancelled
    next going =>
      split at h
      next kept =>
        cases h
        exact .hears standing (by simpa using going) kept
      next none =>
        cases h
        exact .waits standing (by simpa using going) (by simpa using none)
  | waiting =>
    simp only [standing] at h
    split at h
    next cancelled =>
      cases h
      exact .stops (.inr (.inl standing)) cancelled
    · cases h
  | woken =>
    simp only [standing] at h
    split at h
    next cancelled =>
      cases h
      exact .stops (.inr (.inr (.inl standing))) cancelled
    next going =>
      cases h
      exact .sleeps standing (by simpa using going)
  | sleeping finish =>
    simp only [standing] at h
    split at h
    next cancelled =>
      cases h
      exact .stops (.inr (.inr (.inr ⟨finish, standing⟩))) cancelled
    next going =>
      split at h
      next due =>
        split at h
        next dirty =>
          cases h
          exact .flushes standing (by simpa using going) due dirty
        next clean =>
          cases h
          exact .rests standing (by simpa using going) due (by simpa using clean)
      · cases h
  | flushing call =>
    simp only [standing] at h
    obtain ⟨_, h⟩ := Option.ite_none_right_eq_some.1 h
    generalize polled : t.poll w .flusher call = r at h
    obtain ⟨w₁, t₁, next⟩ := r
    dsimp only at h
    split at h
    · cases h
      exact .succeeds standing polled
    · cases h
      exact .fails standing polled
    next other failed =>
      cases h
      refine .goesOn standing polled fun result same => ?_
      cases result with
      | ok outcome => exact other outcome same
      | error failure => exact failed failure same

end BenchLedger.Site
