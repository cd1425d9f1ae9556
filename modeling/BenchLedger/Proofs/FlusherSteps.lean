import BenchLedger.Proofs.SessionSteps
import BenchLedger.Proofs.SiteSteps

/-!
The background flusher of a session is that of a shared store. Main statements, about a site and a
shared store at the same point: `SharedStore.Follows.flusherStep`, `SharedStore.Follows.poll` and
`SharedStore.Follows.append`: whatever the flusher, a flush or an append does at the site, the tasks
of the shared store can do, both are at the same point again, and whoever holds the flush lock has
the first turn.
-/

namespace BenchLedger

namespace SharedStore

variable {requests : Nat → AppendRequest}

/-- What the tasks can reach in any interleaving. A flusher that was woken and has not run yet may
find that another wake was kept for it since. -/
inductive Reachable (requests : Nat → AppendRequest) (start : SharedStore) :
    SharedStore → Prop where
  | start : Reachable requests start start
  | step {s s' : SharedStore} {e : SharedEvent} (before : Reachable requests start s)
      (step : Step requests s e s') : Reachable requests start s'
  | rewoken {s : SharedStore} (before : Reachable requests start s)
      (waiting : s.flusher = .waiting) (kept : s.wake = true) :
      Reachable requests start { s with flusher := .sleeping }

theorem Reachable.trans {start s s' : SharedStore} (first : Reachable requests start s)
    (second : Reachable requests s s') : Reachable requests start s' := by
  induction second with
  | start => exact first
  | step _ step ih => exact ih.step step
  | rewoken _ waiting kept ih => exact ih.rewoken waiting kept

theorem Reachable.of_run {start s : SharedStore} {events : List SharedEvent}
    (run : start.run? requests events = some s) : Reachable requests start s :=
  run_induction (P := fun _ s => Reachable requests start s) .start
    (fun _ _ _ _ _ before step => before.step step) run

end SharedStore

/-- A background flusher and the wake that is kept for it are as far as those of a shared store. -/
inductive Flusher.StandsAt (s : SharedStore) (kept : Bool) : Flusher → Prop where
  | absent (here : s.flusher = .absent) : StandsAt s kept .absent
  | starting (here : s.flusher = .waiting) (wake : s.wake = kept) : StandsAt s kept .starting
  | waiting (here : s.flusher = .waiting) (wake : s.wake = kept) (none : kept = false) :
      StandsAt s kept .waiting
  -- The shared store still keeps the wake that it has heard, with or without another one.
  | woken (here : s.flusher = .waiting) (heard : s.wake = true) : StandsAt s kept .woken
  | sleeping {finish : Nat} (here : s.flusher = .sleeping) (wake : s.wake = kept) :
      StandsAt s kept (.sleeping finish)
  | flushing {round : Nat} {call : Call} (here : s.flusher = .flushing round) (wake : s.wake = kept)
      (stands : call.StandsAt (s.flushes (.round round))) : StandsAt s kept (.flushing call)
  | stopped (here : s.flusher = .stopped) : StandsAt s kept .stopped

theorem Flusher.StandsAt.mono {s s' : SharedStore} {kept : Bool} {flusher : Flusher}
    (h : flusher.StandsAt s kept) (stage : s'.flusher = s.flusher) (wake : s'.wake = s.wake)
    (rounds : ∀ round, s'.flushes (.round round) = s.flushes (.round round)) :
    flusher.StandsAt s' kept := by
  cases h with
  | absent here => exact .absent (stage.trans here)
  | starting here same => exact .starting (stage.trans here) (wake.trans same)
  | waiting here same none => exact .waiting (stage.trans here) (wake.trans same) none
  | woken here heard => exact .woken (stage.trans here) (wake.trans heard)
  | sleeping here same => exact .sleeping (stage.trans here) (wake.trans same)
  | @flushing round _ here same stands =>
    exact .flushing (stage.trans here) (wake.trans same) (rounds round ▸ stands)
  | stopped here => exact .stopped (stage.trans here)

/-- A call is no step of the background flusher. -/
theorem Site.Polled.frame {w w' : Surroundings} {t t' : Site} {turn : Turn} {call next : Call}
    (polled : t.Polled w turn call w' t' next) :
    t'.flusher = t.flusher ∧ t'.wake = t.wake ∧ t'.cancelled = t.cancelled := by
  have ofSave {w w' : Surroundings} {t' : Site} {next : Call}
      {pending : HistoryStore.PendingFlush} {ending : Except PersistenceError Unit}
      (ended : t.finishSave w pending ending = (w', t', next)) :
      t'.flusher = t.flusher ∧ t'.wake = t.wake ∧ t'.cancelled = t.cancelled := by
    cases ended
    exact ⟨rfl, rfl, rfl⟩
  cases polled with
  | saves _ _ _ ended => exact ofSave ended
  | ends _ ended => exact ofSave ended
  | _ => exact ⟨rfl, rfl, rfl⟩

namespace SharedStore

variable {requests : Nat → AppendRequest} {w w' : Surroundings} {t t' : Site} {call next : Call}
  {s s' : SharedStore}

/-- A site with its background flusher is at the same point as a shared store. -/
structure Follows (w : Surroundings) (t : Site) (s : SharedStore) : Prop where
  store : t.store = s.store
  cancelled : t.cancelled = s.cancelled
  flusher : t.flusher.StandsAt s t.wake
  saved : ∀ d, s.saved.getLast? = some d → w.storage.document = some d

variable {turns turns' : List Turn}

/-- Who holds the lock goes on to have the first turn, if nobody else's turn is put in front and the
holder is still at its save. -/
theorem LockedInTurn.mono (locked : s.LockedInTurn turns) (lock : s'.lock = s.lock)
    (first : ∀ turn, turns.head? = some turn → turns'.head? = some turn)
    (holds : ∀ c, s.Serves turns c → s'.flushes c = s.flushes c ∧ s'.Current c) :
    s'.LockedInTurn turns' := by
  intro c mine
  rw [lock] at mine
  have serves := locked c mine
  obtain ⟨same, current⟩ := holds c serves
  exact ⟨first _ serves.turn, same ▸ serves.saving, current⟩

/-- A flusher whose round is not at its save can go to any stage. -/
theorem LockedInTurn.of_resting (locked : s.LockedInTurn turns)
    (resting : ∀ round pending, s.flusher = .flushing round →
      s.flushes (.round round) ≠ .saving pending)
    (lock : s'.lock = s.lock)
    (first : ∀ turn, turns.head? = some turn → turns'.head? = some turn)
    (others : ∀ n, s'.flushes (.explicit n) = s.flushes (.explicit n)) :
    s'.LockedInTurn turns' := by
  refine locked.mono lock first fun c serves => ?_
  cases c with
  | explicit n => exact ⟨others n, fun round same => by cases same⟩
  | round r =>
    obtain ⟨pending, saving⟩ := serves.saving
    exact absurd saving (resting r pending (serves.current r rfl))

/-- A turn that is asked for is behind those that there are. -/
theorem head?_enqueue {turn : Turn} (first : t.turns.head? = some turn) (other : Turn) :
    (t.enqueue other).turns.head? = some turn := by
  simp [Site.enqueue, first]

namespace Follows

theorem opened (w : Surroundings) (config : StoreConfig) (loaded : Option HistoryDocument) :
    Follows w (.ofStore (.ofDocument config loaded)) (ofDocument config loaded) where
  store := rfl
  cancelled := rfl
  flusher := by
    have kept : (HistoryStore.ofDocument config loaded).config = config := rfl
    simp only [Site.ofStore, kept]
    split
    next interval => exact .starting (if_pos interval) rfl
    next other => exact .absent (if_neg other)
  saved d last := by cases last

/-- What a site does to a call, the flush of the shared store can do. -/
private theorem reach (requests : Nat → AppendRequest) (h : Follows w t s) {c : FlushCall}
    (stands : call.StandsAt (s.flushes c)) (locked : s.LockedInTurn t.turns)
    (current : s.Current c) (polled : t.Polled w c.turn call w' t' next) :
    ∃ s', Reachable requests s s' ∧ Beside s s' c ∧ Shows w' t' next s' c ∧
      s'.LockedInTurn t'.turns := by
  have shows : Shows w t call s c := ⟨h.store, stands, h.saved⟩
  obtain ⟨events, s', run, beside, shown, locked'⟩ :=
    exists_run_poll requests shows locked current polled
  exact ⟨s', .of_run run, beside, shown, locked'⟩

/-- What a site does to the flush of a caller, the shared store can do. -/
theorem poll (requests : Nat → AppendRequest) (h : Follows w t s)
    (locked : s.LockedInTurn t.turns) {number : Nat}
    (stands : call.StandsAt (s.flushes (.explicit number)))
    (polled : t.Polled w (.caller number) call w' t' next) :
    ∃ s', Reachable requests s s' ∧ Beside s s' (.explicit number) ∧ Follows w' t' s' ∧
      s'.LockedInTurn t'.turns ∧ next.StandsAt (s'.flushes (.explicit number)) := by
  obtain ⟨s', reached, beside, shown, locked'⟩ :=
    h.reach (c := .explicit number) requests stands locked (fun round same => by cases same) polled
  obtain ⟨flusher, wake, cancelled⟩ := polled.frame
  refine ⟨s', reached, beside, ⟨shown.store, ?_, ?_, shown.saved⟩, locked', shown.stands⟩
  · rw [cancelled, h.cancelled, beside.cancelled]
  · rw [flusher, wake]
    exact h.flusher.mono beside.flusher beside.wake fun _ => beside.others _ (by simp)

/-- The flush of a round has been taken further, at a site and in a shared store. -/
private structure WentOn (s s' : SharedStore) (w' : Surroundings) (t' : Site) (next : Call)
    (round : Nat) : Prop where
  here : s'.flusher = .flushing round
  shown : Shows w' t' next s' (.round round)
  wake : s'.wake = t'.wake
  cancelled : t'.cancelled = s'.cancelled
  locked : s'.LockedInTurn t'.turns
  beside : Beside s s' (.round round)

private theorem WentOn.others {round : Nat} (h : WentOn s s' w' t' next round)
    (n : Nat) : s'.flushes (.explicit n) = s.flushes (.explicit n) :=
  h.beside.others _ (by simp)

/-- A round that has returned is not at its save. -/
private theorem WentOn.resting {result : Except Failure FlushOutcome} {round : Nat}
    (h : WentOn s s' w' t' (.finished result) round) (other : Nat)
    (pending : HistoryStore.PendingFlush) (there : s'.flusher = .flushing other) :
    s'.flushes (.round other) ≠ .saving pending := by
  cases h.here.symm.trans there
  intro saving
  have stands := h.shown.stands
  rw [saving] at stands
  cases stands

/-- The background flusher polls the flush of its round. -/
private theorem pollRound (requests : Nat → AppendRequest) (h : Follows w t s)
    (locked : s.LockedInTurn t.turns) (flushing : t.flusher = .flushing call)
    (polled : t.poll w .flusher call = (w', t', next)) :
    ∃ s' round, Reachable requests s s' ∧ WentOn s s' w' t' next round := by
  have stands := h.flusher
  rw [flushing] at stands
  have step : t.Polled w .flusher call w' t' next := by
    have polled' := t.polled_poll w .flusher call
    rwa [polled] at polled'
  cases stands with
  | @flushing round _ here wake stands =>
    have current : s.Current (.round round) := fun other same => by cases same; exact here
    obtain ⟨s', reached, beside, shown, locked'⟩ :=
      h.reach (c := .round round) requests stands locked current step
    obtain ⟨_, kept, cancelled⟩ := step.frame
    exact ⟨s', round, reached, {
      here := beside.flusher.trans here
      shown
      wake := (beside.wake.trans wake).trans kept.symm
      cancelled := cancelled.trans (h.cancelled.trans beside.cancelled.symm)
      locked := locked'
      beside }⟩

/-- What the background flusher does at a site, the flusher of the shared store can do. The calls
of others stay where they are. -/
theorem flusherStep (requests : Nat → AppendRequest) (h : Follows w t s)
    (locked : s.LockedInTurn t.turns) (step : Site.FlusherStep w t w' t') :
    ∃ s', Reachable requests s s' ∧ Follows w' t' s' ∧ s'.LockedInTurn t'.turns ∧
      (∀ n, s'.flushes (.explicit n) = s.flushes (.explicit n)) ∧ s'.appends = s.appends := by
  have stands := h.flusher
  cases step with
  | stops resting cancelled =>
    have rests : s.flusher = .waiting ∨ s.flusher = .sleeping := by
      rcases resting with here | here | here | ⟨finish, here⟩ <;>
        rw [here] at stands <;> cases stands
      · exact .inl ‹_›
      · exact .inl ‹_›
      · exact .inl ‹_›
      · exact .inr ‹_›
    rw [h.cancelled] at cancelled
    refine ⟨_, .step .start (.stops rests cancelled), ⟨h.store, h.cancelled, .stopped rfl, h.saved⟩,
      locked.of_resting ?_ rfl (fun _ => id) fun _ => rfl, fun _ => rfl, rfl⟩
    rcases rests with here | here <;> simp [here]
  | hears starting _ kept =>
    rw [starting] at stands
    cases stands with
    | starting here wake =>
      exact ⟨_, .step .start (.wakes here (wake.trans kept)),
        ⟨h.store, h.cancelled, .sleeping rfl rfl, h.saved⟩,
        locked.of_resting (by simp [here]) rfl (fun _ => id) fun _ => rfl, fun _ => rfl, rfl⟩
  | waits starting _ none =>
    rw [starting] at stands
    cases stands with
    | starting here wake =>
      exact ⟨s, .start, ⟨h.store, h.cancelled, .waiting here wake none, h.saved⟩, locked,
        fun _ => rfl, rfl⟩
  | sleeps woken _ =>
    rw [woken] at stands
    cases stands with
    | woken here heard =>
      cases another : t.wake with
      | false =>
        exact ⟨_, .step .start (.wakes here heard),
          ⟨h.store, h.cancelled, .sleeping rfl rfl, h.saved⟩,
          locked.of_resting (by simp [here]) rfl (fun _ => id) fun _ => rfl, fun _ => rfl, rfl⟩
      | true =>
        exact ⟨_, .rewoken .start here heard,
          ⟨h.store, h.cancelled, .sleeping rfl heard, h.saved⟩,
          locked.of_resting (by simp [here]) rfl (fun _ => id) fun _ => rfl, fun _ => rfl, rfl⟩
  | flushes sleeping _ _ dirty =>
    rw [sleeping] at stands
    cases stands with
    | sleeping here wake =>
      rw [h.store] at dirty
      have others (n : Nat) := setFlush_of_ne
        { s with flusher := .flushing s.rounds, rounds := s.rounds + 1 } (.round s.rounds)
        (b := .explicit n) (by simp) .queued
      refine ⟨_, .step .start (.flushes here dirty), ⟨h.store, h.cancelled,
        .flushing rfl wake ?_, h.saved⟩,
        locked.of_resting (by simp [here]) rfl (fun _ first => head?_enqueue first _) others,
        others, rfl⟩
      rw [setFlush_self]
      exact .queued
  | rests sleeping _ _ clean =>
    rw [sleeping] at stands
    cases stands with
    | sleeping here wake =>
      rw [h.store] at clean
      exact ⟨_, .step .start (.rests here clean),
        ⟨h.store, h.cancelled, .starting rfl wake, h.saved⟩,
        locked.of_resting (by simp [here]) rfl (fun _ => id) fun _ => rfl, fun _ => rfl, rfl⟩
  | goesOn flushing polled _ =>
    obtain ⟨s', round, reached, went⟩ := h.pollRound requests locked flushing polled
    exact ⟨s', reached, ⟨went.shown.store, went.cancelled,
      .flushing went.here went.wake went.shown.stands, went.shown.saved⟩, went.locked,
      went.others, went.beside.appends⟩
  | succeeds flushing polled =>
    obtain ⟨s', round, reached, went⟩ := h.pollRound requests locked flushing polled
    have stands := went.shown.stands
    generalize finished : s'.flushes (.round round) = stage at stands
    cases stands with
    | finished document _ =>
      exact ⟨_, .step reached (.succeeds went.here finished),
        ⟨went.shown.store, went.cancelled, .starting rfl went.wake, went.shown.saved⟩,
        went.locked.of_resting went.resting rfl (fun _ => id) fun _ => rfl, went.others,
        went.beside.appends⟩
  | fails flushing polled =>
    obtain ⟨s', round, reached, went⟩ := h.pollRound requests locked flushing polled
    have stands := went.shown.stands
    generalize finished : s'.flushes (.round round) = stage at stands
    cases stands with
    | finished document _ =>
      exact ⟨_, .step reached (.fails went.here finished),
        ⟨went.shown.store, went.cancelled, .starting rfl rfl, went.shown.saved⟩,
        went.locked.of_resting went.resting rfl (fun _ => id) fun _ => rfl, went.others,
        went.beside.appends⟩

/-- An append at a site is one of the shared store that nothing interrupts. -/
theorem append (h : Follows w t s) (locked : s.LockedInTurn t.turns) {a : Nat}
    (idle : s.appends a = .idle) {store : HistoryStore} {position : Position}
    (accepted : t.store.append (requests a).series (requests a).entry = .ok (store, position)) :
    ∃ s', Reachable requests s s' ∧ Follows w (t.appended store) s' ∧
      s'.LockedInTurn (t.appended store).turns ∧ s'.flushes = s.flushes ∧
      ∀ b, b ≠ a → s'.appends b = s.appends b := by
  rw [h.store] at accepted
  have turns : (t.appended store).turns = t.turns := by
    unfold Site.appended Site.notify
    dsimp only
    split
    · split <;> rfl
    · rfl
  refine ⟨_, .of_run (run_append_alone idle accepted), ?_,
    locked.mono rfl (fun turn first => turns ▸ first) fun c serves => ⟨rfl, serves.current⟩, rfl,
    fun b other => setAppend_of_ne _ _ other _⟩
  have stands := h.flusher
  unfold Site.appended
  dsimp only
  split
  next interval =>
    have woken : ({ s with store }.notify.setAppend a (.returned position)).wake = true := by
      simp [setAppend, notify, interval]
    cases standing : t.flusher <;> rw [standing] at stands <;> cases stands <;>
      simp only [Site.notify]
    case absent here => exact ⟨rfl, h.cancelled, .absent here, h.saved⟩
    case starting here _ => exact ⟨rfl, h.cancelled, .starting here woken, h.saved⟩
    case waiting here _ _ => exact ⟨rfl, h.cancelled, .woken here woken, h.saved⟩
    case woken here _ => exact ⟨rfl, h.cancelled, .woken here woken, h.saved⟩
    case sleeping here _ => exact ⟨rfl, h.cancelled, .sleeping here woken, h.saved⟩
    case flushing here _ stands => exact ⟨rfl, h.cancelled, .flushing here woken stands, h.saved⟩
    case stopped here => exact ⟨rfl, h.cancelled, .stopped here, h.saved⟩
  next other =>
    have same : (notify { s with store }).wake = s.wake := by simp [notify, other]
    exact ⟨rfl, h.cancelled, stands.mono rfl same fun _ => rfl, h.saved⟩

end Follows

end SharedStore

end BenchLedger
