import BenchLedger.Proofs.SharedSteps

/-!
What holds of a shared store at any time. Main statement: `SharedStore.coherent_run`: the flush lock
has one owner, a flush that has read the generation has collected the store as it is unless appends
have disturbed it since, and so has the document that was saved last.
-/

namespace BenchLedger

/-- Whether a flush at this stage has the flush lock. -/
def FlushStage.holdsLock : FlushStage → Bool
  | .locked | .listing _ | .collecting .. | .saving _ | .recording .. => true
  | .idle | .queued | .finished .. => false

namespace SharedStore

variable {requests : Nat → AppendRequest} {s s' : SharedStore}

/-! ### What a flush has collected -/

/-- Whether the store may differ from what it was when it had counted `generation` appends. -/
def Disturbed (s : SharedStore) (generation : Nat) : Prop :=
  generation < s.store.generation ∨ ∃ a, (s.appends a).inProgress = true

/-- A document agrees with the store in all series but those still to be collected, unless the
store was disturbed. -/
def Collected (s : SharedStore) (pending : HistoryStore.PendingFlush) (left : List String) : Prop :=
  s.Disturbed pending.generation ∨
    (∀ name ∈ left, name ∈ s.store.seriesNames) ∧
      ∀ name, name ∈ left ∨ pending.document.entries.get? name = s.store.views.get? name

/-- A generation that was read by a flush that had something to do. -/
def Pending (s : SharedStore) (generation : Nat) : Prop :=
  s.store.flushed < generation ∧ generation ≤ s.store.generation

/-- What is known about a flush at a stage. -/
def Sound (s : SharedStore) : FlushStage → Prop
  | .idle | .queued | .locked => True
  | .listing generation => s.Pending generation
  | .collecting left pending => s.Pending pending.generation ∧ s.Collected pending left
  | .saving pending => s.Pending pending.generation ∧ s.Collected pending []
  | .recording pending ending =>
    s.Pending pending.generation ∧ s.Collected pending [] ∧
      (ending = .ok () → s.saved.getLast? = some pending.document)
  | .finished document result =>
    ∀ series entries, result = .ok (.written series entries) →
      ∃ d, document = some d ∧ d ∈ s.saved ∧ series = d.entries.size ∧ entries = d.entryCount

/-- What holds of a shared store at any time. -/
structure Coherent (s : SharedStore) : Prop where
  counted : s.store.flushed ≤ s.store.generation
  failed : s.store.lastError.isSome = true → s.store.flushed < s.store.generation
  exclusive : ∀ c, (s.flushes c).holdsLock = true → s.lock = some c
  sound : ∀ c, s.Sound (s.flushes c)
  -- Once a flush has succeeded, what was saved last is what readers see, unless it is disturbed.
  lastSaved : 0 < s.store.flushed →
    s.Disturbed s.store.flushed ∨ ∃ d, s.saved.getLast? = some d ∧ d.entries = s.store.views

/-- A step that neither saves nor records. If it changes series, it disturbs. -/
structure Quiet (s s' : SharedStore) : Prop where
  flushed : s'.store.flushed = s.store.flushed
  lastError : s'.store.lastError = s.store.lastError
  saved : s'.saved = s.saved
  generation : s.store.generation ≤ s'.store.generation
  series : ∀ generation ≤ s.store.generation, s'.Disturbed generation ∨
    ¬s.Disturbed generation ∧ s'.store.series = s.store.series

theorem Quiet.of_store (store : s'.store = s.store) (appends : s'.appends = s.appends)
    (saved : s'.saved = s.saved) : Quiet s s' where
  flushed := by rw [store]
  lastError := by rw [store]
  saved := saved
  generation := Nat.le_of_eq (by rw [store])
  series generation _ := by
    unfold Disturbed
    rw [store, appends]
    by_cases disturbed : generation < s.store.generation ∨ ∃ a, (s.appends a).inProgress = true
    · exact .inl disturbed
    · exact .inr ⟨disturbed, rfl⟩

theorem Collected.mono {pending : HistoryStore.PendingFlush} {left : List String}
    (h : s.Collected pending left) (known : pending.generation ≤ s.store.generation)
    (quiet : Quiet s s') : s'.Collected pending left := by
  rcases quiet.series _ known with disturbed | ⟨calm, same⟩
  · exact .inl disturbed
  · have collected := h.resolve_left calm
    simp only [Collected, HistoryStore.views, HistoryStore.seriesNames, same]
    exact .inr collected

theorem Pending.mono {generation : Nat} (h : s.Pending generation) (quiet : Quiet s s') :
    s'.Pending generation :=
  ⟨by rw [quiet.flushed]; exact h.1, Nat.le_trans h.2 quiet.generation⟩

theorem Sound.mono {stage : FlushStage} (h : s.Sound stage) (quiet : Quiet s s') :
    s'.Sound stage := by
  cases stage with
  | idle => trivial
  | queued => trivial
  | locked => trivial
  | listing generation => exact Pending.mono h quiet
  | collecting left pending => exact ⟨h.1.mono quiet, h.2.mono h.1.2 quiet⟩
  | saving pending => exact ⟨h.1.mono quiet, h.2.mono h.1.2 quiet⟩
  | recording pending ending =>
    refine ⟨h.1.mono quiet, h.2.1.mono h.1.2 quiet, ?_⟩
    rw [quiet.saved]
    exact h.2.2
  | finished document result =>
    simp only [Sound, quiet.saved]
    exact h

/-- What a flush that does not have the lock knows is about the saved documents only. -/
theorem Sound.of_unlocked {stage : FlushStage} (h : s.Sound stage)
    (unlocked : stage.holdsLock = false) (saved : ∀ d ∈ s.saved, d ∈ s'.saved) :
    s'.Sound stage := by
  cases stage with
  | idle => trivial
  | queued => trivial
  | finished document result =>
    intro series entries written
    obtain ⟨d, here, member, sizes⟩ := h series entries written
    exact ⟨d, here, saved d member, sizes⟩
  | _ => cases unlocked

namespace Coherent

theorem sound_at (h : Coherent s) {c : FlushCall} {stage : FlushStage}
    (here : s.flushes c = stage) : s.Sound stage :=
  here ▸ h.sound c

theorem mine (h : Coherent s) {c : FlushCall} {stage : FlushStage} (here : s.flushes c = stage)
    (holds : stage.holdsLock = true) : s.lock = some c :=
  h.exclusive c (by rw [here]; exact holds)

theorem unlocked (h : Coherent s) {c : FlushCall} (other : s.lock ≠ some c) :
    (s.flushes c).holdsLock = false := by
  by_contra holds
  exact other (h.exclusive c (by simpa using holds))

theorem of_quiet (h : Coherent s) (quiet : Quiet s s') (flushes : s'.flushes = s.flushes)
    (lock : s'.lock = s.lock) : Coherent s' where
  counted := by
    rw [quiet.flushed]
    exact Nat.le_trans h.counted quiet.generation
  failed := by
    rw [quiet.flushed, quiet.lastError]
    exact fun failed => Nat.lt_of_lt_of_le (h.failed failed) quiet.generation
  exclusive := by
    rw [flushes, lock]
    exact h.exclusive
  sound c := by
    rw [flushes]
    exact (h.sound c).mono quiet
  lastSaved := by
    rw [quiet.flushed, quiet.saved]
    intro some
    rcases quiet.series _ h.counted with disturbed | ⟨calm, same⟩
    · exact .inl disturbed
    · have last := (h.lastSaved some).resolve_left calm
      simp only [HistoryStore.views, same]
      exact .inr last

/-- A flush goes to another stage, and may take the lock or give it back. -/
theorem move (h : Coherent s) (c : FlushCall) {stage : FlushStage} (lock : Option FlushCall)
    (sound : s.Sound stage) (own : stage.holdsLock = true → lock = some c)
    (others : ∀ b, b ≠ c → s.lock = some b → lock = some b) :
    Coherent ({ s with lock }.setFlush c stage) where
  counted := h.counted
  failed := h.failed
  exclusive b := by
    by_cases same : b = c
    · subst same
      rw [setFlush_self]
      exact own
    · rw [setFlush_of_ne _ _ same]
      exact fun holds => others b same (h.exclusive b holds)
  sound b := by
    have quiet : Quiet s ({ s with lock }.setFlush c stage) := .of_store rfl rfl rfl
    by_cases same : b = c
    · subst same
      rw [setFlush_self]
      exact sound.mono quiet
    · rw [setFlush_of_ne _ _ same]
      exact (h.sound b).mono quiet
  lastSaved := h.lastSaved

/-- A save succeeds while its flush has the lock. -/
theorem save (h : Coherent s) {c : FlushCall} {pending : HistoryStore.PendingFlush}
    (saving : s.flushes c = .saving pending) :
    Coherent { s with saved := s.saved ++ [pending.document] } where
  counted := h.counted
  failed := h.failed
  exclusive := h.exclusive
  sound b := by
    have grown : ∀ d ∈ s.saved, d ∈ s.saved ++ [pending.document] := by
      intro d member
      exact List.mem_append_left _ member
    by_cases same : b = c
    · subst same
      rw [saving]
      exact h.sound_at saving
    · -- No other flush has the lock, as this one has it.
      have other : s.lock ≠ some b := by
        rw [h.mine saving rfl]
        exact fun theirs => same (Option.some.inj theirs).symm
      exact (h.sound b).of_unlocked (h.unlocked other) grown
  lastSaved _ := by
    -- The generation flushed last is behind the one that this flush has read.
    obtain ⟨known, _⟩ := h.sound_at saving
    exact .inl (.inl (Nat.lt_of_lt_of_le known.1 known.2))

/-- A save is recorded after its flush has given the lock back. -/
theorem record (h : Coherent s) (free : s.lock = none) {pending : HistoryStore.PendingFlush}
    {ending : Except PersistenceError Unit} (known : s.Pending pending.generation)
    (collected : s.Collected pending [])
    (last : ending = .ok () → s.saved.getLast? = some pending.document) (now : Int) :
    Coherent { s with store := (s.store.endFlush pending now ending).1 } := by
  -- With the lock free, no flush knows anything about the generations, which change here.
  have unlocked (b : FlushCall) : (s.flushes b).holdsLock = false :=
    h.unlocked (by simp [free])
  have sound (b : FlushCall) :
      Sound { s with store := (s.store.endFlush pending now ending).1 } (s.flushes b) :=
    (h.sound b).of_unlocked (unlocked b) fun _ => id
  cases ending with
  | ok done =>
    refine ⟨known.2, by simp [HistoryStore.endFlush], h.exclusive, sound, fun _ => ?_⟩
    rcases collected with disturbed | ⟨_, same⟩
    · exact .inl disturbed
    · have entries : pending.document.entries = s.store.views :=
        NameMap.ext_get? fun name => (same name).resolve_left List.not_mem_nil
      exact .inr ⟨pending.document, last rfl, entries⟩
  | error error =>
    exact ⟨h.counted, fun _ => Nat.lt_of_lt_of_le known.1 known.2, h.exclusive, sound, h.lastSaved⟩

/-- The lock holder goes to another stage of its flush. -/
theorem advance (h : Coherent s) {c : FlushCall} {stage : FlushStage} (old : FlushStage)
    (here : s.flushes c = old) (holds : old.holdsLock = true) (sound : s.Sound stage) :
    Coherent (s.setFlush c stage) :=
  h.move c s.lock sound (fun _ => h.mine here holds) fun _ _ => id

/-- The lock holder gives the lock back. -/
theorem release (h : Coherent s) {c : FlushCall} {stage : FlushStage} (old : FlushStage)
    (here : s.flushes c = old) (holds : old.holdsLock = true) (sound : s.Sound stage)
    (free : stage.holdsLock = false) : Coherent ({ s with lock := none }.setFlush c stage) := by
  refine h.move c none sound (fun locked => ?_) fun b other theirs => ?_
  · rw [free] at locked
    cases locked
  · rw [h.mine here holds] at theirs
    exact absurd (Option.some.inj theirs).symm other

end Coherent

/-! ### Steps -/

/-- A step of an append that is then in progress. -/
theorem Quiet.of_busy {store : HistoryStore} (a : Nat) {stage : AppendStage}
    (flushed : store.flushed = s.store.flushed) (lastError : store.lastError = s.store.lastError)
    (generation : store.generation = s.store.generation) (busy : stage.inProgress = true) :
    Quiet s ({ s with store }.setAppend a stage) where
  flushed := flushed
  lastError := lastError
  saved := rfl
  generation := Nat.le_of_eq generation.symm
  series _ _ := .inl (.inr ⟨a, by simpa using busy⟩)

theorem Quiet.of_refusal {a : Nat} (idle : s.appends a = .idle) (rejection : Rejection) :
    Quiet s (s.setAppend a (.refused rejection)) where
  flushed := rfl
  lastError := rfl
  saved := rfl
  generation := Nat.le_refl _
  series generation _ := by
    -- The call was not in progress before, so another one still is.
    by_cases disturbed : s.Disturbed generation
    · refine .inl (disturbed.imp id ?_)
      rintro ⟨b, busy⟩
      have other : b ≠ a := by
        rintro rfl
        rw [idle] at busy
        cases busy
      exact ⟨b, by rw [setAppend_of_ne _ _ other]; exact busy⟩
    · exact .inr ⟨disturbed, rfl⟩

theorem Quiet.of_return (a : Nat) (position : Position) :
    Quiet s ({ s with store := s.store.count }.notify.setAppend a (.returned position)) where
  flushed := rfl
  lastError := rfl
  saved := rfl
  generation := Nat.le_succ _
  series _ known := .inl (.inl (Nat.lt_succ_of_le known))

theorem ensureSeries_frame (s : HistoryStore) (series : String) :
    (s.ensureSeries series).flushed = s.flushed ∧ (s.ensureSeries series).lastError = s.lastError ∧
      (s.ensureSeries series).generation = s.generation := by
  unfold HistoryStore.ensureSeries
  split <;> exact ⟨rfl, rfl, rfl⟩

/-- A flush that has listed the series has collected none of them. -/
theorem collected_blank (generation : Nat) (now : Int) {order : List String}
    (all : order.Perm s.store.seriesNames) :
    s.Collected ⟨generation, s.store.blankDocument now⟩ order := by
  refine .inr ⟨fun name => all.mem_iff.1, fun name => ?_⟩
  rw [HistoryStore.get?_views, all.mem_iff]
  by_cases known : name ∈ s.store.seriesNames
  · exact .inl known
  · rw [if_neg known]
    exact .inr rfl

theorem Collected.collect {pending : HistoryStore.PendingFlush} {name : String}
    {left : List String} (h : s.Collected pending (name :: left)) :
    s.Collected { pending with
      document := pending.document.collect name (s.store.viewOf name) } left := by
  rcases h with disturbed | ⟨known, same⟩
  · exact .inl disturbed
  refine .inr ⟨fun other member => known other (List.mem_cons_of_mem _ member), fun other => ?_⟩
  simp only [HistoryDocument.collect, NameMap.get?_insert]
  split
  next here =>
    rw [here, HistoryStore.get?_views, if_pos (known name List.mem_cons_self)]
    exact .inr rfl
  next elsewhere => simpa [elsewhere] using same other

theorem generation_of_step {e : SharedEvent} (step : Step requests s e s') :
    s.store.generation ≤ s'.store.generation := by
  cases step with
  | begins _ _ => exact Nat.le_of_eq (ensureSeries_frame s.store _).2.2.symm
  | returns _ => exact Nat.le_succ _
  | @saveEnds _ _ ending _ => cases ending <;> exact Nat.le_refl _
  | @records _ _ ending _ _ => cases ending <;> exact Nat.le_refl _
  | _ => exact Nat.le_refl _

namespace Coherent

theorem start (config : StoreConfig) (loaded : Option HistoryDocument) :
    Coherent (ofDocument config loaded) where
  counted := Nat.le_refl _
  failed failed := by cases failed
  exclusive c holds := by cases holds
  sound c := trivial
  lastSaved some := absurd some (Nat.lt_irrefl 0)

/-- A flush that has something to do reads a later generation than the one flushed last. -/
theorem pending_of_unsettled (h : Coherent s) (unsettled : s.store.isSettled = false) :
    s.Pending s.store.generation := by
  refine ⟨?_, Nat.le_refl _⟩
  simp only [HistoryStore.isSettled, Bool.and_eq_false_iff, Bool.not_eq_false',
    Option.isNone_eq_false_iff] at unsettled
  -- A store whose last flush failed is dirty, too.
  rcases unsettled with dirty | failed
  · have differ : s.store.generation ≠ s.store.flushed := by
      simpa [HistoryStore.isDirty] using dirty
    have counted := h.counted
    omega
  · exact h.failed failed

theorem step {e : SharedEvent} (h : Coherent s) (step : Step requests s e s') : Coherent s' := by
  cases step with
  | refuses idle _ => exact h.of_quiet (.of_refusal idle _) rfl rfl
  | begins _ _ =>
    obtain ⟨flushed, lastError, generation⟩ := ensureSeries_frame s.store _
    exact h.of_quiet (.of_busy _ flushed lastError generation rfl) rfl rfl
  | writes _ => exact h.of_quiet (.of_busy _ rfl rfl rfl rfl) rfl rfl
  | returns _ => exact h.of_quiet (.of_return _ _) rfl rfl
  | asks _ => exact h.move _ s.lock trivial (fun holds => by cases holds) fun _ _ => id
  | locks _ free =>
    refine h.move _ _ trivial (fun _ => rfl) fun b _ theirs => ?_
    rw [free] at theirs
    cases theirs
  | skips locked _ =>
    exact h.release _ locked rfl (fun _ _ written => by cases written) rfl
  | reads locked unsettled =>
    exact h.advance _ locked rfl (h.pending_of_unsettled unsettled)
  | lists listing all =>
    have known := h.sound_at listing
    exact h.advance _ listing rfl ⟨known, collected_blank _ _ all⟩
  | collects collecting =>
    obtain ⟨known, collected⟩ := h.sound_at collecting
    exact h.advance _ collecting rfl ⟨known, collected.collect⟩
  | sends collected =>
    have sound := h.sound_at collected
    exact h.advance _ collected rfl sound
  | @saveEnds c pending ending saving =>
    obtain ⟨known, collected⟩ := h.sound_at saving
    cases ending with
    | ok done =>
      exact (h.save saving).advance _ saving rfl
        ⟨known, collected, fun _ => List.getLast?_concat⟩
    | error error =>
      exact h.advance _ saving rfl ⟨known, collected, fun succeeded => by cases succeeded⟩
  | @records c pending ending now recording =>
    obtain ⟨known, collected, last⟩ := h.sound_at recording
    have finished : s.Sound (.finished (some pending.document)
        (s.store.endFlush pending now ending).2) := by
      intro series entries written
      cases ending with
      | ok done =>
        cases written
        exact ⟨_, rfl, List.mem_of_getLast? (last rfl), rfl, rfl⟩
      | error error => cases written
    -- The flush returns first, so that nothing is known of its generation when this is recorded.
    have released := h.release _ recording rfl finished rfl
    exact released.record rfl known collected last now
  | flushes _ _ =>
    have begun : Coherent { s with flusher := .flushing s.rounds, rounds := s.rounds + 1 } :=
      h.of_quiet (.of_store rfl rfl rfl) rfl rfl
    refine begun.move (.round s.rounds) s.lock ?_ ?_ fun _ _ => id
    · trivial
    · exact fun holds => by cases holds
  | _ => exact h.of_quiet (.of_store rfl rfl rfl) rfl rfl

end Coherent

/-! ### Runs -/

theorem coherent_run {config : StoreConfig} {loaded : Option HistoryDocument}
    {events : List SharedEvent} (run : (ofDocument config loaded).run? requests events = some s) :
    Coherent s :=
  run_induction (P := fun _ s => Coherent s) (.start config loaded)
    (fun _ _ _ _ _ h step => h.step step) run

end SharedStore

end BenchLedger
