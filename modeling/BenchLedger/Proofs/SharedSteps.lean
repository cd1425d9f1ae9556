import BenchLedger.Proofs.NameMapOrder
import BenchLedger.Session.SharedStore
import Mathlib.Data.List.Induction

/-!
The steps of a shared store. Main statements: `SharedStore.step?_eq_some`: what each step needs and
does, `SharedStore.run_induction`: what every step keeps holds after any run, and that an append or
a flush whose steps nothing interrupts is the one that a store makes alone.
-/

namespace BenchLedger

namespace SharedStore

section Fields

variable (s : SharedStore) (a : Nat) (c : FlushCall)

@[simp] theorem setAppend_self (stage : AppendStage) : (s.setAppend a stage).appends a = stage := by
  simp [setAppend]

@[simp] theorem setFlush_self (stage : FlushStage) : (s.setFlush c stage).flushes c = stage := by
  simp [setFlush]

theorem setAppend_of_ne {b : Nat} (other : b ≠ a) (stage : AppendStage) :
    (s.setAppend a stage).appends b = s.appends b := by
  simp [setAppend, other]

theorem setFlush_of_ne {b : FlushCall} (other : b ≠ c) (stage : FlushStage) :
    (s.setFlush c stage).flushes b = s.flushes b := by
  simp [setFlush, other]

end Fields

variable {requests : Nat → AppendRequest}

/-- What a step needs and does. -/
inductive Step (requests : Nat → AppendRequest) (s : SharedStore) :
    SharedEvent → SharedStore → Prop where
  | refuses {a : Nat} {rejection : Rejection} (idle : s.appends a = .idle)
      (why : HistoryStore.checkAppend (requests a).series (requests a).entry = .error rejection) :
      Step requests s (.appendBegins a) (s.setAppend a (.refused rejection))
  | begins {a : Nat} (idle : s.appends a = .idle)
      (fine : HistoryStore.checkAppend (requests a).series (requests a).entry = .ok ()) :
      Step requests s (.appendBegins a)
        ({ s with store := s.store.ensureSeries (requests a).series }.setAppend a .waiting)
  | writes {a : Nat} (waiting : s.appends a = .waiting) :
      Step requests s (.appendWrites a)
        ({ s with store := (s.store.write (requests a).series (requests a).entry).1 }.setAppend a
          (.written (s.store.write (requests a).series (requests a).entry).2.position))
  | returns {a : Nat} {position : Position} (written : s.appends a = .written position) :
      Step requests s (.appendReturns a)
        ({ s with store := s.store.count }.notify.setAppend a (.returned position))
  | asks {n : Nat} (idle : s.flushes (.explicit n) = .idle) :
      Step requests s (.flushBegins n) (s.setFlush (.explicit n) .queued)
  | locks {c : FlushCall} (queued : s.flushes c = .queued) (free : s.lock = none) :
      Step requests s (.flushLocks c) ({ s with lock := some c }.setFlush c .locked)
  | skips {c : FlushCall} (locked : s.flushes c = .locked) (settled : s.store.isSettled = true) :
      Step requests s (.flushReads c)
        ({ s with lock := none }.setFlush c (.finished none (.ok .clean)))
  | reads {c : FlushCall} (locked : s.flushes c = .locked)
      (unsettled : s.store.isSettled = false) :
      Step requests s (.flushReads c) (s.setFlush c (.listing s.store.generation))
  | lists {c : FlushCall} {generation : Nat} {now : Int} {order : List String}
      (listing : s.flushes c = .listing generation) (all : order.Perm s.store.seriesNames) :
      Step requests s (.flushLists c now order)
        (s.setFlush c (.collecting order ⟨generation, s.store.blankDocument now⟩))
  | collects {c : FlushCall} {name : String} {left : List String}
      {pending : HistoryStore.PendingFlush}
      (collecting : s.flushes c = .collecting (name :: left) pending) :
      Step requests s (.flushCollects c)
        (s.setFlush c (.collecting left
          { pending with document := pending.document.collect name (s.store.viewOf name) }))
  | sends {c : FlushCall} {pending : HistoryStore.PendingFlush}
      (collected : s.flushes c = .collecting [] pending) :
      Step requests s (.flushSends c) (s.setFlush c (.saving pending))
  | saveEnds {c : FlushCall} {pending : HistoryStore.PendingFlush}
      {ending : Except PersistenceError Unit} (saving : s.flushes c = .saving pending) :
      Step requests s (.saveEnds c ending)
        ((s.saves pending.document ending).setFlush c (.recording pending ending))
  | records {c : FlushCall} {pending : HistoryStore.PendingFlush}
      {ending : Except PersistenceError Unit} {now : Int}
      (recording : s.flushes c = .recording pending ending) :
      Step requests s (.flushRecords c now)
        ({ s with store := (s.store.endFlush pending now ending).1, lock := none }.setFlush c
          (.finished (some pending.document) (s.store.endFlush pending now ending).2))
  | wakes (waiting : s.flusher = .waiting) (kept : s.wake = true) :
      Step requests s .flusherWakes { s with flusher := .sleeping, wake := false }
  | flushes (sleeping : s.flusher = .sleeping) (dirty : s.store.isDirty = true) :
      Step requests s .flusherLooks
        ({ s with flusher := .flushing s.rounds, rounds := s.rounds + 1 }.setFlush
          (.round s.rounds) .queued)
  | rests (sleeping : s.flusher = .sleeping) (clean : s.store.isDirty = false) :
      Step requests s .flusherLooks { s with flusher := .waiting }
  | succeeds {round : Nat} {document : Option HistoryDocument} {outcome : FlushOutcome}
      (flushing : s.flusher = .flushing round)
      (finished : s.flushes (.round round) = .finished document (.ok outcome)) :
      Step requests s .flusherRests { s with flusher := .waiting }
  | fails {round : Nat} {document : Option HistoryDocument} {failure : Failure}
      (flushing : s.flusher = .flushing round)
      (finished : s.flushes (.round round) = .finished document (.error failure)) :
      Step requests s .flusherRests { s with flusher := .waiting, wake := true }
  | cancels : Step requests s .shutdownBegins { s with cancelled := true }
  | stops (resting : s.flusher = .waiting ∨ s.flusher = .sleeping)
      (cancelled : s.cancelled = true) :
      Step requests s .flusherStops { s with flusher := .stopped }

/-- The step function takes exactly the steps. -/
theorem step?_eq_some {s s' : SharedStore} {e : SharedEvent} :
    s.step? requests e = some s' ↔ Step requests s e s' := by
  constructor
  · intro h
    cases e with
    | appendBegins a =>
      simp only [step?] at h
      split at h
      next idle =>
        split at h
        next why => cases h; exact .refuses idle why
        next fine => cases h; exact .begins idle fine
      · cases h
    | appendWrites a =>
      simp only [step?] at h
      split at h
      next waiting => cases h; exact .writes waiting
      · cases h
    | appendReturns a =>
      simp only [step?] at h
      split at h
      next written => cases h; exact .returns written
      · cases h
    | flushBegins n =>
      simp only [step?] at h
      split at h
      next idle => cases h; exact .asks idle
      · cases h
    | flushLocks c =>
      simp only [step?] at h
      split at h
      next queued free => cases h; exact .locks queued free
      · cases h
    | flushReads c =>
      simp only [step?] at h
      split at h
      next locked =>
        split at h
        next settled => cases h; exact .skips locked settled
        next unsettled => cases h; exact .reads locked (by simpa using unsettled)
      · cases h
    | flushLists c now order =>
      simp only [step?] at h
      split at h
      next listing =>
        split at h
        next all => cases h; exact .lists listing (List.isPerm_iff.1 all)
        · cases h
      · cases h
    | flushCollects c =>
      simp only [step?] at h
      split at h
      next collecting => cases h; exact .collects collecting
      · cases h
    | flushSends c =>
      simp only [step?] at h
      split at h
      next collected => cases h; exact .sends collected
      · cases h
    | saveEnds c ending =>
      simp only [step?] at h
      split at h
      next saving => cases h; exact .saveEnds saving
      · cases h
    | flushRecords c now =>
      simp only [step?] at h
      split at h
      next recording => cases h; exact .records recording
      · cases h
    | flusherWakes =>
      simp only [step?] at h
      split at h
      next waiting =>
        split at h
        next kept => cases h; exact .wakes waiting kept
        · cases h
      · cases h
    | flusherLooks =>
      simp only [step?] at h
      split at h
      next sleeping =>
        split at h
        next dirty => cases h; exact .flushes sleeping dirty
        next clean => cases h; exact .rests sleeping (by simpa using clean)
      · cases h
    | flusherRests =>
      simp only [step?] at h
      split at h
      next flushing =>
        split at h
        next finished => cases h; exact .succeeds flushing finished
        next finished => cases h; exact .fails flushing finished
        · cases h
      · cases h
    | shutdownBegins => cases h; exact .cancels
    | flusherStops =>
      simp only [step?] at h
      split at h
      next waiting =>
        split at h
        next cancelled => cases h; exact .stops (.inl waiting) cancelled
        · cases h
      next sleeping =>
        split at h
        next cancelled => cases h; exact .stops (.inr sleeping) cancelled
        · cases h
      · cases h
  · intro step
    cases step with
    | stops resting cancelled => rcases resting with h | h <;> simp [step?, h, cancelled]
    | lists listing all => simp [step?, listing, List.isPerm_iff.2 all]
    | _ => simp [step?, *]

/-! ### Runs -/

theorem run?_append (s : SharedStore) (events later : List SharedEvent) :
    s.run? requests (events ++ later)
      = (s.run? requests events).bind fun t => t.run? requests later :=
  List.foldlM_append ..

theorem run?_cons_eq_some {s s' : SharedStore} {e : SharedEvent} {events : List SharedEvent} :
    s.run? requests (e :: events) = some s'
      ↔ ∃ t, Step requests s e t ∧ t.run? requests events = some s' := by
  simp only [run?, List.foldlM_cons, Option.bind_eq_bind, Option.bind_eq_some_iff, step?_eq_some]

theorem run?_append_eq_some {s s' : SharedStore} {events later : List SharedEvent} :
    s.run? requests (events ++ later) = some s'
      ↔ ∃ t, s.run? requests events = some t ∧ t.run? requests later = some s' := by
  rw [run?_append, Option.bind_eq_some_iff]

theorem run?_concat_eq_some {s s' : SharedStore} {events : List SharedEvent} {e : SharedEvent} :
    s.run? requests (events ++ [e]) = some s'
      ↔ ∃ t, s.run? requests events = some t ∧ Step requests t e s' := by
  simp only [run?_append_eq_some, run?_cons_eq_some]
  simp [run?]

/-- What holds at the start and is kept by every step holds after every run. -/
theorem run_induction {start : SharedStore} {P : List SharedEvent → SharedStore → Prop}
    (base : P [] start)
    (next : ∀ events s e s', start.run? requests events = some s → P events s →
      Step requests s e s' → P (events ++ [e]) s')
    {events : List SharedEvent} {s : SharedStore} (run : start.run? requests events = some s) :
    P events s := by
  induction events using List.reverseRecOn generalizing s with
  | nil =>
    cases run
    exact base
  | append_singleton events e ih =>
    obtain ⟨t, before, step⟩ := run?_concat_eq_some.1 run
    exact next events t e s before (ih before) step

/-! ### Moves of one task -/

/-- What a step of an append makes of its stage. -/
inductive AppendMove (a : Nat) : SharedEvent → AppendStage → AppendStage → Prop where
  | refuses {rejection : Rejection} : AppendMove a (.appendBegins a) .idle (.refused rejection)
  | begins : AppendMove a (.appendBegins a) .idle .waiting
  | writes {position : Position} : AppendMove a (.appendWrites a) .waiting (.written position)
  | returns {position : Position} :
      AppendMove a (.appendReturns a) (.written position) (.returned position)

private theorem move_setAppend {s : SharedStore} {a b : Nat} {old stage : AppendStage}
    {e : SharedEvent} (here : s.appends b = old) (move : AppendMove b e old stage) :
    (s.setAppend b stage).appends a = s.appends a ∨
      AppendMove a e (s.appends a) ((s.setAppend b stage).appends a) := by
  by_cases same : a = b
  · subst same
    rw [setAppend_self, here]
    exact .inr move
  · exact .inl (setAppend_of_ne _ _ same stage)

/-- A step leaves an append at its stage or is a step of it. -/
theorem append_of_step {s s' : SharedStore} {e : SharedEvent} (step : Step requests s e s')
    (a : Nat) :
    s'.appends a = s.appends a ∨ AppendMove a e (s.appends a) (s'.appends a) := by
  cases step with
  | refuses idle _ => exact move_setAppend idle .refuses
  | begins idle _ => exact move_setAppend idle .begins
  | writes waiting => exact move_setAppend waiting .writes
  | returns written => exact move_setAppend written .returns
  | @saveEnds _ _ ending _ => cases ending <;> exact .inl rfl
  | _ => exact .inl rfl

/-- The rounds of the background flusher that are still to come have not asked for a flush. -/
theorem round_idle {config : StoreConfig} {loaded : Option HistoryDocument}
    {events : List SharedEvent} (run : (ofDocument config loaded).run? requests events = some s) :
    ∀ round, s.rounds ≤ round → s.flushes (.round round) = .idle := by
  refine run_induction (P := fun _ s => ∀ round, s.rounds ≤ round →
    s.flushes (.round round) = .idle) ?_ ?_ run
  · exact fun _ _ => rfl
  · intro events s e s' _ h step round later
    have move {c : FlushCall} {stage old : FlushStage} (here : s.flushes c = old)
        (begun : old ≠ .idle) (later : s.rounds ≤ round) :
        (s.setFlush c stage).flushes (.round round) = .idle := by
      have other : FlushCall.round round ≠ c := by
        rintro rfl
        exact begun (here.symm.trans (h round later))
      rw [setFlush_of_ne _ _ other]
      exact h round later
    cases step with
    | locks queued _ => exact move queued (by simp) later
    | skips locked _ => exact move locked (by simp) later
    | reads locked _ => exact move locked (by simp) later
    | lists listing _ => exact move listing (by simp) later
    | collects collecting => exact move collecting (by simp) later
    | sends collected => exact move collected (by simp) later
    | @saveEnds _ _ ending saving => cases ending <;> exact move saving (by simp) later
    | records recording => exact move recording (by simp) later
    | flushes _ _ =>
      have other : FlushCall.round round ≠ .round s.rounds := by
        rintro ⟨⟩
        exact Nat.lt_irrefl _ later
      rw [setFlush_of_ne _ _ other]
      exact h round (Nat.le_of_succ_le later)
    | _ => exact h round later

/-- What a step of a flush makes of its stage. -/
inductive FlushMove (s : SharedStore) (c : FlushCall) :
    SharedEvent → FlushStage → FlushStage → Prop where
  | asks {e : SharedEvent} : FlushMove s c e .idle .queued
  | locks : FlushMove s c (.flushLocks c) .queued .locked
  | skips : FlushMove s c (.flushReads c) .locked (.finished none (.ok .clean))
  | reads : FlushMove s c (.flushReads c) .locked (.listing s.store.generation)
  | lists {generation : Nat} {now : Int} {order : List String}
      (all : order.Perm s.store.seriesNames) :
      FlushMove s c (.flushLists c now order) (.listing generation)
        (.collecting order ⟨generation, s.store.blankDocument now⟩)
  | collects {name : String} {left : List String} {pending : HistoryStore.PendingFlush} :
      FlushMove s c (.flushCollects c) (.collecting (name :: left) pending)
        (.collecting left
          { pending with document := pending.document.collect name (s.store.viewOf name) })
  | sends {pending : HistoryStore.PendingFlush} :
      FlushMove s c (.flushSends c) (.collecting [] pending) (.saving pending)
  | saveEnds {pending : HistoryStore.PendingFlush} {ending : Except PersistenceError Unit} :
      FlushMove s c (.saveEnds c ending) (.saving pending) (.recording pending ending)
  | records {pending : HistoryStore.PendingFlush} {ending : Except PersistenceError Unit}
      {now : Int} :
      FlushMove s c (.flushRecords c now) (.recording pending ending)
        (.finished (some pending.document) (s.store.endFlush pending now ending).2)

private theorem move_setFlush {s : SharedStore} {b c : FlushCall} {old stage : FlushStage}
    {e : SharedEvent} (here : s.flushes b = old) (move : FlushMove s b e old stage) :
    (s.setFlush b stage).flushes c = s.flushes c ∨
      FlushMove s c e (s.flushes c) ((s.setFlush b stage).flushes c) := by
  by_cases same : c = b
  · subst same
    rw [setFlush_self, here]
    exact .inr move
  · exact .inl (setFlush_of_ne _ _ same stage)

/-- A step leaves a flush at its stage or is a step of it. -/
theorem flush_of_step {s s' : SharedStore} {e : SharedEvent} (step : Step requests s e s')
    (fresh : s.flushes (.round s.rounds) = .idle) (c : FlushCall) :
    s'.flushes c = s.flushes c ∨ FlushMove s c e (s.flushes c) (s'.flushes c) := by
  cases step with
  | asks idle => exact move_setFlush idle .asks
  | locks queued _ => exact move_setFlush queued .locks
  | skips locked _ => exact move_setFlush locked .skips
  | reads locked _ => exact move_setFlush locked .reads
  | lists listing all => exact move_setFlush listing (.lists all)
  | collects collecting => exact move_setFlush collecting .collects
  | sends collected => exact move_setFlush collected .sends
  | @saveEnds _ _ ending saving => cases ending <;> exact move_setFlush saving .saveEnds
  | records recording => exact move_setFlush recording .records
  | flushes _ _ => exact move_setFlush fresh .asks
  | _ => exact .inl rfl

end SharedStore

/-! ### Appends that nothing interrupts -/

namespace HistoryStore

@[simp] theorem getD_ensureSeries (s : HistoryStore) (series name : String) :
    ((s.ensureSeries series).series.get? name).getD .empty
      = (s.series.get? name).getD .empty := by
  unfold ensureSeries
  split
  · rfl
  next new =>
    have missing : s.series.get? series = none := by
      simpa [NameMap.contains] using new
    rw [NameMap.get?_insert]
    split
    next same => simp [same, missing]
    · rfl

/-- An append has its series, writes to it and counts. -/
theorem put_eq (s : HistoryStore) (series : String) (e : CommitEntry) :
    s.put series e = (((s.ensureSeries series).write series e).1.count,
      ((s.ensureSeries series).write series e).2) := by
  have same : (s.ensureSeries series).series.insert series
        (((s.series.get? series).getD .empty).upsert e).1
      = s.series.insert series (((s.series.get? series).getD .empty).upsert e).1 := by
    refine NameMap.ext_get? fun name => ?_
    simp only [NameMap.get?_insert]
    split
    · rfl
    next other =>
      unfold ensureSeries
      split
      · rfl
      · exact NameMap.get?_insert_of_ne _ _ other
  simp only [put, write, count, getD_ensureSeries, same]
  unfold ensureSeries
  split <;> rfl

end HistoryStore

namespace SharedStore

variable {requests : Nat → AppendRequest}

/-- An append that nothing interrupts does what a store does alone, and wakes the flusher. -/
theorem run_append_alone {s : SharedStore} {a : Nat} (idle : s.appends a = .idle)
    {store : HistoryStore} {position : Position}
    (accepted : s.store.append (requests a).series (requests a).entry = .ok (store, position)) :
    s.run? requests [.appendBegins a, .appendWrites a, .appendReturns a]
      = some ({ s with store }.notify.setAppend a (.returned position)) := by
  unfold HistoryStore.append at accepted
  split at accepted
  · cases accepted
  next fine =>
    rw [HistoryStore.put_eq] at accepted
    cases accepted
    refine run?_cons_eq_some.2 ⟨_, .begins idle fine, run?_cons_eq_some.2
      ⟨_, .writes (setAppend_self ..), run?_cons_eq_some.2 ⟨_, .returns (setAppend_self ..), ?_⟩⟩⟩
    -- Only the last stage of the call is left.
    have last (other : Nat) (before stage : AppendStage) :
        (if other = a then stage else if other = a then before else s.appends other)
          = if other = a then stage else s.appends other := by
      split <;> rfl
    simp only [setAppend, notify, last]
    rfl

end SharedStore

/-! ### Flushes that nothing interrupts -/

namespace HistoryStore

/-- What readers see of all series. -/
def views (s : HistoryStore) : NameMap (List CommitEntry) :=
  s.series.map fun _ series => series.view

theorem get?_views (s : HistoryStore) (name : String) :
    s.views.get? name = if name ∈ s.seriesNames then some (s.viewOf name) else none := by
  simp only [views, NameMap.get?_map, seriesNames, NameMap.mem_names, viewOf]
  cases s.series.get? name <;> rfl

theorem get?_views_eq_getSeries (s : HistoryStore) (name : String) :
    s.views.get? name = (s.getSeries name).toOption.map SeriesSnapshot.entries := by
  simp only [views, NameMap.get?_map, getSeries]
  cases s.series.get? name <;> rfl

/-- The document after collecting some series. -/
private theorem get?_collect (s : HistoryStore) (names : List String) (d : HistoryDocument)
    (name : String) :
    (names.foldl (fun d name => d.collect name (s.viewOf name)) d).entries.get? name
      = if name ∈ names then some (s.viewOf name) else d.entries.get? name := by
  induction names generalizing d with
  | nil => simp
  | cons first rest ih =>
    rw [List.foldl_cons, ih]
    by_cases later : name ∈ rest
    · simp [later]
    · by_cases here : name = first
      · simp [here, HistoryDocument.collect]
      · simp [later, here, HistoryDocument.collect, NameMap.get?_insert]

private theorem collect_frame (s : HistoryStore) (names : List String) (d : HistoryDocument) :
    names.foldl (fun d name => d.collect name (s.viewOf name)) d
      = { d with entries :=
          (names.foldl (fun d name => d.collect name (s.viewOf name)) d).entries } := by
  induction names generalizing d with
  | nil => rfl
  | cons first rest ih => exact ih _

/-- Collecting all series one by one, in whatever order, gives the document of the store. -/
theorem collect_all (s : HistoryStore) {order : List String} (all : order.Perm s.seriesNames)
    (now : Int) :
    order.foldl (fun d name => d.collect name (s.viewOf name)) (s.blankDocument now)
      = s.document now := by
  have entries : (order.foldl (fun d name => d.collect name (s.viewOf name))
      (s.blankDocument now)).entries = s.views := by
    refine NameMap.ext_get? fun name => ?_
    simp only [get?_collect, get?_views, all.mem_iff, blankDocument, NameMap.get?_empty]
  rw [collect_frame, entries]
  rfl

end HistoryStore

namespace SharedStore

variable {requests : Nat → AppendRequest}

@[simp] theorem setFlush_setFlush (s : SharedStore) (c : FlushCall) (stage later : FlushStage) :
    (s.setFlush c stage).setFlush c later = s.setFlush c later := by
  simp only [setFlush, SharedStore.mk.injEq, true_and, and_true]
  funext other
  split <;> rfl

/-- Collecting that nothing interrupts. -/
private theorem run_collect (s : SharedStore) (c : FlushCall) (left : List String)
    (pending : HistoryStore.PendingFlush) :
    (s.setFlush c (.collecting left pending)).run? requests
        (List.replicate left.length (.flushCollects c))
      = some (s.setFlush c (.collecting [] { pending with
          document := left.foldl (fun d name => d.collect name (s.store.viewOf name))
            pending.document })) := by
  induction left generalizing pending with
  | nil => rfl
  | cons name left ih =>
    refine run?_cons_eq_some.2 ⟨_, .collects (setFlush_self ..), ?_⟩
    rw [setFlush_setFlush]
    exact ih _

/-- A flush that nothing interrupts before its save collects what a store does alone. -/
theorem run_beginFlush {s : SharedStore} {c : FlushCall} (queued : s.flushes c = .queued)
    (free : s.lock = none) {now : Int} {pending : HistoryStore.PendingFlush}
    (begun : s.store.beginFlush now = some pending) {order : List String}
    (all : order.Perm s.store.seriesNames) :
    s.run? requests ([.flushLocks c, .flushReads c, .flushLists c now order] ++
        List.replicate order.length (.flushCollects c) ++ [.flushSends c])
      = some ({ s with lock := some c }.setFlush c (.saving pending)) := by
  unfold HistoryStore.beginFlush at begun
  split at begun
  · cases begun
  next unsettled =>
    cases begun
    have listed : s.run? requests [.flushLocks c, .flushReads c, .flushLists c now order]
        = some ({ s with lock := some c }.setFlush c
            (.collecting order ⟨s.store.generation, s.store.blankDocument now⟩)) := by
      refine run?_cons_eq_some.2 ⟨_, .locks queued free, run?_cons_eq_some.2
        ⟨_, .reads (setFlush_self ..) (Bool.eq_false_iff.2 unsettled), run?_cons_eq_some.2
          ⟨_, .lists (setFlush_self ..) all, ?_⟩⟩⟩
      simp only [setFlush_setFlush]
      rfl
    simp only [run?_append, listed, Option.bind_some, run_collect,
      HistoryStore.collect_all s.store all]
    refine run?_cons_eq_some.2 ⟨_, .sends (setFlush_self ..), ?_⟩
    rw [setFlush_setFlush]
    rfl

/-- A flush with nothing to do returns after its read. -/
theorem run_skipFlush {s : SharedStore} {c : FlushCall} (queued : s.flushes c = .queued)
    (free : s.lock = none) {now : Int} (begun : s.store.beginFlush now = none) :
    s.run? requests [.flushLocks c, .flushReads c]
      = some (s.setFlush c (.finished none (.ok .clean))) := by
  unfold HistoryStore.beginFlush at begun
  split at begun
  next settled =>
    refine run?_cons_eq_some.2 ⟨_, .locks queued free, run?_cons_eq_some.2
      ⟨_, .skips (setFlush_self ..) settled, ?_⟩⟩
    have released : { { s with lock := some c }.setFlush c .locked with lock := none }
        = s.setFlush c .locked := by
      simp only [setFlush, free]
    rw [released, setFlush_setFlush]
    rfl
  · cases begun

/-- The end of a save and its record end a flush as a store does alone. -/
theorem run_endFlush {s : SharedStore} {c : FlushCall} {pending : HistoryStore.PendingFlush}
    (saving : s.flushes c = .saving pending) (ending : Except PersistenceError Unit) (now : Int) :
    s.run? requests [.saveEnds c ending, .flushRecords c now]
      = some ({ s.saves pending.document ending with
          store := (s.store.endFlush pending now ending).1, lock := none }.setFlush c
            (.finished (some pending.document) (s.store.endFlush pending now ending).2)) := by
  refine run?_cons_eq_some.2 ⟨_, .saveEnds saving, run?_cons_eq_some.2
    ⟨_, .records (setFlush_self ..), ?_⟩⟩
  have once (t : SharedStore) := setFlush_setFlush t c (.recording pending ending)
  cases ending with
  | ok done =>
    exact congrArg some (once { s with
      store := (s.store.endFlush pending now (.ok done)).1
      saved := s.saved ++ [pending.document]
      lock := none } _)
  | error error =>
    exact congrArg some (once { s with
      store := (s.store.endFlush pending now (.error error)).1
      lock := none } _)

end SharedStore

end BenchLedger
