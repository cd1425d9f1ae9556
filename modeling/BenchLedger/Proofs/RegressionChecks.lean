import BenchLedger.Proofs.AppendedEntries
import BenchLedger.Proofs.Comparisons
import BenchLedger.Proofs.SignedDoubles

/-!
What the comparison of the newest value of a benchmark with a baseline answers. Main statement:
`Session.regression_answers`: whatever a session has gone through, the comparison gives the answer
that is specified for its arguments, and no other one.
-/

namespace BenchLedger

/-! ### Thresholds -/

/-- A threshold is finite and not negative. -/
def ProperThreshold (threshold : Float) : Prop :=
  threshold.isFinite = true ∧ ¬threshold < 0.0

theorem validateThreshold_of_proper {threshold : Float} (proper : ProperThreshold threshold) :
    validateThreshold threshold = .ok () := by
  simp [validateThreshold, proper.1, proper.2]

theorem validateThreshold_of_improper {threshold : Float} (improper : ¬ProperThreshold threshold) :
    validateThreshold threshold = .error (.badThreshold threshold) := by
  unfold ProperThreshold at improper
  unfold validateThreshold
  by_cases finite : threshold.isFinite = true
  · have negative : threshold < 0.0 := Classical.not_not.1 fun fine => improper ⟨finite, fine⟩
    simp [negative]
  · simp [finite]

/-- A change goes beyond a threshold in the direction in which values get worse. -/
def Polarity.Exceeded (polarity : Polarity) (change threshold : Float) : Prop :=
  match polarity with
  | .higherIsWorse => threshold < change
  | .higherIsBetter => change < -threshold

theorem isWorse_iff {change threshold : Float} {polarity : Polarity} :
    isWorse change threshold polarity = true ↔ polarity.Exceeded change threshold := by
  cases polarity with
  | higherIsWorse => exact decide_eq_true_iff
  | higherIsBetter => exact decide_eq_true_iff.trans Decimal.lt_neg

/-! ### Newest entries -/

/-- The search from the back finds the newest entry that carries a benchmark. -/
theorem newestWith?_of_newest {s : SeriesSnapshot} {benchmark : String} {newest : CommitEntry}
    {record : BenchmarkRecord} (last : s.Newest benchmark newest)
    (carried : newest.bench? benchmark = some record) :
    newestWith? s benchmark = some (newest, record) := by
  obtain ⟨_, earlier, later, entries, absent⟩ := last
  unfold newestWith?
  rw [entries, List.reverse_append, List.reverse_cons, List.append_assoc, List.findSome?_append]
  have none :
      later.reverse.findSome? (fun e => (e.bench? benchmark).map fun r => (e, r)) = none := by
    rw [List.findSome?_eq_none_iff]
    intro e member
    rw [absent e (List.mem_reverse.1 member)]
    rfl
  rw [none]
  simp [carried]

/-! ### Look-ups that fail -/

theorem findCommit_of_absent {s : SeriesSnapshot} {commit : String}
    (unknown : ∀ e ∈ s.entries, e.id ≠ commit) :
    findCommit s commit = .error (.missing (.commit s.name commit)) := by
  have none : s.find? commit = none := by
    unfold SeriesSnapshot.find?
    rw [List.find?_eq_none]
    simpa using unknown
  rw [findCommit, none]

theorem regressionCheck_of_absent {s : SeriesSnapshot} {benchmark baseline : String}
    {before : CommitEntry} (found : findCommit s baseline = .ok before)
    (unknown : ∀ r ∈ before.benches, r.name ≠ benchmark) (threshold : Float)
    (polarity : Option Polarity) :
    regressionCheck s benchmark baseline threshold polarity
      = .error (.missing (.benchmark (s.name ++ "@" ++ baseline) benchmark)) := by
  have none : before.bench? benchmark = none := by
    unfold CommitEntry.bench?
    rw [List.find?_eq_none]
    simpa using unknown
  unfold regressionCheck
  rw [found]
  dsimp only [bind, Except.bind]
  rw [none]

/-! ### Answers -/

/-- An entry of a commit in a series, as readers see the series. -/
structure HistoryStore.Shows (s : HistoryStore) (series commit : String)
    (snapshot : SeriesSnapshot) (e : CommitEntry) : Prop where
  here : s.getSeries series = .ok snapshot
  member : e ∈ snapshot.entries
  id : e.id = commit

/-- What is to be answered when the newest value of a benchmark is compared with the one at a
baseline commit. Every reason to refuse counts only if none of those before it applies. -/
inductive RegressionAnswer (s : HistoryStore) (series benchmark baseline : String)
    (threshold : Float) (polarity : Option Polarity) : Except Failure RegressionResult → Prop where
  | badThreshold (improper : ¬ProperThreshold threshold) :
    RegressionAnswer s series benchmark baseline threshold polarity
      (.error (.rejected (.badThreshold threshold)))
  | noSeries (proper : ProperThreshold threshold) (unknown : series ∉ s.seriesNames) :
    RegressionAnswer s series benchmark baseline threshold polarity
      (.error (.missing (.series series)))
  | noCommit {snapshot : SeriesSnapshot} (proper : ProperThreshold threshold)
    (here : s.getSeries series = .ok snapshot)
    (unknown : ∀ e ∈ snapshot.entries, e.id ≠ baseline) :
    RegressionAnswer s series benchmark baseline threshold polarity
      (.error (.missing (.commit series baseline)))
  | noBenchmark {snapshot : SeriesSnapshot} {before : CommitEntry}
    (proper : ProperThreshold threshold) (shows : s.Shows series baseline snapshot before)
    (unknown : ∀ r ∈ before.benches, r.name ≠ benchmark) :
    RegressionAnswer s series benchmark baseline threshold polarity
      (.error (.missing (.benchmark (series ++ "@" ++ baseline) benchmark)))
  | zeroBaseline {snapshot : SeriesSnapshot} {before : CommitEntry} {old : BenchmarkRecord}
    (proper : ProperThreshold threshold) (shows : s.Shows series baseline snapshot before)
    (carried : before.benches.find? (·.name == benchmark) = some old)
    (zero : old.value = 0.0 ∨ old.value = -0.0) :
    RegressionAnswer s series benchmark baseline threshold polarity
      (.error (.rejected (.zeroBaseline benchmark baseline)))
  | compared {snapshot : SeriesSnapshot} {before newest : CommitEntry} {old new : BenchmarkRecord}
    {change : Float} {direction : Polarity} {regressed : Bool}
    (proper : ProperThreshold threshold) (shows : s.Shows series baseline snapshot before)
    (carried : before.benches.find? (·.name == benchmark) = some old)
    (nonzero : old.value ≠ 0.0 ∧ old.value ≠ -0.0)
    -- No entry behind the newest one carries the benchmark.
    (last : snapshot.Newest benchmark newest)
    (current : newest.benches.find? (·.name == benchmark) = some new)
    (relative : change = (new.value - old.value) / old.value.abs)
    (inferred : direction = polarity.getD new.kind.defaultPolarity)
    (worse : regressed = true ↔ direction.Exceeded change threshold) :
    RegressionAnswer s series benchmark baseline threshold polarity (.ok {
      series, benchmark
      unit := new.unit
      baselineCommit := baseline
      currentCommit := newest.id
      baselineValue := old.value
      currentValue := new.value
      delta := change
      threshold
      polarity := direction
      regressed })

namespace HistoryStore

variable {s : HistoryStore} {series benchmark baseline : String} {threshold : Float}
  {polarity : Option Polarity} {snapshot : SeriesSnapshot} {before : CommitEntry}

theorem Shows.findCommit_eq (shows : s.Shows series baseline snapshot before)
    (represented : s.Represented) : findCommit snapshot baseline = .ok before := by
  have found := represented.find?_id shows.here shows.member
  rw [shows.id] at found
  exact findCommit_eq_ok.2 found

theorem regression_of_improper (improper : ¬ProperThreshold threshold) :
    s.regression series benchmark baseline threshold polarity
      = .error (.rejected (.badThreshold threshold)) := by
  rw [regression, validateThreshold_of_improper improper]
  rfl

theorem regression_of_unknown (proper : ProperThreshold threshold)
    (missing : s.getSeries series = .error (.missing (.series series))) :
    s.regression series benchmark baseline threshold polarity
      = .error (.missing (.series series)) := by
  rw [regression, validateThreshold_of_proper proper, missing]
  rfl

/-- Some answer is specified for all arguments. -/
theorem exists_answer (s : HistoryStore) (series benchmark baseline : String) (threshold : Float)
    (polarity : Option Polarity) :
    ∃ answer, RegressionAnswer s series benchmark baseline threshold polarity answer := by
  by_cases proper : ProperThreshold threshold
  · rcases s.getSeries_cases series with ⟨_, snapshot, here⟩ | ⟨unknown, _⟩
    · by_cases known : ∃ e ∈ snapshot.entries, e.id = baseline
      · obtain ⟨before, member, id⟩ := known
        have shows : s.Shows series baseline snapshot before := ⟨here, member, id⟩
        cases carried : before.benches.find? (·.name == benchmark) with
        | none =>
          have unknown := List.find?_eq_none.1 carried
          exact ⟨_, .noBenchmark proper shows (by simpa using unknown)⟩
        | some old =>
          by_cases zero : old.value = 0.0 ∨ old.value = -0.0
          · exact ⟨_, .zeroBaseline proper shows carried zero⟩
          · have carries : (before.bench? benchmark).isSome = true :=
              Option.isSome_iff_exists.2 ⟨old, carried⟩
            obtain ⟨newest, new, _, last, _, current⟩ := exists_newest member carries
            exact ⟨_, .compared proper shows carried (not_or.1 zero) last current rfl rfl
              isWorse_iff⟩
      · exact ⟨_, .noCommit proper here fun e member same => known ⟨e, member, same⟩⟩
    · exact ⟨_, .noSeries proper unknown⟩
  · exact ⟨_, .badThreshold proper⟩

/-- What is specified is answered. -/
theorem regression_of_answer (represented : s.Represented)
    {answer : Except Failure RegressionResult}
    (specified : RegressionAnswer s series benchmark baseline threshold polarity answer) :
    s.regression series benchmark baseline threshold polarity = answer := by
  cases specified with
  | badThreshold improper => exact regression_of_improper improper
  | noSeries proper unknown =>
    rcases s.getSeries_cases series with ⟨known, _⟩ | ⟨_, missing⟩
    · exact absurd known unknown
    · exact regression_of_unknown proper missing
  | noCommit proper here unknown =>
    have absent := findCommit_of_absent unknown
    rw [name_of_getSeries here] at absent
    rw [regression_eq (validateThreshold_of_proper proper) here, regressionCheck, absent]
    rfl
  | noBenchmark proper shows unknown =>
    rw [regression_eq (validateThreshold_of_proper proper) shows.here,
      regressionCheck_of_absent (shows.findCommit_eq represented) unknown,
      name_of_getSeries shows.here]
  | zeroBaseline proper shows carried zero =>
    have carries := Option.isSome_iff_exists.2 ⟨_, carried⟩
    obtain ⟨_, _, found, _⟩ := exists_newest shows.member carries
    rw [regression_eq (validateThreshold_of_proper proper) shows.here,
      regressionCheck_eq (shows.findCommit_eq represented) carried found,
      if_pos (Decimal.beq_zero.2 zero)]
  | compared proper shows carried nonzero last current relative inferred worse =>
    have related := mt Decimal.beq_zero.1 (not_or.2 nonzero)
    rw [regression_eq (validateThreshold_of_proper proper) shows.here,
      regressionCheck_eq (shows.findCommit_eq represented) carried
        (newestWith?_of_newest last current), if_neg related, name_of_getSeries shows.here]
    subst relative inferred
    have same := Bool.eq_iff_iff.2 (isWorse_iff.trans worse.symm)
    simp only [BenchmarkChange.result, changeBetween, resolve_fallback, ← same]
    rfl

end HistoryStore

/-! ### Sessions -/

/-- Whatever a session has gone through, the comparison of the newest value of a benchmark with the
one at a baseline gives the answer that is specified, and no other one; and once the baseline is
found to carry the benchmark, the search for the newest entry never comes back empty. -/
theorem Session.regression_answers {s : Session} (reached : s.Reached)
    (series benchmark baseline : String) (threshold : Float) (polarity : Option Polarity) :
    (∀ answer, s.store.regression series benchmark baseline threshold polarity = answer ↔
      RegressionAnswer s.store series benchmark baseline threshold polarity answer) ∧
    (∀ rejection, s.store.regression series benchmark baseline threshold polarity
        = .error (.rejected rejection) →
      rejection.field = "threshold_ratio" ∧ ¬ProperThreshold threshold ∨
        rejection.field = "baseline" ∧ ProperThreshold threshold) ∧
    ∀ snapshot before, s.store.Shows series baseline snapshot before →
      (before.bench? benchmark).isSome = true → (newestWith? snapshot benchmark).isSome = true := by
  obtain ⟨represented, _⟩ := reached.invariant
  obtain ⟨specified, answers⟩ := HistoryStore.exists_answer s.store series benchmark baseline
    threshold polarity
  have answered := HistoryStore.regression_of_answer represented answers
  refine ⟨fun answer => ⟨fun given => ?_, HistoryStore.regression_of_answer represented⟩, ?_, ?_⟩
  · rw [← given, answered]
    exact answers
  · intro rejection rejected
    rw [answered.symm.trans rejected] at answers
    cases answers with
    | badThreshold improper => exact .inl ⟨rfl, improper⟩
    | zeroBaseline proper => exact .inr ⟨rfl, proper⟩
  · intro snapshot before shows carries
    obtain ⟨_, _, found, _⟩ := exists_newest shows.member carries
    rw [found]
    rfl

/-- The slower run is the newest one; a negative threshold is refused before anything is looked up,
and then a missing series. -/
theorem Session.regression_answers_after_slowerRun :
    let store := HistoryStore.slowerRun.store
    (∃ r, store.regression "s" "b" "aaaa" 0.2 none = .ok r ∧ r.currentCommit = "bbbb" ∧
      r.polarity = .higherIsWorse ∧ Polarity.higherIsWorse.Exceeded r.delta 0.2) ∧
    store.regression "t" "b" "aaaa" (-1.0) none = .error (.rejected (.badThreshold (-1.0))) ∧
    store.regression "t" "b" "aaaa" 0.2 none = .error (.missing (.series "t")) := by
  intro store
  have opens : start { policy := .manual } {} HistoryStore.newSession.storage 0
      = .ok HistoryStore.newSession := rfl
  have reached : HistoryStore.slowerRun.Reached :=
    ((Reached.opened opens).ingested _ _).ingested _ _
  have proper : ProperThreshold 0.2 := ⟨rfl, by decide +kernel⟩
  refine ⟨?_, ?_, ?_⟩
  · obtain ⟨answers, _⟩ := regression_answers reached "s" "b" "aaaa" 0.2 none
    have shown : (store.regression "s" "b" "aaaa" 0.2 none).toOption.map
        (fun r => (r.currentCommit, r.polarity, r.regressed))
          = some ("bbbb", .higherIsWorse, true) := by
      decide +kernel
    cases answered : store.regression "s" "b" "aaaa" 0.2 none with
    | error failure =>
      rw [answered] at shown
      cases shown
    | ok r =>
      rw [answered] at shown
      refine ⟨r, rfl, ?_⟩
      cases (answers _).1 answered with
      | compared _ _ _ _ _ _ _ _ worse =>
        obtain ⟨newest, direction, regressed⟩ : _ ∧ _ ∧ _ := by
          simpa [Except.toOption] using shown
        exact ⟨newest, direction, direction ▸ worse.1 regressed⟩
  · obtain ⟨answers, _⟩ := regression_answers reached "t" "b" "aaaa" (-1.0) none
    exact (answers _).2 (.badThreshold fun proper => proper.2 (by decide +kernel))
  · obtain ⟨answers, _⟩ := regression_answers reached "t" "b" "aaaa" 0.2 none
    exact (answers _).2 (.noSeries proper (by decide +kernel))

end BenchLedger
