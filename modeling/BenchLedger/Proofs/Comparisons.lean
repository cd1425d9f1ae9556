import BenchLedger.Proofs.ComparedEntries
import BenchLedger.Proofs.FilledStores
import BenchLedger.Query.Engine

/-!
The two ways to compare values of a series. Main statement: `HistoryStore.regression_agrees`: in a
store that was filled through the ingestor, the comparison of the newest value of a benchmark with a
baseline agrees with the comparison of the two whole entries.
-/

namespace BenchLedger

/-! ### Snapshots -/

/-- The newest entry of a series that carries a benchmark: no later one does. -/
def SeriesSnapshot.Newest (s : SeriesSnapshot) (benchmark : String) (e : CommitEntry) : Prop :=
  (e.bench? benchmark).isSome = true ∧ ∃ earlier later, s.entries = earlier ++ e :: later ∧
    ∀ e' ∈ later, e'.bench? benchmark = none

/-- Every commit leads to its one entry, whose records have different names. -/
structure SeriesSnapshot.Regular (s : SeriesSnapshot) : Prop where
  find : ∀ e ∈ s.entries, s.find? e.id = some e
  distinct : ∀ e ∈ s.entries, (e.benches.map (·.name)).Nodup

theorem HistoryStore.Valid.regular {s : HistoryStore} (valid : s.Valid) {series : String}
    {snapshot : SeriesSnapshot} (here : s.getSeries series = .ok snapshot) : snapshot.Regular := by
  unfold getSeries at here
  split at here
  next t found =>
    cases here
    obtain ⟨history, represents, _⟩ := valid series t found
    refine ⟨fun e member => ?_, fun e member => (valid.of_mem_view found member).distinct⟩
    rw [represents.find?]
    exact represents.toHolds.mem_entries.1 (represents.view.perm.mem_iff.1 member)
  · cases here

theorem findCommit_eq_ok {s : SeriesSnapshot} {commit : String} {e : CommitEntry} :
    findCommit s commit = .ok e ↔ s.find? commit = some e := by
  unfold findCommit
  cases s.find? commit <;> simp

theorem mem_of_findCommit {s : SeriesSnapshot} {commit : String} {e : CommitEntry}
    (h : findCommit s commit = .ok e) : e ∈ s.entries :=
  List.mem_of_find?_eq_some (findCommit_eq_ok.1 h)

/-- If an entry carries a benchmark, a newest one is found. -/
theorem exists_newest {s : SeriesSnapshot} {benchmark : String} {e : CommitEntry}
    (member : e ∈ s.entries) (carries : (e.bench? benchmark).isSome = true) :
    ∃ newest record, newestWith? s benchmark = some (newest, record) ∧
      s.Newest benchmark newest ∧ newest ∈ s.entries ∧ newest.bench? benchmark = some record := by
  cases found : newestWith? s benchmark with
  | none =>
    unfold newestWith? at found
    have absent := List.findSome?_eq_none_iff.1 found e (List.mem_reverse.2 member)
    rw [Option.map_eq_none_iff.1 absent] at carries
    cases carries
  | some p =>
    unfold newestWith? at found
    obtain ⟨later, newest, earlier, reversed, here, absent⟩ := List.findSome?_eq_some_iff.1 found
    obtain ⟨record, carried, rfl⟩ := Option.map_eq_some_iff.1 here
    have entries : s.entries = earlier.reverse ++ newest :: later.reverse := by
      simpa using congrArg List.reverse reversed
    refine ⟨newest, record, rfl, ⟨?_, _, _, entries, fun e' listed => ?_⟩, ?_, carried⟩
    · rw [carried]
      rfl
    · exact Option.map_eq_none_iff.1 (absent e' (List.mem_reverse.1 listed))
    · rw [entries]
      exact List.mem_append_right _ List.mem_cons_self

/-! ### One benchmark -/

theorem resolve_fallback (polarity : Option Polarity) (r : BenchmarkRecord) :
    PolarityMap.resolve ⟨polarity, .empty⟩ r = polarity.getD (PolarityMap.empty.resolve r) := by
  cases polarity <;> simp only [PolarityMap.resolve, PolarityMap.empty, NameMap.get?_empty,
    Option.none_or, Option.getD_none, Option.getD_some]

/-- What is answered about a change from a baseline commit to the newest one. -/
def BenchmarkChange.result (change : BenchmarkChange) (series baseline newest : String)
    (threshold : Float) : RegressionResult where
  series := series
  benchmark := change.benchmark
  unit := change.unit
  baselineCommit := baseline
  currentCommit := newest
  baselineValue := change.baseline
  currentValue := change.candidate
  delta := change.delta
  threshold := threshold
  polarity := change.polarity
  regressed := isWorse change.delta threshold change.polarity

/-- What the comparison with a baseline answers once it has found the records. -/
theorem regressionCheck_eq {s : SeriesSnapshot} {benchmark baseline : String}
    {before newest : CommitEntry} {old new : BenchmarkRecord}
    (found : findCommit s baseline = .ok before) (carried : before.bench? benchmark = some old)
    (here : newestWith? s benchmark = some (newest, new)) (threshold : Float)
    (polarity : Option Polarity) :
    regressionCheck s benchmark baseline threshold polarity =
      if old.value == 0.0 then .error (.rejected (.zeroBaseline benchmark baseline))
      else .ok ((changeBetween ⟨polarity, .empty⟩ benchmark old new).result s.name baseline
        newest.id threshold) := by
  simp only [regressionCheck, found, here, BenchmarkChange.result, changeBetween, resolve_fallback,
    bind, Except.bind, pure, Except.pure, Option.getD_some]
  split
  next r same =>
    cases carried.symm.trans same
    split <;> rfl
  next none =>
    cases carried.symm.trans none

/-- A comparison that answers has found a baseline's record and the newest one. -/
theorem regressionCheck_eq_ok {s : SeriesSnapshot} {benchmark baseline : String} {threshold : Float}
    {polarity : Option Polarity} {r : RegressionResult}
    (h : regressionCheck s benchmark baseline threshold polarity = .ok r) :
    ∃ before old, findCommit s baseline = .ok before ∧ before.bench? benchmark = some old := by
  unfold regressionCheck at h
  obtain ⟨before, found, h⟩ := bind_eq_ok.1 h
  cases carried : before.bench? benchmark with
  | some old => exact ⟨before, old, found, carried⟩
  | none =>
    rw [carried] at h
    cases h

/-! ### Both comparisons -/

/-- A comparison of two entries agrees with what was said about one benchmark of them: it lists it
as a regression just if it is one, and else as an improvement or counts it; and what it lists is the
same change. -/
structure CommitDiff.Agrees (d : CommitDiff) (candidate : CommitEntry) (benchmark : String)
    (r : RegressionResult) : Prop where
  worse : (∃ change ∈ d.regressions, change.benchmark = benchmark) ↔ r.regressed = true
  notWorse : ((∃ change ∈ d.improvements, change.benchmark = benchmark) ∨
    benchmark ∈ d.unlisted candidate) ↔ r.regressed = false
  counted : d.unchanged = (d.unlisted candidate).length
  known : benchmark ∉ d.newBenchmarks ∧ benchmark ∉ d.missingBenchmarks
  related : benchmark ∉ d.incomparable
  same : ∀ change, change ∈ d.regressions ∨ change ∈ d.improvements →
    change.benchmark = benchmark → change.unit = r.unit ∧ change.baseline = r.baselineValue ∧
      change.candidate = r.currentValue ∧ change.delta = r.delta ∧ change.polarity = r.polarity

/-- What is answered about a benchmark of two entries agrees with their comparison. -/
theorem agrees_of_bench {before newest : CommitEntry} {benchmark : String}
    {old new : BenchmarkRecord} (left : (before.benches.map (·.name)).Nodup)
    (right : (newest.benches.map (·.name)).Nodup)
    (carried : before.bench? benchmark = some old) (current : newest.bench? benchmark = some new)
    (related : (old.value == 0.0) = false) (series baseline : String) (threshold : Float)
    (polarities : PolarityMap) :
    (compareEntries series before newest threshold polarities).Agrees newest benchmark
      ((changeBetween polarities benchmark old new).result series baseline newest.id
        threshold) := by
  have here : verdict? threshold polarities before newest benchmark
      = some (judge threshold polarities benchmark (some old) new) := by
    rw [verdict?, carried, current, Option.map_some]
  have judged := judged_judge threshold polarities benchmark new (some old)
  generalize judge threshold polarities benchmark (some old) new = v at here judged
  have named : benchmark ∈ newest.benches.map (·.name) := by
    have name := List.find?_some current
    exact List.mem_map.2 ⟨new, List.mem_of_find?_eq_some current, by simpa using name⟩
  have unlisted : benchmark ∈ (compareEntries series before newest threshold polarities).unlisted
      newest ↔ v = .unchanged := by
    rw [CommitDiff.unlisted, List.mem_filter, Bool.not_eq_true',
      lists_eq_false series left right here]
    exact and_iff_right named
  refine {
    worse := (exists_regression_iff series left right here).trans (judged.regression_iff related)
    notWorse := (or_congr (exists_improvement_iff series left right here) unlisted).trans
      (judged.not_regression_iff related)
    counted := unchanged_eq series left right
    known := ⟨?_, ?_⟩
    related := ?_
    same := ?_ }
  · rw [mem_newBenchmarks series left right, here]
    cases judged <;> simp
  · rw [mem_missingBenchmarks series left right, current]
    simp
  · rw [mem_incomparable series left right, here, Option.some.injEq]
    exact judged.ne_incomparable related
  · rintro change listed rfl
    have verdict : v = .regression change ∨ v = .improvement change := by
      rw [mem_regressions series left right, mem_improvements series left right, here] at listed
      exact listed.imp Option.some.inj Option.some.inj
    generalize change.benchmark = benchmark at judged ⊢
    cases judged <;> rcases verdict with same | same <;> cases same <;>
      exact ⟨rfl, rfl, rfl, rfl, rfl⟩

/-! ### Queries -/

namespace HistoryStore

variable {s : HistoryStore} {saved : Option HistoryDocument} {series benchmark baseline : String}
  {threshold : Float} {polarity : Option Polarity} {snapshot : SeriesSnapshot}

theorem regression_eq (valid : validateThreshold threshold = .ok ())
    (here : s.getSeries series = .ok snapshot) :
    s.regression series benchmark baseline threshold polarity
      = regressionCheck snapshot benchmark baseline threshold polarity := by
  simp only [regression, valid, here]
  rfl

theorem diff_eq (valid : validateThreshold threshold = .ok ())
    (here : s.getSeries series = .ok snapshot) {before after : CommitEntry} {candidate : String}
    (first : findCommit snapshot baseline = .ok before)
    (second : findCommit snapshot candidate = .ok after) (polarities : PolarityMap) :
    s.diff series baseline candidate threshold polarities
      = .ok (compareEntries snapshot.name before after threshold polarities) := by
  simp only [diff, valid, here, diffCommits, Except.mapError, bind, Except.bind, first, second]
  rfl

/-- A query that answers has a threshold that is in order and a series. -/
theorem regression_eq_ok {r : RegressionResult}
    (h : s.regression series benchmark baseline threshold polarity = .ok r) :
    validateThreshold threshold = .ok () ∧ ∃ snapshot, s.getSeries series = .ok snapshot ∧
      regressionCheck snapshot benchmark baseline threshold polarity = .ok r := by
  unfold regression at h
  obtain ⟨_, checked, h⟩ := bind_eq_ok.1 h
  obtain ⟨snapshot, here, h⟩ := bind_eq_ok.1 h
  refine ⟨?_, snapshot, here, h⟩
  cases valid : validateThreshold threshold with
  | ok done => rfl
  | error rejection =>
    rw [valid] at checked
    cases checked

/-- In a store that was filled through the ingestor, the comparison of the newest value of a
benchmark with its value at a baseline commit agrees with the comparison of the two entries, made
with the same threshold and, for all benchmarks, the same polarity. And if the baseline carries the
benchmark, the former rejects the baseline just if the latter, with whatever polarities, finds that
the benchmark cannot be compared. -/
theorem regression_agrees (filled : Filled s saved) (series benchmark baseline : String)
    (threshold : Float) (polarity : Option Polarity) :
    (∀ r, s.regression series benchmark baseline threshold polarity = .ok r →
      ∃ snapshot newest d, s.getSeries series = .ok snapshot ∧ snapshot.Newest benchmark newest ∧
        newest.id = r.currentCommit ∧
        s.diff series baseline r.currentCommit threshold ⟨polarity, .empty⟩ = .ok d ∧
        d.Agrees newest benchmark r) ∧
    (∀ snapshot before, s.getSeries series = .ok snapshot →
      findCommit snapshot baseline = .ok before → (before.bench? benchmark).isSome = true →
      validateThreshold threshold = .ok () →
      ∃ newest, snapshot.Newest benchmark newest ∧ ∀ polarities, ∃ d,
        s.diff series baseline newest.id threshold polarities = .ok d ∧
        ((∃ rejection, s.regression series benchmark baseline threshold polarity
            = .error (.rejected rejection) ∧ rejection.field = "baseline") ↔
          benchmark ∈ d.incomparable)) := by
  have valid := filled.valid.1
  constructor
  · intro r answered
    obtain ⟨inOrder, snapshot, here, checked⟩ := regression_eq_ok answered
    have regular := valid.regular here
    obtain ⟨before, old, first, carried⟩ := regressionCheck_eq_ok checked
    obtain ⟨newest, new, found, last, member, current⟩ :=
      exists_newest (mem_of_findCommit first) (by rw [carried]; rfl)
    rw [regressionCheck_eq first carried found] at checked
    split at checked
    · cases checked
    next related =>
      cases checked
      have second : findCommit snapshot newest.id = .ok newest :=
        findCommit_eq_ok.2 (regular.find newest member)
      exact ⟨snapshot, newest, _, here, last, rfl, diff_eq inOrder here first second _,
        agrees_of_bench (regular.distinct before (mem_of_findCommit first))
          (regular.distinct newest member) carried current (by simpa using related) ..⟩
  · intro snapshot before here first carries inOrder
    have regular := valid.regular here
    obtain ⟨old, carried⟩ := Option.isSome_iff_exists.1 carries
    obtain ⟨newest, new, found, last, member, current⟩ :=
      exists_newest (mem_of_findCommit first) carries
    have second : findCommit snapshot newest.id = .ok newest :=
      findCommit_eq_ok.2 (regular.find newest member)
    refine ⟨newest, last, fun polarities => ⟨_, diff_eq inOrder here first second polarities, ?_⟩⟩
    rw [mem_incomparable snapshot.name (regular.distinct before (mem_of_findCommit first))
      (regular.distinct newest member), regression_eq inOrder here,
      regressionCheck_eq first carried found, verdict?, carried, current, Option.map_some,
      Option.some.injEq, judge_eq_incomparable]
    split
    next zero => exact iff_of_true ⟨_, rfl, rfl⟩ zero
    next related =>
      refine iff_of_false ?_ related
      rintro ⟨_, rejected, _⟩
      cases rejected

/-- A run with a duration and with a count that is zero. -/
def timedEntry (id : String) (duration : Float) : CommitEntry :=
  .plain id 5 [⟨"b", duration, "ns/op", none⟩, ⟨"n", 0.0, "allocs/op", none⟩]

/-- A session that has taken in a run and a slower one of a later commit. -/
def slowerRun : Session :=
  ((newSession.ingestEntry "s" (timedEntry "aaaa" 100.0)).1.ingestEntry "s"
    (timedEntry "bbbb" 150.0)).1

theorem regression_agrees_after_slowerRun :
    (∃ r d, slowerRun.store.regression "s" "b" "aaaa" 0.2 none = .ok r ∧ r.regressed = true ∧
      slowerRun.store.diff "s" "aaaa" r.currentCommit 0.2 .empty = .ok d ∧
      ∃ change ∈ d.regressions, change.benchmark = "b") ∧
    ∃ newest d, slowerRun.store.diff "s" "aaaa" newest 0.2 .empty = .ok d ∧
      "n" ∈ d.incomparable := by
  have opens : Session.start { policy := .manual } {} newSession.storage 0 = .ok newSession := rfl
  have filled : Filled slowerRun.store slowerRun.storage.document :=
    .inMemory (((Session.Filled.opened opens rfl).ingested "s" (timedEntry "aaaa" 100.0)).ingested
      "s" (timedEntry "bbbb" 150.0))
  constructor
  · obtain ⟨answers, _⟩ := regression_agrees filled "s" "b" "aaaa" 0.2 none
    have slower : (do
        let r ← slowerRun.store.regression "s" "b" "aaaa" 0.2 none
        return r.regressed).toOption = some true := by
      decide +kernel
    obtain ⟨r, answer, worse⟩ := bind_eq_ok.1 (eq_ok_of_toOption slower)
    have regressed : r.regressed = true := Except.ok.inj worse
    obtain ⟨_, _, d, _, _, _, compared, agrees⟩ := answers r answer
    exact ⟨r, d, answer, regressed, compared, agrees.worse.2 regressed⟩
  · obtain ⟨_, rejects⟩ := regression_agrees filled "s" "n" "aaaa" 0.2 none
    have looks : (do
        let snapshot ← slowerRun.store.getSeries "s"
        let before ← findCommit snapshot "aaaa"
        return (before.bench? "n").any fun (old : BenchmarkRecord) => old.value == 0.0).toOption
          = some true := by
      decide +kernel
    obtain ⟨snapshot, here, looked⟩ := bind_eq_ok.1 (eq_ok_of_toOption looks)
    obtain ⟨before, found, looked⟩ := bind_eq_ok.1 looked
    obtain ⟨old, carried, zero⟩ := (Option.any_eq_true ..).1 (Except.ok.inj looked)
    have carries : (before.bench? "n").isSome = true := by
      rw [carried]
      rfl
    obtain ⟨newest, _, agrees⟩ := rejects snapshot before here found carries rfl
    obtain ⟨d, compared, same⟩ := agrees .empty
    have rejected : slowerRun.store.regression "s" "n" "aaaa" 0.2 none
        = .error (.rejected (.zeroBaseline "n" "aaaa")) := by
      obtain ⟨_, _, last, _⟩ := exists_newest (mem_of_findCommit found) carries
      rw [regression_eq rfl here, regressionCheck_eq found carried last, if_pos zero]
    exact ⟨newest.id, d, compared, same.1 ⟨_, rejected, rfl⟩⟩

end HistoryStore

end BenchLedger
