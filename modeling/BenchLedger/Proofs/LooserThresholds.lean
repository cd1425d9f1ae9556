import BenchLedger.Proofs.CommandRuns
import BenchLedger.Proofs.DoubleOrder
import BenchLedger.Proofs.OppositeDirections

/-!
Comparisons under a looser threshold. Main statement: `CommandLine.loosened_threshold`: a larger
threshold adds no verdict, neither for one benchmark nor for all of two entries, and a command that
passes under the smaller one passes under the larger one.
-/

namespace BenchLedger

/-! ### Two runs -/

/-- Two runs fail with the same failure, or both succeed, with related results. -/
inductive Alike {ε α β : Type} (R : α → β → Prop) : Except ε α → Except ε β → Prop where
  | error (e : ε) : Alike R (.error e) (.error e)
  | ok {a : α} {b : β} (related : R a b) : Alike R (.ok a) (.ok b)

namespace Alike

variable {ε ε' α β γ δ : Type} {R : α → β → Prop} {S : γ → δ → Prop} {x : Except ε α}
  {y : Except ε β}

theorem refl {R : α → α → Prop} (reflexive : ∀ a, R a a) (x : Except ε α) : Alike R x x := by
  cases x with
  | error e => exact .error e
  | ok a => exact .ok (reflexive a)

/-- Runs stay alike if what follows related results is alike. -/
theorem bind (alike : Alike R x y) {f : α → Except ε γ} {g : β → Except ε δ}
    (next : ∀ a b, R a b → Alike S (f a) (g b)) : Alike S (x >>= f) (y >>= g) := by
  cases alike with
  | error e => exact .error e
  | ok related => exact next _ _ related

/-- Runs are alike if they begin with the same step. -/
theorem bind_same (x : Except ε α) {f : α → Except ε γ} {g : α → Except ε δ}
    (next : ∀ a, Alike S (f a) (g a)) : Alike S (x >>= f) (x >>= g) := by
  apply bind (refl (R := Eq) (fun _ => rfl) x)
  rintro a _ rfl
  exact next a

theorem mapError (alike : Alike R x y) (f : ε → ε') : Alike R (x.mapError f) (y.mapError f) := by
  cases alike with
  | error e => exact .error (f e)
  | ok related => exact .ok related

end Alike

/-! ### One benchmark -/

section

variable {strict loose : Float}

/-- What is beyond a threshold is beyond every smaller one. -/
theorem Polarity.Exceeded.of_looser (looser : strict ≤ loose) {polarity : Polarity} {change : Float}
    (exceeded : polarity.Exceeded change loose) : polarity.Exceeded change strict := by
  cases polarity with
  | higherIsWorse => exact Decimal.lt_of_le_of_lt looser exceeded
  | higherIsBetter =>
    have above := Decimal.lt_of_le_of_lt looser (Decimal.lt_neg.2 exceeded)
    exact Decimal.lt_neg.1 above

/-- What becomes of a verdict under a looser threshold: it stays, unless its change no longer
counts. -/
inductive Verdict.Loosens : Verdict → Verdict → Prop where
  | kept (v : Verdict) : Loosens v v
  | regression (change : BenchmarkChange) : Loosens (.regression change) .unchanged
  | improvement (change : BenchmarkChange) : Loosens (.improvement change) .unchanged

theorem judge_loosens (proper : ProperThreshold strict) (looser : strict ≤ loose)
    (polarities : PolarityMap) (name : String) (old : Option BenchmarkRecord)
    (new : BenchmarkRecord) :
    (judge strict polarities name old new).Loosens (judge loose polarities name old new) := by
  have judged := judged_judge loose polarities name new old
  generalize judge loose polarities name old new = v at judged
  cases judged with
  | unseen => exact .kept _
  | incomparable zero =>
    rw [judge_eq_iff.2 (.incomparable zero)]
    exact .kept _
  | regression related worse =>
    have exceeded := (isWorse_iff.1 worse).of_looser looser
    rw [judge_eq_iff.2 (.regression related (isWorse_iff.2 exceeded))]
    exact .kept _
  | improvement related _ better =>
    have exceeded := (isWorse_neg_iff.1 better).of_looser looser
    -- Under the smaller threshold a regression is looked for first, and there is none.
    have notWorse := mt proper.exceeded_one (not_not_intro exceeded)
    rw [judge_eq_iff.2 (.improvement related (isWorse_eq_false.2 notWorse)
      (isWorse_neg_iff.2 exceeded))]
    exact .kept _
  | @unchanged old related _ _ =>
    -- What does not count now may have counted in either direction before.
    have judged := judged_judge strict polarities name new (some old)
    generalize judge strict polarities name (some old) new = v at judged
    cases judged with
    | incomparable zero => cases zero.symm.trans related
    | regression => exact .regression _
    | improvement => exact .improvement _
    | unchanged => exact .kept _

/-- How one comparison of the newest value follows from another under a looser threshold: besides
the threshold they differ at most in that the change no longer counts. -/
structure RegressionResult.Loosens (r r' : RegressionResult) : Prop where
  same : r' = { r with threshold := r'.threshold, regressed := r'.regressed }
  regressed : r'.regressed = true → r.regressed = true

theorem regressionCheck_loosens (looser : strict ≤ loose) (snapshot : SeriesSnapshot)
    (benchmark baseline : String) (polarity : Option Polarity) :
    Alike RegressionResult.Loosens (regressionCheck snapshot benchmark baseline strict polarity)
      (regressionCheck snapshot benchmark baseline loose polarity) := by
  apply Alike.bind_same
  intro before
  dsimp only
  cases before.bench? benchmark with
  | none => exact .error _
  | some old =>
    dsimp only [pure, Except.pure, bind, Except.bind]
    split
    · exact .error _
    · exact .ok ⟨rfl, fun regressed =>
        isWorse_iff.2 ((isWorse_iff.1 regressed).of_looser looser)⟩

end

/-! ### All benchmarks of two entries -/

/-- A list that picks from some elements at most what another picks from theirs is part of it. -/
theorem sublist_filterMap {α β γ : Type} {R : α → β → Prop} {f : α → Option γ} {g : β → Option γ}
    (part : ∀ a b, R a b → f a = none ∨ f a = g b) {as : List α} {bs : List β}
    (related : List.Forall₂ R as bs) : (as.filterMap f).Sublist (bs.filterMap g) := by
  induction related with
  | nil => exact .slnil
  | @cons a b as bs first _ ih =>
    rcases part a b first with none | same
    · rw [List.filterMap_cons_none none, List.filterMap_cons]
      split
      · exact ih
      · exact ih.cons _
    · rw [List.filterMap_cons, List.filterMap_cons, same]
      split
      · exact ih
      · exact ih.cons_cons _

/-- How the comparison of two entries follows from another under a looser threshold: changes leave
the two lists for the number of those that do not count, and nothing else happens. -/
structure CommitDiff.Loosens (d d' : CommitDiff) : Prop where
  series : d'.series = d.series
  baselineCommit : d'.baselineCommit = d.baselineCommit
  candidateCommit : d'.candidateCommit = d.candidateCommit
  regressions : d'.regressions.Sublist d.regressions
  improvements : d'.improvements.Sublist d.improvements
  unchanged : d.unchanged ≤ d'.unchanged
  newBenchmarks : d'.newBenchmarks = d.newBenchmarks
  missingBenchmarks : d'.missingBenchmarks = d.missingBenchmarks
  incomparable : d'.incomparable = d.incomparable

section

variable {vs vs' : List (String × Verdict)}
  (loosened : List.Forall₂ (fun p p' => p.1 = p'.1 ∧ p.2.Loosens p'.2) vs vs')

include loosened

/-- A list that leaves unchanged verdicts out loses some changes and wins none. -/
theorem picked_loosen {α : Type} {pick : Verdict → Option α} (gone : pick .unchanged = none) :
    (vs'.filterMap fun p => pick p.2).Sublist (vs.filterMap fun p => pick p.2) := by
  refine sublist_filterMap ?_ loosened.flip
  rintro ⟨name, v'⟩ ⟨_, v⟩ ⟨rfl, loosens⟩
  cases loosens with
  | kept v => exact .inr rfl
  | regression | improvement => exact .inl gone

/-- A class of verdicts that none leaves and none enters has the same names. -/
theorem namesOf_loosen {kind : VerdictKind}
    (kept : ∀ v v' : Verdict, v.Loosens v' → (v'.kind = kind ↔ v.kind = kind)) :
    namesOf kind vs' = namesOf kind vs := by
  induction loosened with
  | nil => rfl
  | cons first _ ih =>
    simp only [namesOf, List.filterMap_cons, first.1, kept _ _ first.2] at ih ⊢
    rw [ih]

end

section

variable {strict loose : Float} (proper : ProperThreshold strict) (looser : strict ≤ loose)
  (polarities : PolarityMap)

include proper looser

theorem verdicts_loosen (before after : CommitEntry) :
    List.Forall₂ (fun p p' => p.1 = p'.1 ∧ p.2.Loosens p'.2)
      (verdicts strict polarities before after) (verdicts loose polarities before after) := by
  rw [verdicts, verdicts, List.forall₂_map_left_iff, List.forall₂_map_right_iff, List.forall₂_same]
  intro p _
  exact ⟨rfl, judge_loosens proper looser ..⟩

theorem compareEntries_loosens (series : String) (before after : CommitEntry) :
    (compareEntries series before after strict polarities).Loosens
      (compareEntries series before after loose polarities) := by
  have loosened := verdicts_loosen proper looser polarities before after
  constructor
  case series | baselineCommit | candidateCommit | missingBenchmarks => rfl
  case regressions =>
    rw [regressions_eq, regressions_eq]
    exact picked_loosen loosened rfl
  case improvements =>
    rw [improvements_eq, improvements_eq]
    exact picked_loosen loosened rfl
  case unchanged =>
    rw [unchanged_eq_length, unchanged_eq_length]
    refine (sublist_filterMap ?_ loosened).length_le
    rintro ⟨name, v⟩ ⟨_, v'⟩ ⟨rfl, loosens⟩
    cases loosens with
    | kept v => exact .inr rfl
    | _ => exact .inl rfl
  case newBenchmarks =>
    rw [newBenchmarks_eq, newBenchmarks_eq]
    refine namesOf_loosen loosened fun v v' loosens => ?_
    cases loosens <;> simp [Verdict.kind]
  case incomparable =>
    rw [incomparable_eq, incomparable_eq]
    refine namesOf_loosen loosened fun v v' loosens => ?_
    cases loosens <;> simp [Verdict.kind]

end

/-! ### Queries -/

namespace HistoryStore

variable {strict loose : Float} (proper : ProperThreshold strict) (proper' : ProperThreshold loose)
  (looser : strict ≤ loose)

include proper proper' looser

theorem regression_loosens (s : HistoryStore) (series benchmark baseline : String)
    (polarity : Option Polarity) :
    Alike RegressionResult.Loosens (s.regression series benchmark baseline strict polarity)
      (s.regression series benchmark baseline loose polarity) := by
  rw [regression, regression, validateThreshold_of_proper proper,
    validateThreshold_of_proper proper']
  apply Alike.bind_same (s.getSeries series)
  intro snapshot
  exact regressionCheck_loosens looser ..

theorem diff_loosens (s : HistoryStore) (series baseline candidate : String)
    (polarities : PolarityMap) :
    Alike CommitDiff.Loosens (s.diff series baseline candidate strict polarities)
      (s.diff series baseline candidate loose polarities) := by
  rw [diff, diff, validateThreshold_of_proper proper, validateThreshold_of_proper proper']
  apply Alike.bind_same (s.getSeries series)
  intro snapshot
  apply Alike.bind_same
  intro before
  apply Alike.bind_same
  intro after
  exact .ok (compareEntries_loosens proper looser ..)

end HistoryStore

/-! ### Commands -/

namespace CommandLine

/-- The question with another threshold, if it has one. -/
def Question.withThreshold (threshold : Float) : Question → Question
  | .regression series benchmark baseline _ polarity strict =>
    .regression series benchmark baseline threshold polarity strict
  | .diff series baseline candidate _ polarities markdown strict =>
    .diff series baseline candidate threshold polarities markdown strict
  | q => q

/-- The invocation with another threshold, if its command has one. -/
def Invocation.withThreshold (threshold : Float) (i : Invocation) : Invocation :=
  match i.command with
  | .ask q => { i with command := .ask (q.withThreshold threshold) }
  | _ => i

/-- An outcome that is a success stays one. -/
def Outcome.Loosens (outcome outcome' : Outcome) : Prop :=
  outcome = .success → outcome' = .success

/-- An answer whose outcome is a success stays one, whatever it says. -/
def Answer.Loosens (answer answer' : Answer) : Prop :=
  answer.outcome.Loosens answer'.outcome

theorem ofAnswer_loosens {x y : Except CommandError Answer} (alike : Alike Answer.Loosens x y) :
    Alike Outcome.Loosens (Report.ofAnswer x).ending (Report.ofAnswer y).ending := by
  cases alike with
  | error e => exact .error e
  | ok related => exact .ok related

theorem verdict_loosens {regressed regressed' : Bool} (fewer : regressed' = true → regressed = true)
    (strict : Bool) : (verdict strict regressed).Loosens (verdict strict regressed') := by
  cases strict <;> cases regressed <;> cases regressed' <;> simp_all [verdict, Outcome.Loosens]

theorem hasRegressions_of_loosens {d d' : CommitDiff} (loosens : d.Loosens d')
    (regressed : d'.hasRegressions = true) : d.hasRegressions = true := by
  have listed : d'.regressions ≠ [] := by simpa [CommitDiff.hasRegressions] using regressed
  have before : d.regressions ≠ [] := by
    intro empty
    exact listed (List.sublist_nil.1 (empty ▸ loosens.regressions))
  simpa [CommitDiff.hasRegressions] using before

/-- A question that is asked of a history that can be opened is answered from what it holds. -/
theorem Invocation.onDisk_ask (i : Invocation) (q : Question) {d : Disk}
    {document : Option HistoryDocument}
    (opened : loaded i.history (d.read i.history) = .ok document) (input : List Nat) (now : Int) :
    { i with command := .ask q }.onDisk d input now
      = (.ofAnswer ((q.answer (workingStore none document)).mapError .failed), d) := by
  rw [onDisk_eq]
  dsimp only [Command.source]
  rw [opened]
  exact closed_workingStore ..

section

variable {strict loose : Float} (proper : ProperThreshold strict) (proper' : ProperThreshold loose)
  (looser : strict ≤ loose)

include proper proper' looser

theorem answer_loosens (s : HistoryStore) (q : Question) :
    Alike Answer.Loosens ((q.withThreshold strict).answer s)
      ((q.withThreshold loose).answer s) := by
  cases q with
  | names | summary | latest | range => exact .refl (fun _ success => success) _
  | regression series benchmark baseline threshold polarity failing =>
    apply (s.regression_loosens proper proper' looser ..).bind
    intro r r' loosens
    exact .ok (verdict_loosens loosens.regressed failing)
  | diff series baseline candidate threshold polarities markdown failing =>
    apply (s.diff_loosens proper proper' looser ..).bind
    intro d d' loosens
    exact .ok (verdict_loosens (hasRegressions_of_loosens loosens) failing)

theorem ending_loosens (i : Invocation) (d : Disk) (input : List Nat) (now : Int) :
    Alike Outcome.Loosens ((i.withThreshold strict).onDisk d input now).1.ending
      ((i.withThreshold loose).onDisk d input now).1.ending := by
  cases command : i.command with
  | takeIn | ingest | copyTo =>
    simp only [Invocation.withThreshold, command]
    exact .refl (fun _ success => success) _
  | ask q =>
    simp only [Invocation.withThreshold, command]
    cases opened : loaded i.history (d.read i.history) with
    | error e =>
      simp only [Invocation.onDisk_eq, Command.source, opened]
      exact .error _
    | ok document =>
      rw [i.onDisk_ask _ opened, i.onDisk_ask _ opened]
      exact ofAnswer_loosens ((answer_loosens proper proper' looser _ q).mapError _)

/-- Under a looser threshold no verdict is added. The comparison of two entries succeeds again, and
at most some changes have left its lists for the number of those that do not count. The comparison
of one benchmark fails and succeeds alike, and the benchmark has regressed only if it had before. A
command fails alike, and is a success if it was one before. -/
theorem loosened_threshold :
    (∀ (s : HistoryStore) (series : String) (snapshot : SeriesSnapshot)
      (baseline candidate : String) (before after : CommitEntry) (polarities : PolarityMap),
      s.getSeries series = .ok snapshot → snapshot.find? baseline = some before →
        snapshot.find? candidate = some after →
        ∃ d d', s.diff series baseline candidate strict polarities = .ok d ∧
          s.diff series baseline candidate loose polarities = .ok d' ∧ d.Loosens d') ∧
    (∀ (s : HistoryStore) (series benchmark baseline : String) (polarity : Option Polarity),
      Alike RegressionResult.Loosens (s.regression series benchmark baseline strict polarity)
        (s.regression series benchmark baseline loose polarity)) ∧
    ∀ (i : Invocation) (d : Disk) (input : List Nat) (now : Int),
      Alike Outcome.Loosens ((i.withThreshold strict).onDisk d input now).1.ending
        ((i.withThreshold loose).onDisk d input now).1.ending := by
  refine ⟨?_, HistoryStore.regression_loosens proper proper' looser,
    ending_loosens proper proper' looser⟩
  intro s series snapshot baseline candidate before after polarities here first second
  exact ⟨_, _, HistoryStore.diff_of_found here first second proper _,
    HistoryStore.diff_of_found here first second proper' _, compareEntries_loosens proper looser ..⟩

end

/-- What is half as slow again is a regression if a fifth is too much, but not if the double is
allowed; and what is a fourth faster is an improvement only at first. -/
theorem loosened_threshold_to_double :
    (∃ d d', Session.fasterRun.store.diff "s" "aaaa" "bbbb" 0.2 .empty = .ok d ∧
      Session.fasterRun.store.diff "s" "aaaa" "bbbb" 1.0 .empty = .ok d' ∧ d.Loosens d' ∧
      d.improvements.map (·.benchmark) = ["b"] ∧ d'.improvements.map (·.benchmark) = []) ∧
    ∃ r r', HistoryStore.slowerRun.store.regression "s" "b" "aaaa" 0.2 none = .ok r ∧
      HistoryStore.slowerRun.store.regression "s" "b" "aaaa" 1.0 none = .ok r' ∧
      r.Loosens r' ∧ r.regressed = true ∧ r'.regressed = false := by
  have proper : ProperThreshold 0.2 := ⟨rfl, by decide +kernel⟩
  have proper' : ProperThreshold 1.0 := ⟨rfl, by decide +kernel⟩
  have looser : (0.2 : Float) ≤ 1.0 := by decide +kernel
  obtain ⟨entries, one, _⟩ := loosened_threshold proper proper' looser
  constructor
  · obtain ⟨here, first, second⟩ := Session.shows_fasterRun
    obtain ⟨d, d', answer, answer', loosens⟩ := entries _ _ _ _ _ _ _ .empty here first second
    have faster : (Session.fasterRun.store.diff "s" "aaaa" "bbbb" 0.2 .empty).toOption.map
        (fun d => d.improvements.map (·.benchmark)) = some ["b"] := by
      decide +kernel
    have uncounted : (Session.fasterRun.store.diff "s" "aaaa" "bbbb" 1.0 .empty).toOption.map
        (fun d => d.improvements.map (·.benchmark)) = some [] := by
      decide +kernel
    rw [answer] at faster
    rw [answer'] at uncounted
    exact ⟨d, d', answer, answer', loosens, Option.some.inj faster, Option.some.inj uncounted⟩
  · have alike := one HistoryStore.slowerRun.store "s" "b" "aaaa" none
    have slower : (HistoryStore.slowerRun.store.regression "s" "b" "aaaa" 0.2 none).toOption.map
        (·.regressed) = some true := by
      decide +kernel
    have allowed : (HistoryStore.slowerRun.store.regression "s" "b" "aaaa" 1.0 none).toOption.map
        (·.regressed) = some false := by
      decide +kernel
    generalize HistoryStore.slowerRun.store.regression "s" "b" "aaaa" 0.2 none = x at alike slower ⊢
    generalize HistoryStore.slowerRun.store.regression "s" "b" "aaaa" 1.0 none = x'
      at alike allowed ⊢
    cases alike with
    | error e => cases slower
    | ok loosens =>
      exact ⟨_, _, rfl, rfl, loosens, Option.some.inj slower, Option.some.inj allowed⟩

end CommandLine

end BenchLedger
