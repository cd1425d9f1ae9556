import BenchLedger.Proofs.DiffPartition

/-!
Comparisons under opposite directions. Main statement: `HistoryStore.diff_mirrored`: if two maps
give opposite directions to the benchmarks that two entries share, the regressions under one map are
the improvements under the other, and nothing else differs.
-/

namespace BenchLedger

/-! ### Directions -/

@[simp] theorem Polarity.flip_flip (polarity : Polarity) : polarity.flip.flip = polarity := by
  cases polarity <;> rfl

/-- The same change, as the opposite direction has it. -/
def BenchmarkChange.flip (change : BenchmarkChange) : BenchmarkChange :=
  { change with polarity := change.polarity.flip }

/-- What was worse is better, and the other way round. -/
def Verdict.flip : Verdict → Verdict
  | .unseen => .unseen
  | .incomparable => .incomparable
  | .regression change => .improvement change.flip
  | .improvement change => .regression change.flip
  | .unchanged => .unchanged

/-- Two maps give opposite directions to every benchmark that two entries share. -/
def PolarityMap.Opposed (polarities opposite : PolarityMap) (before after : CommitEntry) : Prop :=
  ∀ name old new, before.lastBench? name = some old → after.lastBench? name = some new →
    opposite.resolve new = (polarities.resolve new).flip

/-! ### Verdicts -/

theorem mem_of_lastBench? {e : CommitEntry} {name : String} {r : BenchmarkRecord}
    (found : e.lastBench? name = some r) : r ∈ e.benches ∧ r.name = name := by
  rw [CommitEntry.lastBench?, List.findRev?_eq_find?_reverse] at found
  exact ⟨List.mem_reverse.1 (List.mem_of_find?_eq_some found), by
    simpa using List.find?_some found⟩

section

variable {threshold : Float} {polarities opposite : PolarityMap}

theorem changeBetween_flip {new : BenchmarkRecord}
    (opposed : opposite.resolve new = (polarities.resolve new).flip) (name : String)
    (old : BenchmarkRecord) :
    changeBetween opposite name old new = (changeBetween polarities name old new).flip := by
  simp only [changeBetween, BenchmarkChange.flip, opposed]

/-- No change exceeds a proper threshold in both directions, so each verdict is decided by one of
two comparisons alone. -/
theorem Judged.flip (proper : ProperThreshold threshold) {name : String} {new : BenchmarkRecord}
    {old : Option BenchmarkRecord} {v : Verdict}
    (opposed : old.isSome = true → opposite.resolve new = (polarities.resolve new).flip)
    (judged : Judged threshold polarities name new old v) :
    Judged threshold opposite name new old v.flip := by
  cases judged with
  | unseen => exact .unseen
  | incomparable zero => exact .incomparable zero
  | @regression old related worse =>
    have same := opposed rfl
    have exceeded := isWorse_iff.1 worse
    rw [Verdict.flip, ← changeBetween_flip same]
    apply Judged.improvement related
    · rw [same, isWorse_eq_false]
      exact proper.exceeded_one exceeded
    · rw [same, isWorse_neg_iff, Polarity.flip_flip]
      exact exceeded
  | @improvement old related notWorse better =>
    have same := opposed rfl
    rw [Verdict.flip, ← changeBetween_flip same]
    apply Judged.regression related
    rw [same, isWorse_iff]
    exact isWorse_neg_iff.1 better
  | @unchanged old related notWorse notBetter =>
    have same := opposed rfl
    apply Judged.unchanged related
    · rw [same, isWorse_eq_false]
      exact isWorse_neg_eq_false.1 notBetter
    · rw [same, isWorse_neg_eq_false, Polarity.flip_flip]
      exact isWorse_eq_false.1 notWorse

/-- The opposite map flips every verdict of a comparison. -/
theorem verdicts_flip (proper : ProperThreshold threshold) {before after : CommitEntry}
    (opposed : polarities.Opposed opposite before after) :
    verdicts threshold opposite before after
      = (verdicts threshold polarities before after).map fun p => (p.1, p.2.flip) := by
  simp only [verdicts, List.map_map]
  apply List.map_congr_left
  rintro ⟨name, new⟩ member
  have right : after.lastBench? name = some new := by
    rw [← get?_recordsByName, NameMap.get?_eq_some]
    exact member
  simp only [Function.comp_apply, Prod.mk.injEq, true_and, get?_recordsByName]
  rw [judge_eq_iff]
  apply (judged_judge ..).flip proper
  intro some
  obtain ⟨old, left⟩ := Option.isSome_iff_exists.1 some
  exact opposed name old new left right

end

/-! ### Lists -/

def Verdict.regression? : Verdict → Option BenchmarkChange
  | .regression change => some change
  | _ => none

def Verdict.improvement? : Verdict → Option BenchmarkChange
  | .improvement change => some change
  | _ => none

theorem Verdict.regression?_flip (v : Verdict) : v.flip.regression? = v.improvement?.map .flip := by
  cases v <;> rfl

theorem Verdict.improvement?_flip (v : Verdict) :
    v.flip.improvement? = v.regression?.map .flip := by
  cases v <;> rfl

section

variable {threshold : Float} {polarities : PolarityMap} {before after : CommitEntry}
  (series : String)

theorem regressions_eq :
    (compareEntries series before after threshold polarities).regressions
      = (verdicts threshold polarities before after).filterMap fun p => p.2.regression? := by
  apply List.filterMap_congr
  rintro ⟨name, v⟩ _
  cases v <;> rfl

theorem improvements_eq :
    (compareEntries series before after threshold polarities).improvements
      = (verdicts threshold polarities before after).filterMap fun p => p.2.improvement? := by
  apply List.filterMap_congr
  rintro ⟨name, v⟩ _
  cases v <;> rfl

end

/-- A class of verdicts that flipping keeps has the same names. -/
theorem namesOf_flip {kind : VerdictKind} (kept : ∀ v : Verdict, v.flip.kind = kind ↔ v.kind = kind)
    (vs : List (String × Verdict)) :
    namesOf kind (vs.map fun p => (p.1, p.2.flip)) = namesOf kind vs := by
  simp only [namesOf, List.filterMap_map, Function.comp_def, kept]

/-- Two comparisons in which worse and better have changed places, while all else is the same. -/
structure CommitDiff.Mirrors (d d' : CommitDiff) : Prop where
  series : d'.series = d.series
  baselineCommit : d'.baselineCommit = d.baselineCommit
  candidateCommit : d'.candidateCommit = d.candidateCommit
  threshold : d'.threshold = d.threshold
  regressions : d'.regressions = d.improvements.map .flip
  improvements : d'.improvements = d.regressions.map .flip
  unchanged : d'.unchanged = d.unchanged
  newBenchmarks : d'.newBenchmarks = d.newBenchmarks
  missingBenchmarks : d'.missingBenchmarks = d.missingBenchmarks
  incomparable : d'.incomparable = d.incomparable

theorem mirrors_compareEntries (series : String) {before after : CommitEntry} {threshold : Float}
    (proper : ProperThreshold threshold) {polarities opposite : PolarityMap}
    (opposed : polarities.Opposed opposite before after) :
    (compareEntries series before after threshold polarities).Mirrors
      (compareEntries series before after threshold opposite) := by
  have flipped := verdicts_flip proper opposed
  constructor
  case series | baselineCommit | candidateCommit | threshold | missingBenchmarks => rfl
  case regressions =>
    rw [regressions_eq, improvements_eq, flipped, List.filterMap_map, List.map_filterMap]
    exact List.filterMap_congr fun p _ => p.2.regression?_flip
  case improvements =>
    rw [regressions_eq, improvements_eq, flipped, List.filterMap_map, List.map_filterMap]
    exact List.filterMap_congr fun p _ => p.2.improvement?_flip
  case unchanged =>
    rw [unchanged_eq_length, unchanged_eq_length, flipped, namesOf_flip]
    intro v
    cases v <;> simp [Verdict.flip, Verdict.kind]
  case newBenchmarks =>
    rw [newBenchmarks_eq, newBenchmarks_eq, flipped, namesOf_flip]
    intro v
    cases v <;> simp [Verdict.flip, Verdict.kind]
  case incomparable =>
    rw [incomparable_eq, incomparable_eq, flipped, namesOf_flip]
    intro v
    cases v <;> simp [Verdict.flip, Verdict.kind]

/-! ### Queries -/

/-- Two entries of a series are compared, if the threshold is in order. -/
theorem HistoryStore.diff_of_found {s : HistoryStore} {series : String} {snapshot : SeriesSnapshot}
    (here : s.getSeries series = .ok snapshot) {baseline candidate : String}
    {before after : CommitEntry} (first : snapshot.find? baseline = some before)
    (second : snapshot.find? candidate = some after) {threshold : Float}
    (proper : ProperThreshold threshold) (polarities : PolarityMap) :
    s.diff series baseline candidate threshold polarities
      = .ok (compareEntries snapshot.name before after threshold polarities) :=
  diff_eq (validateThreshold_of_proper proper) here (findCommit_eq_ok.2 first)
    (findCommit_eq_ok.2 second) polarities

/-- Two maps give opposite directions to the benchmarks that two entries of a series share: then
both comparisons of the entries succeed, and the regressions of one are the improvements of the
other, in the same order and alike but for the direction. Nothing else changes. -/
theorem HistoryStore.diff_mirrored {s : HistoryStore} {series : String} {snapshot : SeriesSnapshot}
    (here : s.getSeries series = .ok snapshot) {baseline candidate : String}
    {before after : CommitEntry} (first : snapshot.find? baseline = some before)
    (second : snapshot.find? candidate = some after) {threshold : Float}
    (proper : ProperThreshold threshold) {polarities opposite : PolarityMap}
    (opposed : polarities.Opposed opposite before after) :
    ∃ d d', s.diff series baseline candidate threshold polarities = .ok d ∧
      s.diff series baseline candidate threshold opposite = .ok d' ∧ d.Mirrors d' :=
  ⟨_, _, diff_of_found here first second proper _, diff_of_found here first second proper _,
    mirrors_compareEntries snapshot.name proper opposed⟩

/-- The other direction for everything except the one benchmark that is new. -/
def risingExceptNew : PolarityMap :=
  (PolarityMap.uniform .higherIsBetter).withOverride "new" .higherIsWorse

theorem opposed_risingExceptNew :
    PolarityMap.empty.Opposed risingExceptNew Session.repeatingEntry Session.fasterEntry := by
  intro name old new left right
  obtain ⟨listed, same⟩ := mem_of_lastBench? left
  obtain ⟨listed', rfl⟩ := mem_of_lastBench? right
  have shared : ∀ r ∈ Session.repeatingEntry.benches, r.name ≠ "new" := by
    decide +kernel
  have each : ∀ r ∈ Session.fasterEntry.benches, r.name ≠ "new" →
      risingExceptNew.resolve r = (PolarityMap.empty.resolve r).flip := by
    decide +kernel
  exact each new listed' (same ▸ shared old listed)

/-- The two runs as readers see them. -/
def Session.fasterSnapshot : SeriesSnapshot :=
  ⟨"s", [repeatingEntry, fasterEntry]⟩

theorem Session.shows_fasterRun : fasterRun.store.getSeries "s" = .ok fasterSnapshot ∧
    fasterSnapshot.find? "aaaa" = some repeatingEntry ∧
    fasterSnapshot.find? "bbbb" = some fasterEntry :=
  ⟨rfl, rfl, rfl⟩

/-- A faster benchmark is an improvement if less is better, and a regression if more is. -/
theorem HistoryStore.diff_mirrored_of_fasterRun :
    ∃ d d', Session.fasterRun.store.diff "s" "aaaa" "bbbb" 0.2 .empty = .ok d ∧
      Session.fasterRun.store.diff "s" "aaaa" "bbbb" 0.2 risingExceptNew = .ok d' ∧
      d.Mirrors d' ∧ d.improvements.map (·.benchmark) = ["b"] ∧
      d'.regressions.map (·.benchmark) = ["b"] := by
  have proper : ProperThreshold 0.2 := ⟨rfl, by decide +kernel⟩
  obtain ⟨here, first, second⟩ := Session.shows_fasterRun
  obtain ⟨d, d', answer, answer', mirrors⟩ :=
    diff_mirrored here first second proper opposed_risingExceptNew
  have shown : (Session.fasterRun.store.diff "s" "aaaa" "bbbb" 0.2 .empty).toOption.map
      (fun d => d.improvements.map (·.benchmark)) = some ["b"] := by
    decide +kernel
  rw [answer] at shown
  have improved : d.improvements.map (·.benchmark) = ["b"] := Option.some.inj shown
  refine ⟨d, d', answer, answer', mirrors, improved, ?_⟩
  rw [mirrors.regressions, List.map_map]
  exact improved

end BenchLedger
