import BenchLedger.Proofs.RegressionChecks
import BenchLedger.Proofs.Utf8Text
import Mathlib.Data.List.Dedup

/-!
What becomes of the benchmarks of two entries. Main statement: `Session.diff_partitions`: whatever a
session has gone through, the comparison of two entries of a series puts every benchmark of the
candidate into one class, and lists each class in the order of the bytes of the names.
-/

namespace BenchLedger

/-! ### Directions -/

/-- A change is beyond the threshold in the better direction just if its negation is in the worse
one. -/
theorem isWorse_neg_iff {change threshold : Float} {polarity : Polarity} :
    isWorse (-change) threshold polarity = true ↔ polarity.flip.Exceeded change threshold := by
  rw [isWorse_iff]
  cases polarity with
  | higherIsWorse => exact Decimal.lt_neg
  | higherIsBetter => exact Decimal.lt_neg.trans Decimal.lt_neg_neg

theorem isWorse_eq_false {change threshold : Float} {polarity : Polarity} :
    isWorse change threshold polarity = false ↔ ¬polarity.Exceeded change threshold := by
  rw [← isWorse_iff, Bool.not_eq_true]

theorem isWorse_neg_eq_false {change threshold : Float} {polarity : Polarity} :
    isWorse (-change) threshold polarity = false ↔ ¬polarity.flip.Exceeded change threshold := by
  rw [← isWorse_neg_iff, Bool.not_eq_true]

/-- No change is beyond a proper threshold in both directions. -/
theorem ProperThreshold.exceeded_one {threshold : Float} (proper : ProperThreshold threshold)
    {change : Float} {polarity : Polarity} (exceeded : polarity.Exceeded change threshold) :
    ¬polarity.flip.Exceeded change threshold := by
  cases polarity with
  | higherIsWorse => exact mt Decimal.lt_neg.2 (Decimal.not_lt_neg proper.2 exceeded)
  | higherIsBetter =>
    exact fun other => Decimal.not_lt_neg proper.2 other (Decimal.lt_neg.2 exceeded)

/-! ### One benchmark -/

/-- How a benchmark of both entries has changed, by the last record of its name in each. Its old
value is not zero. -/
def IsChange (polarities : PolarityMap) (before after : CommitEntry) (name : String)
    (change : BenchmarkChange) : Prop :=
  ∃ old new, before.lastBench? name = some old ∧ after.lastBench? name = some new ∧
    (old.value ≠ 0.0 ∧ old.value ≠ -0.0) ∧ change = changeBetween polarities name old new

section

variable {threshold : Float} {polarities : PolarityMap} {before after : CommitEntry} {name : String}
  {change : BenchmarkChange}

theorem related_iff {old : BenchmarkRecord} :
    (old.value == 0.0) = false ↔ old.value ≠ 0.0 ∧ old.value ≠ -0.0 := by
  rw [← Bool.not_eq_true, Decimal.beq_zero, not_or]

theorem mem_verdicts_regression :
    (name, .regression change) ∈ verdicts threshold polarities before after ↔
      IsChange polarities before after name change ∧
        change.polarity.Exceeded change.delta threshold := by
  rw [mem_verdicts_last]
  constructor
  · rintro ⟨new, right, judged⟩
    generalize left : before.lastBench? name = found at judged
    cases judged with
    | regression related worse =>
      exact ⟨⟨_, new, left, right, related_iff.1 related, rfl⟩, isWorse_iff.1 worse⟩
  · rintro ⟨⟨old, new, left, right, nonzero, rfl⟩, worse⟩
    rw [left]
    exact ⟨new, right, .regression (related_iff.2 nonzero) (isWorse_iff.2 worse)⟩

theorem mem_verdicts_improvement (proper : ProperThreshold threshold) :
    (name, .improvement change) ∈ verdicts threshold polarities before after ↔
      IsChange polarities before after name change ∧
        change.polarity.flip.Exceeded change.delta threshold := by
  rw [mem_verdicts_last]
  constructor
  · rintro ⟨new, right, judged⟩
    generalize left : before.lastBench? name = found at judged
    cases judged with
    | improvement related _ better =>
      exact ⟨⟨_, new, left, right, related_iff.1 related, rfl⟩, isWorse_neg_iff.1 better⟩
  · rintro ⟨⟨old, new, left, right, nonzero, rfl⟩, better⟩
    have notWorse := mt proper.exceeded_one (not_not_intro better)
    rw [left]
    exact ⟨new, right, .improvement (related_iff.2 nonzero)
      (isWorse_eq_false.2 notWorse) (isWorse_neg_iff.2 better)⟩

theorem mem_verdicts_unchanged :
    (name, .unchanged) ∈ verdicts threshold polarities before after ↔
      ∃ change, IsChange polarities before after name change ∧
        ¬change.polarity.Exceeded change.delta threshold ∧
        ¬change.polarity.flip.Exceeded change.delta threshold := by
  rw [mem_verdicts_last]
  constructor
  · rintro ⟨new, right, judged⟩
    generalize left : before.lastBench? name = found at judged
    cases judged with
    | unchanged related notWorse notBetter =>
      exact ⟨_, ⟨_, new, left, right, related_iff.1 related, rfl⟩, isWorse_eq_false.1 notWorse,
        isWorse_neg_eq_false.1 notBetter⟩
  · rintro ⟨_, ⟨old, new, left, right, nonzero, rfl⟩, notWorse, notBetter⟩
    rw [left]
    exact ⟨new, right, .unchanged (related_iff.2 nonzero) (isWorse_eq_false.2 notWorse)
      (isWorse_neg_eq_false.2 notBetter)⟩

theorem mem_verdicts_unseen :
    (name, .unseen) ∈ verdicts threshold polarities before after ↔
      (after.lastBench? name).isSome = true ∧ before.lastBench? name = none := by
  rw [mem_verdicts_last, Option.isSome_iff_exists]
  constructor
  · rintro ⟨new, right, judged⟩
    generalize before.lastBench? name = found at judged
    cases judged with
    | unseen => exact ⟨⟨new, right⟩, rfl⟩
  · rintro ⟨⟨new, right⟩, left⟩
    rw [left]
    exact ⟨new, right, .unseen⟩

theorem mem_verdicts_incomparable :
    (name, .incomparable) ∈ verdicts threshold polarities before after ↔
      (after.lastBench? name).isSome = true ∧
        ∃ old, before.lastBench? name = some old ∧ (old.value = 0.0 ∨ old.value = -0.0) := by
  rw [mem_verdicts_last, Option.isSome_iff_exists]
  constructor
  · rintro ⟨new, right, judged⟩
    generalize left : before.lastBench? name = found at judged
    cases judged with
    | incomparable zero => exact ⟨⟨new, right⟩, _, rfl, Decimal.beq_zero.1 zero⟩
  · rintro ⟨⟨new, right⟩, old, left, zero⟩
    rw [left]
    exact ⟨new, right, .incomparable (Decimal.beq_zero.2 zero)⟩

end

/-! ### Classes -/

/-- The kinds of verdicts. -/
inductive VerdictKind where
  | unseen
  | incomparable
  | regression
  | improvement
  | unchanged
  deriving DecidableEq

def Verdict.kind : Verdict → VerdictKind
  | .unseen => .unseen
  | .incomparable => .incomparable
  | .regression _ => .regression
  | .improvement _ => .improvement
  | .unchanged => .unchanged

/-- The names of the benchmarks with a verdict of one kind. -/
def namesOf (kind : VerdictKind) (vs : List (String × Verdict)) : List String :=
  vs.filterMap fun p => if p.2.kind = kind then some p.1 else none

theorem sublist_namesOf (kind : VerdictKind) (vs : List (String × Verdict)) :
    (namesOf kind vs).Sublist (vs.map Prod.fst) := by
  induction vs with
  | nil => exact .slnil
  | cons p rest ih =>
    by_cases same : p.2.kind = kind
    · simp only [namesOf, List.filterMap_cons, same, if_true, List.map_cons]
      exact ih.cons_cons _
    · simp only [namesOf, List.filterMap_cons, same, if_false, List.map_cons]
      exact ih.cons _

theorem mem_namesOf_unchanged {vs : List (String × Verdict)} {name : String} :
    name ∈ namesOf .unchanged vs ↔ (name, .unchanged) ∈ vs := by
  rw [namesOf, List.mem_filterMap]
  constructor
  · rintro ⟨⟨other, v⟩, member, picked⟩
    cases v with
    | unchanged =>
      cases picked
      exact member
    | _ => cases picked
  · intro member
    exact ⟨_, member, rfl⟩

/-- Every name belongs to one kind. -/
theorem perm_namesOf (vs : List (String × Verdict)) :
    (namesOf .regression vs ++ namesOf .improvement vs ++ namesOf .unchanged vs
      ++ namesOf .unseen vs ++ namesOf .incomparable vs).Perm (vs.map Prod.fst) := by
  rw [List.perm_iff_count]
  intro name
  induction vs with
  | nil => rfl
  | cons p rest ih =>
    obtain ⟨other, v⟩ := p
    simp only [List.count_append] at ih ⊢
    cases v <;>
      simp only [namesOf, List.filterMap_cons, Verdict.kind, reduceCtorEq, if_true, if_false,
        List.map_cons, List.count_cons] at ih ⊢ <;>
      omega

section

variable {threshold : Float} {polarities : PolarityMap} {before after : CommitEntry}
  (series : String)

/-- The names of what a list picks from the verdicts are those with a verdict of one kind, if it
picks just these. -/
private theorem names_picked {α : Type} {pick : String × Verdict → Option α} {named : α → String}
    {kind : VerdictKind}
    (picks : ∀ p ∈ verdicts threshold polarities before after,
      (pick p).map named = if p.2.kind = kind then some p.1 else none) :
    ((verdicts threshold polarities before after).filterMap pick).map named
      = namesOf kind (verdicts threshold polarities before after) := by
  rw [List.map_filterMap, namesOf]
  exact List.filterMap_congr picks

theorem names_regressions :
    (compareEntries series before after threshold polarities).regressions.map (·.benchmark)
      = namesOf .regression (verdicts threshold polarities before after) := by
  apply names_picked
  rintro ⟨name, v⟩ member
  cases v with
  | regression change =>
    exact congrArg some (benchmark_of_mem_verdicts member (.inl rfl))
  | _ => rfl

theorem names_improvements :
    (compareEntries series before after threshold polarities).improvements.map (·.benchmark)
      = namesOf .improvement (verdicts threshold polarities before after) := by
  apply names_picked
  rintro ⟨name, v⟩ member
  cases v with
  | improvement change =>
    exact congrArg some (benchmark_of_mem_verdicts member (.inr rfl))
  | _ => rfl

theorem newBenchmarks_eq :
    (compareEntries series before after threshold polarities).newBenchmarks
      = namesOf .unseen (verdicts threshold polarities before after) := by
  apply List.filterMap_congr
  rintro ⟨name, v⟩ _
  cases v <;> rfl

theorem incomparable_eq :
    (compareEntries series before after threshold polarities).incomparable
      = namesOf .incomparable (verdicts threshold polarities before after) := by
  apply List.filterMap_congr
  rintro ⟨name, v⟩ _
  cases v <;> rfl

theorem unchanged_eq_length :
    (compareEntries series before after threshold polarities).unchanged
      = (namesOf .unchanged (verdicts threshold polarities before after)).length := by
  show (verdicts threshold polarities before after).countP _ = _
  rw [namesOf, List.length_filterMap_eq_countP]
  apply List.countP_congr
  rintro ⟨name, v⟩ _
  cases v <;> simp [Verdict.kind]

theorem names_verdicts : (verdicts threshold polarities before after).map Prod.fst
    = (recordsByName after.benches).names := by
  rw [verdicts, List.map_map]
  rfl

end

/-! ### Partitions -/

/-- Names strictly increase in the order of their bytes. -/
def BytesIncrease (names : List String) : Prop :=
  names.Pairwise fun a b => Text.utf8Bytes a.toList < Text.utf8Bytes b.toList

theorem bytesIncrease_names {α : Type} (m : NameMap α) : BytesIncrease m.names :=
  List.pairwise_map.2 (m.increasing.imp fun before => Text.utf8Bytes_lt before)

/-- The names of the records of an entry, each once. -/
def CommitEntry.distinctNames (e : CommitEntry) : List String :=
  (e.benches.map (·.name)).dedup

theorem isSome_lastBench? {e : CommitEntry} {name : String} :
    (e.lastBench? name).isSome = true ↔ ∃ r ∈ e.benches, r.name = name := by
  rw [CommitEntry.lastBench?, List.findRev?_eq_find?_reverse, List.find?_isSome]
  simp

theorem lastBench?_eq_none {e : CommitEntry} {name : String} :
    e.lastBench? name = none ↔ ∀ r ∈ e.benches, r.name ≠ name := by
  rw [← Option.not_isSome_iff_eq_none, isSome_lastBench?]
  simp

/-- The map by name has each name once. -/
theorem perm_distinctNames (e : CommitEntry) :
    (recordsByName e.benches).names.Perm e.distinctNames := by
  refine (List.perm_ext_iff_of_nodup (NameMap.nodup_names _) (List.nodup_dedup _)).2 fun name => ?_
  rw [NameMap.mem_names, get?_recordsByName, isSome_lastBench?, List.mem_dedup, List.mem_map]

/-- The comparison of two entries puts every benchmark of the candidate into one of five classes:
it is worse or better than before by more than the threshold, or neither, or it is new, or its old
value is zero. The names in the third class are only counted. Besides, the benchmarks that the
candidate lacks are listed. -/
structure CommitDiff.Partitions (d : CommitDiff) (before after : CommitEntry) (threshold : Float)
    (polarities : PolarityMap) (same : List String) : Prop where
  once : (d.regressions.map (·.benchmark) ++ d.improvements.map (·.benchmark) ++ same
    ++ d.newBenchmarks ++ d.incomparable).Perm after.distinctNames
  counted : d.unchanged = same.length
  total : d.regressions.length + d.improvements.length + d.unchanged + d.newBenchmarks.length
    + d.incomparable.length = after.distinctNames.length
  regressions : ∀ change, change ∈ d.regressions ↔
    IsChange polarities before after change.benchmark change ∧
      change.polarity.Exceeded change.delta threshold
  improvements : ∀ change, change ∈ d.improvements ↔
    IsChange polarities before after change.benchmark change ∧
      change.polarity.flip.Exceeded change.delta threshold
  unchanged : ∀ name, name ∈ same ↔ ∃ change, IsChange polarities before after name change ∧
    ¬change.polarity.Exceeded change.delta threshold ∧
    ¬change.polarity.flip.Exceeded change.delta threshold
  newBenchmarks : ∀ name, name ∈ d.newBenchmarks ↔
    (∃ r ∈ after.benches, r.name = name) ∧ ∀ r ∈ before.benches, r.name ≠ name
  missingBenchmarks : ∀ name, name ∈ d.missingBenchmarks ↔
    (∃ r ∈ before.benches, r.name = name) ∧ ∀ r ∈ after.benches, r.name ≠ name
  incomparable : ∀ name, name ∈ d.incomparable ↔ (∃ r ∈ after.benches, r.name = name) ∧
    ∃ old, before.lastBench? name = some old ∧ (old.value = 0.0 ∨ old.value = -0.0)
  sorted : BytesIncrease (d.regressions.map (·.benchmark)) ∧
    BytesIncrease (d.improvements.map (·.benchmark)) ∧ BytesIncrease d.newBenchmarks ∧
    BytesIncrease d.missingBenchmarks ∧ BytesIncrease d.incomparable

theorem partitions_compareEntries (series : String) (before after : CommitEntry)
    {threshold : Float} (proper : ProperThreshold threshold) (polarities : PolarityMap) :
    (compareEntries series before after threshold polarities).Partitions before after threshold
      polarities (namesOf .unchanged (verdicts threshold polarities before after)) := by
  have once := (perm_namesOf (verdicts threshold polarities before after)).trans
    (names_verdicts ▸ perm_distinctNames after)
  have increasing (kind : VerdictKind) :
      BytesIncrease (namesOf kind (verdicts threshold polarities before after)) := by
    have sublist := sublist_namesOf kind (verdicts threshold polarities before after)
    rw [names_verdicts] at sublist
    exact (bytesIncrease_names _).sublist sublist
  constructor
  case once =>
    rwa [names_regressions, names_improvements, newBenchmarks_eq, incomparable_eq]
  case counted => exact unchanged_eq_length series
  case total =>
    have lengths := once.length_eq
    rw [← names_regressions series, ← names_improvements series, ← newBenchmarks_eq series,
      ← incomparable_eq series] at lengths
    simp only [List.length_append, List.length_map] at lengths
    rwa [unchanged_eq_length]
  case regressions =>
    intro change
    rw [mem_regressions_verdicts, mem_verdicts_regression]
  case improvements =>
    intro change
    rw [mem_improvements_verdicts, mem_verdicts_improvement proper]
  case unchanged =>
    intro name
    rw [mem_namesOf_unchanged, mem_verdicts_unchanged]
  case newBenchmarks =>
    intro name
    rw [mem_newBenchmarks_verdicts, mem_verdicts_unseen, isSome_lastBench?, lastBench?_eq_none]
  case missingBenchmarks =>
    intro name
    rw [mem_missingBenchmarks_last, isSome_lastBench?, lastBench?_eq_none]
  case incomparable =>
    intro name
    rw [mem_incomparable_verdicts, mem_verdicts_incomparable, isSome_lastBench?]
  case sorted =>
    rw [names_regressions, names_improvements, newBenchmarks_eq, incomparable_eq]
    exact ⟨increasing _, increasing _, increasing _,
      (bytesIncrease_names _).sublist List.filter_sublist, increasing _⟩

/-! ### Sessions -/

namespace Session

/-- Whatever a session has gone through, the comparison of two entries of a series succeeds, and it
puts every benchmark of the candidate into exactly one class. -/
theorem diff_partitions {s : Session} (reached : s.Reached) {series : String}
    {snapshot : SeriesSnapshot} (here : s.store.getSeries series = .ok snapshot)
    {before after : CommitEntry} (first : before ∈ snapshot.entries)
    (second : after ∈ snapshot.entries) {threshold : Float} (proper : ProperThreshold threshold)
    (polarities : PolarityMap) :
    ∃ d same, s.store.diff series before.id after.id threshold polarities = .ok d ∧
      d.Partitions before after threshold polarities same := by
  obtain ⟨represented, _⟩ := reached.invariant
  have baseline := findCommit_eq_ok.2 (represented.find?_id here first)
  have candidate := findCommit_eq_ok.2 (represented.find?_id here second)
  exact ⟨_, _, HistoryStore.diff_eq (validateThreshold_of_proper proper) here baseline candidate _,
    partitions_compareEntries _ _ _ proper _⟩

/-- A run that repeats a name and has a count that is zero. -/
def repeatingEntry : CommitEntry :=
  .plain "aaaa" 5 [⟨"b", 100.0, "ns/op", none⟩, ⟨"gone", 1.0, "ns/op", none⟩,
    ⟨"n", 0.0, "allocs/op", none⟩, ⟨"b", 200.0, "ns/op", none⟩]

/-- A run with another benchmark, and without one of those before. -/
def fasterEntry : CommitEntry :=
  .plain "bbbb" 6 [⟨"n", 2.0, "allocs/op", none⟩, ⟨"new", 1.0, "ns/op", none⟩,
    ⟨"b", 150.0, "ns/op", none⟩]

def fasterRun : Session :=
  ((HistoryStore.newSession.append "s" repeatingEntry).1.append "s" fasterEntry).1

/-- It is faster than the last of the records that share a name, not slower than the first. -/
theorem diff_partitions_after_fasterRun :
    ∃ d same, fasterRun.store.diff "s" "aaaa" "bbbb" 0.2 .empty = .ok d ∧
      d.Partitions repeatingEntry fasterEntry 0.2 .empty same ∧
      (∃ change ∈ d.improvements, change.benchmark = "b" ∧ change.baseline = 200.0) ∧
      "new" ∈ d.newBenchmarks ∧ "gone" ∈ d.missingBenchmarks ∧ "n" ∈ d.incomparable := by
  have opens : start { policy := .manual } {} HistoryStore.newSession.storage 0
      = .ok HistoryStore.newSession := rfl
  have reached : fasterRun.Reached := ((Reached.opened opens).appended _ _).appended _ _
  have here : fasterRun.store.getSeries "s" = .ok ⟨"s", [repeatingEntry, fasterEntry]⟩ := by
    rfl
  have proper : ProperThreshold 0.2 := ⟨rfl, by decide +kernel⟩
  obtain ⟨d, same, compared, parts⟩ := diff_partitions reached here (.head _)
    (List.mem_cons_of_mem _ (.head _)) proper .empty
  refine ⟨d, same, compared, parts, ?_, ?_, ?_, ?_⟩
  · let old : BenchmarkRecord := ⟨"b", 200.0, "ns/op", none⟩
    let new : BenchmarkRecord := ⟨"b", 150.0, "ns/op", none⟩
    let change := changeBetween .empty "b" old new
    have changed : IsChange .empty repeatingEntry fasterEntry "b" change :=
      ⟨old, new, rfl, rfl, by decide +kernel, rfl⟩
    have direction : change.polarity = .higherIsWorse := by decide +kernel
    refine ⟨change, (parts.improvements change).2 ⟨changed, ?_⟩, rfl, rfl⟩
    rw [direction]
    exact (by decide +kernel : change.delta < -0.2)
  · exact (parts.newBenchmarks "new").2 (by decide +kernel)
  · exact (parts.missingBenchmarks "gone").2 (by decide +kernel)
  · exact (parts.incomparable "n").2
      ⟨by decide +kernel, ⟨"n", 0.0, "allocs/op", none⟩, rfl, .inl rfl⟩

end Session

end BenchLedger
