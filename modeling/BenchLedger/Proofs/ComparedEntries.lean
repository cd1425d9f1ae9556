import BenchLedger.Proofs.MeasureRecords
import BenchLedger.Proofs.NameMapOrder
import BenchLedger.Query.Comparison
import Mathlib.Data.List.Induction

/-!
What a comparison of two entries says about each benchmark. Main statements: `mem_regressions`,
`mem_improvements`, `mem_newBenchmarks`, `mem_incomparable` and `mem_missingBenchmarks`: which
verdicts the lists of a comparison hold; and `unchanged_eq`: what is counted is what no list names.
-/

namespace BenchLedger

/-! ### Records by name -/

/-- The last record of a name, if an entry has one. -/
def CommitEntry.lastBench? (e : CommitEntry) (name : String) : Option BenchmarkRecord :=
  e.benches.findRev? (·.name == name)

/-- The record that counts for a name is the last one that has it. -/
theorem get?_recordsByName (e : CommitEntry) (name : String) :
    (recordsByName e.benches).get? name = e.lastBench? name := by
  unfold CommitEntry.lastBench?
  induction e.benches using List.reverseRecOn with
  | nil => rfl
  | append_singleton rs r ih =>
    have grown : recordsByName (rs ++ [r]) = (recordsByName rs).insert r.name r := by
      simp [recordsByName, NameMap.ofList]
    rw [grown, NameMap.get?_insert, ih]
    by_cases here : name = r.name
    · simp [here]
    · have other : (r.name == name) = false := by simpa using Ne.symm here
      simp [here, other]

/-- If no name repeats, the last record of a name is the first one. -/
theorem lastBench?_of_nodup {e : CommitEntry} (distinct : (e.benches.map (·.name)).Nodup)
    (name : String) : e.lastBench? name = e.bench? name := by
  unfold CommitEntry.lastBench? CommitEntry.bench?
  rw [List.findRev?_eq_find?_reverse]
  cases found : e.benches.reverse.find? (·.name == name) with
  | none =>
    symm
    rw [List.find?_eq_none] at found ⊢
    exact fun r member => found r (List.mem_reverse.2 member)
  | some r =>
    have member := List.mem_reverse.1 (List.mem_of_find?_eq_some found)
    obtain rfl : r.name = name := by simpa using List.find?_some found
    exact ((find?_name_eq_some distinct).2 member).symm

/-! ### Verdicts -/

/-- Whether a list of a comparison names a benchmark. -/
def CommitDiff.lists (d : CommitDiff) (name : String) : Bool :=
  d.regressions.any (·.benchmark == name) || d.improvements.any (·.benchmark == name) ||
    d.newBenchmarks.contains name || d.missingBenchmarks.contains name ||
    d.incomparable.contains name

/-- The benchmarks of the candidate that no list of a comparison names. -/
def CommitDiff.unlisted (d : CommitDiff) (candidate : CommitEntry) : List String :=
  (candidate.benches.map (·.name)).filter fun name => !d.lists name

section Verdicts

variable (threshold : Float) (polarities : PolarityMap) (baseline candidate : CommitEntry)

/-- The verdict on a benchmark, if the candidate has it. -/
def verdict? (name : String) : Option Verdict :=
  (candidate.bench? name).map (judge threshold polarities name (baseline.bench? name))

/-- All verdicts of a comparison, in increasing order of the names. -/
def verdicts : List (String × Verdict) :=
  (recordsByName candidate.benches).pairs.map fun p =>
    (p.1, judge threshold polarities p.1 ((recordsByName baseline.benches).get? p.1) p.2)

end Verdicts

/-- The change of a benchmark from one record to another. -/
def changeBetween (polarities : PolarityMap) (name : String) (old new : BenchmarkRecord) :
    BenchmarkChange where
  benchmark := name
  unit := new.unit
  baseline := old.value
  candidate := new.value
  delta := relativeChange old.value new.value
  polarity := polarities.resolve new

/-- What each verdict says of the two records. -/
inductive Judged (threshold : Float) (polarities : PolarityMap) (name : String)
    (new : BenchmarkRecord) : Option BenchmarkRecord → Verdict → Prop where
  | unseen : Judged threshold polarities name new none .unseen
  | incomparable {old : BenchmarkRecord} (zero : (old.value == 0.0) = true) :
      Judged threshold polarities name new (some old) .incomparable
  | regression {old : BenchmarkRecord} (related : (old.value == 0.0) = false)
      (worse : isWorse (relativeChange old.value new.value) threshold (polarities.resolve new)
        = true) :
      Judged threshold polarities name new (some old)
        (.regression (changeBetween polarities name old new))
  | improvement {old : BenchmarkRecord} (related : (old.value == 0.0) = false)
      (notWorse : isWorse (relativeChange old.value new.value) threshold (polarities.resolve new)
        = false)
      (better : isWorse (-relativeChange old.value new.value) threshold (polarities.resolve new)
        = true) :
      Judged threshold polarities name new (some old)
        (.improvement (changeBetween polarities name old new))
  | unchanged {old : BenchmarkRecord} (related : (old.value == 0.0) = false)
      (notWorse : isWorse (relativeChange old.value new.value) threshold (polarities.resolve new)
        = false)
      (notBetter : isWorse (-relativeChange old.value new.value) threshold (polarities.resolve new)
        = false) :
      Judged threshold polarities name new (some old) .unchanged

theorem judged_judge (threshold : Float) (polarities : PolarityMap) (name : String)
    (new : BenchmarkRecord) (old : Option BenchmarkRecord) :
    Judged threshold polarities name new old (judge threshold polarities name old new) := by
  unfold judge
  cases old with
  | none => exact .unseen
  | some old =>
    dsimp only
    split
    next zero => exact .incomparable zero
    next nonzero =>
      have related : (old.value == 0.0) = false := by simpa using nonzero
      split
      next worse => exact .regression related worse
      next notWorse =>
        have same : isWorse (relativeChange old.value new.value) threshold (polarities.resolve new)
            = false := by simpa using notWorse
        split
        next better => exact .improvement related same better
        next notBetter => exact .unchanged related same (by simpa using notBetter)

namespace Judged

variable {threshold : Float} {polarities : PolarityMap} {name : String}
  {old new : BenchmarkRecord} {v : Verdict}

/-- Two values that can be compared are never found incomparable. -/
theorem ne_incomparable (judged : Judged threshold polarities name new (some old) v)
    (related : (old.value == 0.0) = false) : v ≠ .incomparable := by
  rintro rfl
  cases judged with
  | incomparable zero => cases zero.symm.trans related

theorem regression_iff (judged : Judged threshold polarities name new (some old) v)
    (related : (old.value == 0.0) = false) :
    (∃ change, v = .regression change) ↔
      isWorse (relativeChange old.value new.value) threshold (polarities.resolve new) = true := by
  cases judged with
  | incomparable zero => cases zero.symm.trans related
  | regression _ worse => exact iff_of_true ⟨_, rfl⟩ worse
  | improvement _ notWorse _ => simp [notWorse]
  | unchanged _ notWorse _ => simp [notWorse]

/-- What has not become worse has become better or has not changed. -/
theorem not_regression_iff (judged : Judged threshold polarities name new (some old) v)
    (related : (old.value == 0.0) = false) :
    ((∃ change, v = .improvement change) ∨ v = .unchanged) ↔
      isWorse (relativeChange old.value new.value) threshold (polarities.resolve new) = false := by
  cases judged with
  | incomparable zero => cases zero.symm.trans related
  | regression _ worse => simp [worse]
  | improvement _ notWorse _ => exact iff_of_true (.inl ⟨_, rfl⟩) notWorse
  | unchanged _ notWorse _ => exact iff_of_true (.inr rfl) notWorse

end Judged

theorem judge_eq_iff {threshold : Float} {polarities : PolarityMap} {name : String}
    {old : Option BenchmarkRecord} {new : BenchmarkRecord} {v : Verdict} :
    judge threshold polarities name old new = v ↔ Judged threshold polarities name new old v := by
  constructor
  · rintro rfl
    exact judged_judge ..
  · intro judged
    cases judged with
    | unseen => rfl
    | incomparable zero => simp only [judge, zero, if_true]
    | regression related worse =>
      simp only [judge, related, worse, Bool.false_eq_true, if_true, if_false, changeBetween]
    | improvement related notWorse better =>
      simp only [judge, related, notWorse, better, Bool.false_eq_true, if_true, if_false,
        changeBetween]
    | unchanged related notWorse notBetter =>
      simp only [judge, related, notWorse, notBetter, Bool.false_eq_true, if_false]

theorem judge_eq_incomparable {threshold : Float} {polarities : PolarityMap} {name : String}
    {old new : BenchmarkRecord} :
    judge threshold polarities name (some old) new = .incomparable ↔ (old.value == 0.0) = true := by
  rw [judge_eq_iff]
  constructor
  · intro judged
    cases judged with
    | incomparable zero => exact zero
  · exact .incomparable

theorem verdict?_eq_some {threshold : Float} {polarities : PolarityMap}
    {baseline candidate : CommitEntry} {name : String} {v : Verdict}
    (h : verdict? threshold polarities baseline candidate name = some v) :
    ∃ new, candidate.bench? name = some new ∧
      Judged threshold polarities name new (baseline.bench? name) v := by
  obtain ⟨new, found, rfl⟩ := Option.map_eq_some_iff.1 h
  exact ⟨new, found, judged_judge ..⟩

/-! ### Lists -/

section Lists

variable {threshold : Float} {polarities : PolarityMap} {baseline candidate : CommitEntry}

/-- The verdicts are on the last records of the candidate's names. -/
theorem mem_verdicts_last {name : String} {v : Verdict} :
    (name, v) ∈ verdicts threshold polarities baseline candidate ↔
      ∃ new, candidate.lastBench? name = some new ∧
        Judged threshold polarities name new (baseline.lastBench? name) v := by
  simp only [verdicts, List.mem_map, Prod.mk.injEq, Prod.exists, get?_recordsByName,
    ← NameMap.get?_eq_some, ← judge_eq_iff]
  constructor
  · rintro ⟨_, r, found, rfl, judged⟩
    exact ⟨r, found, judged⟩
  · rintro ⟨r, found, judged⟩
    exact ⟨name, r, found, rfl, judged⟩

/-- A change is about the benchmark that it is the verdict on. -/
theorem benchmark_of_mem_verdicts {name : String} {v : Verdict} {change : BenchmarkChange}
    (member : (name, v) ∈ verdicts threshold polarities baseline candidate)
    (kind : v = .regression change ∨ v = .improvement change) : change.benchmark = name := by
  obtain ⟨new, _, judged⟩ := mem_verdicts_last.1 member
  generalize baseline.lastBench? name = old at judged
  rcases kind with rfl | rfl <;> cases judged <;> rfl

/-- A list that picks from the verdicts holds what it picks for one verdict. -/
private theorem mem_picked {α : Type} {pick : String × Verdict → Option α} {a : α} {name : String}
    {v : Verdict} (picks : ∀ p ∈ verdicts threshold polarities baseline candidate,
      pick p = some a ↔ p = (name, v)) :
    a ∈ (verdicts threshold polarities baseline candidate).filterMap pick ↔
      (name, v) ∈ verdicts threshold polarities baseline candidate := by
  rw [List.mem_filterMap]
  constructor
  · rintro ⟨p, member, picked⟩
    rw [(picks p member).1 picked] at member
    exact member
  · intro member
    exact ⟨_, member, (picks _ member).2 rfl⟩

theorem mem_regressions_verdicts (series : String) {change : BenchmarkChange} :
    change ∈ (compareEntries series baseline candidate threshold polarities).regressions ↔
      (change.benchmark, .regression change)
        ∈ verdicts threshold polarities baseline candidate := by
  apply mem_picked
  rintro ⟨name, v⟩ member
  cases v with
  | regression listed =>
    have about := benchmark_of_mem_verdicts member (.inl rfl)
    grind
  | _ => simp

theorem mem_improvements_verdicts (series : String) {change : BenchmarkChange} :
    change ∈ (compareEntries series baseline candidate threshold polarities).improvements ↔
      (change.benchmark, .improvement change)
        ∈ verdicts threshold polarities baseline candidate := by
  apply mem_picked
  rintro ⟨name, v⟩ member
  cases v with
  | improvement listed =>
    have about := benchmark_of_mem_verdicts member (.inr rfl)
    grind
  | _ => simp

theorem mem_newBenchmarks_verdicts (series : String) {name : String} :
    name ∈ (compareEntries series baseline candidate threshold polarities).newBenchmarks ↔
      (name, .unseen) ∈ verdicts threshold polarities baseline candidate := by
  apply mem_picked
  rintro ⟨other, v⟩ _
  cases v <;> simp

theorem mem_incomparable_verdicts (series : String) {name : String} :
    name ∈ (compareEntries series baseline candidate threshold polarities).incomparable ↔
      (name, .incomparable) ∈ verdicts threshold polarities baseline candidate := by
  apply mem_picked
  rintro ⟨other, v⟩ _
  cases v <;> simp

theorem mem_missingBenchmarks_last (series : String) {name : String} :
    name ∈ (compareEntries series baseline candidate threshold polarities).missingBenchmarks ↔
      (baseline.lastBench? name).isSome = true ∧ candidate.lastBench? name = none := by
  simp only [compareEntries, List.mem_filter, NameMap.mem_names, NameMap.contains,
    get?_recordsByName, Bool.not_eq_true', Option.isSome_eq_false_iff, Option.isNone_iff_eq_none]

variable (series : String) (before : (baseline.benches.map (·.name)).Nodup)
  (after : (candidate.benches.map (·.name)).Nodup)

include before after

theorem mem_verdicts {name : String} {v : Verdict} :
    (name, v) ∈ verdicts threshold polarities baseline candidate ↔
      verdict? threshold polarities baseline candidate name = some v := by
  simp only [mem_verdicts_last, lastBench?_of_nodup before, lastBench?_of_nodup after, verdict?,
    Option.map_eq_some_iff, judge_eq_iff]

theorem mem_regressions {change : BenchmarkChange} :
    change ∈ (compareEntries series baseline candidate threshold polarities).regressions ↔
      verdict? threshold polarities baseline candidate change.benchmark
        = some (.regression change) :=
  (mem_regressions_verdicts series).trans (mem_verdicts before after)

theorem mem_improvements {change : BenchmarkChange} :
    change ∈ (compareEntries series baseline candidate threshold polarities).improvements ↔
      verdict? threshold polarities baseline candidate change.benchmark
        = some (.improvement change) :=
  (mem_improvements_verdicts series).trans (mem_verdicts before after)

theorem mem_newBenchmarks {name : String} :
    name ∈ (compareEntries series baseline candidate threshold polarities).newBenchmarks ↔
      verdict? threshold polarities baseline candidate name = some .unseen :=
  (mem_newBenchmarks_verdicts series).trans (mem_verdicts before after)

theorem mem_incomparable {name : String} :
    name ∈ (compareEntries series baseline candidate threshold polarities).incomparable ↔
      verdict? threshold polarities baseline candidate name = some .incomparable :=
  (mem_incomparable_verdicts series).trans (mem_verdicts before after)

theorem mem_missingBenchmarks {name : String} :
    name ∈ (compareEntries series baseline candidate threshold polarities).missingBenchmarks ↔
      (baseline.bench? name).isSome = true ∧ candidate.bench? name = none := by
  rw [mem_missingBenchmarks_last, lastBench?_of_nodup before, lastBench?_of_nodup after]

variable {name : String} {v : Verdict}

omit before after in
/-- A list of changes of one kind names a benchmark just if its verdict is of that kind. -/
private theorem exists_listed_iff {changes : List BenchmarkChange}
    {kind : BenchmarkChange → Verdict}
    (listed : ∀ change, change ∈ changes ↔
      verdict? threshold polarities baseline candidate change.benchmark = some (kind change))
    (about : ∀ change, verdict? threshold polarities baseline candidate name = some (kind change) →
      change.benchmark = name)
    (here : verdict? threshold polarities baseline candidate name = some v) :
    (∃ change ∈ changes, change.benchmark = name) ↔ ∃ change, v = kind change := by
  constructor
  · rintro ⟨change, member, rfl⟩
    exact ⟨change, Option.some.inj (here.symm.trans ((listed change).1 member))⟩
  · rintro ⟨change, rfl⟩
    have same := about change here
    exact ⟨change, (listed change).2 (same ▸ here), same⟩

theorem exists_regression_iff
    (here : verdict? threshold polarities baseline candidate name = some v) :
    (∃ change ∈ (compareEntries series baseline candidate threshold polarities).regressions,
      change.benchmark = name) ↔ ∃ change, v = .regression change :=
  exists_listed_iff (fun _ => mem_regressions series before after)
    (fun _ verdict =>
      benchmark_of_mem_verdicts ((mem_verdicts before after).2 verdict) (.inl rfl)) here

theorem exists_improvement_iff
    (here : verdict? threshold polarities baseline candidate name = some v) :
    (∃ change ∈ (compareEntries series baseline candidate threshold polarities).improvements,
      change.benchmark = name) ↔ ∃ change, v = .improvement change :=
  exists_listed_iff (fun _ => mem_improvements series before after)
    (fun _ verdict =>
      benchmark_of_mem_verdicts ((mem_verdicts before after).2 verdict) (.inr rfl)) here

/-- No list names a benchmark of the candidate just if its verdict is that it has not changed. -/
theorem lists_eq_false (here : verdict? threshold polarities baseline candidate name = some v) :
    (compareEntries series baseline candidate threshold polarities).lists name = false ↔
      v = .unchanged := by
  obtain ⟨new, carried, _⟩ := verdict?_eq_some here
  have listed : (compareEntries series baseline candidate threshold polarities).lists name = true ↔
      (∃ change, v = .regression change) ∨ (∃ change, v = .improvement change) ∨ v = .unseen ∨
        v = .incomparable := by
    simp only [CommitDiff.lists, Bool.or_eq_true, List.any_eq_true, beq_iff_eq,
      List.contains_iff_mem, exists_regression_iff series before after here,
      exists_improvement_iff series before after here, mem_newBenchmarks series before after,
      mem_incomparable series before after, mem_missingBenchmarks series before after, here,
      carried, Option.some.injEq]
    simp only [reduceCtorEq, and_false, or_false, or_assoc]
  rw [← Bool.not_eq_true, listed]
  cases v <;> simp

/-- What is counted are the benchmarks that no list names. -/
theorem unchanged_eq :
    (compareEntries series baseline candidate threshold polarities).unchanged
      = ((compareEntries series baseline candidate threshold polarities).unlisted
          candidate).length := by
  let d := compareEntries series baseline candidate threshold polarities
  -- The map by name has the names of the candidate's records, each once.
  have names : (recordsByName candidate.benches).names.Perm (candidate.benches.map (·.name)) := by
    refine (List.perm_ext_iff_of_nodup (NameMap.nodup_names _) after).2 fun name => ?_
    rw [NameMap.mem_names, get?_recordsByName, lastBench?_of_nodup after, CommitEntry.bench?,
      List.find?_isSome, List.mem_map]
    simp only [beq_iff_eq]
  have counted (p : String × BenchmarkRecord)
      (member : p ∈ (recordsByName candidate.benches).pairs) :
      (!d.lists p.1) = true ↔ (judge threshold polarities p.1
        ((recordsByName baseline.benches).get? p.1) p.2) = .unchanged := by
    have here : (p.1, _) ∈ verdicts threshold polarities baseline candidate :=
      List.mem_map_of_mem member
    rw [Bool.not_eq_true']
    exact lists_eq_false series before after ((mem_verdicts before after).1 here)
  show (verdicts threshold polarities baseline candidate).countP _ = _
  rw [CommitDiff.unlisted, ← List.countP_eq_length_filter, ← names.countP_eq, NameMap.names,
    verdicts, List.countP_map, List.countP_map]
  refine List.countP_congr fun p member => ?_
  refine Iff.trans ?_ (counted p member).symm
  rw [Function.comp_apply]
  generalize judge _ _ _ _ _ = v
  cases v <;> simp

end Lists

end BenchLedger
