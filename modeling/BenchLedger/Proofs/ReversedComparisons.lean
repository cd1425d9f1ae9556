import BenchLedger.Proofs.DoubleOrder
import BenchLedger.Proofs.OppositeDirections

/-!
Comparisons of two entries in both directions. Main statement: `HistoryStore.diff_reversed`: what is
new in one direction is missing in the other, and no benchmark gets worse, or better, in both.
-/

namespace BenchLedger

/-! ### Values -/

/-- A value gets worse from `before` to `after`. -/
def Polarity.Worsens (polarity : Polarity) (before after : Float) : Prop :=
  match polarity with
  | .higherIsWorse => before < after
  | .higherIsBetter => after < before

theorem Polarity.Worsens.asymm {polarity : Polarity} {before after : Float}
    (worsens : polarity.Worsens before after) : ¬polarity.Worsens after before := by
  cases polarity with
  | higherIsWorse => exact Decimal.lt_asymm worsens
  | higherIsBetter => exact Decimal.lt_asymm worsens

/-- A relative change beyond a proper threshold has the direction of the change itself. -/
theorem ProperThreshold.worsens_of_exceeded {threshold : Float} (proper : ProperThreshold threshold)
    {polarity : Polarity} {before after : Float}
    (exceeded : polarity.Exceeded (relativeChange before after) threshold) :
    polarity.Worsens before after := by
  -- The size of a relative change depends on what it is divided by, its sign does not.
  cases polarity with
  | higherIsWorse =>
    have up := Decimal.signed_of_lt proper.2 exceeded
    rcases Decimal.order_of_relativeChange up with ⟨_, order⟩ | ⟨sign, _⟩
    · exact order
    · cases sign
  | higherIsBetter =>
    have down := Decimal.signed_of_lt proper.2 (Decimal.lt_neg.1 exceeded)
    rw [Decimal.unpack_neg, Decimal.signed_neg] at down
    rcases Decimal.order_of_relativeChange down with ⟨sign, _⟩ | ⟨_, order⟩
    · cases sign
    · exact order

/-! ### Benchmarks -/

/-- A map gives every benchmark that two entries share the same direction by either record. -/
def PolarityMap.Steady (polarities : PolarityMap) (before after : CommitEntry) : Prop :=
  ∀ name old new, before.lastBench? name = some old → after.lastBench? name = some new →
    polarities.resolve old = polarities.resolve new

section

variable {threshold : Float} {polarities : PolarityMap} {before after : CommitEntry}

/-- There and back the same benchmark does not get worse twice, whichever of the two directions
counts as the worse one. -/
theorem IsChange.not_exceeded_back {name : String} {change back : BenchmarkChange}
    (proper : ProperThreshold threshold) (steady : polarities.Steady before after)
    (forth : IsChange polarities before after name change)
    (returned : IsChange polarities after before name back) (worse : Polarity → Polarity)
    (exceeded : (worse change.polarity).Exceeded change.delta threshold) :
    ¬(worse back.polarity).Exceeded back.delta threshold := by
  obtain ⟨old, new, left, right, _, rfl⟩ := forth
  obtain ⟨new', old', right', left', _, rfl⟩ := returned
  cases left.symm.trans left'
  cases right.symm.trans right'
  intro again
  have same : polarities.resolve old = polarities.resolve new := steady name old new left right
  simp only [changeBetween, same] at exceeded again
  exact (proper.worsens_of_exceeded exceeded).asymm (proper.worsens_of_exceeded again)

end

/-! ### Lists -/

/-- Names in increasing order are settled by which names there are. -/
theorem BytesIncrease.eq_of_mem_iff {names names' : List String} (sorted : BytesIncrease names)
    (sorted' : BytesIncrease names') (same : ∀ name, name ∈ names ↔ name ∈ names') :
    names = names' := by
  refine List.Perm.eq_of_pairwise ?_ sorted sorted'
    ((List.perm_ext_iff_of_nodup sorted.nodup sorted'.nodup).2 same)
  intro a b _ _ before after
  exact absurd after (List.lt_asymm before)

/-- Two comparisons there and back: what is new in one is missing in the other, and no benchmark is
worse in both or better in both. -/
structure CommitDiff.Reverses (d d' : CommitDiff) : Prop where
  newBenchmarks : d'.newBenchmarks = d.missingBenchmarks
  missingBenchmarks : d'.missingBenchmarks = d.newBenchmarks
  regressions : ∀ change ∈ d.regressions, ∀ back ∈ d'.regressions,
    change.benchmark ≠ back.benchmark
  improvements : ∀ change ∈ d.improvements, ∀ back ∈ d'.improvements,
    change.benchmark ≠ back.benchmark

/-- What is new in one direction is missing in the other. -/
theorem newBenchmarks_eq_missing (series : String) (before after : CommitEntry)
    {threshold : Float} (proper : ProperThreshold threshold) (polarities : PolarityMap) :
    (compareEntries series before after threshold polarities).newBenchmarks
      = (compareEntries series after before threshold polarities).missingBenchmarks := by
  have forth := partitions_compareEntries series before after proper polarities
  have back := partitions_compareEntries series after before proper polarities
  apply forth.sorted.2.2.1.eq_of_mem_iff back.sorted.2.2.2.1
  intro name
  rw [forth.newBenchmarks, back.missingBenchmarks]

theorem reverses_compareEntries (series : String) {before after : CommitEntry} {threshold : Float}
    (proper : ProperThreshold threshold) {polarities : PolarityMap}
    (steady : polarities.Steady before after) :
    (compareEntries series before after threshold polarities).Reverses
      (compareEntries series after before threshold polarities) := by
  have forth := partitions_compareEntries series before after proper polarities
  have back := partitions_compareEntries series after before proper polarities
  constructor
  case newBenchmarks => exact newBenchmarks_eq_missing series after before proper polarities
  case missingBenchmarks =>
    exact (newBenchmarks_eq_missing series before after proper polarities).symm
  case regressions =>
    intro change listed change' listed' same
    obtain ⟨changed, exceeded⟩ := (forth.regressions change).1 listed
    obtain ⟨changed', exceeded'⟩ := (back.regressions change').1 listed'
    rw [← same] at changed'
    exact changed.not_exceeded_back proper steady changed' id exceeded exceeded'
  case improvements =>
    intro change listed change' listed' same
    obtain ⟨changed, exceeded⟩ := (forth.improvements change).1 listed
    obtain ⟨changed', exceeded'⟩ := (back.improvements change').1 listed'
    rw [← same] at changed'
    exact changed.not_exceeded_back proper steady changed' Polarity.flip exceeded exceeded'

/-! ### Queries -/

/-- If a map gives each benchmark that two entries of a series share the same direction by either
record, both comparisons of the entries, there and back, succeed. They exchange what is new and what
is missing, and no benchmark is worse in both or better in both. -/
theorem HistoryStore.diff_reversed {s : HistoryStore} {series : String} {snapshot : SeriesSnapshot}
    (here : s.getSeries series = .ok snapshot) {baseline candidate : String}
    {before after : CommitEntry} (first : snapshot.find? baseline = some before)
    (second : snapshot.find? candidate = some after) {threshold : Float}
    (proper : ProperThreshold threshold) {polarities : PolarityMap}
    (steady : polarities.Steady before after) :
    ∃ d d', s.diff series baseline candidate threshold polarities = .ok d ∧
      s.diff series candidate baseline threshold polarities = .ok d' ∧ d.Reverses d' :=
  ⟨_, _, diff_of_found here first second proper _, diff_of_found here second first proper _,
    reverses_compareEntries snapshot.name proper steady⟩

theorem steady_empty : PolarityMap.empty.Steady Session.repeatingEntry Session.fasterEntry := by
  intro name old new left right
  obtain ⟨listed, same⟩ := mem_of_lastBench? left
  obtain ⟨listed', rfl⟩ := mem_of_lastBench? right
  have each : ∀ r ∈ Session.repeatingEntry.benches, ∀ r' ∈ Session.fasterEntry.benches,
      r.name = r'.name → PolarityMap.empty.resolve r = PolarityMap.empty.resolve r' := by
    decide +kernel
  exact each old listed new listed' same

/-- On the way back the faster benchmark is a regression, and what was new is missing. -/
theorem HistoryStore.diff_reversed_of_fasterRun :
    ∃ d d', Session.fasterRun.store.diff "s" "aaaa" "bbbb" 0.2 .empty = .ok d ∧
      Session.fasterRun.store.diff "s" "bbbb" "aaaa" 0.2 .empty = .ok d' ∧ d.Reverses d' ∧
      d.improvements.map (·.benchmark) = ["b"] ∧ d'.regressions.map (·.benchmark) = ["b"] ∧
      d'.missingBenchmarks = ["new"] := by
  have proper : ProperThreshold 0.2 := ⟨rfl, by decide +kernel⟩
  obtain ⟨here, first, second⟩ := Session.shows_fasterRun
  obtain ⟨d, d', answer, answer', reverses⟩ :=
    diff_reversed here first second proper steady_empty
  have forth : (Session.fasterRun.store.diff "s" "aaaa" "bbbb" 0.2 .empty).toOption.map
      (fun d => (d.improvements.map (·.benchmark), d.newBenchmarks)) = some (["b"], ["new"]) := by
    decide +kernel
  have back : (Session.fasterRun.store.diff "s" "bbbb" "aaaa" 0.2 .empty).toOption.map
      (fun d => d.regressions.map (·.benchmark)) = some ["b"] := by
    decide +kernel
  rw [answer] at forth
  rw [answer'] at back
  obtain ⟨improved, new⟩ := Prod.mk.inj (Option.some.inj forth)
  exact ⟨d, d', answer, answer', reverses, improved, Option.some.inj back,
    reverses.missingBenchmarks.trans new⟩

end BenchLedger
