import BenchLedger.Proofs.NormalizedRecords
import Mathlib.Data.List.Nodup

/-!
Which measures have a record of their own after normalization. Main statements:
`CommitEntry.kept_measures`: if composite records are kept, each measure's name is there, and its
value just if no earlier measure has taken the name, and `CommitEntry.named_measures`: if they are
dropped, a measure's name is there just if no composite record bears it.
-/

namespace BenchLedger

/-- The records that the measures of a record would have; none for one that is not composite. -/
def BenchmarkRecord.exploded (r : BenchmarkRecord) : List BenchmarkRecord :=
  match Measure.split r.value r.unit with
  | .ok (some ms) => ms.map (explodedRecord r)
  | _ => []

/-- The record that the first measure of an entry under a name would have. -/
def CommitEntry.measured? (e : CommitEntry) (name : String) : Option BenchmarkRecord :=
  (e.benches.flatMap BenchmarkRecord.exploded).find? (·.name == name)

variable {keep : Bool} {seen : List String} {r : BenchmarkRecord} {rs : List BenchmarkRecord}
  {name : String}

theorem BenchmarkRecord.SplitsInto.exploded_eq {ms : List Measure} (split : r.SplitsInto ms) :
    r.exploded = ms.map (explodedRecord r) := by
  simp only [exploded, show Measure.split r.value r.unit = _ from split]

theorem exploded_eq_nil (other : ∀ ms, ¬r.SplitsInto ms) : r.exploded = [] := by
  unfold BenchmarkRecord.exploded
  split
  next ms split => exact absurd split (other ms)
  · rfl

theorem BenchmarkRecord.SplitsInto.isComposite {ms : List Measure} (split : r.SplitsInto ms) :
    r.isComposite = true := by
  rw [← Bool.not_eq_false]
  intro plain
  rw [SplitsInto, Measure.split_of_not_isComposite plain] at split
  cases split

/-- The unit of a valid record that is composite can be read. -/
theorem BenchmarkRecord.Valid.exists_split (valid : r.Valid) (composite : r.isComposite = true) :
    ∃ ms, r.SplitsInto ms := by
  obtain ⟨measures, read⟩ := valid.unit
  cases measures with
  | some ms => exact ⟨ms, read⟩
  | none =>
    simp only [Measure.split, show Measure.isComposite r.unit = true from composite, if_true]
      at read
    split at read
    · cases read
    next rest _ =>
      cases others : Measure.ofSegments rest with
      | error fault =>
        rw [others] at read
        cases read
      | ok ms =>
        rw [others] at read
        cases read

/-! ### The records under a name -/

/-- Of the new records of a composite one, the first measure under a name has its own, unless the
name was seen before. -/
theorem find?_explode {ms : List Measure} :
    (explode r seen ms).1.find? (·.name == name) =
      if name ∈ seen then none else (ms.map (explodedRecord r)).find? (·.name == name) := by
  induction ms generalizing seen with
  | nil => simp [explode]
  | cons m ms ih =>
    rw [explode_cons]
    by_cases mine : explodedName r.name m.unit = name
    · subst mine
      split
      next known => rw [ih, if_pos known]
      next new => simp [explodedRecord]
    · have passed : ((explodedRecord r m).name == name) = false := by
        simpa [explodedRecord] using mine
      rw [List.map_cons, List.find?_cons_of_neg (by simp [passed])]
      split
      · exact ih
      · rw [List.find?_cons_of_neg (by simp [passed]), ih]
        simp [Ne.symm mine]

/-- Under a name that no record bears, the first measure with that name is found, unless the name
was seen before. -/
theorem find?_normalizeRecords (unnamed : name ∉ rs.map (·.name)) :
    (normalizeRecords keep seen rs).find? (·.name == name) =
      if name ∈ seen then none
      else (rs.flatMap BenchmarkRecord.exploded).find? (·.name == name) := by
  induction rs using records_induction generalizing seen with
  | nil => simp [normalizeRecords]
  | composite r rs ms split ih =>
    rw [List.map_cons, List.mem_cons, not_or] at unnamed
    obtain ⟨other, unnamed⟩ := unnamed
    have kept : (if keep then [r] else []).find? (·.name == name) = none := by
      cases keep <;> simp [Ne.symm other]
    rw [normalizeRecords_composite split, List.flatMap_cons, split.exploded_eq, List.append_assoc,
      List.find?_append, kept, Option.none_or, List.find?_append, List.find?_append, ih unnamed,
      find?_explode]
    by_cases known : name ∈ seen
    · have still : name ∈ (explode r seen ms).2 := mem_seen_explode.2 (.inl known)
      rw [if_pos known, if_pos known, if_pos still, Option.none_or]
    · rw [if_neg known, if_neg known]
      cases found : (ms.map (explodedRecord r)).find? (·.name == name) with
      | some x => rfl
      | none =>
        -- No measure of this record has the name, so it is not seen here either.
        have unseen : name ∉ (explode r seen ms).2 := by
          rw [mem_seen_explode, not_or]
          refine ⟨known, fun new => ?_⟩
          have none := @find?_explode seen r name ms
          rw [if_neg known, found, List.find?_eq_none] at none
          obtain ⟨x, member, same⟩ := List.mem_map.1 new
          exact none x member (by simpa using same)
        rw [if_neg unseen]
  | other r rs other ih =>
    rw [List.map_cons, List.mem_cons, not_or] at unnamed
    rw [normalizeRecords_other other, List.find?_cons_of_neg (by simpa using Ne.symm unnamed.1),
      ih unnamed.2, List.flatMap_cons, exploded_eq_nil other, List.nil_append]

/-- Where no name repeats, a record is there just if it is what its name leads to. -/
theorem find?_name_eq_some (distinct : (rs.map (·.name)).Nodup) :
    rs.find? (·.name == r.name) = some r ↔ r ∈ rs := by
  refine ⟨List.mem_of_find?_eq_some, fun member => ?_⟩
  have named : (rs.find? (·.name == r.name)).isSome = true :=
    List.find?_isSome.2 ⟨r, member, beq_self_eq_true _⟩
  obtain ⟨x, found⟩ := Option.isSome_iff_exists.1 named
  have same : x.name = r.name := by simpa using List.find?_some found
  rw [found, List.inj_on_of_nodup_map distinct (List.mem_of_find?_eq_some found) member same]

/-! ### What stays -/

/-- All records stay in their order, but for composite ones that are not kept. -/
theorem sublist_normalizeRecords :
    (rs.filter fun r => keep || !r.isComposite).Sublist (normalizeRecords keep seen rs) := by
  induction rs using records_induction generalizing seen with
  | nil => exact .slnil
  | composite r rs ms split ih =>
    rw [normalizeRecords_composite split, List.append_assoc]
    have rest := (@ih (explode r seen ms).2).trans
      (List.sublist_append_right (explode r seen ms).1 _)
    cases keep with
    | true => simpa using rest.cons_cons r
    | false => simpa [split.isComposite] using rest
  | other r rs other ih =>
    rw [normalizeRecords_other other, List.filter_cons]
    split
    · exact ih.cons_cons r
    · exact ih.cons r

/-- No record of valid ones is composite after normalization if those are not kept. -/
theorem not_isComposite_of_dropped (valid : ∀ r ∈ rs, r.Valid) :
    ∀ x ∈ normalizeRecords false seen rs, x.isComposite = false := by
  induction rs using records_induction generalizing seen with
  | nil => exact fun x none => by cases none
  | composite r rs ms split ih =>
    intro x member
    rw [normalizeRecords_composite split, List.mem_append] at member
    rcases member with new | later
    · obtain ⟨m, measure, rfl⟩ := (mem_explode (by simpa using new)).2
      exact Measure.isComposite_of_split split measure
    · exact ih (List.forall_mem_cons.1 valid).2 x later
  | other r rs other ih =>
    obtain ⟨first, others⟩ := List.forall_mem_cons.1 valid
    rw [normalizeRecords_other other]
    refine List.forall_mem_cons.2 ⟨Bool.eq_false_iff.2 fun composite => ?_, ih others⟩
    obtain ⟨ms, split⟩ := first.exists_split composite
    exact other ms split

namespace CommitEntry

variable {series : String} {e : CommitEntry}

/-- Under a name that no record of an entry bears, normalization leaves the record of the first
measure with that name. -/
theorem bench?_normalizeEntry (config : IngestConfig) (unnamed : ∀ x ∈ e.benches, x.name ≠ name) :
    (normalizeEntry config e).bench? name = e.measured? name := by
  have fresh : name ∉ e.benches.map (·.name) := by simpa using unnamed
  exact (find?_normalizeRecords fresh).trans (if_neg fresh)

theorem isSome_measured? (member : r ∈ e.benches) {ms : List Measure} (split : r.SplitsInto ms)
    {m : Measure} (measure : m ∈ ms) :
    (e.measured? (explodedName r.name m.unit)).isSome = true := by
  have made : explodedRecord r m ∈ r.exploded := by
    rw [split.exploded_eq]
    exact List.mem_map_of_mem measure
  exact List.find?_isSome.2 ⟨_, List.mem_flatMap.2 ⟨r, member, made⟩, by simp [explodedRecord]⟩

/-- When a valid entry is normalized and composite records are kept, all its records stay as they
are and in their order. Under the name of each measure that no record of the entry bears there is
the record of the first measure with that name, so that the value of a measure is kept just if no
other one comes before it under its name. -/
theorem kept_measures (valid : validateEntry series e = .ok ()) :
    e.benches.Sublist (normalizeEntry { keepComposite := true } e).benches ∧
      ∀ r ∈ e.benches, ∀ ms, r.SplitsInto ms → ∀ m ∈ ms,
        (∀ x ∈ e.benches, x.name ≠ explodedName r.name m.unit) →
        (∃ x ∈ (normalizeEntry { keepComposite := true } e).benches,
          x.name = explodedName r.name m.unit) ∧
        (explodedRecord r m ∈ (normalizeEntry { keepComposite := true } e).benches ↔
          e.measured? (explodedName r.name m.unit) = some (explodedRecord r m)) := by
  have after := (validateEntry_eq_ok.1 valid).normalizeEntry { keepComposite := true }
  constructor
  · have stay : (e.benches.filter fun _ => true).Sublist
        (normalizeEntry { keepComposite := true } e).benches := @sublist_normalizeRecords true _ _
    rwa [List.filter_true] at stay
  · intro r member ms split m measure unnamed
    have first := bench?_normalizeEntry { keepComposite := true } unnamed
    constructor
    · obtain ⟨x, found⟩ := Option.isSome_iff_exists.1 (isSome_measured? member split measure)
      rw [found] at first
      exact ⟨x, List.mem_of_find?_eq_some first, by simpa using List.find?_some first⟩
    · rw [← first]
      exact (find?_name_eq_some after.distinct).symm

/-- A record with two measures of one unit. -/
def twiceTimed : BenchmarkRecord :=
  ⟨"b", 1.0, "ns/op\t5 ns/op\t8 B/op", some "4 procs"⟩

/-- A run with such a record, whose harness has counted the bytes in a record of their own. -/
def twiceTimedRun : CommitEntry :=
  .plain "aaaa" 5 [twiceTimed, ⟨"b - B/op", 9.0, "B/op", none⟩]

theorem kept_measures_of_twiceTimedRun :
    twiceTimedRun.benches.Sublist
        (normalizeEntry { keepComposite := true } twiceTimedRun).benches ∧
      explodedRecord twiceTimed ⟨1.0, "ns/op"⟩
        ∈ (normalizeEntry { keepComposite := true } twiceTimedRun).benches := by
  have split : twiceTimed.SplitsInto [⟨1.0, "ns/op"⟩, ⟨5.0, "ns/op"⟩, ⟨8.0, "B/op"⟩] := rfl
  have valid : validateEntry "s" twiceTimedRun = .ok () := rfl
  have unnamed : ∀ x ∈ twiceTimedRun.benches, x.name ≠ explodedName twiceTimed.name "ns/op" := by
    decide
  obtain ⟨stay, kept⟩ := kept_measures valid
  obtain ⟨_, first⟩ := kept twiceTimed (by simp [twiceTimedRun]) _ split ⟨1.0, "ns/op"⟩
    (by simp) unnamed
  exact ⟨stay, first.2 rfl⟩

/-- The second duration of such a record is under no name afterwards. -/
theorem second_duration_lost :
    validateEntry "s" twiceTimedRun = .ok () ∧ twiceTimed ∈ twiceTimedRun.benches ∧
      twiceTimed.SplitsInto [⟨1.0, "ns/op"⟩, ⟨5.0, "ns/op"⟩, ⟨8.0, "B/op"⟩] ∧
      (∀ x ∈ twiceTimedRun.benches, x.name ≠ explodedName twiceTimed.name "ns/op") ∧
      ¬∃ x ∈ (normalizeEntry { keepComposite := true } twiceTimedRun).benches,
        x.name = explodedName twiceTimed.name "ns/op" ∧ x.value = 5.0 := by
  refine ⟨rfl, by simp [twiceTimedRun], rfl, by decide, ?_⟩
  have after : (normalizeEntry { keepComposite := true } twiceTimedRun).benches
      = [twiceTimed, explodedRecord twiceTimed ⟨1.0, "ns/op"⟩, ⟨"b - B/op", 9.0, "B/op", none⟩] :=
    rfl
  rw [after]
  decide

/-- When a valid entry is normalized and composite records are dropped, none is left, all others
stay as they are and in their order, and each measure's name is there unless one of the dropped
records bears it. -/
theorem named_measures (valid : validateEntry series e = .ok ()) :
    (∀ x ∈ (normalizeEntry { keepComposite := false } e).benches, x.isComposite = false) ∧
      (e.benches.filter (!·.isComposite)).Sublist
        (normalizeEntry { keepComposite := false } e).benches ∧
      ∀ r ∈ e.benches, ∀ ms, r.SplitsInto ms → ∀ m ∈ ms,
        ((∃ x ∈ (normalizeEntry { keepComposite := false } e).benches,
            x.name = explodedName r.name m.unit) ↔
          ∀ c ∈ e.benches, c.isComposite = true → c.name ≠ explodedName r.name m.unit) := by
  have entry := validateEntry_eq_ok.1 valid
  have plain := @not_isComposite_of_dropped (e.benches.map (·.name)) _ entry.records
  have stay : (e.benches.filter (!·.isComposite)).Sublist
      (normalizeEntry { keepComposite := false } e).benches := @sublist_normalizeRecords false _ _
  refine ⟨plain, stay, fun r member ms split m measure => ⟨?_, fun free => ?_⟩⟩
  · rintro ⟨x, there, named⟩ c original composite same
    have agree : x.name = c.name := named.trans same.symm
    have known : x.name ∈ e.benches.map (·.name) := agree ▸ List.mem_map_of_mem original
    have equal := List.inj_on_of_nodup_map entry.distinct (mem_of_seen known there) original agree
    rw [← equal, plain x there] at composite
    cases composite
  · by_cases named : ∃ x ∈ e.benches, x.name = explodedName r.name m.unit
    · obtain ⟨x, original, same⟩ := named
      have single : x.isComposite = false :=
        Bool.eq_false_iff.2 fun composite => free x original composite same
      exact ⟨x, stay.subset (by simp [original, single]), same⟩
    · have unnamed : ∀ x ∈ e.benches, x.name ≠ explodedName r.name m.unit :=
        fun x original same => named ⟨x, original, same⟩
      have first := bench?_normalizeEntry { keepComposite := false } unnamed
      obtain ⟨x, found⟩ := Option.isSome_iff_exists.1 (isSome_measured? member split measure)
      rw [found] at first
      exact ⟨x, List.mem_of_find?_eq_some first, by simpa using List.find?_some first⟩

/-- A run with a composite record that bears the name of a measure of another one. -/
def nestedRun : CommitEntry :=
  .plain "aaaa" 5 [⟨"b", 1.0, "ns/op\t3 allocs/op", none⟩, ⟨"b - ns/op", 2.0, "ms\t4 B/op", none⟩,
    ⟨"n", 7.0, "allocs/op", none⟩]

theorem named_measures_of_nestedRun :
    (∀ x ∈ (normalizeEntry { keepComposite := false } nestedRun).benches,
        x.isComposite = false) ∧
      ∃ x ∈ (normalizeEntry { keepComposite := false } nestedRun).benches,
        x.name = explodedName "b" "allocs/op" := by
  have valid : validateEntry "s" nestedRun = .ok () := rfl
  obtain ⟨plain, _, named⟩ := named_measures valid
  have split : BenchmarkRecord.SplitsInto ⟨"b", 1.0, "ns/op\t3 allocs/op", none⟩
      [⟨1.0, "ns/op"⟩, ⟨3.0, "allocs/op"⟩] := rfl
  exact ⟨plain, (named _ (by simp [nestedRun]) _ split ⟨3.0, "allocs/op"⟩ (by simp)).2 (by decide)⟩

/-- The name of the other measure is lost with the record that bears it. -/
theorem duration_lost_with_bearer :
    validateEntry "s" nestedRun = .ok () ∧
      ⟨"b", 1.0, "ns/op\t3 allocs/op", none⟩ ∈ nestedRun.benches ∧
      BenchmarkRecord.SplitsInto ⟨"b", 1.0, "ns/op\t3 allocs/op", none⟩
        [⟨1.0, "ns/op"⟩, ⟨3.0, "allocs/op"⟩] ∧
      ¬∃ x ∈ (normalizeEntry { keepComposite := false } nestedRun).benches,
        x.name = explodedName "b" "ns/op" := by
  refine ⟨rfl, by simp [nestedRun], rfl, ?_⟩
  have after : (normalizeEntry { keepComposite := false } nestedRun).benches
      = [⟨"b - allocs/op", 3.0, "allocs/op", none⟩, ⟨"b - ns/op - ms", 2.0, "ms", none⟩,
        ⟨"b - ns/op - B/op", 4.0, "B/op", none⟩, ⟨"n", 7.0, "allocs/op", none⟩] :=
    rfl
  rw [after]
  decide

end CommitEntry

end BenchLedger
