import BenchLedger.Ingest.Validation

/-!
Which entries the ingestor accepts, said without its order of checks. Main statement:
`validateEntry_eq_ok`: an entry passes for a series just if it is valid for it.
-/

namespace BenchLedger

/-- A record that may be stored, whatever the names of the others are. -/
structure BenchmarkRecord.Valid (r : BenchmarkRecord) : Prop where
  name : Text.isBlankText r.name = false
  value : r.value.isFinite = true
  unit : ∃ measures, Measure.split r.value r.unit = .ok measures

/-- An entry that may be stored in a series. -/
structure CommitEntry.ValidFor (series : String) (e : CommitEntry) : Prop where
  series : Text.isBlankText series = false
  commit : isCommitHash e.id = true
  notNegative : 0 ≤ e.date
  representable : e.runTime?.isSome = true
  records : ∀ r ∈ e.benches, r.Valid
  distinct : (e.benches.map (·.name)).Nodup

/-- A run of a commit of which no more than the identifier is known. -/
def CommitEntry.plain (id : String) (date : Int) (benches : List BenchmarkRecord) : CommitEntry :=
  ⟨⟨id, ⟨⟨2024, 1, 1⟩, ⟨0, 0, 0, 0⟩, 60⟩, .unknown, .unknown, false, none, none, none⟩, date, "go",
    benches⟩

section

variable (id : String) (date : Int) (benches : List BenchmarkRecord)

@[simp] theorem CommitEntry.plain_commit_id : (plain id date benches).commit.id = id :=
  rfl

@[simp] theorem CommitEntry.plain_date : (plain id date benches).date = date :=
  rfl

@[simp] theorem CommitEntry.plain_benches : (plain id date benches).benches = benches :=
  rfl

end

/-- One record passes if it is valid and no earlier one has its name. -/
theorem validateRecord_eq_ok {index : Nat} {seen : List String} {r : BenchmarkRecord} :
    validateRecord index seen r = .ok () ↔ r.Valid ∧ r.name ∉ seen := by
  constructor
  · intro h
    unfold validateRecord at h
    split at h
    · cases h
    next named =>
      split at h
      · cases h
      next new =>
        split at h
        · cases h
        next finite =>
          split at h
          · cases h
          next measures read =>
            refine ⟨⟨by simpa using named, by simpa using finite, measures, read⟩, ?_⟩
            simpa using new
  · rintro ⟨⟨named, finite, measures, read⟩, new⟩
    have fresh : seen.contains r.name = false := by simpa using new
    simp only [validateRecord, named, fresh, finite, read]
    rfl

/-- Records pass if all are valid, and no name repeats another or one of those seen before. -/
theorem validateRecords_eq_ok {index : Nat} {seen : List String} {rs : List BenchmarkRecord} :
    validateRecords index seen rs = .ok () ↔
      (∀ r ∈ rs, r.Valid ∧ r.name ∉ seen) ∧ (rs.map (·.name)).Nodup := by
  induction rs generalizing index seen with
  | nil => simp [validateRecords]
  | cons r rest ih =>
    have step : validateRecords index seen (r :: rest) = .ok () ↔
        validateRecord index seen r = .ok () ∧
          validateRecords (index + 1) (r.name :: seen) rest = .ok () := by
      cases here : validateRecord index seen r <;>
        simp [validateRecords, here, bind, Except.bind]
    rw [step, validateRecord_eq_ok, ih, List.forall_mem_cons, List.map_cons, List.nodup_cons]
    simp only [List.mem_cons, not_or]
    constructor
    · rintro ⟨first, others, distinct⟩
      have new : r.name ∉ rest.map (·.name) := by
        intro repeated
        obtain ⟨s, member, same⟩ := List.mem_map.1 repeated
        exact (others s member).2.1 same
      exact ⟨⟨first, fun s member => ⟨(others s member).1, (others s member).2.2⟩⟩, new, distinct⟩
    · rintro ⟨⟨first, others⟩, new, distinct⟩
      refine ⟨first, fun s member => ⟨(others s member).1, ?_, (others s member).2⟩, distinct⟩
      intro same
      exact new (List.mem_map.2 ⟨s, member, same⟩)

/-- An entry passes for a series just if it is valid for it. -/
theorem validateEntry_eq_ok {series : String} {e : CommitEntry} :
    validateEntry series e = .ok () ↔ e.ValidFor series := by
  constructor
  · intro h
    unfold validateEntry validateSeriesName at h
    split at h
    · cases h
    next named =>
      dsimp only at h
      split at h
      · cases h
      next hash =>
        split at h
        · cases h
        next time =>
          obtain ⟨records, distinct⟩ := validateRecords_eq_ok.1 h
          simp only [Bool.or_eq_true, decide_eq_true_eq, Option.isNone_iff_eq_none,
            not_or] at time
          exact {
            series := by simpa using named
            commit := by simpa using hash
            notNegative := Int.not_lt.1 time.1
            representable := Option.isSome_iff_ne_none.2 time.2
            records := fun r member => (records r member).1
            distinct }
  · rintro ⟨named, hash, notNegative, representable, records, distinct⟩
    have time : (e.date < 0 || e.runTime?.isNone) = false := by
      simpa [notNegative] using representable
    have passed : validateRecords 0 [] e.benches = .ok () :=
      validateRecords_eq_ok.2 ⟨fun r member => ⟨records r member, List.not_mem_nil⟩, distinct⟩
    simp only [validateEntry, validateSeriesName, named, hash, time, passed]
    rfl

end BenchLedger
