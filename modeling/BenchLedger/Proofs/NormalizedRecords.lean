import BenchLedger.Ingest.Ingestor
import BenchLedger.Proofs.CompositeUnits
import BenchLedger.Proofs.ValidEntries

/-!
Records after normalization. Main statements: `prepareEntry_composes`: two normalizations are one
that keeps composite records if both do, also when the entry is validated again in between, and
`CommitEntry.ValidFor.normalizeEntry`: a valid entry stays valid.
-/

namespace BenchLedger

/-- The record is composite and its unit can be read. -/
def BenchmarkRecord.SplitsInto (r : BenchmarkRecord) (ms : List Measure) : Prop :=
  Measure.split r.value r.unit = .ok (some ms)

/-! ### One composite record -/

section

variable {r : BenchmarkRecord} {seen : List String} {ms : List Measure}

theorem explode_cons (m : Measure) :
    explode r seen (m :: ms) =
      if explodedName r.name m.unit ∈ seen then explode r seen ms
      else
        (explodedRecord r m :: (explode r (explodedName r.name m.unit :: seen) ms).1,
          (explode r (explodedName r.name m.unit :: seen) ms).2) := by
  simp [explode, explodedRecord]

/-- Measures whose records are there already give none. -/
theorem explode_of_seen (known : ∀ m ∈ ms, explodedName r.name m.unit ∈ seen) :
    explode r seen ms = ([], seen) := by
  induction ms with
  | nil => rfl
  | cons m ms ih =>
    rw [explode_cons, if_pos (known m (by simp))]
    exact ih fun n member => known n (by simp [member])

/-- The names seen afterwards are those seen before and those of the new records. -/
theorem mem_seen_explode {name : String} :
    name ∈ (explode r seen ms).2 ↔ name ∈ seen ∨ name ∈ (explode r seen ms).1.map (·.name) := by
  induction ms generalizing seen with
  | nil => simp [explode]
  | cons m ms ih =>
    rw [explode_cons]
    split
    · exact ih
    · simp only [ih, List.mem_cons, List.map_cons, explodedRecord]
      rw [or_assoc, or_left_comm]

/-- After a composite record was taken apart, the names of all its measures have been seen. -/
theorem seen_of_explode {m : Measure} (member : m ∈ ms) :
    explodedName r.name m.unit ∈ (explode r seen ms).2 := by
  induction ms generalizing seen with
  | nil => cases member
  | cons n ms ih =>
    rw [explode_cons]
    split
    next known =>
      rcases List.mem_cons.1 member with rfl | later
      · exact mem_seen_explode.2 (.inl known)
      · exact ih later
    next new =>
      rcases List.mem_cons.1 member with rfl | later
      · exact mem_seen_explode.2 (.inl (by simp))
      · exact ih later

/-- A new record is that of a measure, under a name that was not seen. -/
theorem mem_explode {x : BenchmarkRecord} (member : x ∈ (explode r seen ms).1) :
    x.name ∉ seen ∧ ∃ m ∈ ms, x = explodedRecord r m := by
  induction ms generalizing seen with
  | nil => cases member
  | cons m ms ih =>
    rw [explode_cons] at member
    split at member
    next known =>
      obtain ⟨new, n, later, same⟩ := ih member
      exact ⟨new, n, by simp [later], same⟩
    next new =>
      rcases List.mem_cons.1 member with rfl | later
      · exact ⟨new, m, by simp, rfl⟩
      · obtain ⟨unseen, n, after, same⟩ := ih later
        exact ⟨fun known => unseen (by simp [known]), n, by simp [after], same⟩

theorem nodup_explode : ((explode r seen ms).1.map (·.name)).Nodup := by
  induction ms generalizing seen with
  | nil => simp [explode]
  | cons m ms ih =>
    rw [explode_cons]
    split
    · exact ih
    · refine List.nodup_cons.2 ⟨fun repeated => ?_, ih⟩
      obtain ⟨x, member, same⟩ := List.mem_map.1 repeated
      have unseen := (mem_explode member).1
      rw [same] at unseen
      exact unseen (by simp [explodedRecord])

/-- The record of a measure is not composite. -/
theorem split_explodedRecord (split : r.SplitsInto ms) {m : Measure} (member : m ∈ ms) :
    Measure.split (explodedRecord r m).value (explodedRecord r m).unit = .ok none :=
  Measure.split_of_not_isComposite (Measure.isComposite_of_split split member) _

end

/-! ### All records -/

/-- Induction over records, each of which is taken apart or stays as it is. -/
@[elab_as_elim]
theorem records_induction {motive : List BenchmarkRecord → Prop} (nil : motive [])
    (composite : ∀ r rs ms, r.SplitsInto ms → motive rs → motive (r :: rs))
    (other : ∀ r rs, (∀ ms, ¬r.SplitsInto ms) → motive rs → motive (r :: rs))
    (rs : List BenchmarkRecord) : motive rs := by
  induction rs with
  | nil => exact nil
  | cons r rs ih =>
    by_cases splits : ∃ ms, r.SplitsInto ms
    · obtain ⟨ms, split⟩ := splits
      exact composite r rs ms split ih
    · exact other r rs (fun ms split => splits ⟨ms, split⟩) ih

section

variable {keep : Bool} {seen : List String} {r : BenchmarkRecord} {rs : List BenchmarkRecord}

theorem normalizeRecords_composite {ms : List Measure} (split : r.SplitsInto ms) :
    normalizeRecords keep seen (r :: rs) =
      (if keep then [r] else []) ++ (explode r seen ms).1 ++
        normalizeRecords keep (explode r seen ms).2 rs := by
  simp only [normalizeRecords, show Measure.split r.value r.unit = _ from split]

/-- A record that is not composite, or whose unit cannot be read, stays as it is. -/
theorem normalizeRecords_other (other : ∀ ms, ¬r.SplitsInto ms) :
    normalizeRecords keep seen (r :: rs) = r :: normalizeRecords keep seen rs := by
  rw [normalizeRecords]
  split
  next ms split => exact absurd split (other ms)
  · rfl

theorem normalizeRecords_append_others {others : List BenchmarkRecord}
    (plain : ∀ x ∈ others, ∀ ms, ¬x.SplitsInto ms) :
    normalizeRecords keep seen (others ++ rs) = others ++ normalizeRecords keep seen rs := by
  induction others with
  | nil => rfl
  | cons x others ih =>
    rw [List.cons_append, normalizeRecords_other (plain x (by simp)),
      ih fun y member => plain y (by simp [member]), List.cons_append]

/-- The new records of a composite one are left alone by a further normalization. -/
theorem not_splitsInto_of_mem_explode {ms : List Measure} (split : r.SplitsInto ms) :
    ∀ x ∈ (explode r seen ms).1, ∀ ms', ¬x.SplitsInto ms' := by
  intro x member ms' again
  obtain ⟨m, measure, rfl⟩ := (mem_explode member).2
  have plain := split_explodedRecord split measure
  rw [BenchmarkRecord.SplitsInto, plain] at again
  cases again

end

/-! ### Normalizing twice -/

/-- No record is lost if composite ones are kept. -/
theorem mem_of_kept {seen : List String} {rs : List BenchmarkRecord} {r : BenchmarkRecord}
    (member : r ∈ rs) : r ∈ normalizeRecords true seen rs := by
  induction rs using records_induction generalizing seen with
  | nil => cases member
  | composite s rs ms split ih =>
    rw [normalizeRecords_composite split]
    rcases List.mem_cons.1 member with rfl | later
    · simp
    · exact List.mem_append_right _ (ih later)
  | other s rs other ih =>
    rw [normalizeRecords_other other]
    rcases List.mem_cons.1 member with rfl | later
    · exact List.mem_cons_self
    · exact List.mem_cons_of_mem _ (ih later)

/-- When composite records are kept, each of their measures has its record afterwards, unless its
name was seen before. -/
theorem explodedName_of_kept {seen : List String} {rs : List BenchmarkRecord}
    {r : BenchmarkRecord} (member : r ∈ rs) {ms : List Measure} (split : r.SplitsInto ms)
    {m : Measure} (measure : m ∈ ms) :
    explodedName r.name m.unit ∈ seen ∨
      explodedName r.name m.unit ∈ (normalizeRecords true seen rs).map (·.name) := by
  induction rs using records_induction generalizing seen with
  | nil => cases member
  | composite s rs ns apart ih =>
    rw [normalizeRecords_composite apart]
    simp only [List.map_append, List.mem_append]
    rcases List.mem_cons.1 member with rfl | later
    · -- The record itself: its measures have been seen once it is taken apart.
      have same : ns = ms := by
        rw [BenchmarkRecord.SplitsInto, split] at apart
        cases apart
        rfl
      subst same
      have noticed : explodedName r.name m.unit ∈ (explode r seen ns).2 :=
        seen_of_explode measure
      rcases mem_seen_explode.1 noticed with before | new
      · exact .inl before
      · exact .inr (.inl (.inr new))
    · rcases ih later with known | after
      · rcases mem_seen_explode.1 known with before | new
        · exact .inl before
        · exact .inr (.inl (.inr new))
      · exact .inr (.inr after)
  | other s rs other ih =>
    rw [normalizeRecords_other other]
    rcases List.mem_cons.1 member with rfl | later
    · exact absurd split (other ms)
    · exact (ih later).imp id fun after => List.mem_cons_of_mem _ after

/-- A second normalization adds nothing, and drops the composite records that the first one kept if
it keeps none itself. -/
theorem normalizeRecords_again {a b : Bool} {seen later : List String}
    {rs : List BenchmarkRecord}
    (known : a = true → ∀ r ∈ rs, ∀ ms, r.SplitsInto ms →
      ∀ m ∈ ms, explodedName r.name m.unit ∈ later) :
    normalizeRecords b later (normalizeRecords a seen rs) = normalizeRecords (a && b) seen rs := by
  induction rs using records_induction generalizing seen with
  | nil => rfl
  | composite r rs ms split ih =>
    have rest (seen : List String) := @ih seen
      fun kept s member => known kept s (List.mem_cons_of_mem _ member)
    have plain : ∀ x ∈ (explode r seen ms).1, ∀ ms', ¬x.SplitsInto ms' :=
      not_splitsInto_of_mem_explode split
    rw [normalizeRecords_composite split, normalizeRecords_composite split]
    cases a with
    | false =>
      simp only [Bool.false_and, Bool.false_eq_true, if_false, List.nil_append]
      rw [normalizeRecords_append_others plain, rest, Bool.false_and]
    | true =>
      have none : explode r later ms = ([], later) :=
        explode_of_seen (known rfl r List.mem_cons_self ms split)
      simp only [if_true, List.append_assoc, List.cons_append, List.nil_append, Bool.true_and]
      rw [normalizeRecords_composite split, none, normalizeRecords_append_others plain, rest,
        Bool.true_and, List.append_nil]
  | other r rs other ih =>
    rw [normalizeRecords_other other, normalizeRecords_other other, normalizeRecords_other other,
      ih fun kept s member => known kept s (List.mem_cons_of_mem _ member)]

/-- Two normalizations are one that keeps composite records if both do. -/
theorem normalizeEntry_normalizeEntry (a b : IngestConfig) (e : CommitEntry) :
    normalizeEntry b (normalizeEntry a e)
      = normalizeEntry ⟨a.keepComposite && b.keepComposite⟩ e := by
  have records : normalizeRecords b.keepComposite
        ((normalizeEntry a e).benches.map (·.name)) (normalizeEntry a e).benches
      = normalizeRecords (a.keepComposite && b.keepComposite) (e.benches.map (·.name))
          e.benches := by
    apply normalizeRecords_again
    intro kept r member ms split m measure
    simp only [normalizeEntry, kept]
    rcases explodedName_of_kept member split measure with before | after
    · obtain ⟨s, here, same⟩ := List.mem_map.1 before
      exact List.mem_map.2 ⟨s, mem_of_kept here, same⟩
    · exact after
  exact congrArg (fun benches => { e with benches }) records

/-! ### Valid entries -/

/-- A name that was made for a measure is not blank: there is a hyphen in it. -/
theorem explodedName_not_blank (name unit : String) :
    Text.isBlankText (explodedName name unit) = false := by
  have hyphen : Text.isBlank '-' = false := by decide
  simp [Text.isBlankText, Text.allBlank, explodedName, hyphen]

/-- The record of a measure of a valid record is valid. -/
theorem valid_explodedRecord {r : BenchmarkRecord} (valid : r.Valid) {ms : List Measure}
    (split : r.SplitsInto ms) {m : Measure} (member : m ∈ ms) : (explodedRecord r m).Valid where
  name := explodedName_not_blank r.name m.unit
  value := Measure.isFinite_of_split split valid.value member
  unit := ⟨none, split_explodedRecord split member⟩

theorem valid_normalizeRecords {keep : Bool} {seen : List String} {rs : List BenchmarkRecord}
    (valid : ∀ r ∈ rs, r.Valid) : ∀ x ∈ normalizeRecords keep seen rs, x.Valid := by
  induction rs using records_induction generalizing seen with
  | nil => exact valid
  | composite r rs ms split ih =>
    obtain ⟨first, others⟩ := List.forall_mem_cons.1 valid
    intro x member
    rw [normalizeRecords_composite split, List.mem_append, List.mem_append] at member
    rcases member with (kept | new) | later
    · cases keep with
      | false => cases kept
      | true =>
        rw [List.mem_singleton.1 kept]
        exact first
    · obtain ⟨m, measure, rfl⟩ := (mem_explode new).2
      exact valid_explodedRecord first split measure
    · exact ih others x later
  | other r rs other ih =>
    obtain ⟨first, others⟩ := List.forall_mem_cons.1 valid
    rw [normalizeRecords_other other]
    exact List.forall_mem_cons.2 ⟨first, ih others⟩

/-- A record that is there after a normalization under a name seen before was there before it. -/
theorem mem_of_seen {keep : Bool} {seen : List String} {rs : List BenchmarkRecord}
    {x : BenchmarkRecord} (known : x.name ∈ seen) (member : x ∈ normalizeRecords keep seen rs) :
    x ∈ rs := by
  induction rs using records_induction generalizing seen with
  | nil => exact member
  | composite r rs ms split ih =>
    rw [normalizeRecords_composite split, List.mem_append, List.mem_append] at member
    rcases member with (kept | new) | later
    · cases keep with
      | false => cases kept
      | true =>
        rw [List.mem_singleton.1 kept]
        exact List.mem_cons_self
    · exact absurd known (mem_explode new).1
    · exact List.mem_cons_of_mem _ (ih (mem_seen_explode.2 (.inl known)) later)
  | other r rs other ih =>
    rw [normalizeRecords_other other] at member
    rcases List.mem_cons.1 member with rfl | later
    · exact List.mem_cons_self
    · exact List.mem_cons_of_mem _ (ih known later)

/-- A name that had been seen and is there after a normalization was there before it. -/
theorem name_of_normalizeRecords {keep : Bool} {seen : List String} {rs : List BenchmarkRecord}
    {name : String} (old : name ∈ seen)
    (member : name ∈ (normalizeRecords keep seen rs).map (·.name)) : name ∈ rs.map (·.name) := by
  obtain ⟨x, there, rfl⟩ := List.mem_map.1 member
  exact List.mem_map_of_mem (mem_of_seen old there)

/-- Distinct names stay distinct, as all of them have been seen when new ones are made. -/
theorem nodup_normalizeRecords {keep : Bool} {seen : List String} {rs : List BenchmarkRecord}
    (distinct : (rs.map (·.name)).Nodup) (known : ∀ name ∈ rs.map (·.name), name ∈ seen) :
    ((normalizeRecords keep seen rs).map (·.name)).Nodup := by
  induction rs using records_induction generalizing seen with
  | nil => exact distinct
  | composite r rs ms split ih =>
    obtain ⟨alone, distinct⟩ := List.nodup_cons.1 distinct
    obtain ⟨first, others⟩ := List.forall_mem_cons.1 known
    have still {name : String} (before : name ∈ seen) : name ∈ (explode r seen ms).2 :=
      mem_seen_explode.2 (.inl before)
    have rest := ih distinct fun name member => still (others name member)
    -- What follows has a new name only if it is new after this record was taken apart, too.
    have apart : ∀ name ∈ (explode r seen ms).1.map (·.name), name ∉
        (normalizeRecords keep (explode r seen ms).2 rs).map (·.name) := by
      intro name new later
      have old := name_of_normalizeRecords (mem_seen_explode.2 (.inr new)) later
      obtain ⟨x, here, rfl⟩ := List.mem_map.1 new
      exact (mem_explode here).1 (others x.name old)
    have unrepeated : r.name ∉ (normalizeRecords keep (explode r seen ms).2 rs).map (·.name) :=
      fun later => alone (name_of_normalizeRecords (still first) later)
    have fresh : r.name ∉ (explode r seen ms).1.map (·.name) := by
      intro new
      obtain ⟨x, here, same⟩ := List.mem_map.1 new
      exact (mem_explode here).1 (same ▸ first)
    rw [normalizeRecords_composite split, List.append_assoc, List.map_append, List.map_append]
    have own : ((explode r seen ms).1.map (·.name)).Nodup := nodup_explode
    have pair := List.nodup_append.2 ⟨own, rest,
      fun name new other later same => apart name new (same ▸ later)⟩
    cases keep with
    | false => exact pair
    | true =>
      refine List.nodup_cons.2 ⟨fun repeated => ?_, pair⟩
      rcases List.mem_append.1 repeated with none | new
      · cases none
      · exact (List.mem_append.1 new).elim fresh unrepeated
  | other r rs other ih =>
    obtain ⟨alone, distinct⟩ := List.nodup_cons.1 distinct
    obtain ⟨first, others⟩ := List.forall_mem_cons.1 known
    rw [normalizeRecords_other other]
    exact List.nodup_cons.2
      ⟨fun repeated => alone (name_of_normalizeRecords first repeated), ih distinct others⟩

/-- A valid entry stays valid when it is normalized. -/
theorem CommitEntry.ValidFor.normalizeEntry {series : String} {e : CommitEntry}
    (valid : e.ValidFor series) (config : IngestConfig) :
    (normalizeEntry config e).ValidFor series where
  series := valid.series
  commit := valid.commit
  notNegative := valid.notNegative
  representable := valid.representable
  records := valid_normalizeRecords valid.records
  distinct := nodup_normalizeRecords valid.distinct fun _ member => member

theorem prepareEntry_eq_ok {config : IngestConfig} {series : String} {e prepared : CommitEntry} :
    prepareEntry config series e = .ok prepared ↔
      e.ValidFor series ∧ prepared = normalizeEntry config e := by
  rw [← validateEntry_eq_ok]
  unfold prepareEntry
  cases validateEntry series e with
  | error r => simp [bind, Except.bind]
  | ok _ => simp [bind, Except.bind, pure, Except.pure, eq_comm]

/-- Normalizing twice is normalizing once, keeping composite records if both times do: for every
entry record for record and in order, and for an entry that is prepared twice for a series, as when
what was stored is taken in again, with the same outcome. -/
theorem prepareEntry_composes (a b : IngestConfig) (series : String) (e : CommitEntry) :
    normalizeEntry b (normalizeEntry a e)
        = normalizeEntry ⟨a.keepComposite && b.keepComposite⟩ e ∧
      (prepareEntry a series e >>= prepareEntry b series)
        = prepareEntry ⟨a.keepComposite && b.keepComposite⟩ series e := by
  refine ⟨normalizeEntry_normalizeEntry a b e, ?_⟩
  cases checked : validateEntry series e with
  | error r => simp [prepareEntry, checked, bind, Except.bind]
  | ok _ =>
    have valid := validateEntry_eq_ok.1 checked
    have prepared {e : CommitEntry} (valid : e.ValidFor series) (config : IngestConfig) :
        prepareEntry config series e = .ok (normalizeEntry config e) :=
      prepareEntry_eq_ok.2 ⟨valid, rfl⟩
    rw [prepared valid, prepared valid]
    show prepareEntry b series (normalizeEntry a e) = _
    rw [prepared (valid.normalizeEntry a), normalizeEntry_normalizeEntry]

end BenchLedger
