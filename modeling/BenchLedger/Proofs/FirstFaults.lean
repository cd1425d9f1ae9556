import BenchLedger.Proofs.DigitText
import BenchLedger.Proofs.ValidEntries
import Mathlib.Data.List.Nodup

/-!
Which fault of an entry is reported. Main statement: `validateEntry_points_at_first_fault`: an entry
is refused just if one of its fields is at fault, and the rejection names the first such field, in
the order series, commit, date, and then record by record name, value and unit.
-/

namespace BenchLedger

/-! ### The fields that are checked -/

inductive RecordPart where
  | name
  | value
  | unit
  deriving DecidableEq

inductive CheckedField where
  | series
  | commit
  | date
  | record (index : Nat) (part : RecordPart)
  deriving DecidableEq

def RecordPart.label : RecordPart → String
  | .name => "name"
  | .value => "value"
  | .unit => "unit"

def RecordPart.rank : RecordPart → Nat
  | .name => 0
  | .value => 1
  | .unit => 2

namespace CheckedField

/-- How a rejection names the field. -/
def path : CheckedField → String
  | .series => "series"
  | .commit => "commit.id"
  | .date => "date"
  | .record index part => "benches[" ++ toString index ++ "]." ++ part.label

/-- The order in which fields come. -/
def rank : CheckedField → Nat
  | .series => 0
  | .commit => 1
  | .date => 2
  | .record index part => 3 * (index + 1) + part.rank

end CheckedField

/-- There is something to see. -/
def NotBlank (text : String) : Prop :=
  ∃ c ∈ text.toList, Text.isBlank c = false

/-- Nothing is wrong with a part of a record that stands behind others. -/
def BenchmarkRecord.PartSound (earlier : List BenchmarkRecord) (r : BenchmarkRecord) :
    RecordPart → Prop
  | .name => NotBlank r.name ∧ ∀ s ∈ earlier, s.name ≠ r.name
  | .value => r.value.isFinite = true
  | .unit => ∃ measures, Measure.split r.value r.unit = .ok measures

/-- Nothing is wrong with a field of an entry for a series. There is nothing wrong with records that
do not exist. -/
def CommitEntry.FieldSound (series : String) (e : CommitEntry) : CheckedField → Prop
  | .series => NotBlank series
  | .commit =>
    4 ≤ e.id.length ∧ e.id.length ≤ 64 ∧
      ∀ c ∈ e.id.toList, c ∈ "0123456789abcdefABCDEF".toList
  | .date => 0 ≤ e.date ∧ e.runTime?.isSome = true
  | .record index part => ∀ r, e.benches[index]? = some r → r.PartSound (e.benches.take index) part

/-- The field is at fault, and none before it is. -/
structure CommitEntry.FirstFault (series : String) (e : CommitEntry) (field : CheckedField) :
    Prop where
  faulty : ¬ e.FieldSound series field
  earlier : ∀ other : CheckedField, other.rank < field.rank → e.FieldSound series other

namespace RecordPart

theorem rank_lt (part : RecordPart) : part.rank < 3 := by
  cases part <;> decide

theorem rank_injective {a b : RecordPart} (same : a.rank = b.rank) : a = b := by
  cases a <;> cases b <;> simp_all [rank]

theorem label_injective {a b : RecordPart} (same : a.label = b.label) : a = b := by
  cases a <;> cases b <;> simp_all [label]

end RecordPart

namespace CheckedField

theorem rank_injective {a b : CheckedField} (same : a.rank = b.rank) : a = b := by
  cases a with
  | record i p =>
    have below := p.rank_lt
    cases b with
    | record j q =>
      have below' := q.rank_lt
      simp only [rank] at same
      obtain rfl : i = j := by omega
      rw [RecordPart.rank_injective (by omega : p.rank = q.rank)]
    | series | commit | date => simp only [rank] at same; omega
  | series | commit | date =>
    cases b with
    | record j q => simp only [rank] at same; omega
    | series | commit | date => simp_all [rank]

/-- Before the records come the series, the commit and the date. -/
theorem header_of_rank_lt {field : CheckedField} (before : field.rank < 3) :
    field = .series ∨ field = .commit ∨ field = .date := by
  cases field with
  | series | commit | date => simp
  | record => simp only [rank] at before; omega

theorem path_record (index : Nat) (part : RecordPart) :
    (record index part).path = Rejection.recordField index part.label :=
  rfl

/-- The number in a record's path can be read back from it. -/
theorem index_of_path {i j : Nat} {more more' : List Char}
    (same : Text.digitsOf i ++ ']' :: more = Text.digitsOf j ++ ']' :: more') :
    i = j ∧ more = more' := by
  have stop (cs : List Char) : ∀ c ∈ (']' :: cs).head?, c.isDigit = false := by simp
  have digits := congrArg (List.takeWhile Char.isDigit) same
  rw [Text.takeWhile_digits_append (Text.allDigits_digitsOf i) (stop more),
    Text.takeWhile_digits_append (Text.allDigits_digitsOf j) (stop more')] at digits
  have index := congrArg Text.digitsValue digits
  rw [Text.digitsValue_digitsOf, Text.digitsValue_digitsOf] at index
  subst index
  exact ⟨rfl, by simpa using same⟩

theorem toList_path_record (index : Nat) (part : RecordPart) :
    (record index part).path.toList
      = "benches[".toList ++ (Text.digitsOf index ++ ']' :: '.' :: part.label.toList) := by
  simp [path_record, Rejection.recordField]

/-- No two fields have one name. -/
theorem path_injective {a b : CheckedField} (same : a.path = b.path) : a = b := by
  rw [← String.toList_inj] at same
  cases a with
  | record i p =>
    rw [toList_path_record] at same
    cases b with
    | record j q =>
      rw [toList_path_record] at same
      obtain ⟨rfl, parts⟩ := index_of_path (List.append_cancel_left same)
      rw [RecordPart.label_injective (String.toList_inj.1 (List.cons.inj parts).2)]
    | series | commit | date => simp [path] at same
  | series | commit | date =>
    cases b with
    | record j q =>
      rw [toList_path_record] at same
      simp [path] at same
    | series | commit | date => simp_all [path]

end CheckedField

/-! ### Records in turn -/

theorem notBlank_iff {text : String} : NotBlank text ↔ Text.isBlankText text = false := by
  simp [NotBlank, Text.isBlankText, Text.allBlank]

section

variable {index : Nat} {seen : List String} {r : BenchmarkRecord} {rejection : Rejection}

/-- The part of a record that a rejection names is at fault, and the parts before it are not. -/
theorem validateRecord_eq_error {earlier : List BenchmarkRecord}
    (names : ∀ name, name ∈ seen ↔ name ∈ earlier.map (·.name))
    (refused : validateRecord index seen r = .error rejection) :
    ∃ part, rejection.field = (CheckedField.record index part).path ∧
      ¬ r.PartSound earlier part ∧
      ∀ other : RecordPart, other.rank < part.rank → r.PartSound earlier other := by
  have new : (∀ s ∈ earlier, s.name ≠ r.name) ↔ seen.contains r.name = false := by
    simp [names]
  unfold validateRecord at refused
  split at refused
  next blank =>
    cases refused
    refine ⟨.name, rfl, fun sound => ?_, nofun⟩
    rw [notBlank_iff.1 sound.1] at blank
    cases blank
  next named =>
    split at refused
    next repeated =>
      cases refused
      refine ⟨.name, rfl, fun sound => ?_, nofun⟩
      rw [new.1 sound.2] at repeated
      cases repeated
    next fresh =>
      have name : r.PartSound earlier .name :=
        ⟨notBlank_iff.2 (by simpa using named), new.2 (by simpa using fresh)⟩
      split at refused
      next infinite =>
        cases refused
        refine ⟨.value, rfl, fun sound => ?_, fun other before => ?_⟩
        · rw [show r.value.isFinite = true from sound] at infinite
          cases infinite
        · cases other with
          | name => exact name
          | value | unit => simp [RecordPart.rank] at before
      next finite =>
        have value : r.PartSound earlier .value := by
          simpa [BenchmarkRecord.PartSound] using finite
        split at refused
        next fault unread =>
          cases refused
          refine ⟨.unit, rfl, ?_, fun other before => ?_⟩
          · rintro ⟨measures, read⟩
            rw [unread] at read
            cases read
          · cases other with
            | name => exact name
            | value => exact value
            | unit => simp at before
        next => cases refused

/-- Records are refused because of the first one that is refused in its place. -/
theorem validateRecords_eq_error {rs : List BenchmarkRecord}
    (refused : validateRecords index seen rs = .error rejection) :
    ∃ earlier r later, rs = earlier ++ r :: later ∧
      validateRecords index seen earlier = .ok () ∧
      validateRecord (index + earlier.length) ((earlier.map (·.name)).reverse ++ seen) r
        = .error rejection := by
  induction rs generalizing index seen with
  | nil => cases refused
  | cons r rest ih =>
    cases here : validateRecord index seen r with
    | error fault =>
      simp only [validateRecords, here, bind, Except.bind, Except.error.injEq] at refused
      subst refused
      exact ⟨[], r, rest, rfl, rfl, by simpa using here⟩
    | ok _ =>
      simp only [validateRecords, here, bind, Except.bind] at refused
      obtain ⟨earlier, s, later, rfl, passed, refused⟩ := ih refused
      refine ⟨r :: earlier, s, later, rfl, ?_, ?_⟩
      · simpa only [validateRecords, here, bind, Except.bind] using passed
      · simpa [Nat.add_assoc, Nat.add_comm 1] using refused

end

/-- A record is valid and has a new name if all its parts are sound. -/
theorem BenchmarkRecord.partSound_iff {earlier : List BenchmarkRecord} {r : BenchmarkRecord} :
    (∀ part, r.PartSound earlier part) ↔ r.Valid ∧ ∀ s ∈ earlier, s.name ≠ r.name := by
  constructor
  · intro sound
    exact ⟨⟨notBlank_iff.1 (sound .name).1, sound .value, sound .unit⟩, (sound .name).2⟩
  · rintro ⟨⟨named, finite, read⟩, new⟩ part
    cases part with
    | name => exact ⟨notBlank_iff.2 named, new⟩
    | value => exact finite
    | unit => exact read

private theorem pairwise_iff_take {α : Type} {R : α → α → Prop} {l : List α} :
    l.Pairwise R ↔ ∀ (i : Nat) (b : α), l[i]? = some b → ∀ a ∈ l.take i, R a b := by
  rw [List.pairwise_iff_getElem]
  constructor
  · intro ordered i b found a before
    obtain ⟨inside, rfl⟩ := List.getElem?_eq_some_iff.1 found
    obtain ⟨j, below, rfl⟩ := List.mem_take_iff_getElem.1 before
    exact ordered j i _ inside (by omega)
  · intro each i j _ inside before
    refine each j _ (List.getElem?_eq_getElem inside) _ (List.mem_take_iff_getElem.2 ⟨i, ?_, rfl⟩)
    omega

/-- All records are valid and have names of their own if each is sound behind the others. -/
theorem valid_iff_sound {rs : List BenchmarkRecord} :
    ((∀ r ∈ rs, r.Valid) ∧ (rs.map (·.name)).Nodup) ↔
      ∀ (i : Nat) (r : BenchmarkRecord),
        rs[i]? = some r → ∀ part, r.PartSound (rs.take i) part := by
  simp only [BenchmarkRecord.partSound_iff]
  rw [List.Nodup, List.pairwise_map, pairwise_iff_take]
  constructor
  · rintro ⟨valid, distinct⟩ i r found
    exact ⟨valid r (List.mem_of_getElem? found), distinct i r found⟩
  · intro each
    refine ⟨fun r member => ?_, fun i r found => (each i r found).2⟩
    obtain ⟨i, found⟩ := List.mem_iff_getElem?.1 member
    exact (each i r found).1

/-! ### Whole entries -/

theorem isHexDigit_iff {c : Char} :
    isHexDigit c = true ↔ c ∈ "0123456789abcdefABCDEF".toList := by
  constructor
  · intro digit
    have listed : ∀ n < 128, isHexDigit (Char.ofNat n) = true →
        Char.ofNat n ∈ "0123456789abcdefABCDEF".toList := by decide +kernel
    have ascii : c.toNat < 128 := by
      simp only [isHexDigit, Bool.or_eq_true, Bool.and_eq_true, decide_eq_true_eq, Char.le_def,
        UInt32.le_iff_toNat_le] at digit
      have bounds : '9'.val.toNat = 57 ∧ 'F'.val.toNat = 70 ∧ 'f'.val.toNat = 102 := by decide
      change c.val.toNat < 128
      omega
    have own := listed c.toNat ascii
    rw [Char.ofNat_toNat] at own
    exact own digit
  · have digits : "0123456789abcdefABCDEF".toList.all isHexDigit = true := by decide
    exact List.all_eq_true.1 digits c

section

variable {series : String} {e : CommitEntry}

theorem CommitEntry.fieldSound_commit : e.FieldSound series .commit ↔ isCommitHash e.id = true := by
  simp only [FieldSound, ← isHexDigit_iff]
  simp [isCommitHash, shortestCommitHash, longestCommitHash, and_assoc, String.length_toList]

/-- An entry is valid if all its fields are sound. -/
theorem CommitEntry.validFor_iff : e.ValidFor series ↔ ∀ field, e.FieldSound series field := by
  constructor
  · rintro ⟨named, hash, notNegative, representable, records, distinct⟩ field
    cases field with
    | series => exact notBlank_iff.2 named
    | commit => exact fieldSound_commit.2 hash
    | date => exact ⟨notNegative, representable⟩
    | record i part => exact fun r found => valid_iff_sound.1 ⟨records, distinct⟩ i r found part
  · intro sound
    obtain ⟨records, distinct⟩ := valid_iff_sound.2 fun i r found part =>
      sound (.record i part) r found
    exact {
      series := notBlank_iff.1 (sound .series)
      commit := fieldSound_commit.1 (sound .commit)
      notNegative := (sound .date).1
      representable := (sound .date).2
      records
      distinct }

/-- Only one field can be the first one at fault. -/
theorem CommitEntry.FirstFault.unique {a b : CheckedField} (first : e.FirstFault series a)
    (other : e.FirstFault series b) : a = b := by
  apply CheckedField.rank_injective
  rcases Nat.lt_trichotomy a.rank b.rank with before | same | after
  · exact absurd (other.earlier a before) first.faulty
  · exact same
  · exact absurd (first.earlier b after) other.faulty

/-- The record behind sound ones is where the first fault is if a part of it is at fault and those
before it are not. -/
theorem CommitEntry.FirstFault.of_record {earlier later : List BenchmarkRecord}
    {r : BenchmarkRecord} {part : RecordPart} (benches : e.benches = earlier ++ r :: later)
    (outer : ∀ field : CheckedField, field.rank < 3 → e.FieldSound series field)
    (others : (∀ s ∈ earlier, s.Valid) ∧ (earlier.map (·.name)).Nodup)
    (faulty : ¬ r.PartSound earlier part)
    (before : ∀ other : RecordPart, other.rank < part.rank → r.PartSound earlier other) :
    e.FirstFault series (.record earlier.length part) := by
  have here : e.benches[earlier.length]? = some r := by simp [benches]
  have behind : e.benches.take earlier.length = earlier := by simp [benches]
  constructor
  · intro sound
    have own := sound r here
    rw [behind] at own
    exact faulty own
  · intro field preceding
    cases field with
    | series | commit | date => exact outer _ (by decide)
    | record j other =>
      intro s found
      have below := part.rank_lt
      simp only [CheckedField.rank] at preceding
      rcases Nat.lt_or_ge j earlier.length with inside | beyond
      · rw [benches, List.getElem?_append_left inside] at found
        rw [benches, List.take_append_of_le_length (by omega)]
        exact valid_iff_sound.1 others j s found other
      · obtain rfl : j = earlier.length := by omega
        cases here.symm.trans found
        rw [behind]
        exact before other (by omega)

/-- A rejection names the first field at fault. -/
theorem exists_firstFault {rejection : Rejection}
    (refused : validateEntry series e = .error rejection) :
    ∃ field, e.FirstFault series field ∧ rejection.field = field.path := by
  unfold validateEntry validateSeriesName at refused
  split at refused
  next blank =>
    cases refused
    refine ⟨.series, ⟨fun sound => ?_, nofun⟩, rfl⟩
    rw [notBlank_iff.1 sound] at blank
    cases blank
  next visible =>
    have named : e.FieldSound series .series := notBlank_iff.2 (by simpa using visible)
    dsimp only [bind, Except.bind] at refused
    split at refused
    next noHash =>
      cases refused
      refine ⟨.commit, ⟨fun sound => ?_, fun other before => ?_⟩, rfl⟩
      · rw [CommitEntry.fieldSound_commit.1 sound] at noHash
        cases noHash
      · obtain rfl | rfl | rfl := CheckedField.header_of_rank_lt (Nat.lt_trans before (by decide))
        · exact named
        · exact absurd before (Nat.lt_irrefl _)
        · exact absurd before (by decide)
    next hash =>
      have attributed : e.FieldSound series .commit :=
        CommitEntry.fieldSound_commit.2 (by simpa using hash)
      split at refused
      next noTime =>
        cases refused
        refine ⟨.date, ⟨fun sound => ?_, fun other before => ?_⟩, rfl⟩
        · have missing : e.runTime? = none := by simpa [Int.not_lt.2 sound.1] using noTime
          simp [CommitEntry.FieldSound, missing] at sound
        · obtain rfl | rfl | rfl := CheckedField.header_of_rank_lt (Nat.lt_trans before (by decide))
          · exact named
          · exact attributed
          · exact absurd before (Nat.lt_irrefl _)
      next time =>
        have dated : e.FieldSound series .date := by
          simpa [CommitEntry.FieldSound, Option.isSome_iff_ne_none] using time
        obtain ⟨earlier, r, later, benches, passed, refused⟩ := validateRecords_eq_error refused
        have names : ∀ name, name ∈ (earlier.map (·.name)).reverse ++ [] ↔
            name ∈ earlier.map (·.name) := by
          simp
        obtain ⟨part, path, faulty, before⟩ := validateRecord_eq_error names refused
        rw [Nat.zero_add] at path
        refine ⟨_, .of_record benches ?_ ?_ faulty before, path⟩
        · intro field header
          obtain rfl | rfl | rfl := CheckedField.header_of_rank_lt header
          · exact named
          · exact attributed
          · exact dated
        · obtain ⟨records, distinct⟩ := validateRecords_eq_ok.1 passed
          exact ⟨fun s member => (records s member).1, distinct⟩

/-- An entry passes for a series just if all its fields are sound. One that is refused is refused
with the path of the first field at fault, and each first fault is found. If that is a part of a
record, the record exists, the part is at fault, and all parts of all records before it are
sound. -/
theorem validateEntry_points_at_first_fault (series : String) (e : CommitEntry) :
    (validateEntry series e = .ok () ↔ ∀ field, e.FieldSound series field) ∧
    (∀ field : CheckedField,
      (∃ rejection, validateEntry series e = .error rejection ∧ rejection.field = field.path) ↔
        e.FirstFault series field) ∧
    (∀ rejection, validateEntry series e = .error rejection →
      ∃ field : CheckedField, rejection.field = field.path) ∧
    (∀ rejection index part, validateEntry series e = .error rejection →
      rejection.field = (CheckedField.record index part).path →
        ∃ r, e.benches[index]? = some r ∧ ¬ r.PartSound (e.benches.take index) part ∧
          ∀ i < index, ∀ s, e.benches[i]? = some s → ∀ other,
            s.PartSound (e.benches.take i) other) := by
  have found (field : CheckedField) :
      (∃ rejection, validateEntry series e = .error rejection ∧ rejection.field = field.path) ↔
        e.FirstFault series field := by
    constructor
    · rintro ⟨rejection, refused, path⟩
      obtain ⟨first, fault, named⟩ := exists_firstFault refused
      exact CheckedField.path_injective (path.symm.trans named) ▸ fault
    · intro fault
      cases checked : validateEntry series e with
      | ok _ =>
        have sound := CommitEntry.validFor_iff.1 (validateEntry_eq_ok.1 checked)
        exact absurd (sound field) fault.faulty
      | error rejection =>
        obtain ⟨first, other, named⟩ := exists_firstFault checked
        exact ⟨rejection, rfl, by rw [fault.unique other, named]⟩
  refine ⟨validateEntry_eq_ok.trans CommitEntry.validFor_iff, found, ?_, ?_⟩
  · intro rejection refused
    obtain ⟨field, _, path⟩ := exists_firstFault refused
    exact ⟨field, path⟩
  · intro rejection index part refused path
    obtain ⟨faulty, earlier⟩ := (found (.record index part)).1 ⟨rejection, refused, path⟩
    obtain ⟨r, here, unsound⟩ : ∃ r, e.benches[index]? = some r ∧
        ¬ r.PartSound (e.benches.take index) part := by
      simpa [CommitEntry.FieldSound] using faulty
    refine ⟨r, here, unsound, fun i before s there other => ?_⟩
    refine earlier (.record i other) ?_ s there
    have below := other.rank_lt
    simp only [CheckedField.rank]
    omega

end

/-- A run whose second record has two faults and whose third repeats the name of the first. -/
def faultyRun : CommitEntry :=
  .plain "c0ffee" 10 [
    ⟨"parse", 1.0, "ns/op\t3 allocs/op", none⟩,
    ⟨"lex", 0.0 / 0.0, "ns/op\tmany B/op", none⟩,
    ⟨"parse", 2.0, "ns/op", none⟩]

theorem validateEntry_points_at_first_fault_of_faultyRun :
    ∃ rejection, validateEntry "suite" faultyRun = .error rejection ∧
      rejection.field = "benches[1].value" ∧
      faultyRun.FirstFault "suite" (.record 1 .value) ∧
      ∃ r, faultyRun.benches[1]? = some r ∧ ¬ r.PartSound (faultyRun.benches.take 1) .value ∧
        ∀ i < 1, ∀ s, faultyRun.benches[i]? = some s → ∀ other,
          s.PartSound (faultyRun.benches.take i) other := by
  obtain ⟨_, first, _, reported⟩ := validateEntry_points_at_first_fault "suite" faultyRun
  have refused : validateEntry "suite" faultyRun
      = .error (.badValue 1 "lex" (0.0 / 0.0)) := rfl
  have path : (Rejection.badValue 1 "lex" (0.0 / 0.0)).field = "benches[1].value" := rfl
  exact ⟨_, refused, path, (first (.record 1 .value)).1 ⟨_, refused, path⟩,
    reported _ 1 .value refused path⟩

end BenchLedger
