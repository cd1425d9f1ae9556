import BenchLedger.Run.Draft
import Mathlib.Data.List.Induction

/-!
Entries that are built from details told in any order. Main statement:
`EntryDraft.built_of_details`: what was told last of each kind is in the entry, but whether the run
time can be represented is found out only if the commit time was left open.
-/

namespace BenchLedger

open Calendar (Timestamp)

/-- The run times that can be represented, in milliseconds since 1970. -/
def Representable (millis : Int) : Prop :=
  Calendar.leastMillis ≤ millis ∧ millis ≤ Calendar.greatestMillis

instance (millis : Int) : Decidable (Representable millis) :=
  inferInstanceAs (Decidable (_ ∧ _))

theorem isSome_ofMillis? {millis : Int} :
    (Timestamp.ofMillis? millis).isSome ↔ Representable millis := by
  simp [Timestamp.ofMillis?, Representable]

namespace EntryDetail

def id? : EntryDetail → Option String
  | .id told => some told
  | _ => none

def timestamp? : EntryDetail → Option Timestamp
  | .timestamp told => some told
  | _ => none

def author? : EntryDetail → Option Identity
  | .author told => some told
  | _ => none

def committer? : EntryDetail → Option Identity
  | .committer told => some told
  | _ => none

def distinct? : EntryDetail → Option Bool
  | .distinct told => some told
  | _ => none

def message? : EntryDetail → Option String
  | .message told => some told
  | _ => none

def url? : EntryDetail → Option String
  | .url told => some told
  | _ => none

def date? : EntryDetail → Option Int
  | .date told => some told
  | _ => none

def tool? : EntryDetail → Option String
  | .tool told => some told
  | _ => none

def bench? : EntryDetail → Option BenchmarkRecord
  | .bench told => some told
  | _ => none

variable {α : Type}

/-- What was told last of one kind. -/
def last (kind : EntryDetail → Option α) (details : List EntryDetail) : Option α :=
  (details.filterMap kind).getLast?

@[simp] theorem last_concat (kind : EntryDetail → Option α) (details : List EntryDetail)
    (d : EntryDetail) : last kind (details ++ [d]) = (kind d).or (last kind details) := by
  cases told : kind d <;> simp [last, told]

/-- An entry that says what was told last of each kind, and the default of what was not told. -/
structure Fills (details : List EntryDetail) (e : CommitEntry) : Prop where
  id : last id? details = some e.id
  author : e.commit.author = (last author? details).getD .unknown
  committer : e.commit.committer = (last committer? details).getD e.commit.author
  distinct : e.commit.distinct = (last distinct? details).getD false
  message : e.commit.message = last message? details
  url : e.commit.url = last url? details
  treeId : e.commit.treeId = none
  date : last date? details = some e.date
  tool : e.tool = (last tool? details).getD "custom"
  benches : e.benches = details.filterMap bench?
  -- The run time, if no commit time was told; then it can be represented.
  timestamp : ((last timestamp? details).or e.runTime?) = some e.commit.timestamp

end EntryDetail

namespace EntryDraft

open EntryDetail

/-- The draft that holds what was told last of each kind, and all records. -/
def ofLast (details : List EntryDetail) : EntryDraft where
  id := last id? details
  timestamp := last timestamp? details
  author := last author? details
  committer := last committer? details
  distinct := (last distinct? details).getD false
  message := last message? details
  url := last url? details
  date := last date? details
  tool := last tool? details
  benches := details.filterMap bench?

/-- One more detail replaces what was told last of its kind, and nothing else. -/
theorem tell_ofLast (details : List EntryDetail) (d : EntryDetail) :
    (ofLast details).tell d = ofLast (details ++ [d]) := by
  cases d <;> simp [tell, addBench, ofLast, id?, timestamp?, author?, committer?, distinct?,
    message?, url?, date?, tool?, bench?]

theorem ofDetails_eq (details : List EntryDetail) : ofDetails details = ofLast details := by
  -- The induction goes from the first detail to the last, the way they are told.
  induction details using List.reverseRecOn with
  | nil => rfl
  | append_singleton details d ih =>
    rw [← tell_ofLast, ← ih, ofDetails, List.foldl_append]
    rfl

variable {d : EntryDraft} {now : Int}

/-- The commit time, which is the run time if none was told. -/
def commitTime? (d : EntryDraft) (now : Int) : Option Timestamp :=
  d.timestamp.or (Timestamp.ofMillis? (d.date.getD now))

/-- The entry of a draft whose commit and commit time are settled. -/
def entry (d : EntryDraft) (now : Int) (id : String) (timestamp : Timestamp) : CommitEntry where
  commit := {
    id, timestamp
    author := d.author.getD .unknown
    committer := d.committer.getD (d.author.getD .unknown)
    distinct := d.distinct
    message := d.message
    treeId := none
    url := d.url }
  date := d.date.getD now
  tool := d.tool.getD "custom"
  benches := d.benches

theorem build_of_unnamed (unnamed : d.id = none) : d.build now = .error .noCommit := by
  simp [build, unnamed, bind, Except.bind]

theorem build_of_named {id : String} (named : d.id = some id) :
    d.build now = match d.commitTime? now with
      | some timestamp => .ok (d.entry now id timestamp)
      | none => .error .unrepresentableRunTime := by
  cases timed : d.timestamp with
  | some timestamp =>
    simp [build, named, timed, commitTime?, entry, bind, Except.bind, pure, Except.pure]
  | none =>
    cases found : Timestamp.ofMillis? (d.date.getD now) <;>
      simp [build, named, timed, found, commitTime?, entry, bind, Except.bind, pure, Except.pure]

/-- A commit time that was told does, whatever the run time is. -/
theorem isSome_commitTime? :
    (d.commitTime? now).isSome ↔ d.timestamp.isSome ∨ Representable (d.date.getD now) := by
  rw [commitTime?, Option.isSome_or, Bool.or_eq_true, isSome_ofMillis?]

theorem build_eq_ok {e : CommitEntry} :
    d.build now = .ok e ↔ ∃ id timestamp, d.id = some id ∧ d.commitTime? now = some timestamp ∧
      d.entry now id timestamp = e := by
  cases named : d.id with
  | none => simp [build_of_unnamed named]
  | some id => cases timed : d.commitTime? now <;> simp [build_of_named named, timed]

/-- A draft can be completed just if it names its commit, and has a commit time or a run time that
can be represented. -/
theorem exists_build_iff :
    (∃ e, d.build now = .ok e) ↔
      d.id.isSome ∧ (d.timestamp.isSome ∨ Representable (d.date.getD now)) := by
  simp only [build_eq_ok]
  rw [← isSome_commitTime?, Option.isSome_iff_exists, Option.isSome_iff_exists]
  constructor
  · rintro ⟨e, id, timestamp, named, timed, _⟩
    exact ⟨⟨id, named⟩, timestamp, timed⟩
  · rintro ⟨⟨id, named⟩, timestamp, timed⟩
    exact ⟨_, id, timestamp, named, timed, rfl⟩

/-- What is missing is named, the commit first. -/
theorem build_eq_error {r : Rejection} (refused : d.build now = .error r) :
    r = if d.id = none then .noCommit else .unrepresentableRunTime := by
  cases named : d.id with
  | none => simpa [build_of_unnamed named, eq_comm] using refused
  | some id =>
    rw [build_of_named named] at refused
    cases timed : d.commitTime? now <;> simp_all

variable {details : List EntryDetail} {date : Int}

theorem fills_entry (dated : last date? details = some date) {id : String}
    (named : last id? details = some id) {timestamp : Timestamp}
    (timed : (ofLast details).commitTime? now = some timestamp) :
    Fills details ((ofLast details).entry now id timestamp) where
  id := named
  author := rfl
  committer := rfl
  distinct := rfl
  message := rfl
  url := rfl
  treeId := rfl
  date := by simp [entry, ofLast, dated]
  tool := rfl
  benches := rfl
  timestamp := timed

/-- Of details with a run time an entry can be built just if the commit is told, and a commit time
or a run time that can be represented; otherwise what is missing is named. The entry has what was
told last of each kind, also a run time that cannot be represented; only without a commit time it is
bound to be one that can, since it is the commit time then. -/
theorem built_of_details (dated : last date? details = some date) (now : Int) :
    ((∃ e, (ofDetails details).build now = .ok e) ↔
        (last id? details).isSome ∧ ((last timestamp? details).isSome ∨ Representable date)) ∧
      (∀ e, (ofDetails details).build now = .ok e →
        Fills details e ∧ (e.runTime?.isSome ↔ Representable date)) ∧
      ∀ r, (ofDetails details).build now = .error r →
        r = if last id? details = none then .noCommit else .unrepresentableRunTime := by
  rw [ofDetails_eq]
  have runTime : (ofLast details).date.getD now = date := by simp [ofLast, dated]
  refine ⟨?_, fun e built => ?_, fun r refused => build_eq_error refused⟩
  · rw [exists_build_iff, runTime]
    rfl
  · obtain ⟨id, timestamp, named, timed, rfl⟩ := build_eq_ok.1 built
    refine ⟨fills_entry dated named timed, ?_⟩
    rw [CommitEntry.runTime?, isSome_ofMillis?, entry, runTime]

/-- A run whose commit and run time are told twice. -/
def retold : List EntryDetail :=
  [.date 9223372036854775807, .id "abcd", .author ⟨"Dev", "dev@example.com", none⟩,
    .bench ⟨"b", 100.25, "ns/op", none⟩, .date 1700000000000, .tool "go", .id "ef01",
    .bench ⟨"c", 8.0, "B/op", none⟩]

theorem built_of_details_of_retold :
    last date? retold = some 1700000000000 ∧
      ∃ e, (ofDetails retold).build 0 = .ok e ∧ Fills retold e ∧ e.runTime?.isSome := by
  have dated : last date? retold = some 1700000000000 := by decide +kernel
  have representable : Representable 1700000000000 := by decide
  obtain ⟨built, filled, _⟩ := built_of_details dated 0
  obtain ⟨e, build⟩ := built.2 ⟨rfl, .inr representable⟩
  obtain ⟨fills, runTime⟩ := filled e build
  exact ⟨dated, e, build, fills, runTime.2 representable⟩

/-- A run with a commit time, but with a run time beyond the calendar. -/
def endless : List EntryDetail :=
  [.id "abcd", .timestamp ⟨⟨2025, 1, 1⟩, ⟨0, 0, 0, 0⟩, 0⟩, .date 9223372036854775807]

/-- The commit time is enough for an entry whose run time cannot be represented. -/
theorem built_without_runTime :
    last date? endless = some 9223372036854775807 ∧ ¬Representable 9223372036854775807 ∧
      ∃ e, (ofDetails endless).build 0 = .ok e ∧ e.runTime? = none :=
  ⟨rfl, by decide, _, rfl, rfl⟩

end EntryDraft

end BenchLedger
