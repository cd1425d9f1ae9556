import BenchLedger.Proofs.JsonText
import BenchLedger.Proofs.NameMapOrder
import BenchLedger.Proofs.TimestampText
import BenchLedger.Run.Commit
import Mathlib.Algebra.Ring.Int.Defs
import Mathlib.Algebra.Ring.Nat

/-!
Decoders on trees of values that were written: lists, maps by name, and the members of a record,
some of which are left out when they have no value.
-/

namespace BenchLedger.Json

open Decoder

/-! ### Lists and maps -/

/-- A list is decoded item by item. -/
theorem list_ofWritten {α β : Type} (d : Decoder β) (toJson : α → Json) (xs : List α) :
    list d (.ofWritten (.array (xs.map toJson))) = xs.mapM fun x => d (.ofWritten (toJson x)) := by
  have decoded : ((xs.map toJson).map Tree.ofWritten).mapM d
      = xs.mapM fun x => d (.ofWritten (toJson x)) := by
    rw [List.map_map, List.mapM_map]
    rfl
  simp only [Tree.ofWritten_array, list, decoded]
  cases xs.mapM fun x => d (.ofWritten (toJson x)) <;> rfl

private theorem namedValues_ofWritten {α β : Type} (d : Decoder β) (toJson : α → Json)
    (ps : List (String × α)) :
    namedValues d ((ps.map fun p => (p.1, toJson p.2)).map fun m =>
        (.ofValue m.1, Tree.ofWritten m.2))
      = ps.mapM fun p => (d (.ofWritten (toJson p.2))).map fun v => (p.1, v) := by
  induction ps with
  | nil => rfl
  | cons p ps ih =>
    simp only [List.map_cons, namedValues, ih, List.mapM_cons]
    cases d (.ofWritten (toJson p.2)) <;> rfl

/-- A map is decoded value by value. -/
theorem nameMap_ofWritten {α β : Type} (d : Decoder β) (toJson : α → Json) (m : NameMap α) :
    nameMap d (.ofWritten (.object (m.pairs.map fun p => (p.1, toJson p.2))))
      = (m.pairs.mapM fun p => (d (.ofWritten (toJson p.2))).map fun v => (p.1, v)).map
          NameMap.ofList := by
  simp only [Tree.ofWritten_object, nameMap, namedValues_ofWritten d toJson m.pairs]
  cases m.pairs.mapM fun p => (d (.ofWritten (toJson p.2))).map fun v => (p.1, v) <;> rfl

/-- Steps that all succeed do so together. -/
theorem mapM_eq_map {α β : Type} {f : α → Except Fault β} {g : α → β} {xs : List α}
    (each : ∀ x ∈ xs, f x = .ok (g x)) : xs.mapM f = .ok (xs.map g) := by
  induction xs with
  | nil => rfl
  | cons x xs ih =>
    have first := each x (by simp)
    have others := ih fun y member => each y (by simp [member])
    simp only [List.mapM_cons, first, others]
    rfl

/-! ### Records -/

/-- The members of a record as they are found in its text. -/
def memberTrees (members : List (String × Option Json)) : List (Leaf String × Tree) :=
  (members.filterMap fun m => m.2.map fun v => (m.1, v)).map fun m =>
    (.ofValue m.1, Tree.ofWritten m.2)

theorem ofWritten_objectOf (members : List (String × Option Json)) :
    Tree.ofWritten (objectOf members) = .object (memberTrees members) none :=
  Tree.ofWritten_object _

section

variable {σ α : Type} {fields : List (Decoder.Field σ)} {members : List (String × Option Json)}

/-- A member with a value is decoded into its field, if the field has none yet. -/
theorem fillByName_given {name : String} {d : Decoder α} {get : σ → Option α} {set : α → σ → σ}
    {s s' : σ} {v : Json} (known : fields.find? (·.name == name) = some (.of name d get set))
    (vacant : get s = none) :
    fillByName fields (memberTrees ((name, some v) :: members)) s = .ok s' ↔
      ∃ x, d (.ofWritten v) = .ok x ∧
        fillByName fields (memberTrees members) (set x s) = .ok s' := by
  have first : memberTrees ((name, some v) :: members)
      = (.ofValue name, .ofWritten v) :: memberTrees members := rfl
  simp only [Decoder.Field.of] at known
  cases value : d (.ofWritten v) <;>
    simp [first, fillByName, Leaf.ofValue, known, vacant, value, bind, Except.bind, Except.map]

/-- A member that may be missing is decoded if it is there. -/
theorem fillByName_optional {β : Type} {name : String} {d : Decoder α}
    {get : σ → Option (Option α)} {set : Option α → σ → σ} {toJson : β → Json} {o : Option β}
    {s s' : σ} (known : fields.find? (·.name == name) = some (.of name (optional d) get set))
    (vacant : get s = none)
    (given : ∀ v, optional d (.ofWritten (toJson v)) = (d (.ofWritten (toJson v))).map some) :
    fillByName fields (memberTrees ((name, o.map toJson) :: members)) s = .ok s' ↔
      ∃ o', o.mapM (fun v => d (.ofWritten (toJson v))) = .ok o' ∧
        fillByName fields (memberTrees members) (o'.elim s fun x => set (some x) s) = .ok s' := by
  cases o with
  | none =>
    constructor
    · intro fill
      exact ⟨none, rfl, fill⟩
    · rintro ⟨o', none, fill⟩
      cases none
      exact fill
  | some v =>
    rw [Option.map_some, fillByName_given known vacant, given]
    constructor
    · rintro ⟨_, read, fill⟩
      cases value : d (.ofWritten (toJson v)) with
      | error fault => simp [value, Except.map] at read
      | ok x =>
        rw [value] at read
        cases read
        exact ⟨some x, by simp [value], fill⟩
    · rintro ⟨o', read, fill⟩
      cases value : d (.ofWritten (toJson v)) with
      | error fault => simp [value] at read
      | ok x =>
        simp only [Option.mapM_some, value] at read
        cases read
        exact ⟨some x, rfl, fill⟩

/-- A record is decoded if its members fill the fields that `finish` asks for. -/
theorem record_ofWritten {start : σ} {finish : σ → Option α} {x : α} :
    record fields start finish (.ofWritten (objectOf members)) = .ok x ↔
      ∃ filled, fillByName fields (memberTrees members) start = .ok filled ∧
        finish filled = some x := by
  rw [ofWritten_objectOf]
  cases fill : fillByName fields (memberTrees members) start with
  | error fault => simp [record, fill, bind, Except.bind]
  | ok filled =>
    cases whole : finish filled <;>
      simp [record, fill, whole, bind, Except.bind, raise?, pure, Except.pure]

end

end BenchLedger.Json

namespace BenchLedger

open Json Json.Decoder
open Calendar (Timestamp)

/-! ### Entries -/

/-- Whole numbers that a signed word of 64 bits holds. -/
def IsWord (i : Int) : Prop :=
  -2 ^ 63 ≤ i ∧ i < 2 ^ 63

instance (i : Int) : Decidable (IsWord i) :=
  inferInstanceAs (Decidable (_ ∧ _))

/-- The run time is a word and the commit's timestamp a point in time. -/
structure CommitEntry.WellTyped (e : CommitEntry) : Prop where
  date : IsWord e.date
  timestamp : e.commit.timestamp.exists = true

/-- The values of an entry's records. -/
def CommitEntry.values (e : CommitEntry) : List Float :=
  e.benches.map (·.value)

/-- Changes the values of an entry's records and nothing else. -/
def CommitEntry.mapValues (f : Float → Float) (e : CommitEntry) : CommitEntry :=
  { e with benches := e.benches.map fun r => { r with value := f r.value } }

theorem CommitEntry.mapValues_id (e : CommitEntry) : e.mapValues (fun x => x) = e := by
  simp [CommitEntry.mapValues]

theorem whole_ofWritten {i : Int} (word : IsWord i) : whole (.ofWritten (.whole i)) = .ok i := by
  have small : i.toNat < Nat.pow 2 63 := by
    have below : i < 2 ^ 63 := word.2
    have power : Nat.pow 2 63 = 9223372036854775808 := rfl
    omega
  have literal : readNumber (Number.whole i).text = ⟨.ofValue (.whole i), some []⟩ :=
    readsBack_whole word.1 (by have := word.2; omega)
  simp only [Json.whole, Tree.ofWritten_number, Decoder.whole, literal]
  exact if_pos small

theorem real_ofWritten {x y : Float} (literal : (Number.real x).ReadAs (.real y)) :
    real (.ofWritten (.real x)) = .ok y := by
  rw [Number.ReadAs] at literal
  simp only [Json.real, Tree.ofWritten_number, Decoder.real, literal]
  rfl

theorem timestamp_ofWritten {t : Timestamp} (h : t.exists = true) :
    stringOf Timestamp.ofText? (.ofWritten (.string t.text)) = .ok t := by
  simp only [stringOf, Tree.ofWritten_string, Decoder.string, Leaf.ofValue, bind, Except.bind,
    Timestamp.ofText?_text h]

theorem Identity.decoder_toJson (i : Identity) :
    Identity.decoder (.ofWritten i.toJson) = .ok i := by
  refine record_ofWritten.2 ⟨⟨some i.name, some i.email, i.username.map some⟩, ?_, ?_⟩
  · cases i.username <;> rfl
  · obtain ⟨name, email, username⟩ := i
    cases username <;> rfl

/-- A commit reads back but for its timestamp, which is what its text gives. -/
theorem Commit.decoder_toJson {c c' : Commit} :
    Commit.decoder (.ofWritten c.toJson) = .ok c' ↔
      ∃ t, stringOf Timestamp.ofText? (.ofWritten (.string c.timestamp.text)) = .ok t ∧
        c' = { c with timestamp := t } := by
  obtain ⟨id, timestamp, author, committer, distinct, message, treeId, url⟩ := c
  constructor
  · intro h
    obtain ⟨filled, fill, finished⟩ := record_ofWritten.1 h
    obtain ⟨_, read, fill⟩ := (fillByName_given rfl rfl).1 fill
    cases read
    obtain ⟨t, read, fill⟩ := (fillByName_given rfl rfl).1 fill
    refine ⟨t, read, ?_⟩
    obtain ⟨_, read, fill⟩ := (fillByName_given rfl rfl).1 fill
    cases author.decoder_toJson.symm.trans read
    obtain ⟨_, read, fill⟩ := (fillByName_given rfl rfl).1 fill
    cases committer.decoder_toJson.symm.trans read
    cases message <;> cases treeId <;> cases url <;>
      (cases Except.ok.inj fill; cases finished; rfl)
  · rintro ⟨t, read, rfl⟩
    refine record_ofWritten.2 ⟨⟨some id, some t, some author, some committer, some distinct,
      message.map some, treeId.map some, url.map some⟩, ?_, ?_⟩
    · refine (fillByName_given rfl rfl).2 ⟨id, rfl, ?_⟩
      refine (fillByName_given rfl rfl).2 ⟨t, read, ?_⟩
      refine (fillByName_given rfl rfl).2 ⟨_, author.decoder_toJson, ?_⟩
      refine (fillByName_given rfl rfl).2 ⟨_, committer.decoder_toJson, ?_⟩
      cases message <;> cases treeId <;> cases url <;> rfl
    · cases message <;> cases treeId <;> cases url <;> rfl

/-- A record reads back but for its value, which is what its literal gives. -/
theorem BenchmarkRecord.decoder_toJson {r r' : BenchmarkRecord} :
    BenchmarkRecord.decoder (.ofWritten r.toJson) = .ok r' ↔
      ∃ x, real (.ofWritten (.real r.value)) = .ok x ∧ r' = { r with value := x } := by
  obtain ⟨name, value, unit, extra⟩ := r
  constructor
  · intro h
    obtain ⟨filled, fill, finished⟩ := record_ofWritten.1 h
    obtain ⟨_, read, fill⟩ := (fillByName_given rfl rfl).1 fill
    cases read
    obtain ⟨x, read, fill⟩ := (fillByName_given rfl rfl).1 fill
    refine ⟨x, read, ?_⟩
    cases extra <;> (cases Except.ok.inj fill; cases finished; rfl)
  · rintro ⟨x, read, rfl⟩
    refine record_ofWritten.2 ⟨⟨some name, some x, some unit, extra.map some⟩, ?_, ?_⟩
    · refine (fillByName_given rfl rfl).2 ⟨name, rfl, ?_⟩
      refine (fillByName_given rfl rfl).2 ⟨x, read, ?_⟩
      cases extra <;> rfl
    · cases extra <;> rfl

/-- An entry reads back but for what its commit, run time and records are read as. -/
theorem CommitEntry.decoder_toJson {e e' : CommitEntry} :
    CommitEntry.decoder (.ofWritten e.toJson) = .ok e' ↔
      ∃ commit date benches, Commit.decoder (.ofWritten e.commit.toJson) = .ok commit ∧
        whole (.ofWritten (.whole e.date)) = .ok date ∧
        list BenchmarkRecord.decoder (.ofWritten (.array (e.benches.map BenchmarkRecord.toJson)))
          = .ok benches ∧
        e' = { e with commit, date, benches } := by
  obtain ⟨commit, date, tool, benches⟩ := e
  constructor
  · intro h
    obtain ⟨filled, fill, finished⟩ := record_ofWritten.1 h
    obtain ⟨commit', readCommit, fill⟩ := (fillByName_given rfl rfl).1 fill
    obtain ⟨date', readDate, fill⟩ := (fillByName_given rfl rfl).1 fill
    obtain ⟨_, read, fill⟩ := (fillByName_given rfl rfl).1 fill
    cases read
    obtain ⟨benches', readBenches, fill⟩ := (fillByName_given rfl rfl).1 fill
    refine ⟨commit', date', benches', readCommit, readDate, readBenches, ?_⟩
    cases Except.ok.inj fill
    cases finished
    rfl
  · rintro ⟨commit', date', benches', readCommit, readDate, readBenches, rfl⟩
    refine record_ofWritten.2 ⟨⟨some commit', some date', some tool, some benches'⟩, ?_, rfl⟩
    refine (fillByName_given rfl rfl).2 ⟨commit', readCommit, ?_⟩
    refine (fillByName_given rfl rfl).2 ⟨date', readDate, ?_⟩
    refine (fillByName_given rfl rfl).2 ⟨tool, rfl, ?_⟩
    exact (fillByName_given rfl rfl).2 ⟨benches', readBenches, rfl⟩

/-- An entry reads back but for its values, each of which is what its literal gives. -/
theorem CommitEntry.decoder_toJson_mapValues {e : CommitEntry} {f : Float → Float}
    (typed : e.WellTyped) (literals : ∀ x ∈ e.values, (Number.real x).ReadAs (.real (f x))) :
    CommitEntry.decoder (.ofWritten e.toJson) = .ok (e.mapValues f) := by
  have benches : list BenchmarkRecord.decoder
      (.ofWritten (.array (e.benches.map BenchmarkRecord.toJson)))
        = .ok (e.benches.map fun r => { r with value := f r.value }) := by
    rw [list_ofWritten]
    apply mapM_eq_map
    intro r member
    have literal := literals r.value (List.mem_map_of_mem member)
    exact BenchmarkRecord.decoder_toJson.2 ⟨f r.value, real_ofWritten literal, rfl⟩
  have commit := Commit.decoder_toJson.2 ⟨_, timestamp_ofWritten typed.timestamp, rfl⟩
  exact CommitEntry.decoder_toJson.2 ⟨_, _, _, commit, whole_ofWritten typed.date, benches, rfl⟩

end BenchLedger
