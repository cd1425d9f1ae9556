import BenchLedger.Proofs.StableOrder
import Mathlib.Data.List.Basic
import Mathlib.Data.List.Induction

/-!
What a series holds after any history of loaded entries and insertions. Main statement:
`Series.represents_history`: entries, index and view are all determined by the history, as those of
a map from commit ids to the entries given last.
-/

namespace BenchLedger

/-! ### Histories -/

/-- The commit ids of a history, each where it first occurs. -/
def commitIds (history : List CommitEntry) : List String :=
  (history.map CommitEntry.id).eraseDups

/-- The entry that a history gives last for a commit id. -/
def lastFor? (history : List CommitEntry) (id : String) : Option CommitEntry :=
  history.findRev? (·.id == id)

@[simp] theorem mem_commitIds {history : List CommitEntry} {id : String} :
    id ∈ commitIds history ↔ ∃ e ∈ history, e.id = id := by
  simp [commitIds]

theorem commitIds_concat (history : List CommitEntry) (e : CommitEntry) :
    commitIds (history ++ [e])
      = if e.id ∈ commitIds history then commitIds history else commitIds history ++ [e.id] := by
  simp only [commitIds, List.map_append, List.map_cons, List.map_nil, List.eraseDups_append,
    List.mem_eraseDups, List.removeAll]
  by_cases known : e.id ∈ history.map CommitEntry.id
  · rw [if_pos known, List.filter_cons_of_neg (by simpa using known)]
    simp
  · rw [if_neg known, List.filter_cons_of_pos (by simpa using known)]
    simp [List.eraseDups_cons]

theorem nodup_commitIds (history : List CommitEntry) : (commitIds history).Nodup := by
  induction history using List.reverseRecOn with
  | nil => simp [commitIds]
  | append_singleton history e ih =>
    rw [commitIds_concat]
    split
    · exact ih
    next fresh => exact List.nodup_append.2 ⟨ih, by simp, by simpa using fresh⟩

theorem lastFor?_concat (history : List CommitEntry) (e : CommitEntry) (id : String) :
    lastFor? (history ++ [e]) id = if e.id = id then some e else lastFor? history id := by
  by_cases same : e.id = id <;> simp [lastFor?, same]

theorem lastFor?_some {history : List CommitEntry} {id : String} {e : CommitEntry}
    (h : lastFor? history id = some e) : e ∈ history ∧ e.id = id := by
  have found : history.reverse.find? (·.id == id) = some e := by
    simpa [lastFor?] using h
  exact ⟨by simpa using List.mem_of_find?_eq_some found, by simpa using List.find?_some found⟩

theorem lastFor?_eq_none {history : List CommitEntry} {id : String} :
    lastFor? history id = none ↔ id ∉ commitIds history := by
  simp [lastFor?]

/-! ### Series -/

namespace Series

/-- Inserts or replaces entries in turn. -/
def upsertAll (s : Series) (es : List CommitEntry) : Series :=
  es.foldl (fun s e => (s.upsert e).1) s

@[simp] theorem upsertAll_nil (s : Series) : s.upsertAll [] = s :=
  rfl

@[simp] theorem upsertAll_cons (s : Series) (e : CommitEntry) (es : List CommitEntry) :
    s.upsertAll (e :: es) = (s.upsert e).1.upsertAll es :=
  rfl

theorem upsertAll_append (s : Series) (es fs : List CommitEntry) :
    s.upsertAll (es ++ fs) = (s.upsertAll es).upsertAll fs :=
  List.foldl_append ..

/-- Entries and index agree with a history; the view may be left behind. -/
structure Holds (s : Series) (history : List CommitEntry) : Prop where
  -- One entry for each commit id in the order of first occurrence, the one given last.
  entries : s.entries.map some = (commitIds history).map (lastFor? history)
  -- Exactly the ids of the history lead to a slot, the rank of their first occurrence.
  index : ∀ id, s.index.get? id
    = if id ∈ commitIds history then some ((commitIds history).idxOf id) else none

/-- The whole series agrees with a history. -/
structure Represents (s : Series) (history : List CommitEntry) : Prop extends
    Holds s history where
  view : StablyOrdered s.entries s.view

theorem holds_empty : empty.Holds [] :=
  ⟨rfl, fun _ => by simp [empty, commitIds]⟩

theorem Holds.length_eq {s : Series} {history : List CommitEntry} (h : s.Holds history) :
    s.entries.length = (commitIds history).length := by
  simpa using congrArg List.length h.entries

theorem Holds.mem_entries {s : Series} {history : List CommitEntry} (h : s.Holds history)
    {e : CommitEntry} : e ∈ s.entries ↔ lastFor? history e.id = some e := by
  have listed : e ∈ s.entries ↔ some e ∈ (commitIds history).map (lastFor? history) := by
    rw [← h.entries]
    simp
  rw [listed, List.mem_map]
  constructor
  · rintro ⟨id, _, found⟩
    rw [(lastFor?_some found).2]
    exact found
  · intro found
    exact ⟨e.id, mem_commitIds.2 ⟨e, (lastFor?_some found).1, rfl⟩, found⟩

/-- The entries have the ids of the history, which are distinct. -/
theorem Holds.ids {s : Series} {history : List CommitEntry} (h : s.Holds history) :
    s.entries.map CommitEntry.id = commitIds history := by
  have each : ∀ id ∈ commitIds history, (lastFor? history id).map CommitEntry.id = some id := by
    intro id member
    cases found : lastFor? history id with
    | none => exact absurd member (lastFor?_eq_none.1 found)
    | some e => simp [(lastFor?_some found).2]
  apply List.map_injective_iff.2 (fun _ _ same => Option.some.inj same)
  calc (s.entries.map CommitEntry.id).map some
      = (s.entries.map some).map (Option.map CommitEntry.id) := by simp [Function.comp_def]
    _ = ((commitIds history).map (lastFor? history)).map (Option.map CommitEntry.id) := by
      rw [h.entries]
    _ = (commitIds history).map some := by
      rw [List.map_map]
      exact List.map_congr_left each

/-! ### One insertion -/

/-- The rank of the first occurrence of an id in a history, among all ids. -/
def rank (history : List CommitEntry) (id : String) : Position :=
  (commitIds history).idxOf id

/-- Ranks do not change when a history goes on. -/
theorem rank_append {history : List CommitEntry} {id : String} (known : id ∈ commitIds history)
    (later : List CommitEntry) : rank (history ++ later) id = rank history id := by
  simp only [rank, commitIds, List.map_append, List.eraseDups_append]
  exact List.idxOf_append_of_mem known

private theorem lastFor?_concat_of_ne {history : List CommitEntry} {e : CommitEntry} {id : String}
    (other : id ≠ e.id) : lastFor? (history ++ [e]) id = lastFor? history id := by
  rw [lastFor?_concat, if_neg (Ne.symm other)]

private theorem insert_new {s : Series} {history : List CommitEntry} (h : s.Holds history)
    {e : CommitEntry} (fresh : e.id ∉ commitIds history) :
    (s.insert e).1.Holds (history ++ [e]) ∧
      (s.insert e).2 = ⟨rank (history ++ [e]) e.id, false⟩ := by
  have free : s.index.get? e.id = none := by rw [h.index, if_neg fresh]
  have grown : commitIds (history ++ [e]) = commitIds history ++ [e.id] := by
    rw [commitIds_concat, if_neg fresh]
  have place : rank (history ++ [e]) e.id = s.entries.length := by
    rw [rank, grown, List.idxOf_append_of_notMem fresh, h.length_eq]
    simp
  simp only [Series.insert, free, place]
  refine ⟨⟨?_, ?_⟩, trivial⟩
  · simp only [List.map_append, List.map_cons, List.map_nil, grown, h.entries]
    rw [lastFor?_concat, if_pos rfl]
    congr 1
    apply List.map_congr_left
    intro id member
    exact (lastFor?_concat_of_ne fun same => fresh (same ▸ member)).symm
  · intro id
    rw [NameMap.get?_insert, h.index]
    by_cases same : id = e.id
    · subst same
      have member : e.id ∈ commitIds (history ++ [e]) := by simp [grown]
      rw [if_pos rfl, if_pos member, ← place, rank]
    · rw [if_neg same]
      by_cases known : id ∈ commitIds history
      · have kept : id ∈ commitIds (history ++ [e]) := by simp [grown, known]
        rw [if_pos known, if_pos kept, grown, List.idxOf_append_of_mem known]
      · have still : id ∉ commitIds (history ++ [e]) := by simp only [grown]; simp_all
        rw [if_neg known, if_neg still]

private theorem insert_known {s : Series} {history : List CommitEntry} (h : s.Holds history)
    {e : CommitEntry} (known : e.id ∈ commitIds history) :
    (s.insert e).1.Holds (history ++ [e]) ∧
      (s.insert e).2 = ⟨rank (history ++ [e]) e.id, true⟩ := by
  have same : commitIds (history ++ [e]) = commitIds history := by
    rw [commitIds_concat, if_pos known]
  have taken : s.index.get? e.id = some ((commitIds history).idxOf e.id) := by
    rw [h.index, if_pos known]
  simp only [Series.insert, taken, rank, same]
  refine ⟨⟨?_, ?_⟩, trivial⟩
  · simp only [same, List.map_set, h.entries]
    apply List.ext_getElem
    · simp
    intro i hi _
    have bound : i < (commitIds history).length := by simpa using hi
    rw [List.getElem_set]
    simp only [List.getElem_map]
    split
    next here =>
      subst here
      rw [List.getElem_idxOf, lastFor?_concat, if_pos rfl]
    next elsewhere =>
      symm
      apply lastFor?_concat_of_ne
      intro equal
      apply elsewhere
      rw [← equal]
      exact (nodup_commitIds history).idxOf_getElem i bound
  · intro id
    rw [same]
    exact h.index id

/-- An insertion keeps step with the history, and answers with the rank of the commit id and
whether it was there. -/
theorem Holds.insert {s : Series} {history : List CommitEntry} (h : s.Holds history)
    (e : CommitEntry) :
    (s.insert e).1.Holds (history ++ [e]) ∧
      (s.insert e).2 = ⟨rank (history ++ [e]) e.id, decide (e.id ∈ commitIds history)⟩ := by
  by_cases known : e.id ∈ commitIds history
  · simpa [known] using insert_known h known
  · simpa [known] using insert_new h known

/-! ### Runs -/

/-- An insertion does not look at the view. -/
private theorem rebuildView_insert (s : Series) (e : CommitEntry) :
    (s.rebuildView.insert e).1.rebuildView = (s.insert e).1.rebuildView := by
  simp only [Series.insert, rebuildView]
  cases s.index.get? e.id <;> rfl

private theorem upsertAll_rebuildView (s : Series) (es : List CommitEntry) :
    s.rebuildView.upsertAll es = (es.foldl (fun s e => (s.insert e).1) s).rebuildView := by
  induction es generalizing s with
  | nil => rfl
  | cons e es ih =>
    have first : (s.rebuildView.upsert e).1 = (s.insert e).1.rebuildView := rebuildView_insert s e
    rw [upsertAll_cons, first, ih]
    rfl

/-- To load entries at once is to insert them one by one. -/
theorem ofEntries_eq_upsertAll (es : List CommitEntry) : ofEntries es = empty.upsertAll es :=
  (upsertAll_rebuildView empty es).symm

theorem Represents.upsert {s : Series} {history : List CommitEntry} (h : s.Represents history)
    (e : CommitEntry) : (s.upsert e).1.Represents (history ++ [e]) := by
  have held := (h.toHolds.insert e).1
  exact { entries := held.entries, index := held.index, view := ordered_stable _ }

theorem Represents.upsertAll {s : Series} {history : List CommitEntry} (h : s.Represents history)
    (es : List CommitEntry) : (s.upsertAll es).Represents (history ++ es) := by
  induction es generalizing s history with
  | nil => simpa using h
  | cons e es ih => simpa using ih (h.upsert e)

theorem represents_empty : empty.Represents [] :=
  { holds_empty with view := ordered_stable [] }

theorem represents_upsertAll (es : List CommitEntry) : (empty.upsertAll es).Represents es := by
  simpa using represents_empty.upsertAll es

/-- The view has the entry given last for each commit id. -/
theorem Represents.find? {s : Series} {history : List CommitEntry} (h : s.Represents history)
    (name id : String) : (s.snapshot name).find? id = lastFor? history id := by
  have member : ∀ e, e ∈ s.view ↔ lastFor? history e.id = some e := fun e =>
    h.view.perm.mem_iff.trans h.toHolds.mem_entries
  simp only [SeriesSnapshot.find?, Series.snapshot]
  cases found : s.view.find? (·.id == id) with
  | some e =>
    have here := (member e).1 (List.mem_of_find?_eq_some found)
    have named : e.id = id := by simpa using List.find?_some found
    rw [← named, here]
  | none =>
    cases last : lastFor? history id with
    | none => rfl
    | some e =>
      have named := (lastFor?_some last).2
      have here : e ∈ s.view := (member e).2 (by rw [named, last])
      have absent := List.find?_eq_none.1 found e here
      simp [named] at absent

/-- A series is, after loading and any insertions, an ordered map from commit ids to the entries
given last: entries, index and view agree with the history; a look-up gives the last entry; the next
insertion answers with the rank of its commit id and whether it was there, and that rank stays; and
loading is the same as inserting one by one. -/
theorem represents_history (loaded later : List CommitEntry) :
    let s := (ofEntries loaded).upsertAll later
    let history := loaded ++ later
    s.Represents history ∧
      (∀ name id, (s.snapshot name).find? id = lastFor? history id) ∧
      (∀ e, (s.upsert e).2.position = rank (history ++ [e]) e.id ∧
        ((s.upsert e).2.replaced = true ↔ ∃ old ∈ history, old.id = e.id) ∧
        ∀ more e', e'.id = e.id →
          (((s.upsert e).1.upsertAll more).upsert e').2.position = (s.upsert e).2.position) ∧
      ofEntries loaded = empty.upsertAll loaded := by
  intro s history
  have here : s.Represents history := by
    rw [show s = empty.upsertAll history by
      rw [upsertAll_append, ← ofEntries_eq_upsertAll]]
    exact represents_upsertAll history
  refine ⟨here, here.find?, fun e => ?_, ofEntries_eq_upsertAll loaded⟩
  have placed : (s.upsert e).2 = _ := (here.toHolds.insert e).2
  refine ⟨by rw [placed], by rw [placed]; simp, fun more e' same => ?_⟩
  have after := (here.upsert e).upsertAll more
  have again : (((s.upsert e).1.upsertAll more).upsert e').2 = _ := (after.toHolds.insert e').2
  rw [again, placed, same, List.append_assoc]
  exact rank_append (mem_commitIds.2 ⟨e, by simp, rfl⟩) _

end Series

end BenchLedger
