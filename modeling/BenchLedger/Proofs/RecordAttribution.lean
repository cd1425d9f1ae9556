import BenchLedger.Proofs.AcceptedEntries

/-!
Which commit and name a record goes by. Main statement: `FileStore.attributed_once`: in what readers
see of a series there is one record for each commit and name, except that an entry which nobody
checked, because it was loaded or appended directly, may repeat a name.
-/

namespace BenchLedger

/-! ### Records of a list of entries -/

/-- Commit id and name of every record. -/
def attributions (es : List CommitEntry) : List (String × String) :=
  es.flatMap fun e => e.benches.map fun r => (e.id, r.name)

theorem count_attributions_cons (e : CommitEntry) (es : List CommitEntry) (id name : String) :
    (attributions (e :: es)).count (id, name) =
      (if e.id = id then (e.benches.map (·.name)).count name else 0) +
        (attributions es).count (id, name) := by
  have own : (e.benches.map fun r => (e.id, r.name)).count (id, name) =
      if e.id = id then (e.benches.map (·.name)).count name else 0 := by
    split
    next same =>
      subst same
      rw [List.count_eq_countP, List.count_eq_countP, List.countP_map, List.countP_map]
      apply List.countP_congr
      simp
    next other =>
      apply List.count_eq_zero_of_not_mem
      simp [other]
  simp only [attributions, List.flatMap_cons, List.count_append, own]

theorem count_attributions_of_unknown {es : List CommitEntry} {id : String}
    (unknown : id ∉ es.map CommitEntry.id) (name : String) :
    (attributions es).count (id, name) = 0 := by
  induction es with
  | nil => rfl
  | cons e es ih =>
    rw [List.map_cons, List.mem_cons, not_or] at unknown
    rw [count_attributions_cons, if_neg (Ne.symm unknown.1), ih unknown.2]

/-- Where no commit id repeats, a name that occurs twice for a commit does so within one entry. -/
theorem repeated_of_count_attributions {es : List CommitEntry}
    (distinct : (es.map CommitEntry.id).Nodup) {id name : String}
    (twice : 1 < (attributions es).count (id, name)) :
    ∃ e ∈ es, e.id = id ∧ 1 < (e.benches.map (·.name)).count name := by
  induction es with
  | nil => cases twice
  | cons e es ih =>
    obtain ⟨fresh, distinct⟩ := List.nodup_cons.1 distinct
    rw [count_attributions_cons] at twice
    by_cases same : e.id = id
    · subst same
      rw [if_pos rfl, count_attributions_of_unknown fresh, Nat.add_zero] at twice
      exact ⟨e, List.mem_cons_self, rfl, twice⟩
    · rw [if_neg same, Nat.zero_add] at twice
      obtain ⟨e', member, found⟩ := ih distinct twice
      exact ⟨e', List.mem_cons_of_mem _ member, found⟩

/-! ### Stores -/

/-- The entries that an operation puts into a store without a look at the names of their records. -/
def StoreOperation.unchecked : StoreOperation → List (String × CommitEntry)
  | .append series e => [(series, e)]
  | _ => []

/-- What else enters has no two records of one name. -/
theorem StoreOperation.nodup_of_enters {o : StoreOperation} {name : String} {e : CommitEntry}
    (enters : (name, e) ∈ o.enters) :
    (name, e) ∈ o.unchecked ∨ (e.benches.map (·.name)).Nodup := by
  cases o with
  | append series e =>
    simp only [StoreOperation.enters] at enters
    split at enters
    · exact .inl enters
    · cases enters
  | ingest => exact .inr (valid_of_mem_accepted enters).distinct
  | takeIn => exact .inr (valid_of_mem_accepted enters).distinct
  | flushBegins => cases enters
  | flushEnds => cases enters

/-- After whatever was done to a store, a series has no two entries of one commit, and two records
of one commit and one name only if an unchecked entry of the commit repeats the name. -/
theorem FileStore.attributed_once {f : FileStore} {config : StoreConfig}
    {loaded : Option HistoryDocument} (opened : f.store = .ofDocument config loaded)
    (operations : List StoreOperation) {name : String} {snapshot : SeriesSnapshot}
    (found : (f.run operations).store.getSeries name = .ok snapshot) :
    (snapshot.entries.map CommitEntry.id).Nodup ∧
      ∀ id benchmark, (attributions snapshot.entries).count (id, benchmark) ≤ 1 ∨
        ∃ e ∈ snapshot.entries, e.id = id ∧ 1 < (e.benches.map (·.name)).count benchmark ∧
          (name, e) ∈
            (loaded.getD .empty).inOrder ++ operations.flatMap StoreOperation.unchecked := by
  have view := isViewOf_run opened operations found
  refine ⟨view.nodup_ids, fun id benchmark => ?_⟩
  rcases Nat.lt_or_ge 1 ((attributions snapshot.entries).count (id, benchmark)) with twice | once
  · right
    obtain ⟨e, member, same, repeated⟩ := repeated_of_count_attributions view.nodup_ids twice
    refine ⟨e, member, same, repeated, ?_⟩
    have given : e ∈ entriesFor name _ := (lastFor?_some (view.mem_iff.1 member)).1
    rcases List.mem_append.1 (mem_entriesFor.1 given) with before | entered
    · exact List.mem_append_left _ before
    obtain ⟨o, operation, enters⟩ := List.mem_flatMap.1 entered
    rcases StoreOperation.nodup_of_enters enters with unchecked | distinct
    · exact List.mem_append_right _ (List.mem_flatMap.2 ⟨o, operation, unchecked⟩)
    · exact absurd (List.nodup_iff_count_le_one.1 distinct benchmark) (Nat.not_le.2 repeated)
  · exact .inl once

/-- A run with two records of one name. -/
def twinEntry (id : String) : CommitEntry :=
  .plain id 5 [⟨"b", 1.0, "ns/op", none⟩, ⟨"b", 2.0, "ns/op", none⟩]

/-- A store over a history with such a run. -/
def twinStore : FileStore :=
  ⟨"h.json", .json, ⟨[], []⟩,
    .ofDocument {} (some ⟨none, none, .ofList [("s", [twinEntry "aaaa"])]⟩), none⟩

/-- Nothing keeps such a run out, neither when it is loaded nor when it is appended. -/
theorem attributed_twice_after_append :
    ¬ ∀ (f : FileStore) (config : StoreConfig) (loaded : Option HistoryDocument)
      (operations : List StoreOperation) (name : String) (snapshot : SeriesSnapshot),
      f.store = .ofDocument config loaded →
      (f.run operations).store.getSeries name = .ok snapshot →
      ∀ id benchmark, (attributions snapshot.entries).count (id, benchmark) ≤ 1 := by
  intro once
  have held : ∃ snapshot, (twinStore.run [.append "s" (twinEntry "bbbb")]).store.getSeries "s"
      = .ok snapshot ∧ (attributions snapshot.entries).count ("aaaa", "b") = 2 ∧
        (attributions snapshot.entries).count ("bbbb", "b") = 2 :=
    ⟨⟨"s", [twinEntry "aaaa", twinEntry "bbbb"]⟩, rfl, by decide +kernel, by decide +kernel⟩
  obtain ⟨snapshot, found, _, twice⟩ := held
  have few := once twinStore {} _ _ "s" snapshot rfl found "bbbb" "b"
  rw [twice] at few
  exact absurd few (by decide)

/-- A run that was ingested beside an unchecked one has each name once. -/
theorem attributed_once_of_twinStore :
    ∃ snapshot, (twinStore.run [.ingest {} "s" (Session.measuredEntry "bbbb")]).store.getSeries "s"
        = .ok snapshot ∧
      ∀ benchmark, (attributions snapshot.entries).count ("bbbb", benchmark) ≤ 1 := by
  have known : ((twinStore.run [.ingest {} "s" (Session.measuredEntry "bbbb")]).store.getSeries
      "s").isOk = true := by decide +kernel
  cases found : (twinStore.run [.ingest {} "s" (Session.measuredEntry "bbbb")]).store.getSeries
      "s" with
  | error failure =>
    rw [found] at known
    cases known
  | ok snapshot =>
    refine ⟨snapshot, rfl, fun benchmark => ?_⟩
    obtain ⟨_, once⟩ := FileStore.attributed_once (f := twinStore) rfl _ found
    rcases once "bbbb" benchmark with few | ⟨e, _, same, _, unchecked⟩
    · exact few
    · have loaded : e = twinEntry "aaaa" := by
        simpa [HistoryDocument.inOrder, NameMap.ofList, NameMap.insert, NameMap.empty, putSorted,
          StoreOperation.unchecked] using unchecked
      rw [loaded] at same
      exact absurd same (by decide)

end BenchLedger
