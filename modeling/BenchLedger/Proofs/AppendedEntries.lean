import BenchLedger.Proofs.ReachedSessions

/-!
What appends leave in each series. Main statements: `HistoryStore.get?_putAll`: a series takes up
its own entries in their order and nothing else; and `Series.Represents.isViewOf`: readers see one
entry for each commit, the one given last, in the stable order of the run times.
-/

namespace BenchLedger

/-! ### What a history comes to -/

/-- `es` is what readers see after a history of entries: the entry given last for each commit id, in
the order of run times, those of one run time in the order in which their commit ids first came. -/
def IsViewOf (history es : List CommitEntry) : Prop :=
  ∃ slots, slots.map some = (commitIds history).map (lastFor? history) ∧ StablyOrdered slots es

theorem Series.Represents.isViewOf {s : Series} {history : List CommitEntry}
    (h : s.Represents history) : IsViewOf history s.view :=
  ⟨s.entries, h.entries, h.view⟩

namespace IsViewOf

variable {history es es' : List CommitEntry}

theorem sorted (h : IsViewOf history es) : DatesIncrease es := by
  obtain ⟨_, _, ordered⟩ := h
  exact ordered.sorted

/-- A history comes to one view only. -/
theorem unique (h : IsViewOf history es) (h' : IsViewOf history es') : es = es' := by
  obtain ⟨slots, given, ordered⟩ := h
  obtain ⟨slots', given', ordered'⟩ := h'
  have same : slots = slots' :=
    List.map_injective_iff.2 (fun _ _ same => Option.some.inj same) (given.trans given'.symm)
  subst same
  exact ordered.unique ordered' fun _ => rfl

/-- There is one entry for each commit id. -/
theorem nodup_ids (h : IsViewOf history es) : (es.map CommitEntry.id).Nodup := by
  have view := (Series.represents_ofEntries history).isViewOf
  rw [h.unique view]
  have ids := (Series.represents_ofEntries history).toHolds.nodup_ids
  exact (((Series.represents_ofEntries history).view.perm.map _).nodup_iff).2 ids

theorem mem_iff (h : IsViewOf history es) {e : CommitEntry} :
    e ∈ es ↔ lastFor? history e.id = some e := by
  have represents := Series.represents_ofEntries history
  rw [h.unique represents.isViewOf, represents.view.perm.mem_iff, represents.toHolds.mem_entries]

/-- Entries in order, one for each commit id, are what they come to. -/
theorem self (sorted : DatesIncrease es) (distinct : (es.map CommitEntry.id).Nodup) :
    IsViewOf es es := by
  have given := (Series.represents_ofEntries es).entries
  rw [Series.entries_ofEntries distinct] at given
  exact ⟨es, given, .refl _, sorted, fun _ => rfl⟩

theorem ne_nil (h : IsViewOf history es) (some : history ≠ []) : es ≠ [] := by
  obtain ⟨e, member⟩ := List.exists_mem_of_ne_nil history some
  cases last : lastFor? history e.id with
  | none => exact absurd (mem_commitIds.2 ⟨e, member, rfl⟩) (lastFor?_eq_none.1 last)
  | some e' =>
    have same := (lastFor?_some last).2
    exact List.ne_nil_of_mem (h.mem_iff.2 (by rw [same, last]))

/-- A view is what it comes to itself. -/
theorem idem (h : IsViewOf history es) : IsViewOf es es :=
  self h.sorted h.nodup_ids

end IsViewOf

/-! ### Entries of several series -/

/-- The entries of a list that are for one series, in the order of the list. -/
def entriesFor (name : String) (entries : List (String × CommitEntry)) : List CommitEntry :=
  (entries.filter fun p => p.1 == name).map (·.2)

theorem mem_entriesFor {name : String} {entries : List (String × CommitEntry)} {e : CommitEntry} :
    e ∈ entriesFor name entries ↔ (name, e) ∈ entries := by
  simp only [entriesFor, List.mem_map, List.mem_filter, beq_iff_eq]
  constructor
  · rintro ⟨⟨_, _⟩, ⟨member, rfl⟩, rfl⟩
    exact member
  · exact fun member => ⟨(name, e), ⟨member, rfl⟩, rfl⟩

theorem entriesFor_append (name : String) (as bs : List (String × CommitEntry)) :
    entriesFor name (as ++ bs) = entriesFor name as ++ entriesFor name bs := by
  simp [entriesFor]

theorem entriesFor_singleton (name series : String) (e : CommitEntry) :
    entriesFor name [(series, e)] = if series = name then [e] else [] := by
  by_cases same : series = name <;> simp [entriesFor, same]

namespace HistoryStore

/-- Puts entries into their series in turn. -/
def putAll (s : HistoryStore) (entries : List (String × CommitEntry)) : HistoryStore :=
  entries.foldl (fun s p => (s.put p.1 p.2).1) s

@[simp] theorem putAll_nil (s : HistoryStore) : s.putAll [] = s :=
  rfl

@[simp] theorem putAll_cons (s : HistoryStore) (p : String × CommitEntry)
    (rest : List (String × CommitEntry)) :
    s.putAll (p :: rest) = (s.put p.1 p.2).1.putAll rest :=
  rfl

theorem putAll_append (s : HistoryStore) (as bs : List (String × CommitEntry)) :
    s.putAll (as ++ bs) = (s.putAll as).putAll bs :=
  List.foldl_append ..

theorem grown_putAll (s : HistoryStore) (entries : List (String × CommitEntry)) :
    s.Grown (s.putAll entries) := by
  induction entries generalizing s with
  | nil => exact .refl s
  | cons p rest ih => exact (Grown.put s p.1 p.2).trans (ih _)

theorem AllEntries.putAll {P : String → CommitEntry → Prop} {s : HistoryStore} (h : s.AllEntries P)
    {entries : List (String × CommitEntry)} (all : ∀ name e, (name, e) ∈ entries → P name e) :
    (s.putAll entries).AllEntries P := by
  induction entries generalizing s with
  | nil => exact h
  | cons p rest ih =>
    exact ih (h.put p.1 (all p.1 p.2 List.mem_cons_self)) fun name e member =>
      all name e (List.mem_cons_of_mem _ member)

theorem generation_putAll (s : HistoryStore) (entries : List (String × CommitEntry)) :
    (s.putAll entries).generation = s.generation + entries.length := by
  induction entries generalizing s with
  | nil => rfl
  | cons p rest ih =>
    have first : (s.put p.1 p.2).1.generation = s.generation + 1 := rfl
    rw [putAll_cons, ih, first, List.length_cons]
    omega

/-- A series takes up its own entries in their order, and nothing else. -/
theorem get?_putAll (s : HistoryStore) (entries : List (String × CommitEntry)) (name : String) :
    (s.putAll entries).series.get? name =
      if entriesFor name entries = [] then s.series.get? name
      else some (((s.series.get? name).getD .empty).upsertAll (entriesFor name entries)) := by
  induction entries using List.reverseRecOn with
  | nil => rfl
  | append_singleton entries p ih =>
    obtain ⟨series, e⟩ := p
    have added : ((s.putAll entries).put series e).1.series =
        (s.putAll entries).series.insert series
          (((s.putAll entries).series.get? series).getD .empty |>.upsert e).1 := rfl
    rw [putAll_append, putAll_cons, putAll_nil, added, NameMap.get?_insert, entriesFor_append,
      entriesFor_singleton]
    by_cases same : name = series
    · subst same
      have before : ((s.putAll entries).series.get? name).getD .empty =
          ((s.series.get? name).getD .empty).upsertAll (entriesFor name entries) := by
        rw [ih]
        split
        next none => rw [none, Series.upsertAll_nil]
        · rfl
      rw [if_pos rfl, if_pos rfl, before, if_neg (by simp), Series.upsertAll_append]
      rfl
    · rw [if_neg same, if_neg (Ne.symm same), List.append_nil]
      exact ih

/-- Every name stands for a series that has come about by insertions; an unknown one for an empty
series. -/
theorem Represented.getD_empty {s : HistoryStore} (represented : s.Represented) (name : String) :
    ∃ history, ((s.series.get? name).getD .empty).Represents history := by
  cases found : s.series.get? name with
  | none => exact ⟨[], Series.represents_empty⟩
  | some t =>
    obtain ⟨history, represents, _⟩ := represented name t found
    exact ⟨history, represents⟩

/-- A series that took up entries goes on with its history. -/
theorem represents_putAll {s : HistoryStore} {name : String} {history : List CommitEntry}
    (represents : ((s.series.get? name).getD .empty).Represents history)
    {entries : List (String × CommitEntry)} (some : entriesFor name entries ≠ []) :
    ∃ t, (s.putAll entries).series.get? name = .some t ∧
      t.Represents (history ++ entriesFor name entries) := by
  rw [get?_putAll, if_neg some]
  exact ⟨_, rfl, represents.upsertAll _⟩

/-! ### What readers see -/

/-- A name is that of a series, or it leads to nothing. -/
theorem getSeries_cases (s : HistoryStore) (name : String) :
    (name ∈ s.seriesNames ∧ ∃ t, s.getSeries name = .ok t) ∨
      (name ∉ s.seriesNames ∧ s.getSeries name = .error (.missing (.series name))) := by
  rw [seriesNames, NameMap.mem_names, getSeries]
  cases s.series.get? name with
  | some t => exact .inl ⟨rfl, _, rfl⟩
  | none => exact .inr ⟨by simp, rfl⟩

theorem name_of_getSeries {s : HistoryStore} {name : String} {snapshot : SeriesSnapshot}
    (found : s.getSeries name = .ok snapshot) : snapshot.name = name := by
  unfold getSeries at found
  split at found
  · cases found
    rfl
  · cases found

/-- What is seen of a series is what its history comes to. -/
theorem Represented.isViewOf {s : HistoryStore} (represented : s.Represented) {name : String}
    {snapshot : SeriesSnapshot} (found : s.getSeries name = .ok snapshot) :
    ∃ history, IsViewOf history snapshot.entries := by
  unfold getSeries at found
  split at found
  next t here =>
    cases found
    obtain ⟨history, represents, _⟩ := represented name t here
    exact ⟨history, represents.isViewOf⟩
  · cases found

/-- Every commit leads to its one entry. -/
theorem Represented.find?_id {s : HistoryStore} (represented : s.Represented) {name : String}
    {snapshot : SeriesSnapshot} (found : s.getSeries name = .ok snapshot) {e : CommitEntry}
    (member : e ∈ snapshot.entries) : snapshot.find? e.id = some e := by
  unfold getSeries at found
  split at found
  next t here =>
    cases found
    obtain ⟨history, represents, _⟩ := represented name t here
    rw [represents.find?]
    exact represents.isViewOf.mem_iff.1 member
  · cases found

end HistoryStore

end BenchLedger
