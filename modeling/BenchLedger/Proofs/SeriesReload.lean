import BenchLedger.Proofs.SeriesHistory

/-!
A series and the series that is loaded from its view. Main statements: both give the same view; they
go on with the same entries whatever is inserted into both; and they go on with the same view as
long as no insertion changes the run time of a commit.
-/

namespace BenchLedger

/-! ### Insertion into a list -/

/-- Puts an entry in the place of the one with its commit id, or behind all others. -/
def putEntry (e : CommitEntry) (es : List CommitEntry) : List CommitEntry :=
  if e.id ∈ es.map CommitEntry.id then es.map fun old => if old.id = e.id then e else old
  else es ++ [e]

/-- No entry with the commit id of `e` has another run time. -/
def KeepsDate (e : CommitEntry) (es : List CommitEntry) : Prop :=
  ∀ old ∈ es, old.id = e.id → old.date = e.date

theorem putEntry_perm (e : CommitEntry) {es fs : List CommitEntry} (perm : es.Perm fs) :
    (putEntry e es).Perm (putEntry e fs) := by
  have ids : e.id ∈ es.map CommitEntry.id ↔ e.id ∈ fs.map CommitEntry.id :=
    (perm.map CommitEntry.id).mem_iff
  unfold putEntry
  by_cases known : e.id ∈ fs.map CommitEntry.id
  · rw [if_pos known, if_pos (ids.2 known)]
    exact perm.map _
  · rw [if_neg known, if_neg fun old => known (ids.1 old)]
    exact perm.append_right [e]

private theorem onDate_replace {e : CommitEntry} {es : List CommitEntry} (keeps : KeepsDate e es)
    (date : Int) :
    onDate date (es.map fun old => if old.id = e.id then e else old)
      = (onDate date es).map fun old => if old.id = e.id then e else old := by
  rw [onDate, List.filter_map]
  congr 1
  apply List.filter_congr
  intro old member
  simp only [Function.comp_apply]
  split
  next same => rw [keeps old member same]
  · rfl

/-- If no run time changes, entries of one run time are put in order without the others. -/
theorem onDate_putEntry {e : CommitEntry} {es fs : List CommitEntry} (perm : es.Perm fs)
    (keeps : KeepsDate e es) (ties : ∀ date, onDate date es = onDate date fs) (date : Int) :
    onDate date (putEntry e es) = onDate date (putEntry e fs) := by
  have ids : e.id ∈ es.map CommitEntry.id ↔ e.id ∈ fs.map CommitEntry.id :=
    (perm.map CommitEntry.id).mem_iff
  have keeps' : KeepsDate e fs := fun old member => keeps old (perm.mem_iff.2 member)
  unfold putEntry
  by_cases known : e.id ∈ fs.map CommitEntry.id
  · rw [if_pos known, if_pos (ids.2 known), onDate_replace keeps, onDate_replace keeps', ties]
  · rw [if_neg known, if_neg fun old => known (ids.1 old), onDate_append, onDate_append, ties]

namespace Series

private theorem set_idxOf {es : List CommitEntry} (nodup : (es.map CommitEntry.id).Nodup)
    (e : CommitEntry) :
    es.set ((es.map CommitEntry.id).idxOf e.id) e
      = es.map fun old => if old.id = e.id then e else old := by
  apply List.ext_getElem
  · simp
  intro i hi hi'
  have bound : i < es.length := by simpa using hi'
  rw [List.getElem_set, List.getElem_map]
  by_cases same : es[i].id = e.id
  · have here : (es.map CommitEntry.id).idxOf e.id = i := by
      have slot := nodup.idxOf_getElem i (by simpa using bound)
      simpa [same] using slot
    rw [if_pos here, if_pos same]
  · rw [if_neg same, if_neg]
    intro here
    have within : (es.map CommitEntry.id).idxOf e.id < (es.map CommitEntry.id).length := by
      simpa [here]
    have found := List.getElem_idxOf within
    simp only [here, List.getElem_map] at found
    exact same found

theorem Holds.nodup_ids {s : Series} {history : List CommitEntry} (h : s.Holds history) :
    (s.entries.map CommitEntry.id).Nodup := by
  rw [h.ids]
  exact nodup_commitIds history

theorem Holds.upsert_entries {s : Series} {history : List CommitEntry} (h : s.Holds history)
    (e : CommitEntry) : (s.upsert e).1.entries = putEntry e s.entries := by
  have looked := h.index e.id
  rw [← h.ids] at looked
  show (s.insert e).1.entries = _
  unfold putEntry
  by_cases known : e.id ∈ s.entries.map CommitEntry.id
  · rw [if_pos known] at looked ⊢
    simp only [Series.insert, looked]
    exact set_idxOf h.nodup_ids e
  · rw [if_neg known] at looked ⊢
    simp only [Series.insert, looked]

/-! ### Loading a view -/

/-- A list with one entry for each commit is loaded slot by slot. -/
theorem entries_ofEntries {es : List CommitEntry} (nodup : (es.map CommitEntry.id).Nodup) :
    (ofEntries es).entries = es := by
  rw [ofEntries_eq_upsertAll]
  induction es using List.reverseRecOn with
  | nil => rfl
  | append_singleton es e ih =>
    rw [List.map_append, List.nodup_append] at nodup
    have fresh : e.id ∉ es.map CommitEntry.id := fun known => nodup.2.2 _ known _ (by simp) rfl
    rw [upsertAll_append, upsertAll_cons, upsertAll_nil,
      (represents_upsertAll es).toHolds.upsert_entries, ih nodup.1, putEntry, if_neg fresh]

/-- A series that is loaded from a view has the view's entries in the view's order. -/
theorem Represents.reload {s : Series} {history : List CommitEntry} (h : s.Represents history) :
    (ofEntries s.view).entries = s.view ∧ (ofEntries s.view).view = s.view := by
  have nodup : (s.view.map CommitEntry.id).Nodup :=
    (h.view.perm.map CommitEntry.id).nodup_iff.2 h.toHolds.nodup_ids
  have entries := entries_ofEntries nodup
  refine ⟨entries, ?_⟩
  have view : (ofEntries s.view).view = ordered (ofEntries s.view).entries := rfl
  rw [view, entries, ordered_of_datesIncrease h.view.sorted]

theorem represents_ofEntries (es : List CommitEntry) : (ofEntries es).Represents es := by
  rw [ofEntries_eq_upsertAll]
  exact represents_upsertAll es

/-! ### Two series with the same entries -/

/-- Both series have come about by insertions, and their entries are the same up to order. -/
structure SameEntries (s s' : Series) : Prop where
  left : ∃ history, s.Represents history
  right : ∃ history, s'.Represents history
  perm : s.entries.Perm s'.entries

/-- Moreover, entries of one run time are in the same order. -/
structure SameOrder (s s' : Series) : Prop extends SameEntries s s' where
  ties : ∀ date, onDate date s.entries = onDate date s'.entries

theorem SameEntries.upsert {s s' : Series} (h : SameEntries s s') (e : CommitEntry) :
    SameEntries (s.upsert e).1 (s'.upsert e).1 := by
  obtain ⟨history, left⟩ := h.left
  obtain ⟨history', right⟩ := h.right
  refine ⟨⟨_, left.upsert e⟩, ⟨_, right.upsert e⟩, ?_⟩
  rw [left.toHolds.upsert_entries, right.toHolds.upsert_entries]
  exact putEntry_perm e h.perm

theorem SameOrder.upsert {s s' : Series} (h : SameOrder s s') {e : CommitEntry}
    (keeps : KeepsDate e s.entries) : SameOrder (s.upsert e).1 (s'.upsert e).1 := by
  refine { h.toSameEntries.upsert e with ties := fun date => ?_ }
  obtain ⟨history, left⟩ := h.left
  obtain ⟨history', right⟩ := h.right
  rw [left.toHolds.upsert_entries, right.toHolds.upsert_entries]
  exact onDate_putEntry h.perm keeps h.ties date

/-- The two views have the same entries, and the same run times in turn. -/
theorem SameEntries.views {s s' : Series} (h : SameEntries s s') :
    s.view.Perm s'.view ∧ s.view.map (·.date) = s'.view.map (·.date) := by
  obtain ⟨history, left⟩ := h.left
  obtain ⟨history', right⟩ := h.right
  have perm : s.view.Perm s'.view := left.view.perm.trans (h.perm.trans right.view.perm.symm)
  exact ⟨perm, dates_eq_of_perm left.view.sorted right.view.sorted perm⟩

theorem SameOrder.view_eq {s s' : Series} (h : SameOrder s s') : s.view = s'.view := by
  obtain ⟨history, left⟩ := h.left
  obtain ⟨history', right⟩ := h.right
  exact left.view.unique right.view h.ties

/-- A reloaded series has the same order as the one that it is loaded from. -/
theorem Represents.sameOrder_reload {s : Series} {history : List CommitEntry}
    (h : s.Represents history) : SameOrder s (ofEntries s.view) := by
  have entries := h.reload.1
  refine ⟨⟨⟨history, h⟩, ⟨s.view, represents_ofEntries s.view⟩, ?_⟩, fun date => ?_⟩
  · rw [entries]
    exact h.view.perm.symm
  · rw [entries]
    exact (h.view.ties date).symm

end Series

end BenchLedger
