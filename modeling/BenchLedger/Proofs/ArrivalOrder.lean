import BenchLedger.Proofs.AppendedEntries
import BenchLedger.Proofs.ValidEntries
import BenchLedger.Query.Engine

/-!
The order in which entries arrive. Main statement: `HistoryStore.arrival_order_irrelevant`: appends
whose commits and run times differ within each series lead to the same answers in whichever order
they come.
-/

namespace BenchLedger

/-! ### Histories that go on -/

theorem lastFor?_append (history more : List CommitEntry) (id : String) :
    lastFor? (history ++ more) id = (lastFor? more id).or (lastFor? history id) := by
  simp [lastFor?]

theorem lastFor?_of_mem {es : List CommitEntry} (distinct : (es.map CommitEntry.id).Nodup)
    {e : CommitEntry} (member : e ∈ es) : lastFor? es e.id = some e := by
  cases found : lastFor? es e.id with
  | none => exact absurd (mem_commitIds.2 ⟨e, member, rfl⟩) (lastFor?_eq_none.1 found)
  | some other =>
    obtain ⟨here, same⟩ := lastFor?_some found
    rw [List.inj_on_of_nodup_map distinct here member same]

/-- Where no commit id repeats, the entry for an id does not depend on the order. -/
theorem lastFor?_perm {as bs : List CommitEntry} (perm : as.Perm bs)
    (distinct : (as.map CommitEntry.id).Nodup) (id : String) :
    lastFor? as id = lastFor? bs id := by
  cases found : lastFor? as id with
  | none =>
    symm
    rw [lastFor?_eq_none, mem_commitIds] at found ⊢
    rintro ⟨e, member, same⟩
    exact found ⟨e, perm.mem_iff.2 member, same⟩
  | some e =>
    obtain ⟨member, rfl⟩ := lastFor?_some found
    exact (lastFor?_of_mem ((perm.map _).nodup_iff.1 distinct) (perm.mem_iff.1 member)).symm

/-- The entries of commits that a history does not know. -/
def newTo (history es : List CommitEntry) : List CommitEntry :=
  es.filter fun e => decide (e.id ∉ commitIds history)

theorem commitIds_append (history : List CommitEntry) {es : List CommitEntry}
    (distinct : (es.map CommitEntry.id).Nodup) :
    commitIds (history ++ es) = commitIds history ++ (newTo history es).map CommitEntry.id := by
  induction es using List.reverseRecOn with
  | nil => simp [newTo]
  | append_singleton es e ih =>
    rw [List.map_append, List.nodup_append] at distinct
    have fresh : e.id ∉ es.map CommitEntry.id := fun known => distinct.2.2 _ known _ (by simp) rfl
    have known : e.id ∈ commitIds (history ++ es) ↔ e.id ∈ commitIds history := by
      simp only [mem_commitIds, List.mem_append]
      constructor
      · rintro ⟨old, before | member, same⟩
        · exact ⟨old, before, same⟩
        · exact absurd (List.mem_map.2 ⟨old, member, same⟩) fresh
      · rintro ⟨old, before, same⟩
        exact ⟨old, .inl before, same⟩
    rw [← List.append_assoc, commitIds_concat, ih distinct.1, newTo, newTo, List.filter_append,
      List.map_append, List.filter_singleton]
    rw [ih distinct.1] at known
    simp only [newTo] at known
    by_cases old : e.id ∈ commitIds history
    · rw [if_pos (known.2 old)]
      simp [old]
    · rw [if_neg fun here => old (known.1 here)]
      simp [old]

/-- Where no run time repeats, the entries of one run time do not depend on the order. -/
theorem onDate_perm {as bs : List CommitEntry} (perm : as.Perm bs)
    (distinct : (as.map (·.date)).Nodup) (date : Int) : onDate date as = onDate date bs := by
  have few : (onDate date as).length ≤ 1 := by
    have count := List.nodup_iff_count_le_one.1 distinct date
    rw [List.count_eq_countP, List.countP_map, List.countP_eq_length_filter] at count
    exact count
  have same : (onDate date as).Perm (onDate date bs) := perm.filter _
  generalize onDate date as = found at few same
  rcases found with _ | ⟨e, _ | ⟨_, _⟩⟩
  · exact (List.nil_perm.1 same).symm
  · exact (List.perm_singleton.1 same.symm).symm
  · simp at few

/-- If neither commits nor run times repeat among further entries, readers see the same in whichever
order these come. -/
theorem IsViewOf.eq_of_perm {history as bs es es' : List CommitEntry} (perm : as.Perm bs)
    (ids : (as.map CommitEntry.id).Nodup) (dates : (as.map (·.date)).Nodup)
    (h : IsViewOf (history ++ as) es) (h' : IsViewOf (history ++ bs) es') : es = es' := by
  -- Known commits keep their slots; the new ones stand behind them, in the order of arrival.
  have slotted {cs : List CommitEntry} (distinct : (cs.map CommitEntry.id).Nodup) :
      (commitIds (history ++ cs)).map (lastFor? (history ++ cs)) =
        (commitIds history).map (lastFor? (history ++ cs)) ++ (newTo history cs).map some := by
    rw [commitIds_append history distinct, List.map_append, List.map_map]
    congr 1
    apply List.map_congr_left
    intro e member
    rw [Function.comp_apply, lastFor?_append,
      lastFor?_of_mem distinct (List.mem_filter.1 member).1, Option.some_or]
  have ids' : (bs.map CommitEntry.id).Nodup := (perm.map _).nodup_iff.1 ids
  have last (id : String) : lastFor? (history ++ as) id = lastFor? (history ++ bs) id := by
    rw [lastFor?_append, lastFor?_append, lastFor?_perm perm ids]
  obtain ⟨slots, given, ordered⟩ := h
  obtain ⟨slots', given', ordered'⟩ := h'
  rw [slotted ids] at given
  rw [slotted ids'] at given'
  obtain ⟨old, new, rfl, oldGiven, newGiven⟩ := List.map_eq_append_iff.1 given
  obtain ⟨old', new', rfl, oldGiven', newGiven'⟩ := List.map_eq_append_iff.1 given'
  have injective := List.map_injective_iff.2 fun (_ _ : CommitEntry) same => Option.some.inj same
  have sameOld : old = old' := by
    apply injective
    rw [oldGiven, oldGiven', List.map_congr_left fun id _ => last id]
  obtain rfl := injective newGiven
  obtain rfl := injective newGiven'
  refine ordered.unique ordered' fun date => ?_
  have times : ((newTo history as).map (·.date)).Nodup :=
    dates.sublist (List.filter_sublist.map _)
  have newer : (newTo history as).Perm (newTo history bs) := perm.filter _
  rw [onDate_append, onDate_append, sameOld, onDate_perm newer times]

/-! ### Stores -/

namespace HistoryStore

/-- Two appends of one series are of different commits and of different run times. -/
def Apart (a b : String × CommitEntry) : Prop :=
  a.1 = b.1 → a.2.id ≠ b.2.id ∧ a.2.date ≠ b.2.date

/-- Appends in turn, all of which have to be accepted. The answers are the positions. -/
def appendEach (s : HistoryStore) :
    List (String × CommitEntry) → Except Failure (HistoryStore × List Position)
  | [] => .ok (s, [])
  | (series, e) :: rest => do
    let (s, position) ← s.append series e
    let (s, positions) ← s.appendEach rest
    return (s, position :: positions)

theorem append_of_valid {s : HistoryStore} {series : String} {e : CommitEntry}
    (valid : checkAppend series e = .ok ()) :
    s.append series e = .ok ((s.put series e).1, (s.put series e).2.position) := by
  simp only [append, valid]

theorem appendEach_of_valid {s : HistoryStore} {appends : List (String × CommitEntry)}
    (valid : ∀ a ∈ appends, checkAppend a.1 a.2 = .ok ()) :
    ∃ positions, s.appendEach appends = .ok (s.putAll appends, positions) := by
  induction appends generalizing s with
  | nil => exact ⟨[], rfl⟩
  | cons a rest ih =>
    obtain ⟨first, others⟩ := List.forall_mem_cons.1 valid
    obtain ⟨positions, later⟩ := ih (s := (s.put a.1 a.2).1) others
    refine ⟨(s.put a.1 a.2).2.position :: positions, ?_⟩
    simp only [appendEach, append_of_valid first, later, bind, Except.bind]
    rfl

/-- Nobody who asks can tell the two stores apart, and both flush the same. -/
structure SameAnswers (s s' : HistoryStore) : Prop where
  names : s.seriesNames = s'.seriesNames
  snapshot : ∀ name, s.getSeries name = s'.getSeries name
  latest : ∀ name n, s.latest name n = s'.latest name n
  range : ∀ name first last, s.range name first last = s'.range name first last
  regression : ∀ name benchmark baseline threshold polarity,
    s.regression name benchmark baseline threshold polarity =
      s'.regression name benchmark baseline threshold polarity
  diff : ∀ name baseline candidate threshold polarities,
    s.diff name baseline candidate threshold polarities =
      s'.diff name baseline candidate threshold polarities
  summary : ∀ name, s.summary name = s'.summary name
  document : ∀ now, s.document now = s'.document now
  flush : ∀ now, s.beginFlush now = s'.beginFlush now

theorem names_document (s : HistoryStore) (now : Int) :
    (s.document now).entries.names = s.seriesNames := by
  simp [seriesNames, NameMap.names, HistoryStore.document, NameMap.map]

/-- All answers follow from what readers see of each series. -/
theorem sameAnswers_of_views {s s' : HistoryStore}
    (views : ∀ name, (s.series.get? name).map Series.view = (s'.series.get? name).map Series.view)
    (url : s.repoUrl = s'.repoUrl) (settled : s.isSettled = s'.isSettled)
    (generation : s.generation = s'.generation) : SameAnswers s s' := by
  have snapshot (name : String) : s.getSeries name = s'.getSeries name := by
    have view := views name
    unfold getSeries
    generalize s.series.get? name = t, s'.series.get? name = t' at view
    cases t <;> cases t' <;> simp_all [Series.snapshot]
  have document (now : Int) : s.document now = s'.document now := by
    have entries : (s.document now).entries = (s'.document now).entries := by
      apply NameMap.ext_get?
      intro name
      simpa [HistoryStore.document] using views name
    simp only [HistoryStore.document] at entries ⊢
    rw [url, entries]
  exact {
    names := by
      rw [← names_document s 0, ← names_document s' 0, document 0]
    snapshot
    latest := fun name n => by simp only [latest, snapshot]
    range := fun name first last => by simp only [range, snapshot]
    regression := fun name benchmark baseline threshold polarity => by
      simp only [regression, snapshot]
    diff := fun name baseline candidate threshold polarities => by simp only [diff, snapshot]
    summary := fun name => by simp only [summary, snapshot]
    document
    flush := fun now => by simp only [beginFlush, settled, generation, document] }

theorem entriesFor_perm {as bs : List (String × CommitEntry)} (perm : as.Perm bs) (name : String) :
    (entriesFor name as).Perm (entriesFor name bs) :=
  (perm.filter _).map _

/-- Neither commits nor run times repeat among the entries for one series. -/
theorem nodup_of_apart {appends : List (String × CommitEntry)} (apart : appends.Pairwise Apart)
    (name : String) :
    ((entriesFor name appends).map CommitEntry.id).Nodup ∧
      ((entriesFor name appends).map (·.date)).Nodup := by
  have differ : (entriesFor name appends).Pairwise fun a b => a.id ≠ b.id ∧ a.date ≠ b.date := by
    rw [entriesFor, List.pairwise_map, List.pairwise_filter]
    refine apart.imp fun different first second => different ?_
    rw [eq_of_beq first, eq_of_beq second]
  exact ⟨List.pairwise_map.2 (differ.imp And.left), List.pairwise_map.2 (differ.imp And.right)⟩

/-- Appends of which no two in one series are of the same commit or the same run time can come in
any order, and those of several series interleaved in any way: every query is answered the same, and
the same is flushed. Only the positions may differ. -/
theorem arrival_order_irrelevant {s : HistoryStore} (represented : s.Represented)
    {as bs : List (String × CommitEntry)} (perm : as.Perm bs)
    (valid : ∀ a ∈ as, checkAppend a.1 a.2 = .ok ()) (apart : as.Pairwise Apart) :
    ∃ t t' positions positions', s.appendEach as = .ok (t, positions) ∧
      s.appendEach bs = .ok (t', positions') ∧ SameAnswers t t' := by
  obtain ⟨positions, given⟩ := appendEach_of_valid (s := s) valid
  have valid' : ∀ b ∈ bs, checkAppend b.1 b.2 = .ok () := fun b member =>
    valid b (perm.mem_iff.2 member)
  obtain ⟨positions', given'⟩ := appendEach_of_valid (s := s) valid'
  have grown := grown_putAll s as
  have grown' := grown_putAll s bs
  have generation : (s.putAll as).generation = (s.putAll bs).generation := by
    rw [generation_putAll, generation_putAll, perm.length_eq]
  have settled : (s.putAll as).isSettled = (s.putAll bs).isSettled := by
    simp only [isSettled, isDirty, generation, grown.flushed, grown'.flushed, grown.lastError,
      grown'.lastError]
  refine ⟨_, _, positions, positions', given, given', sameAnswers_of_views (fun name => ?_)
    (grown.repoUrl.trans grown'.repoUrl.symm) settled generation⟩
  have ours := entriesFor_perm perm name
  by_cases none : entriesFor name as = []
  · have none' : entriesFor name bs = [] := List.perm_nil.1 (none ▸ ours.symm)
    rw [get?_putAll, get?_putAll, if_pos none, if_pos none']
  · have some' : entriesFor name bs ≠ [] := fun none' => none (List.perm_nil.1 (none' ▸ ours))
    obtain ⟨history, represents⟩ := represented.getD_empty name
    obtain ⟨t, found, after⟩ := represents_putAll represents none
    obtain ⟨t', found', after'⟩ := represents_putAll represents some'
    obtain ⟨ids, dates⟩ := nodup_of_apart apart name
    rw [found, found', Option.map_some, Option.map_some,
      after.isViewOf.eq_of_perm ours ids dates after'.isViewOf]

/-- Runs of two series; the first ones of both are of one commit and one moment. -/
def mixedRuns : List (String × CommitEntry) :=
  let run (id : String) (date : Int) (value : Float) : CommitEntry :=
    .plain id date [⟨"b", value, "ns/op", none⟩]
  [("s", run "aaaa" 9 1.0), ("t", run "aaaa" 9 2.0), ("s", run "bbbb" 3 0.5),
    ("s", run "cccc" 6 4.0)]

/-- Back to front the runs get other positions. -/
theorem arrival_order_irrelevant_of_mixedRuns :
    ∃ t t' positions positions', (ofDocument {} none).appendEach mixedRuns = .ok (t, positions) ∧
      (ofDocument {} none).appendEach mixedRuns.reverse = .ok (t', positions') ∧
      positions = [0, 0, 1, 2] ∧ positions' = [0, 1, 0, 2] ∧ SameAnswers t t' := by
  have valid : ∀ a ∈ mixedRuns, checkAppend a.1 a.2 = .ok () := by
    simp only [mixedRuns, List.forall_mem_cons]
    exact ⟨rfl, rfl, rfl, rfl, by simp⟩
  have apart : mixedRuns.Pairwise Apart := by
    simp [mixedRuns, Apart, CommitEntry.id]
  obtain ⟨t, t', positions, positions', given, given', same⟩ :=
    arrival_order_irrelevant (represented_ofDocument {} none) (List.reverse_perm _).symm valid apart
  refine ⟨t, t', positions, positions', given, given', ?_, ?_, same⟩
  · have here : ((ofDocument {} none).appendEach mixedRuns).toOption.map (·.2) =
        some [0, 0, 1, 2] := by decide +kernel
    rw [given] at here
    exact Option.some.inj here
  · have here : ((ofDocument {} none).appendEach mixedRuns.reverse).toOption.map (·.2) =
        some [0, 1, 0, 2] := by decide +kernel
    rw [given'] at here
    exact Option.some.inj here

end HistoryStore

end BenchLedger
