import BenchLedger.Ingest.Ingestor
import BenchLedger.Proofs.DecodedValues
import BenchLedger.Proofs.DocumentText
import BenchLedger.Proofs.SeriesReload

/-!
What every entry of a store promises, through loading, appending, ingesting and taking documents in.
Main statements: each of these leaves only entries in the store that are written without loss, and
raises the generation unless it changes nothing.
-/

namespace BenchLedger

open Series (represents_empty represents_ofEntries)

/-- Every entry of a document has a property, which may depend on the series. -/
def HistoryDocument.AllEntries (P : String → CommitEntry → Prop) (d : HistoryDocument) : Prop :=
  ∀ name es, d.entries.get? name = some es → ∀ e ∈ es, P name e

namespace HistoryStore

/-! ### Properties of all entries -/

/-- Every series has come about by insertions of entries with a property, which may depend on the
series. -/
def AllEntries (P : String → CommitEntry → Prop) (s : HistoryStore) : Prop :=
  ∀ name series, s.series.get? name = some series →
    ∃ history, series.Represents history ∧ ∀ e ∈ history, P name e

variable {P : String → CommitEntry → Prop} {s : HistoryStore}

theorem AllEntries.of_mem_entries (h : s.AllEntries P) {name : String} {series : Series}
    (found : s.series.get? name = some series) {e : CommitEntry} (member : e ∈ series.entries) :
    P name e := by
  obtain ⟨history, represents, all⟩ := h name series found
  exact all e (lastFor?_some (represents.toHolds.mem_entries.1 member)).1

/-- What readers see are the entries. -/
theorem AllEntries.of_mem_view (h : s.AllEntries P) {name : String} {series : Series}
    (found : s.series.get? name = some series) {e : CommitEntry} (member : e ∈ series.view) :
    P name e := by
  obtain ⟨history, represents, _⟩ := h name series found
  exact h.of_mem_entries found (represents.view.perm.mem_iff.1 member)

theorem AllEntries.document (h : s.AllEntries P) (now : Int) : (s.document now).AllEntries P := by
  intro name es found e member
  simp only [HistoryStore.document, NameMap.get?_map, Option.map_eq_some_iff] at found
  obtain ⟨series, here, rfl⟩ := found
  exact h.of_mem_view here member

theorem allEntries_ofDocument (config : StoreConfig) {d : Option HistoryDocument}
    (h : ∀ d' ∈ d, d'.AllEntries P) : (ofDocument config d).AllEntries P := by
  intro name series found
  simp only [ofDocument, NameMap.get?_map, Option.map_eq_some_iff] at found
  obtain ⟨es, here, rfl⟩ := found
  refine ⟨es, represents_ofEntries es, ?_⟩
  cases d with
  | none => simp [HistoryDocument.empty] at here
  | some d => exact h d rfl name es here

theorem AllEntries.put (h : s.AllEntries P) (series : String) {e : CommitEntry}
    (holds : P series e) : (s.put series e).1.AllEntries P := by
  intro name t found
  simp only [HistoryStore.put, NameMap.get?_insert] at found
  split at found
  next same =>
    cases found
    cases old : s.series.get? series with
    | none =>
      refine ⟨[e], represents_empty.upsert e, by simpa [same] using holds⟩
    | some t =>
      obtain ⟨history, represents, all⟩ := h series t old
      refine ⟨history ++ [e], represents.upsert e, ?_⟩
      rw [same]
      intro e' member
      rcases List.mem_append.1 member with before | last
      · exact all e' before
      · rw [List.mem_singleton.1 last]
        exact holds
  · exact h name t found

/-! ### Entries without loss -/

/-- Every entry is written without loss. -/
def Storable (s : HistoryStore) : Prop :=
  s.AllEntries fun _ => CommitEntry.Storable

/-- `s'` has come from `s` without flushes: nothing has changed, or the generation is higher. -/
structure Later (s s' : HistoryStore) : Prop where
  storable : s.Storable → s'.Storable
  flushed : s'.flushed = s.flushed
  lastError : s'.lastError = s.lastError
  raised : s' = s ∨ s.generation < s'.generation

theorem Later.refl (s : HistoryStore) : Later s s :=
  ⟨id, rfl, rfl, .inl rfl⟩

theorem Later.trans {s t u : HistoryStore} (h : Later s t) (h' : Later t u) : Later s u := by
  refine ⟨fun storable => h'.storable (h.storable storable), h'.flushed.trans h.flushed,
    h'.lastError.trans h.lastError, ?_⟩
  rcases h.raised with rfl | raised
  · exact h'.raised
  rcases h'.raised with rfl | raised'
  · exact .inr raised
  · exact .inr (Nat.lt_trans raised raised')

/-! ### Loading -/

theorem storable_ofDocument (config : StoreConfig) {d : Option HistoryDocument}
    (h : ∀ d' ∈ d, d'.Storable) : (ofDocument config d).Storable := by
  apply allEntries_ofDocument
  intro d' given name es found
  exact h d' given es (NameMap.mem_values.2 ⟨name, found⟩)

/-! ### Appending -/

/-- What is appended has finite values. -/
theorem finite_of_checkAppend {series : String} {e : CommitEntry}
    (h : checkAppend series e = .ok ()) : ∀ x ∈ e.values, x.isFinite = true := by
  unfold checkAppend at h
  dsimp only at h
  split at h
  · cases h
  split at h
  · cases h
  split at h
  · cases h
  split at h
  · cases h
  next none =>
    intro x value
    obtain ⟨r, member, rfl⟩ := List.mem_map.1 value
    have finite := List.findIdx?_eq_none_iff.1 none r member
    simpa using finite

theorem later_of_append {s s' : HistoryStore} {series : String} {e : CommitEntry} {p : Position}
    (typed : e.WellTyped) (h : s.append series e = .ok (s', p)) : Later s s' := by
  unfold append at h
  split at h
  · cases h
  next checked =>
    cases h
    refine ⟨fun storable => ?_, rfl, rfl, .inr (Nat.lt_succ_self _)⟩
    exact storable.put series ⟨typed, finite_of_checkAppend checked⟩

theorem later_of_accept {config : IngestConfig} {s s' : HistoryStore} {series : String}
    {e : CommitEntry} {p : Position} (typed : e.WellTyped)
    (h : s.accept config series e = .ok (s', p)) : Later s s' := by
  unfold accept at h
  split at h
  · cases h
  next e' prepared =>
    obtain ⟨_, _, normalized⟩ := bind_eq_ok.1 prepared
    cases normalized
    have same : (normalizeEntry config e).WellTyped := ⟨typed.date, typed.timestamp⟩
    exact later_of_append same h

/-- What every accepted entry keeps, a document that is taken in keeps. -/
theorem importDocument_keeps {motive : HistoryStore → Prop} {config : IngestConfig}
    {s : HistoryStore} {d : HistoryDocument} (start : motive s)
    (each : ∀ p ∈ d.entries.pairs, ∀ e ∈ p.2, ∀ t t' position,
      accept config t p.1 e = .ok (t', position) → motive t → motive t') :
    motive (s.importDocument config d).1 := by
  let Kept (state : HistoryStore × ImportReport) : Prop := motive state.1
  apply List.foldlRecOn (motive := Kept) d.entries.pairs _ start
  intro state kept p pair
  apply List.foldlRecOn (motive := Kept) p.2 _ kept
  intro state kept e member
  unfold importEntry
  split
  next accepted => exact each p pair e member _ _ _ accepted kept
  · exact kept

theorem later_importDocument (config : IngestConfig) (s : HistoryStore) {d : HistoryDocument}
    (typed : d.WellTyped) : Later s (s.importDocument config d).1 := by
  apply importDocument_keeps (motive := Later s) (.refl s)
  intro p pair e member t t' _ accepted later
  exact later.trans
    (later_of_accept (typed.entries p.2 (List.mem_map_of_mem pair) e member) accepted)

end HistoryStore

end BenchLedger
