import BenchLedger.Proofs.RealText
import BenchLedger.Proofs.StoredEntries
import BenchLedger.Proofs.ValidEntries

/-!
Valid entries in a document that is written and read. Main statement:
`HistoryDocument.Valid.of_decode_encode`: whatever the literals of the values are read as, the
entries of the document that is read are valid for their series if those that were written are.
-/

namespace BenchLedger

open Json Json.Decoder

/-- Every entry of a document is valid for its series. -/
def HistoryDocument.Valid (d : HistoryDocument) : Prop :=
  d.AllEntries CommitEntry.ValidFor

/-! ### Records and entries -/

/-- Whether a unit can be read does not depend on the record's own value. -/
theorem Measure.split_congr {x y : Float} {unit : String} {measures : Option (List Measure)}
    (h : split x unit = .ok measures) : ∃ measures', split y unit = .ok measures' := by
  unfold split at h ⊢
  split
  next composite =>
    rw [if_pos composite] at h
    cases found : segments unit with
    | nil =>
      rw [found] at h
      cases h
    | cons first rest =>
      rw [found] at h
      obtain ⟨ms, read, _⟩ := map_eq_ok.1 h
      exact ⟨_, by simp only [read]; rfl⟩
  · exact ⟨none, rfl⟩

/-- A representable run time is a word. -/
theorem isWord_of_runTime {e : CommitEntry} (h : e.runTime?.isSome = true) : IsWord e.date := by
  unfold CommitEntry.runTime? Calendar.Timestamp.ofMillis? at h
  split at h
  next bounds =>
    simp only [Bool.and_eq_true, decide_eq_true_eq] at bounds
    simp only [Calendar.leastMillis, Calendar.greatestMillis] at bounds
    simp only [IsWord]
    omega
  · cases h

theorem BenchmarkRecord.Valid.of_decoder_toJson {r r' : BenchmarkRecord} (valid : r.Valid)
    (h : BenchmarkRecord.decoder (.ofWritten r.toJson) = .ok r') : r'.Valid ∧ r'.name = r.name := by
  obtain ⟨x, read, rfl⟩ := BenchmarkRecord.decoder_toJson.1 h
  obtain ⟨measures, split⟩ := valid.unit
  refine ⟨⟨valid.name, ?_, Measure.split_congr split⟩, rfl⟩
  exact real_yields (readNumber_numbersFit _) read

/-- A valid entry that is written and read stays valid. -/
theorem CommitEntry.ValidFor.of_decoder_toJson {series : String} {e e' : CommitEntry}
    (valid : e.ValidFor series) (h : CommitEntry.decoder (.ofWritten e.toJson) = .ok e') :
    e'.ValidFor series := by
  obtain ⟨commit, date, benches, readCommit, readDate, readBenches, rfl⟩ :=
    CommitEntry.decoder_toJson.1 h
  obtain ⟨_, _, rfl⟩ := Commit.decoder_toJson.1 readCommit
  cases (whole_ofWritten (isWord_of_runTime valid.representable)).symm.trans readDate
  rw [list_ofWritten] at readBenches
  have names : benches.map (·.name) = e.benches.map (·.name) := by
    refine mapM_map_eq readBenches fun r member r' read => ?_
    exact ((valid.records r member).of_decoder_toJson read).2
  exact {
    series := valid.series
    commit := valid.commit
    notNegative := valid.notNegative
    representable := valid.representable
    records := by
      intro r' member
      obtain ⟨r, here, read⟩ := mapM_eq_ok readBenches r' member
      exact ((valid.records r here).of_decoder_toJson read).1
    distinct := by
      show (benches.map (·.name)).Nodup
      rw [names]
      exact valid.distinct }

/-! ### Documents -/

namespace HistoryDocument

variable {d d' : HistoryDocument}

/-- The values of valid entries have literals. -/
theorem Valid.legible (valid : d.Valid) : ∀ x ∈ d.values, (Number.real x).Legible := by
  intro x value
  obtain ⟨es, series, value⟩ := List.mem_flatMap.1 value
  obtain ⟨e, entry, value⟩ := List.mem_flatMap.1 value
  obtain ⟨r, record, rfl⟩ := List.mem_map.1 value
  obtain ⟨name, found⟩ := NameMap.mem_values.1 series
  exact legible_real ((valid name es found e entry).records r record).value

/-- A document of valid entries that is written and read has valid entries. -/
theorem Valid.of_decode_encode (valid : d.Valid) {format : StorageFormat}
    (h : decode (d.encode format) = .ok d') : d'.Valid := by
  rw [decode_encode_eq valid.legible] at h
  cases read : decoder (.ofWritten d.toJson) with
  | error fault => simp [read, Except.mapError] at h
  | ok found =>
    simp only [read, Except.mapError] at h
    cases h
    obtain ⟨lastUpdate, entries, _, readEntries, rfl⟩ := decoder_toJson.1 read
    rw [seriesJson, nameMap_ofWritten _ fun (es : List CommitEntry) =>
      .array (es.map CommitEntry.toJson)] at readEntries
    obtain ⟨pairs, readPairs, rfl⟩ := map_eq_ok.1 readEntries
    intro name es' found e' member
    obtain ⟨p, pair, readSeries⟩ := mapM_eq_ok readPairs _ (NameMap.mem_of_get?_ofList found)
    obtain ⟨_, readEntries, same⟩ := map_eq_ok.1 readSeries
    cases same
    rw [list_ofWritten] at readEntries
    obtain ⟨e, entry, read⟩ := mapM_eq_ok readEntries e' member
    exact (valid p.1 p.2 (NameMap.get?_eq_some.2 pair) e entry).of_decoder_toJson read

end HistoryDocument

end BenchLedger
