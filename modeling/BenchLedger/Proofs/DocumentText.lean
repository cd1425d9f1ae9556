import BenchLedger.History.Document
import BenchLedger.Proofs.RecordText
import BenchLedger.Proofs.ScriptForm

/-!
History documents in their two encodings. Main statement: a document whose values are finite reads
back, as it was, from either encoding.
-/

namespace BenchLedger

open Json Json.Decoder

/-! ### Numbers of a document -/

theorem Json.readableItems_iff {vs : List Json} : ReadableItems vs ↔ ∀ v ∈ vs, v.Readable := by
  induction vs with
  | nil => simp [ReadableItems]
  | cons v vs ih => simp [ReadableItems, ih]

theorem Json.readableMembers_iff {ms : List (String × Json)} :
    ReadableMembers ms ↔ ∀ m ∈ ms, m.2.Readable := by
  induction ms with
  | nil => simp [ReadableMembers]
  | cons m ms ih =>
    obtain ⟨k, v⟩ := m
    simp [ReadableMembers, ih]

theorem Json.readable_objectOf {members : List (String × Option Json)} :
    (objectOf members).Readable ↔ ∀ m ∈ members, ∀ v ∈ m.2, v.Readable := by
  rw [objectOf, Readable, readableMembers_iff]
  simp only [List.mem_filterMap, Option.map_eq_some_iff, Option.mem_def]
  constructor
  · intro readable m member v value
    exact readable (m.1, v) ⟨m, member, v, value, rfl⟩
  · rintro readable _ ⟨m, member, v, value, rfl⟩
    exact readable m member v value

theorem readable_string (o : Option String) : ∀ v ∈ o.map Json.string, v.Readable := by
  simp [Readable]

theorem Identity.readable_toJson (i : Identity) : i.toJson.Readable := by
  simp [Identity.toJson, readable_objectOf, Readable]

theorem Commit.readable_toJson (c : Commit) : c.toJson.Readable := by
  simp [Commit.toJson, readable_objectOf, Readable, Identity.readable_toJson]

theorem CommitEntry.readable_toJson {e : CommitEntry}
    (literals : ∀ x ∈ e.values, (Number.real x).Legible) : e.toJson.Readable := by
  have benches : ∀ r ∈ e.benches, r.toJson.Readable := by
    intro r member
    have literal := literals r.value (List.mem_map_of_mem member)
    simp [BenchmarkRecord.toJson, readable_objectOf, Readable, Json.real, literal]
  have date : (Json.whole e.date).Readable := legible_whole e.date
  simpa [CommitEntry.toJson, readable_objectOf, Readable, readableItems_iff,
    Commit.readable_toJson, date] using benches

namespace HistoryDocument

/-- The values of all records of a document. -/
def values (d : HistoryDocument) : List Float :=
  d.entries.values.flatMap fun es => es.flatMap CommitEntry.values

/-- Times are words and timestamps points in time. -/
structure WellTyped (d : HistoryDocument) : Prop where
  lastUpdate : ∀ i ∈ d.lastUpdate, IsWord i
  entries : ∀ es ∈ d.entries.values, ∀ e ∈ es, e.WellTyped

theorem mem_values {d : HistoryDocument} {es : List CommitEntry} (series : es ∈ d.entries.values)
    {e : CommitEntry} (member : e ∈ es) {x : Float} (value : x ∈ e.values) : x ∈ d.values :=
  List.mem_flatMap.2 ⟨es, series, List.mem_flatMap.2 ⟨e, member, value⟩⟩

theorem readable_toJson {d : HistoryDocument}
    (literals : ∀ x ∈ d.values, (Number.real x).Legible) : d.toJson.Readable := by
  have entries : (seriesJson d.entries).Readable := by
    rw [seriesJson, Readable, readableMembers_iff]
    intro m member
    obtain ⟨p, pair, rfl⟩ := List.mem_map.1 member
    have series : p.2 ∈ d.entries.values := List.mem_map_of_mem pair
    rw [Readable, readableItems_iff]
    intro v item
    obtain ⟨e, entry, rfl⟩ := List.mem_map.1 item
    exact CommitEntry.readable_toJson fun x value => literals x (mem_values series entry value)
  have lastUpdate : ∀ v ∈ d.lastUpdate.map Json.whole, v.Readable := by
    intro v given
    obtain ⟨i, known, rfl⟩ := Option.map_eq_some_iff.1 given
    exact legible_whole i
  rw [toJson, readable_objectOf]
  intro m member
  simp only [List.mem_cons, List.not_mem_nil, or_false] at member
  rcases member with rfl | rfl | rfl
  · exact lastUpdate
  · exact readable_string d.repoUrl
  · simpa using entries

/-! ### Fields of a document -/

/-- A document reads back but for what its last update and its series are read as. -/
theorem decoder_toJson {d d' : HistoryDocument} :
    decoder (.ofWritten d.toJson) = .ok d' ↔
      ∃ lastUpdate entries,
        d.lastUpdate.mapM (fun i => whole (.ofWritten (.whole i))) = .ok lastUpdate ∧
        nameMap (list CommitEntry.decoder) (.ofWritten (seriesJson d.entries)) = .ok entries ∧
        d' = { d with lastUpdate, entries } := by
  obtain ⟨lastUpdate, repoUrl, entries⟩ := d
  have text (o : Option String) :
      o.mapM (fun v => Decoder.string (.ofWritten (.string v))) = .ok o := by
    cases o <;> rfl
  constructor
  · intro h
    obtain ⟨filled, fill, finished⟩ := record_ofWritten.1 h
    obtain ⟨lastUpdate', readUpdate, fill⟩ :=
      (fillByName_optional rfl rfl fun _ => rfl).1 fill
    obtain ⟨_, readUrl, fill⟩ :=
      (fillByName_optional rfl (by cases lastUpdate' <;> rfl) fun _ => rfl).1 fill
    cases (text repoUrl).symm.trans readUrl
    obtain ⟨entries', readEntries, fill⟩ := (fillByName_given rfl
      (by cases lastUpdate' <;> cases repoUrl <;> rfl)).1 fill
    refine ⟨lastUpdate', entries', readUpdate, readEntries, ?_⟩
    cases Except.ok.inj fill
    cases lastUpdate' <;> cases repoUrl <;> (cases finished; rfl)
  · rintro ⟨lastUpdate', entries', readUpdate, readEntries, rfl⟩
    refine record_ofWritten.2
      ⟨⟨lastUpdate'.map some, repoUrl.map some, some entries'⟩, ?_, ?_⟩
    · refine (fillByName_optional rfl rfl fun _ => rfl).2 ⟨lastUpdate', readUpdate, ?_⟩
      refine (fillByName_optional rfl (by cases lastUpdate' <;> rfl) fun _ => rfl).2
        ⟨repoUrl, text repoUrl, ?_⟩
      refine (fillByName_given rfl (by cases lastUpdate' <;> cases repoUrl <;> rfl)).2
        ⟨entries', readEntries, ?_⟩
      cases lastUpdate' <;> cases repoUrl <;> rfl
    · cases lastUpdate' <;> cases repoUrl <;> rfl

/-- Changes the values of all records and nothing else. -/
def mapValues (f : Float → Float) (d : HistoryDocument) : HistoryDocument :=
  { d with entries := d.entries.map fun _ es => es.map (·.mapValues f) }

theorem mapValues_id (d : HistoryDocument) : d.mapValues (fun x => x) = d := by
  have pairs : (d.entries.map fun _ es => es.map (·.mapValues fun x => x)) = d.entries := by
    apply NameMap.ext_pairs
    simp [NameMap.map, CommitEntry.mapValues_id]
  rw [mapValues, pairs]

/-- A document reads back but for its values, each of which is what its literal gives. -/
theorem decoder_toJson_mapValues {d : HistoryDocument} {f : Float → Float} (typed : d.WellTyped)
    (literals : ∀ x ∈ d.values, (Number.real x).ReadAs (.real (f x))) :
    decoder (.ofWritten d.toJson) = .ok (d.mapValues f) := by
  have series : (d.entries.pairs.mapM fun p => (list CommitEntry.decoder
      (.ofWritten (.array (p.2.map CommitEntry.toJson)))).map fun v => (p.1, v))
        = .ok (d.mapValues f).entries.pairs := by
    apply mapM_eq_map
    intro p pair
    have series : p.2 ∈ d.entries.values := List.mem_map_of_mem pair
    rw [list_ofWritten, mapM_eq_map (g := CommitEntry.mapValues f)]
    · rfl
    · intro e member
      exact CommitEntry.decoder_toJson_mapValues (typed.entries p.2 series e member)
        fun x value => literals x (mem_values series member value)
  have entries : nameMap (list CommitEntry.decoder) (.ofWritten (seriesJson d.entries))
      = .ok (d.mapValues f).entries := by
    rw [seriesJson, nameMap_ofWritten _ fun (es : List CommitEntry) =>
      .array (es.map CommitEntry.toJson), series]
    exact congrArg Except.ok (NameMap.ofList_pairs (d.mapValues f).entries)
  have update : d.lastUpdate.mapM (fun i => whole (.ofWritten (.whole i))) = .ok d.lastUpdate := by
    cases known : d.lastUpdate with
    | none => rfl
    | some i =>
      rw [Option.mapM_some, whole_ofWritten (typed.lastUpdate i known)]
      rfl
  exact decoder_toJson.2 ⟨_, _, update, entries, rfl⟩

/-! ### The script form -/

open Text (isBlank trim EndsVisible)

private theorem write_object_framed (style : Style) (depth : Nat) (ms : List (String × Json)) :
    ∃ mid, write style depth (.object ms) = '\x7b' :: (mid ++ ['\x7d']) := by
  match ms with
  | [] => exact ⟨[], rfl⟩
  | (k, x) :: ms =>
    refine ⟨style.gap (depth + 1) ++ (stringText k ++ (style.colon ++
      (write style (depth + 1) x ++ (writeMembers style (depth + 1) ms ++ style.gap depth)))), ?_⟩
    simp [write]

private theorem endsVisible_braced (mid : List Char) :
    EndsVisible ('\x7b' :: (mid ++ ['\x7d'])) := by
  constructor
  · rintro c ⟨⟩
    decide
  · rw [← List.cons_append, List.getLast?_concat]
    rintro c ⟨⟩
    decide

/-- A text in braces is found as it is. -/
private theorem unwrap_braced (mid : List Char) :
    unwrap ('\x7b' :: (mid ++ ['\x7d'])) = .ok ('\x7b' :: (mid ++ ['\x7d'])) := by
  have bare (cs : List Char) : afterStart? globalName.toList ('\x7b' :: cs) = none := rfl
  simp only [unwrap, Text.trim_eq_self.2 (endsVisible_braced mid), bare]

/-- A text in braces is found in an assignment to the global variable. -/
private theorem unwrap_assigned (mid : List Char) :
    unwrap (globalName.toList ++ (' ' :: '=' :: ' ' :: ('\x7b' :: (mid ++ ['\x7d']) ++ ['\n'])))
      = .ok ('\x7b' :: (mid ++ ['\x7d'])) := by
  have value : trim ([' '] ++ ('\x7b' :: (mid ++ ['\x7d'])) ++ ['\n'])
      = '\x7b' :: (mid ++ ['\x7d']) := by
    rw [Text.trim_padded (by decide) (by decide), Text.trim_eq_self.2 (endsVisible_braced mid)]
  have last : ∀ c ∈ ('\x7b' :: (mid ++ ['\x7d'])).getLast?, c ≠ ';' := by
    rw [← List.cons_append, List.getLast?_concat]
    rintro c ⟨⟩
    decide
  have taken := @unwrap_assignment [] [' '] rfl (by decide)
    ([' '] ++ ('\x7b' :: (mid ++ ['\x7d'])) ++ ['\n'])
  rw [value, rdropWhile_semicolon_self last] at taken
  exact taken

private theorem unwrap_encode (d : HistoryDocument) (format : StorageFormat) :
    unwrap (d.encode format).toList = .ok (d.toJson.write .pretty 0) := by
  obtain ⟨mid, framed⟩ : ∃ mid, d.toJson.write .pretty 0 = '\x7b' :: (mid ++ ['\x7d']) :=
    write_object_framed .pretty 0 _
  cases format with
  | json => simp only [encode, pretty, String.toList_ofList, framed, unwrap_braced]
  | dataJs =>
    have text : (globalName ++ " = " ++ d.toJson.pretty ++ "\n").toList
        = globalName.toList ++ (' ' :: '=' :: ' ' :: (d.toJson.write .pretty 0 ++ ['\n'])) := by
      simp [pretty]
    rw [encode, text, framed, unwrap_assigned]

/-- The text of a document is not blank. -/
theorem encode_not_blank (d : HistoryDocument) (format : StorageFormat) :
    Text.isBlankText (d.encode format) = false := by
  obtain ⟨mid, framed⟩ : ∃ mid, d.toJson.write .pretty 0 = '\x7b' :: (mid ++ ['\x7d']) :=
    write_object_framed .pretty 0 _
  have brace : isBlank '\x7b' = false := by decide
  cases format with
  | json => simp [Text.isBlankText, Text.allBlank, encode, pretty, framed, brace]
  | dataJs =>
    obtain ⟨tail, name⟩ : ∃ tail, globalName.toList = 'w' :: tail := ⟨_, rfl⟩
    have letter : isBlank 'w' = false := by decide
    simp [Text.isBlankText, Text.allBlank, encode, name, letter]

/-- Whichever encoding a document has, its own tree is decoded. -/
theorem decode_encode_eq {d : HistoryDocument}
    (literals : ∀ x ∈ d.values, (Number.real x).Legible) (format : StorageFormat) :
    decode (d.encode format) = (decoder (.ofWritten d.toJson)).mapError .undecodable := by
  have text := decode_write decoder .pretty (readable_toJson literals)
  simp only [decode, unwrap_encode, bind, Except.bind, text]

/-- A document is decoded from either encoding, with the values that their literals give. -/
theorem decode_encode_mapValues {d : HistoryDocument} {f : Float → Float} (typed : d.WellTyped)
    (literals : ∀ x ∈ d.values, (Number.real x).ReadAs (.real (f x))) (format : StorageFormat) :
    decode (d.encode format) = .ok (d.mapValues f) := by
  rw [decode_encode_eq fun x value => (literals x value).legible,
    decoder_toJson_mapValues typed literals]
  rfl

/-- A document is decoded from either encoding if the literals of its values read back. -/
theorem decode_encode {d : HistoryDocument} (typed : d.WellTyped)
    (literals : ∀ x ∈ d.values, (Number.real x).ReadsBack) (format : StorageFormat) :
    decode (d.encode format) = .ok d := by
  rw [decode_encode_mapValues typed literals, mapValues_id]

/-- A document whose values are finite reads back, as it was, from either encoding. That the literal
of a finite double reads back is assumed. -/
theorem decode_encode_of_finite {d : HistoryDocument} (typed : d.WellTyped)
    (finite : ∀ x ∈ d.values, x.isFinite = true)
    (literals : ∀ x ∈ d.values, x.isFinite = true → (Number.real x).ReadsBack)
    (format : StorageFormat) : decode (d.encode format) = .ok d :=
  decode_encode typed (fun x value => literals x value (finite x value)) format

/-- A document with the texts that an encoding must take care of. -/
def troublesome : HistoryDocument where
  lastUpdate := some (-1)
  repoUrl := some "window.BENCHMARK_DATA = ;"
  entries := .ofList [
    ("quote \" backslash \\", [
      ⟨⟨"c0ffee", ⟨⟨2024, 2, 29⟩, ⟨23, 59, 60, 120000000⟩, -90⟩,
          ⟨"tab\there", "a@b", some "line\nfeed"⟩, ⟨"", "", none⟩, true, some ";", none, some "/"⟩,
        1709251200000, "go", [⟨"b/op", 100.25, "ns/op\tB/op", some "3 times\n8 procs"⟩,
          ⟨"a/op", 0.0, "", none⟩]⟩]),
    ("\x7b\x7d;", [])]

theorem decode_encode_troublesome :
    decode (troublesome.encode .json) = .ok troublesome
      ∧ decode (troublesome.encode .dataJs) = .ok troublesome := by
  have typed : troublesome.WellTyped := by
    have entries : ∀ es ∈ troublesome.entries.values, ∀ e ∈ es,
        IsWord e.date ∧ e.commit.timestamp.exists = true := by
      decide +kernel
    refine ⟨by decide, fun es series e member => ?_⟩
    exact ⟨(entries es series e member).1, (entries es series e member).2⟩
  have values : troublesome.values = [100.25, 0.0] := by rfl
  have finite : ∀ x ∈ troublesome.values, x.isFinite = true := by
    rw [values]
    decide +kernel
  have literals : ∀ x ∈ troublesome.values, x.isFinite = true → (Number.real x).ReadsBack := by
    simp only [values, List.forall_mem_cons]
    exact ⟨fun _ => rfl, fun _ => rfl, by simp⟩
  exact ⟨decode_encode_of_finite typed finite literals .json,
    decode_encode_of_finite typed finite literals .dataJs⟩

end HistoryDocument

/-- An entry is read from its text with the values that their literals give. -/
theorem CommitEntry.ofText_pretty_mapValues {e : CommitEntry} {f : Float → Float}
    (typed : e.WellTyped) (literals : ∀ x ∈ e.values, (Number.real x).ReadAs (.real (f x))) :
    ofText e.toJson.pretty = .ok (e.mapValues f) := by
  have readable := readable_toJson fun x value => (literals x value).legible
  rw [ofText, pretty, decode_write decoder .pretty readable]
  exact decoder_toJson_mapValues typed literals

/-- An entry reads back from its text if the literals of its values do. -/
theorem CommitEntry.ofText_pretty {e : CommitEntry} (typed : e.WellTyped)
    (literals : ∀ x ∈ e.values, (Number.real x).ReadsBack) : ofText e.toJson.pretty = .ok e := by
  rw [ofText_pretty_mapValues typed literals, mapValues_id]

end BenchLedger
