import BenchLedger.Proofs.Comparisons
import BenchLedger.Proofs.DiffPartition
import BenchLedger.Proofs.DoubleOrder

/-!
What a summary says of a series. Main statement: `HistoryStore.summary_describes`: in a store that
was filled through the ingestor, a summary has one row for each benchmark, and each row says what
the entries of the series say of its benchmark.
-/

namespace BenchLedger

/-! ### Extremes -/

section

variable {values : Set Float} {a b : Float}

theorem smaller_cases (left : a.isNaN = false) (right : b.isNaN = false) :
    smaller a b = a ∧ a ≤ b ∨ smaller a b = b ∧ b ≤ a := by
  rw [smaller, right, if_neg (by decide)]
  split
  next below => exact .inl ⟨rfl, Decimal.le_of_lt below⟩
  next notBelow => exact .inr ⟨rfl, Decimal.le_of_not_lt left right notBelow⟩

theorem larger_cases (left : a.isNaN = false) (right : b.isNaN = false) :
    larger a b = a ∧ b ≤ a ∨ larger a b = b ∧ a ≤ b := by
  rw [larger, right, if_neg (by decide)]
  split
  next below => exact .inl ⟨rfl, Decimal.le_of_lt below⟩
  next notBelow => exact .inr ⟨rfl, Decimal.le_of_not_lt right left notBelow⟩

/-- The better one of the best value so far and a new one is the best of all, whichever way values
are compared. -/
theorem best_insert {R : Float → Float → Prop} (trans : ∀ {x y z}, R x y → R y z → R x z)
    (refl : R b b) {c : Float} (choice : c = a ∧ R a b ∨ c = b ∧ R b a)
    (best : a ∈ values ∧ ∀ value ∈ values, R a value) :
    c ∈ insert b values ∧ ∀ value ∈ insert b values, R c value := by
  rcases choice with ⟨rfl, better⟩ | ⟨rfl, better⟩
  · refine ⟨Set.mem_insert_of_mem b best.1, ?_⟩
    rintro value (rfl | member)
    · exact better
    · exact best.2 value member
  · refine ⟨Set.mem_insert _ values, ?_⟩
    rintro value (rfl | member)
    · exact refl
    · exact trans better (best.2 value member)

variable (numbers : ∀ value ∈ insert b values, value.isNaN = false)

include numbers

/-- With one more value, the smaller one of the least so far and the new one is the least. -/
theorem isLeast_smaller (least : IsLeast values a) : IsLeast (insert b values) (smaller a b) := by
  have number := numbers b (Set.mem_insert b values)
  have number' := numbers a (Set.mem_insert_of_mem b least.1)
  exact best_insert (R := (· ≤ ·)) Decimal.le_trans (Decimal.le_refl number)
    (smaller_cases number' number) least

/-- With one more value, the larger one of the greatest so far and the new one is the greatest. -/
theorem isGreatest_larger (greatest : IsGreatest values a) :
    IsGreatest (insert b values) (larger a b) := by
  have number := numbers b (Set.mem_insert b values)
  have number' := numbers a (Set.mem_insert_of_mem b greatest.1)
  exact best_insert (R := fun x y => y ≤ x) (fun first second => Decimal.le_trans second first)
    (Decimal.le_refl number) (larger_cases number' number) greatest

end

/-! ### Rows -/

/-- The row that is made of the records of one name, if there are any. -/
def rowOf : List BenchmarkRecord → Option BenchmarkSummary
  | [] => none
  | r :: rest => some (rest.foldl .add (.first r))

theorem rowOf_concat (rs : List BenchmarkRecord) (r : BenchmarkRecord) :
    rowOf (rs ++ [r]) = some ((rowOf rs).elim (.first r) (·.add r)) := by
  cases rs with
  | nil => rfl
  | cons first rest =>
    simp only [rowOf, List.cons_append, List.foldl_append, List.foldl_cons, List.foldl_nil,
      Option.elim_some]

/-- The rows that are made in one go through all records are those of the records of each name. -/
theorem get?_addToRows (rs : List BenchmarkRecord) (name : String) :
    (rs.foldl addToRows .empty).get? name = rowOf (rs.filter (·.name == name)) := by
  -- Only the row of the last record's name differs from what there was before that record.
  induction rs using List.reverseRecOn with
  | nil => rfl
  | append_singleton rs r ih =>
    rw [List.foldl_append, List.foldl_cons, List.foldl_nil, addToRows, NameMap.get?_insert,
      List.filter_append]
    by_cases same : name = r.name
    · subst same
      simp only [if_true, ih, List.filter_cons, List.filter_nil, beq_self_eq_true, rowOf_concat]
      cases rowOf (rs.filter (·.name == r.name)) <;> rfl
    · have other : (r.name == name) = false := by simpa using Ne.symm same
      simp [same, ih, other]

/-- The values of records. -/
def valuesOf (rs : List BenchmarkRecord) : Set Float :=
  {value | ∃ r ∈ rs, r.value = value}

theorem valuesOf_singleton (r : BenchmarkRecord) : valuesOf [r] = {r.value} := by
  ext value
  simp [valuesOf, eq_comm]

theorem valuesOf_concat (rs : List BenchmarkRecord) (r : BenchmarkRecord) :
    valuesOf (rs ++ [r]) = insert r.value (valuesOf rs) := by
  ext value
  simp [valuesOf, or_comm, eq_comm]

/-- What a row says of the records that it is made of. -/
structure BenchmarkSummary.Sums (row : BenchmarkSummary) (rs : List BenchmarkRecord) : Prop where
  samples : row.samples = rs.length
  latest : ∃ r, rs.getLast? = some r ∧ row.latest = r.value ∧ row.unit = r.unit
  previous : row.previous = rs.dropLast.getLast?.map (·.value)
  min : IsLeast (valuesOf rs) row.min
  max : IsGreatest (valuesOf rs) row.max

theorem BenchmarkSummary.sums_first {r : BenchmarkRecord} (number : r.value.isNaN = false) :
    (first r).Sums [r] where
  samples := rfl
  latest := ⟨r, rfl, rfl, rfl⟩
  previous := rfl
  min := by
    rw [valuesOf_singleton]
    exact ⟨rfl, fun _ same => same ▸ Decimal.le_refl number⟩
  max := by
    rw [valuesOf_singleton]
    exact ⟨rfl, fun _ same => same ▸ Decimal.le_refl number⟩

theorem BenchmarkSummary.Sums.add {row : BenchmarkSummary} {rs : List BenchmarkRecord}
    (sums : row.Sums rs) {r : BenchmarkRecord}
    (numbers : ∀ value ∈ valuesOf (rs ++ [r]), value.isNaN = false) :
    (row.add r).Sums (rs ++ [r]) where
  samples := by
    rw [List.length_append, ← sums.samples]
    rfl
  latest := ⟨r, List.getLast?_concat, rfl, rfl⟩
  previous := by
    obtain ⟨last, here, value, _⟩ := sums.latest
    rw [List.dropLast_concat, here, Option.map_some, ← value]
    rfl
  min := by
    rw [valuesOf_concat] at numbers ⊢
    exact isLeast_smaller numbers sums.min
  max := by
    rw [valuesOf_concat] at numbers ⊢
    exact isGreatest_larger numbers sums.max

/-- There is no value before the latest one just if there is only one. -/
theorem BenchmarkSummary.Sums.previous_eq_none {row : BenchmarkSummary} {rs : List BenchmarkRecord}
    (sums : row.Sums rs) : row.previous = none ↔ row.samples = 1 := by
  obtain ⟨r, last, _⟩ := sums.latest
  have some : 0 < rs.length := List.length_pos_of_mem (List.mem_of_getLast? last)
  rw [sums.previous, sums.samples, Option.map_eq_none_iff, List.getLast?_eq_none_iff,
    ← List.length_eq_zero_iff, List.length_dropLast]
  omega

/-- Every row sums its records up. -/
theorem sums_of_rowOf {rs : List BenchmarkRecord} {row : BenchmarkSummary}
    (made : rowOf rs = some row) (numbers : ∀ value ∈ valuesOf rs, value.isNaN = false) :
    row.Sums rs := by
  -- `Sums` is what stays true of the records gone through so far, so the last one is taken off.
  induction rs using List.reverseRecOn generalizing row with
  | nil => cases made
  | append_singleton rs r ih =>
    rw [rowOf_concat] at made
    cases earlier : rowOf rs with
    | none =>
      rw [earlier] at made
      cases made
      obtain rfl : rs = [] := by
        cases rs with
        | nil => rfl
        | cons => cases earlier
      exact BenchmarkSummary.sums_first (numbers r.value ⟨r, by simp, rfl⟩)
    | some row =>
      rw [earlier] at made
      cases made
      have before : ∀ value ∈ valuesOf rs, value.isNaN = false := fun value member =>
        numbers value (by
          rw [valuesOf_concat]
          exact Set.mem_insert_of_mem _ member)
      exact (ih earlier before).add numbers

theorem benchmark_foldl_add (rs : List BenchmarkRecord) (row : BenchmarkSummary) :
    (rs.foldl .add row).benchmark = row.benchmark := by
  induction rs generalizing row with
  | nil => rfl
  | cons r rest ih => exact ih (row.add r)

/-- A row has the name of its records. -/
theorem benchmark_of_rowOf {rs : List BenchmarkRecord} {row : BenchmarkSummary} {name : String}
    (made : rowOf rs = some row) (named : ∀ r ∈ rs, r.name = name) : row.benchmark = name := by
  cases rs with
  | nil => cases made
  | cons r rest =>
    cases made
    rw [benchmark_foldl_add]
    exact named r List.mem_cons_self

/-! ### Records of one name -/

namespace SeriesSnapshot

/-- The entries that carry a benchmark. -/
def carriers (s : SeriesSnapshot) (name : String) : List CommitEntry :=
  s.entries.filter fun e => (e.bench? name).isSome

/-- The records of a benchmark. -/
def recordsOf (s : SeriesSnapshot) (name : String) : List BenchmarkRecord :=
  s.entries.filterMap (·.bench? name)

/-- The values that a benchmark has anywhere in a series. -/
def values (s : SeriesSnapshot) (name : String) : Set Float :=
  {value | ∃ e ∈ s.entries, ∃ r ∈ e.benches, r.name = name ∧ r.value = value}

variable {s : SeriesSnapshot}

theorem map_carriers (name : String) :
    (s.carriers name).map (·.bench? name) = (s.recordsOf name).map some := by
  simp only [carriers, recordsOf]
  induction s.entries with
  | nil => rfl
  | cons e rest ih =>
    cases found : e.bench? name with
    | none => simpa [found] using ih
    | some r => simpa [found] using ih

variable {name : String}

theorem length_carriers : (s.carriers name).length = (s.recordsOf name).length := by
  rw [carriers, recordsOf, List.length_filterMap_eq_countP, List.countP_eq_length_filter]

/-- The newest entry with a benchmark has its last record. -/
theorem getLast?_recordsOf :
    (s.recordsOf name).getLast? = (newestWith? s name).map Prod.snd := by
  rw [recordsOf, newestWith?, List.getLast?_filterMap, List.map_findSome?]
  simp only [Function.comp_def, Option.map_map, Option.map_id']

/-- The last entry that carries a benchmark has its last record. -/
theorem exists_getLast?_carriers {r : BenchmarkRecord}
    (last : (s.recordsOf name).getLast? = some r) :
    ∃ e, (s.carriers name).getLast? = some e ∧ e.bench? name = some r := by
  have same := congrArg List.getLast? (s.map_carriers name)
  rw [List.getLast?_map, List.getLast?_map, last, Option.map_some, Option.map_eq_some_iff] at same
  exact same

/-- The entry before that one has the record before that one. -/
theorem bind_getLast?_dropLast : (s.carriers name).dropLast.getLast?.bind (·.bench? name)
    = (s.recordsOf name).dropLast.getLast? := by
  -- The entries and their records correspond one to one, whatever is looked up in both lists.
  have same := congrArg (fun l => l.dropLast.getLast?.join) (s.map_carriers name)
  simpa only [← List.map_dropLast, List.getLast?_map, ← Option.bind_id_eq_join, Option.bind_map,
    Function.comp_def, id, Option.bind_fun_some] using same

end SeriesSnapshot

/-- Of records with different names one at most has a given name. -/
theorem filter_name_of_nodup {rs : List BenchmarkRecord} (distinct : (rs.map (·.name)).Nodup)
    (name : String) : rs.filter (·.name == name) = (rs.find? (·.name == name)).toList := by
  induction rs with
  | nil => rfl
  | cons r rest ih =>
    obtain ⟨absent, distinct⟩ := List.nodup_cons.1 distinct
    by_cases same : r.name = name
    · subst same
      have none : rest.filter (·.name == r.name) = [] := by
        simpa [List.filter_eq_nil_iff] using absent
      simp [none]
    · simpa [same] using ih distinct

/-! ### Series -/

namespace SeriesSnapshot

variable {s : SeriesSnapshot} (regular : s.Regular) {name : String}

include regular

theorem mem_recordsOf {r : BenchmarkRecord} :
    r ∈ s.recordsOf name ↔ ∃ e ∈ s.entries, r ∈ e.benches ∧ r.name = name := by
  rw [recordsOf, List.mem_filterMap]
  constructor
  · rintro ⟨e, member, found⟩
    exact ⟨e, member, List.mem_of_find?_eq_some found, by simpa using List.find?_some found⟩
  · rintro ⟨e, member, listed, rfl⟩
    exact ⟨e, member, (find?_name_eq_some (regular.distinct e member)).2 listed⟩

theorem valuesOf_recordsOf : valuesOf (s.recordsOf name) = s.values name := by
  ext value
  constructor
  · rintro ⟨r, member, same⟩
    obtain ⟨e, here, listed, named⟩ := (mem_recordsOf regular).1 member
    exact ⟨e, here, r, listed, named, same⟩
  · rintro ⟨e, here, r, listed, named, same⟩
    exact ⟨r, (mem_recordsOf regular).2 ⟨e, here, listed, named⟩, same⟩

/-- The records of one name among all records of the entries. -/
theorem filter_benches :
    (s.entries.flatMap (·.benches)).filter (·.name == name) = s.recordsOf name := by
  rw [List.filter_flatMap, recordsOf, List.filterMap_eq_flatMap_toList]
  apply List.flatMap_congr
  intro e member
  exact filter_name_of_nodup (regular.distinct e member) name

/-- The row of each name is made of its records. -/
theorem get?_rows (name : String) :
    ((s.entries.flatMap (·.benches)).foldl addToRows .empty).get? name
      = rowOf (s.recordsOf name) := by
  rw [get?_addToRows, filter_benches regular]

end SeriesSnapshot

/-- What a row says of a series: it counts the entries that carry its benchmark, has the value and
the unit of the last of them and the value of the one before, if there is one, and its bounds are
the least and the greatest value that the benchmark has anywhere. -/
structure BenchmarkSummary.Describes (row : BenchmarkSummary) (s : SeriesSnapshot) : Prop where
  samples : row.samples = (s.carriers row.benchmark).length
  latest : ∃ e r, (s.carriers row.benchmark).getLast? = some e ∧
    e.bench? row.benchmark = some r ∧ row.latest = r.value ∧ row.unit = r.unit
  previous : row.previous = ((s.carriers row.benchmark).dropLast.getLast?.bind
    (·.bench? row.benchmark)).map (·.value)
  single : row.previous = none ↔ row.samples = 1
  min : IsLeast (s.values row.benchmark) row.min
  max : IsGreatest (s.values row.benchmark) row.max

/-- What a summary says of a series: it has one row for each benchmark that occurs in an entry, in
the order of their names. -/
structure SeriesSummary.Describes (sum : SeriesSummary) (s : SeriesSnapshot) : Prop where
  series : sum.series = s.name
  entries : sum.entries = s.entries.length
  firstDate : sum.firstDate = s.entries.head?.map (·.date)
  lastDate : sum.lastDate = s.entries.getLast?.map (·.date)
  latestCommit : sum.latestCommit = s.entries.getLast?.map (·.id)
  sorted : BytesIncrease (sum.benchmarks.map (·.benchmark))
  names : ∀ name, name ∈ sum.benchmarks.map (·.benchmark) ↔
    ∃ e ∈ s.entries, ∃ r ∈ e.benches, r.name = name
  rows : ∀ row ∈ sum.benchmarks, row.Describes s

section

variable {s : SeriesSnapshot} (regular : s.Regular)
  (numbers : ∀ e ∈ s.entries, ∀ r ∈ e.benches, r.value.isNaN = false)

include regular numbers

theorem sums_of_row {name : String} {row : BenchmarkSummary}
    (made : rowOf (s.recordsOf name) = some row) :
    row.benchmark = name ∧ row.Sums (s.recordsOf name) := by
  constructor
  · apply benchmark_of_rowOf made
    intro r member
    obtain ⟨_, _, _, named⟩ := (SeriesSnapshot.mem_recordsOf regular).1 member
    exact named
  · apply sums_of_rowOf made
    rintro value ⟨r, member, rfl⟩
    obtain ⟨e, here, listed, _⟩ := (SeriesSnapshot.mem_recordsOf regular).1 member
    exact numbers e here r listed

theorem describes_of_row {name : String} {row : BenchmarkSummary}
    (made : rowOf (s.recordsOf name) = some row) : row.Describes s := by
  obtain ⟨rfl, sums⟩ := sums_of_row regular numbers made
  obtain ⟨r, last, value, unit⟩ := sums.latest
  obtain ⟨e, here, carried⟩ := SeriesSnapshot.exists_getLast?_carriers last
  constructor
  case samples => rw [SeriesSnapshot.length_carriers, sums.samples]
  case latest => exact ⟨e, r, here, carried, value, unit⟩
  case previous => rw [SeriesSnapshot.bind_getLast?_dropLast, sums.previous]
  case single => exact sums.previous_eq_none
  case min =>
    rw [← SeriesSnapshot.valuesOf_recordsOf regular]
    exact sums.min
  case max =>
    rw [← SeriesSnapshot.valuesOf_recordsOf regular]
    exact sums.max

theorem describes_summarize : (summarize s).Describes s := by
  have found := SeriesSnapshot.get?_rows regular
  have named : (summarize s).benchmarks.map (·.benchmark)
      = ((s.entries.flatMap (·.benches)).foldl addToRows .empty).names := by
    show (List.map Prod.snd _).map _ = List.map Prod.fst _
    rw [List.map_map]
    apply List.map_congr_left
    rintro ⟨name, row⟩ member
    exact (sums_of_row regular numbers (found name ▸ NameMap.get?_eq_some.2 member)).1
  constructor
  case series | entries | firstDate | lastDate | latestCommit => rfl
  case sorted =>
    rw [named]
    exact bytesIncrease_names _
  case names =>
    intro name
    rw [named, NameMap.mem_names, found]
    constructor
    · intro some
      cases records : s.recordsOf name with
      | nil =>
        rw [records] at some
        cases some
      | cons r rest =>
        have member : r ∈ s.recordsOf name := by simp [records]
        obtain ⟨e, here, listed, same⟩ := (SeriesSnapshot.mem_recordsOf regular).1 member
        exact ⟨e, here, r, listed, same⟩
    · rintro ⟨e, here, r, listed, same⟩
      have member := (SeriesSnapshot.mem_recordsOf regular).2 ⟨e, here, listed, same⟩
      obtain ⟨first, rest, records⟩ := List.exists_cons_of_ne_nil (List.ne_nil_of_mem member)
      rw [records]
      rfl
  case rows =>
    intro row member
    obtain ⟨name, here⟩ := NameMap.mem_values.1 member
    exact describes_of_row regular numbers (found name ▸ here)

end

/-! ### Queries -/

namespace HistoryStore

variable {s : HistoryStore}

theorem Valid.of_getSeries (valid : s.Valid) {series : String} {snapshot : SeriesSnapshot}
    (here : s.getSeries series = .ok snapshot) {e : CommitEntry} (member : e ∈ snapshot.entries) :
    e.ValidFor series := by
  rw [getSeries] at here
  split at here
  next found =>
    cases here
    exact valid.of_mem_view found member
  · cases here

/-- The comparison with a baseline has the value of the last record. -/
theorem getLast?_of_regression {series benchmark baseline : String} {threshold : Float}
    {polarity : Option Polarity} {r : RegressionResult} {snapshot : SeriesSnapshot}
    (here : s.getSeries series = .ok snapshot)
    (answered : s.regression series benchmark baseline threshold polarity = .ok r) :
    ∃ last, (snapshot.recordsOf benchmark).getLast? = some last ∧ r.currentValue = last.value := by
  obtain ⟨_, found, same, checked⟩ := regression_eq_ok answered
  cases here.symm.trans same
  obtain ⟨before, old, first, carried⟩ := regressionCheck_eq_ok checked
  obtain ⟨newest, new, last, _⟩ := exists_newest (mem_of_findCommit first) (by rw [carried]; rfl)
  rw [regressionCheck_eq first carried last] at checked
  split at checked
  · cases checked
  · cases checked
    exact ⟨new, by rw [SeriesSnapshot.getLast?_recordsOf, last]; rfl, rfl⟩

/-- In a store that was filled through the ingestor, the summary of each series has one row for each
benchmark that occurs, and each row says what the entries say of its benchmark. Its latest value is
the current value of every comparison of the benchmark with a baseline. -/
theorem summary_describes {saved : Option HistoryDocument} (filled : Filled s saved)
    {series : String} (known : series ∈ s.seriesNames) :
    ∃ snapshot sum, s.getSeries series = .ok snapshot ∧ s.summary series = .ok sum ∧
      sum.Describes snapshot ∧
      ∀ row ∈ sum.benchmarks, ∀ baseline threshold polarity r,
        s.regression series row.benchmark baseline threshold polarity = .ok r →
          row.latest = r.currentValue := by
  obtain ⟨snapshot, here⟩ : ∃ snapshot, s.getSeries series = .ok snapshot := by
    rcases s.getSeries_cases series with ⟨_, there⟩ | ⟨unknown, _⟩
    · exact there
    · exact absurd known unknown
  have regular := filled.valid.1.regular here
  have numbers : ∀ e ∈ snapshot.entries, ∀ r ∈ e.benches, r.value.isNaN = false :=
    fun e member r listed =>
      Decimal.isNaN_of_isFinite ((filled.valid.1.of_getSeries here member).records r listed).value
  have describes := describes_summarize regular numbers
  refine ⟨snapshot, summarize snapshot, here, ?_, describes, ?_⟩
  · rw [summary, here]
    rfl
  · intro row member baseline threshold polarity r answered
    obtain ⟨last, found, current⟩ := getLast?_of_regression here answered
    obtain ⟨e, r', newest, carried, value, _⟩ := (describes.rows row member).latest
    obtain ⟨e', newest', carried'⟩ := SeriesSnapshot.exists_getLast?_carriers found
    cases newest.symm.trans newest'
    cases carried.symm.trans carried'
    rw [value, current]

/-- The slower run is the latest one, and the one before it shows in the row too. -/
theorem summary_describes_of_slowerRun :
    ∃ snapshot sum, slowerRun.store.getSeries "s" = .ok snapshot ∧
      slowerRun.store.summary "s" = .ok sum ∧ sum.Describes snapshot ∧
      ∃ row ∈ sum.benchmarks, row.benchmark = "b" ∧ row.samples = 2 ∧ row.previous = some 100.0 ∧
        ∃ r, slowerRun.store.regression "s" "b" "aaaa" 0.2 none = .ok r ∧
          row.latest = r.currentValue := by
  have opens : Session.start { policy := .manual } {} newSession.storage 0 = .ok newSession := rfl
  have filled : Filled slowerRun.store slowerRun.storage.document :=
    .inMemory (((Session.Filled.opened opens rfl).ingested "s" (timedEntry "aaaa" 100.0)).ingested
      "s" (timedEntry "bbbb" 150.0))
  have known : "s" ∈ slowerRun.store.seriesNames := by decide +kernel
  obtain ⟨snapshot, sum, here, answer, describes, agrees⟩ := summary_describes filled known
  have shown : (slowerRun.store.summary "s").toOption.map (fun sum =>
      sum.benchmarks.map fun row => (row.benchmark, row.samples, row.previous))
        = some [("b", 2, some 100.0), ("n", 2, some 0.0)] := by
    decide +kernel
  rw [answer] at shown
  have rows : sum.benchmarks.map (fun row => (row.benchmark, row.samples, row.previous))
      = [("b", 2, some 100.0), ("n", 2, some 0.0)] := Option.some.inj shown
  obtain ⟨row, member, same⟩ := List.mem_map.1 (rows ▸ List.mem_cons_self)
  obtain ⟨name, samples, previous⟩ : row.benchmark = "b" ∧ row.samples = 2 ∧
      row.previous = some 100.0 := by
    simpa using same
  refine ⟨snapshot, sum, here, answer, describes, row, member, name, samples, previous, ?_⟩
  have compares : (slowerRun.store.regression "s" "b" "aaaa" 0.2 none).toOption.isSome = true := by
    decide +kernel
  cases compared : slowerRun.store.regression "s" "b" "aaaa" 0.2 none with
  | error e =>
    rw [compared] at compares
    cases compares
  | ok r => exact ⟨r, rfl, agrees row member "aaaa" 0.2 none r (name ▸ compared)⟩

end HistoryStore

end BenchLedger
