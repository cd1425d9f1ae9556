import BenchLedger.Proofs.BlankText
import BenchLedger.Proofs.DigitText
import BenchLedger.Proofs.ValidEntries
import BenchLedger.Report.Markdown
import Mathlib.Algebra.Order.BigOperators.Group.List
import Mathlib.Algebra.Order.Group.Nat

/-!
The tables of a report, as a reader of Markdown takes them apart into lines and cells. Main
statement: `Report.tables_show_iff`: a table comes out as it was written just if no name or unit of
a benchmark in it has a line end or a bar that is not escaped.
-/

namespace BenchLedger.Report

/-! ### Lines -/

def endsLine (c : Char) : Bool :=
  c == '\n' || c == '\r'

/-- A text without line ends. -/
def OneLine (cs : List Char) : Prop :=
  ∀ c ∈ cs, endsLine c = false

instance (cs : List Char) : Decidable (OneLine cs) :=
  List.decidableBAll (endsLine · = false) cs

@[simp] theorem oneLine_nil : OneLine [] :=
  nofun

@[simp] theorem oneLine_cons {c : Char} {cs : List Char} :
    OneLine (c :: cs) ↔ endsLine c = false ∧ OneLine cs :=
  List.forall_mem_cons

@[simp] theorem oneLine_append {cs ds : List Char} :
    OneLine (cs ++ ds) ↔ OneLine cs ∧ OneLine ds :=
  List.forall_mem_append

/-- A carriage return and the line feed behind it end one line. -/
def joinReturns : List Char → List Char
  | '\r' :: '\n' :: cs => '\n' :: joinReturns cs
  | c :: cs => c :: joinReturns cs
  | [] => []

/-- The lines that a reader of Markdown sees; what follows the last line end is one. -/
def markdownLines (cs : List Char) : List (List Char) :=
  Text.pieces endsLine (joinReturns cs)

/-- What one written line comes to for the reader. -/
def shownLine (l : String) : List (List Char) :=
  (markdownLines (l.toList ++ ['\n'])).dropLast

theorem joinReturns_of_oneLine {cs : List Char} (oneLine : OneLine cs) (ds : List Char) :
    joinReturns (cs ++ ds) = cs ++ joinReturns ds := by
  induction cs with
  | nil => rfl
  | cons c cs ih =>
    obtain ⟨first, rest⟩ := oneLine_cons.1 oneLine
    have other : c ≠ '\r' := by
      rintro rfl
      cases first
    rw [List.cons_append, joinReturns, ih rest, List.cons_append]
    exact fun _ same _ => other same

/-- Up to a line feed a text is taken apart whatever comes after it. -/
theorem exists_joinReturns (cs : List Char) :
    ∃ joined, ∀ ds, joinReturns (cs ++ '\n' :: ds) = joined ++ '\n' :: joinReturns ds := by
  fun_induction joinReturns cs with
  | case1 cs ih =>
    obtain ⟨joined, same⟩ := ih
    exact ⟨'\n' :: joined, fun ds => by simp [joinReturns, same]⟩
  | case2 c cs other ih =>
    obtain ⟨joined, same⟩ := ih
    -- Only a carriage return at the very end goes together with the line feed.
    by_cases final : c = '\r' ∧ cs = []
    · obtain ⟨rfl, rfl⟩ := final
      exact ⟨[], fun ds => by simp [joinReturns]⟩
    · refine ⟨c :: joined, fun ds => ?_⟩
      rw [List.cons_append, joinReturns, same, List.cons_append]
      rintro rest rfl behind
      cases cs with
      | nil => exact final ⟨rfl, rfl⟩
      | cons d cs =>
        cases behind
        exact other cs rfl rfl
  | case3 => exact ⟨[], fun ds => by simp [joinReturns]⟩

theorem markdownLines_append (cs ds : List Char) :
    markdownLines (cs ++ '\n' :: ds) =
      (markdownLines (cs ++ ['\n'])).dropLast ++ markdownLines ds := by
  obtain ⟨joined, same⟩ := exists_joinReturns cs
  have front (ds : List Char) :
      markdownLines (cs ++ '\n' :: ds) = Text.pieces endsLine joined ++ markdownLines ds := by
    rw [markdownLines, same, Text.pieces_append_cons rfl, markdownLines]
  have nothing : markdownLines [] = [[]] := rfl
  rw [front, front, nothing, List.dropLast_concat]

theorem markdownLines_unlines (ls : List String) :
    markdownLines (unlines ls).toList = ls.flatMap shownLine ++ [[]] := by
  induction ls with
  | nil => rfl
  | cons l ls ih =>
    have written : (unlines (l :: ls)).toList = l.toList ++ '\n' :: (unlines ls).toList := by
      simp [unlines]
    rw [written, markdownLines_append, ih, ← shownLine, List.flatMap_cons, List.append_assoc]

theorem shownLine_of_oneLine {l : String} (oneLine : OneLine l.toList) :
    shownLine l = [l.toList] := by
  have joined : joinReturns ['\n'] = '\n' :: [] := rfl
  rw [shownLine, markdownLines, joinReturns_of_oneLine oneLine, joined,
    Text.pieces_append_cons rfl, Text.pieces_eq_singleton oneLine]
  rfl

/-- Written lines come out one by one just if none has a line end in it. -/
theorem flatMap_shownLine_iff (ls : List String) :
    ls.flatMap shownLine = ls.map String.toList ↔ ∀ l ∈ ls, OneLine l.toList := by
  constructor
  · intro same l member c inside
    have shown : l.toList ∈ ls.flatMap shownLine := same ▸ List.mem_map_of_mem member
    obtain ⟨_, _, part⟩ := List.mem_flatMap.1 shown
    exact Text.not_sep_of_mem_pieces (List.dropLast_subset _ part) inside
  · intro oneLine
    induction ls with
    | nil => rfl
    | cons l ls ih =>
      obtain ⟨first, rest⟩ := List.forall_mem_cons.1 oneLine
      rw [List.flatMap_cons, shownLine_of_oneLine first, ih rest, List.map_cons,
        List.singleton_append]

/-! ### Cells -/

/-- How many bars separate cells in a line, after a backslash or not: those without a backslash
directly in front. -/
def separatorsAfter (escaped : Bool) : List Char → Nat
  | [] => 0
  | c :: cs => (if c = '|' ∧ escaped = false then 1 else 0) + separatorsAfter (c == '\\') cs

def separators (cs : List Char) : Nat :=
  separatorsAfter false cs

/-- A text that stays within its cell. -/
structure FitsCell (cell : String) : Prop where
  oneLine : OneLine cell.toList
  undivided : separators cell.toList = 0

theorem fitsCell_iff {cell : String} :
    FitsCell cell ↔ OneLine cell.toList ∧ separators cell.toList = 0 :=
  ⟨fun fits => ⟨fits.oneLine, fits.undivided⟩, fun h => ⟨h.1, h.2⟩⟩

instance (cell : String) : Decidable (FitsCell cell) :=
  decidable_of_iff _ fitsCell_iff.symm

/-- The name and the unit of a benchmark stay within their cells. -/
def FitsRow (benchmark unit : String) : Prop :=
  FitsCell benchmark ∧ FitsCell (Measure.primaryUnit unit)

instance (benchmark unit : String) : Decidable (FitsRow benchmark unit) :=
  inferInstanceAs (Decidable (_ ∧ _))

/-- A text without bars and line ends. -/
def Plain (cs : List Char) : Prop :=
  ∀ c ∈ cs, c ≠ '|' ∧ endsLine c = false

/-- Cells with a bar behind each, and a space on both sides. -/
def cellsText : List String → List Char
  | [] => []
  | cell :: rest => ' ' :: (cell.toList ++ ' ' :: '|' :: cellsText rest)

/-- Cells between bars. -/
def tableRow (cells : List String) : String :=
  String.ofList ('|' :: cellsText cells)

theorem separatorsAfter_append {c : Char} (other : c ≠ '|') (escaped : Bool) (xs ys : List Char) :
    separatorsAfter escaped (xs ++ c :: ys) =
      separatorsAfter escaped xs + separatorsAfter (c == '\\') ys := by
  induction xs generalizing escaped with
  | nil => simp [separatorsAfter, other]
  | cons x xs ih => rw [List.cons_append, separatorsAfter, ih, separatorsAfter, Nat.add_assoc]

theorem Plain.separatorsAfter {cs : List Char} (plain : Plain cs) (escaped : Bool) :
    separatorsAfter escaped cs = 0 := by
  induction cs generalizing escaped with
  | nil => rfl
  | cons c cs ih =>
    obtain ⟨⟨other, _⟩, rest⟩ := List.forall_mem_cons.1 plain
    simp [Report.separatorsAfter, other, ih rest]

/-- A bar inside a cell is one separator more. -/
theorem separators_tableRow (cells : List String) :
    separators (tableRow cells).toList =
      cells.length + 1 + (cells.map fun cell => separators cell.toList).sum := by
  have behind : separatorsAfter false (cellsText cells) =
      cells.length + (cells.map fun cell => separators cell.toList).sum := by
    induction cells with
    | nil => rfl
    | cons cell rest ih =>
      -- The space behind the cell keeps a backslash at its end away from the bar.
      simp [cellsText, separatorsAfter, separatorsAfter_append, ih, separators]
      omega
  simp [tableRow, separators, separatorsAfter, behind]
  omega

theorem oneLine_tableRow (cells : List String) :
    OneLine (tableRow cells).toList ↔ ∀ cell ∈ cells, OneLine cell.toList := by
  have behind : OneLine (cellsText cells) ↔ ∀ cell ∈ cells, OneLine cell.toList := by
    induction cells with
    | nil => simp [cellsText]
    | cons cell rest ih => simp [cellsText, ih, endsLine]
  simp [tableRow, behind, endsLine]

/-- A row comes out with its own bars only just if all its cells keep within theirs. -/
theorem tableRow_fits_iff (cells : List String) :
    OneLine (tableRow cells).toList ∧ separators (tableRow cells).toList = cells.length + 1 ↔
      ∀ cell ∈ cells, FitsCell cell := by
  rw [oneLine_tableRow, separators_tableRow, Nat.add_eq_left, List.sum_eq_zero_iff,
    List.forall_mem_map, ← forall₂_and]
  exact forall₂_congr fun cell _ => fitsCell_iff.symm

/-! ### What stands in the cells -/

theorem Plain.append {as bs : List Char} (left : Plain as) (right : Plain bs) : Plain (as ++ bs) :=
  List.forall_mem_append.2 ⟨left, right⟩

theorem Plain.fitsCell {cell : String} (plain : Plain cell.toList) : FitsCell cell :=
  ⟨fun c inside => (plain c inside).2, plain.separatorsAfter false⟩

theorem plain_of_allDigits {cs : List Char} (digits : Text.AllDigits cs) : Plain cs := by
  intro c inside
  have range := Text.isDigit_range (digits c inside)
  constructor
  · rintro rfl
    revert range
    decide
  · simp only [endsLine, Bool.or_eq_false_iff, beq_eq_false_iff_ne]
    constructor <;> rintro rfl <;> revert range <;> decide

theorem plain_signText (plus negative : Bool) : Plain (Decimal.signText plus negative) := by
  cases plus <;> cases negative <;> simp [Decimal.signText, Plain, endsLine]

theorem plain_pointed (places units : Nat) : Plain (Decimal.pointed places units) := by
  have whole := plain_of_allDigits (Text.allDigits_digitsOf (units / Nat.pow 10 places))
  rw [Decimal.pointed]
  split
  · exact whole
  · have point : Plain ['.'] := by simp [Plain, endsLine]
    exact whole.append (point.append (plain_of_allDigits (Text.allDigits_paddedDigits _ _)))

theorem plain_fixed (plus : Bool) (places : Nat) (x : Float) :
    Plain (Decimal.fixed plus places x).toList := by
  rw [Decimal.fixed, String.toList_ofList]
  split
  · simp [Plain, endsLine]
  · exact (plain_signText _ _).append (by simp [Plain, endsLine])
  · exact (plain_signText _ _).append (plain_pointed _ _)

theorem plain_valueText (x : Float) : Plain (valueText x).toList := by
  rw [valueText]
  split <;> exact plain_fixed _ _ _

theorem plain_signedPercentText (x : Float) : Plain (signedPercentText x).toList := by
  rw [signedPercentText, String.toList_append]
  exact (plain_fixed _ _ _).append (by simp [Plain, endsLine])

theorem plain_countText (n : Nat) : Plain (countText n).toList := by
  rw [countText, String.toList_ofList]
  exact plain_of_allDigits (Text.allDigits_digitsOf n)

theorem plain_orDash {α : Type} {text : α → String} (plain : ∀ x, Plain (text x).toList)
    (x : Option α) : Plain ((x.map text).getD "-").toList := by
  cases x with
  | none => simp [Plain, endsLine]
  | some x => exact plain x

/-- The marks of code around a name are no part of the table. -/
theorem fitsCell_quoted (name : String) : FitsCell ("`" ++ name ++ "`") ↔ FitsCell name := by
  have lines : OneLine ("`" ++ name ++ "`").toList ↔ OneLine name.toList := by simp [endsLine]
  have bars : separators ("`" ++ name ++ "`").toList = separators name.toList := by
    simp [separators, separatorsAfter, separatorsAfter_append]
  rw [fitsCell_iff, fitsCell_iff, lines, bars]

theorem fitsCell_measured {value : String} (plain : Plain value.toList) (unit : String) :
    FitsCell (value ++ " " ++ unit) ↔ FitsCell unit := by
  have own : OneLine value.toList := plain.fitsCell.oneLine
  have lines : OneLine (value ++ " " ++ unit).toList ↔ OneLine unit.toList := by
    simp [own, endsLine]
  have bars : separators (value ++ " " ++ unit).toList = separators unit.toList := by
    simp [separators, separatorsAfter_append, plain.separatorsAfter]
  rw [fitsCell_iff, fitsCell_iff, lines, bars]

/-! ### Tables -/

/-- The lines of a table come out as they were written, with one number of separators. -/
structure Shows (bars : Nat) (written : List String) : Prop where
  lines : written.flatMap shownLine = written.map String.toList
  bars : ∀ l ∈ written, separators l.toList = bars

theorem shows_iff {bars : Nat} {written : List String} :
    Shows bars written ↔ ∀ l ∈ written, OneLine l.toList ∧ separators l.toList = bars := by
  rw [forall₂_and, ← flatMap_shownLine_iff]
  exact ⟨fun h => ⟨h.lines, h.bars⟩, fun h => ⟨h.1, h.2⟩⟩

/-- A table whose head is in order comes out just if every cell of every row fits. -/
theorem shows_rows_iff {width : Nat} {head : List String} (inOrder : Shows (width + 1) head)
    {α : Type} {row : α → String} {cells : α → List String}
    (written : ∀ item, row item = tableRow (cells item))
    (wide : ∀ item, (cells item).length = width) (items : List α) :
    Shows (width + 1) (head ++ items.map row) ↔
      ∀ item ∈ items, ∀ cell ∈ cells item, FitsCell cell := by
  rw [shows_iff, List.forall_mem_append, List.forall_mem_map, and_iff_right (shows_iff.1 inOrder)]
  exact forall₂_congr fun item _ => by rw [← tableRow_fits_iff, wide, written]

def changesHead : List String :=
  ["| Benchmark | Baseline | Candidate | Change |", "|-----------|----------|-----------|--------|"]

def summaryHead : List String :=
  ["| Benchmark | Latest | Previous | Change | Min | Max | Samples |",
    "|-----------|--------|----------|--------|-----|-----|---------|"]

def changeCells (c : BenchmarkChange) : List String :=
  ["`" ++ c.benchmark ++ "`",
    valueText c.baseline ++ " " ++ Measure.primaryUnit c.unit,
    valueText c.candidate ++ " " ++ Measure.primaryUnit c.unit,
    signedPercentText c.delta]

def summaryCells (row : BenchmarkSummary) : List String :=
  ["`" ++ row.benchmark ++ "`",
    valueText row.latest ++ " " ++ Measure.primaryUnit row.unit,
    (row.previous.map valueText).getD "-",
    (row.change.map signedPercentText).getD "-",
    valueText row.min,
    valueText row.max,
    countText row.samples]

theorem changeRow_eq (c : BenchmarkChange) : changeRow c = tableRow (changeCells c) := by
  unfold changeRow changeCells
  -- The texts of the numbers stay closed, or comparing the two sides would compute them.
  generalize valueText c.baseline = baseline, valueText c.candidate = candidate,
    signedPercentText c.delta = delta
  rw [← String.toList_inj]
  simp [tableRow, cellsText]

theorem summaryRow_eq (row : BenchmarkSummary) : summaryRow row = tableRow (summaryCells row) := by
  unfold summaryRow summaryCells
  generalize valueText row.latest = latest, (row.previous.map valueText).getD "-" = previous,
    (row.change.map signedPercentText).getD "-" = change, valueText row.min = min,
    valueText row.max = max
  rw [← String.toList_inj]
  simp [tableRow, cellsText]

/-- The lines of a table of changes, up to the empty line that ends it. -/
def changesLines (changes : List BenchmarkChange) : List String :=
  changesHead ++ changes.map changeRow

def summaryLines (rows : List BenchmarkSummary) : List String :=
  summaryHead ++ rows.map summaryRow

theorem changesTable_eq {changes : List BenchmarkChange} (some : changes ≠ []) :
    changesTable changes = changesLines changes ++ [""] := by
  rw [changesTable, if_neg (by simpa using some)]
  rfl

theorem shows_changesLines (changes : List BenchmarkChange) :
    Shows 5 (changesLines changes) ↔ ∀ c ∈ changes, FitsRow c.benchmark c.unit := by
  have inOrder : Shows 5 changesHead := ⟨by decide +kernel, by decide +kernel⟩
  have cells (c : BenchmarkChange) :
      (∀ cell ∈ changeCells c, FitsCell cell) ↔ FitsRow c.benchmark c.unit := by
    simp [changeCells, FitsRow, fitsCell_quoted, fitsCell_measured (plain_valueText _),
      (plain_signedPercentText _).fitsCell]
  refine (shows_rows_iff inOrder changeRow_eq (fun _ => rfl) changes).trans ?_
  exact forall₂_congr fun c _ => cells c

theorem shows_summaryLines (rows : List BenchmarkSummary) :
    Shows 8 (summaryLines rows) ↔ ∀ row ∈ rows, FitsRow row.benchmark row.unit := by
  have inOrder : Shows 8 summaryHead := ⟨by decide +kernel, by decide +kernel⟩
  have cells (row : BenchmarkSummary) :
      (∀ cell ∈ summaryCells row, FitsCell cell) ↔ FitsRow row.benchmark row.unit := by
    simp [summaryCells, FitsRow, fitsCell_quoted, fitsCell_measured (plain_valueText _),
      (plain_valueText _).fitsCell, (plain_orDash plain_valueText _).fitsCell,
      (plain_orDash plain_signedPercentText _).fitsCell, (plain_countText _).fitsCell]
  refine (shows_rows_iff inOrder summaryRow_eq (fun _ => rfl) rows).trans ?_
  exact forall₂_congr fun row _ => cells row

/-- Lines that are written one below the other are shown so, whatever stands around them. -/
theorem shown_infix {table written : List String} (within : table <:+: written) :
    table.flatMap shownLine <:+: markdownLines (unlines written).toList := by
  obtain ⟨above, below, rfl⟩ := within
  refine ⟨above.flatMap shownLine, below.flatMap shownLine ++ [[]], ?_⟩
  rw [markdownLines_unlines, List.flatMap_append, List.flatMap_append, List.append_assoc _ _ [[]]]

theorem changesTable_shown (d : CommitDiff) {changes : List BenchmarkChange}
    (listed : changes ∈ [d.regressions, d.improvements]) :
    (changesTable changes).flatMap shownLine <:+: markdownLines (diffReport d).toList := by
  refine shown_infix ?_
  -- Six parts of the report stand below the regressions and four below the improvements.
  rcases List.mem_cons.1 listed with rfl | listed
  · iterate 6 apply List.infix_append_of_infix_left
    exact List.infix_append_right
  · cases List.mem_singleton.1 listed
    iterate 4 apply List.infix_append_of_infix_left
    exact List.infix_append_right

theorem summaryLines_shown (s : SeriesSummary) :
    (summaryLines s.benchmarks ++ [""]).flatMap shownLine <:+:
      markdownLines (seriesSummary s).toList := by
  refine shown_infix ⟨["# Benchmark Summary: " ++ s.series, "", runsLine s] ++
    (s.latestCommit.toList.map fun c => "Latest commit: `" ++ shortCommit c ++ "`") ++ [""],
    ["---", "Total benchmarks: " ++ countText s.benchmarks.length], ?_⟩
  simp [summaryLines, summaryHead]

/-- The tables of a report stand in it with an empty line below. Each comes out line by line, with a
row for each change or benchmark and the separators of its head in every row, just if every name and
every primary unit in it is a text without line ends and without bars that are not escaped. -/
theorem tables_show_iff (d : CommitDiff) (s : SeriesSummary) :
    (∀ changes ∈ [d.regressions, d.improvements], changes ≠ [] →
      (changesLines changes ++ [""]).flatMap shownLine <:+: markdownLines (diffReport d).toList ∧
        (Shows 5 (changesLines changes) ↔ ∀ c ∈ changes, FitsRow c.benchmark c.unit)) ∧
      (summaryLines s.benchmarks ++ [""]).flatMap shownLine <:+:
        markdownLines (seriesSummary s).toList ∧
      (Shows 8 (summaryLines s.benchmarks) ↔
        ∀ row ∈ s.benchmarks, FitsRow row.benchmark row.unit) := by
  refine ⟨fun changes listed some => ⟨?_, shows_changesLines changes⟩, summaryLines_shown s,
    shows_summaryLines s.benchmarks⟩
  rw [← changesTable_eq some]
  exact changesTable_shown d listed

/-- A run whose benchmarks have an escaped bar in the name and further measures in the unit. -/
def escapedRun (value : Float) : CommitEntry :=
  .plain "c0ffee" 10 [⟨"lex\\|parse", value, "ns/op\t3 B|op", none⟩]

def escapedDiff : CommitDiff :=
  compareEntries "s" (escapedRun 100.0) (escapedRun 150.0) 0.2 .empty

def escapedSummary : SeriesSummary :=
  summarize ⟨"s", [escapedRun 100.0, escapedRun 150.0]⟩

theorem tables_show_of_escapedRun :
    escapedDiff.regressions.map (·.benchmark) = ["lex\\|parse"] ∧
      (changesLines escapedDiff.regressions ++ [""]).flatMap shownLine <:+:
        markdownLines (diffReport escapedDiff).toList ∧
      Shows 5 (changesLines escapedDiff.regressions) ∧
      Shows 8 (summaryLines escapedSummary.benchmarks) := by
  obtain ⟨diff, _, summary⟩ := tables_show_iff escapedDiff escapedSummary
  have named : escapedDiff.regressions.map (·.benchmark) = ["lex\\|parse"] := by decide +kernel
  have some : escapedDiff.regressions ≠ [] := by
    intro none
    rw [none] at named
    cases named
  obtain ⟨shown, fits⟩ := diff _ (.head _) some
  exact ⟨named, shown, fits.2 (by decide +kernel), summary.2 (by decide +kernel)⟩

/-- A run with a bar in one name and a line feed in another. -/
def barredRun (value : Float) : CommitEntry :=
  .plain "c0ffee" 10 [⟨"a|b", value, "ns/op", none⟩, ⟨"c\nd", value, "ns/op", none⟩]

/-- A row's separators and the number of lines in which it comes out. -/
def shape (row : String) : Nat × Nat :=
  (separators row.toList, (shownLine row).length)

/-- Such names are accepted, but the one has a separator too many in its row and the other has its
row in two lines, in both tables. -/
theorem rows_broken_by_names :
    validateEntry "s" (barredRun 100.0) = .ok () ∧ validateEntry "s" (barredRun 150.0) = .ok () ∧
      (compareEntries "s" (barredRun 100.0) (barredRun 150.0) 0.2 .empty).regressions.map
          (fun c => (c.benchmark, shape (changeRow c))) = [("a|b", 6, 1), ("c\nd", 5, 2)] ∧
      (summarize ⟨"s", [barredRun 100.0, barredRun 150.0]⟩).benchmarks.map
          (fun row => (row.benchmark, shape (summaryRow row))) =
        [("a|b", 9, 1), ("c\nd", 8, 2)] := by
  refine ⟨rfl, rfl, ?_, ?_⟩ <;> decide +kernel

end BenchLedger.Report
