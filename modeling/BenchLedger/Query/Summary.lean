import BenchLedger.History.Series

/-!
A series at a glance: one row for each benchmark name that occurs in it.
-/

namespace BenchLedger

/-- What a series says about one benchmark. -/
structure BenchmarkSummary where
  benchmark : String
  -- The unit of the latest value.
  unit : String
  -- How often the benchmark occurs.
  samples : Nat
  latest : Float
  -- The value before the latest.
  previous : Option Float
  min : Float
  max : Float

structure SeriesSummary where
  series : String
  entries : Nat
  firstDate : Option Int
  lastDate : Option Int
  latestCommit : Option String
  -- Sorted by name.
  benchmarks : List BenchmarkSummary

/-- The smaller of two numbers; of equal ones the second, which tells between zeros of different
signs, and never one that is not a number if the other is. -/
def smaller (a b : Float) : Float :=
  if b.isNaN then a else if a < b then a else b

/-- The larger of two numbers, with the same preferences. -/
def larger (a b : Float) : Float :=
  if b.isNaN then a else if b < a then a else b

namespace BenchmarkSummary

/-- The row after the first record of a name. -/
def first (r : BenchmarkRecord) : BenchmarkSummary where
  benchmark := r.name
  unit := r.unit
  samples := 1
  latest := r.value
  previous := none
  min := r.value
  max := r.value

def add (row : BenchmarkSummary) (r : BenchmarkRecord) : BenchmarkSummary where
  benchmark := row.benchmark
  unit := r.unit
  samples := row.samples + 1
  latest := r.value
  previous := some row.latest
  min := smaller row.min r.value
  max := larger row.max r.value

/-- The relative change from the value before the latest, unless that one is zero. -/
def change (row : BenchmarkSummary) : Option Float :=
  match row.previous with
  | some p => if p == 0.0 then none else some ((row.latest - p) / p.abs)
  | none => none

end BenchmarkSummary

def addToRows (rows : NameMap BenchmarkSummary) (r : BenchmarkRecord) :
    NameMap BenchmarkSummary :=
  rows.insert r.name <| match rows.get? r.name with
    | some row => row.add r
    | none => .first r

/-- Sums a series up, going through its entries in the order of run times. -/
def summarize (s : SeriesSnapshot) : SeriesSummary where
  series := s.name
  entries := s.entries.length
  firstDate := s.entries.head?.map (·.date)
  lastDate := s.entries.getLast?.map (·.date)
  latestCommit := s.entries.getLast?.map (·.id)
  benchmarks := ((s.entries.flatMap (·.benches)).foldl addToRows .empty).values

def BenchmarkSummary.toJson (row : BenchmarkSummary) : Json :=
  .object [
    ("benchmark", .string row.benchmark),
    ("unit", .string row.unit),
    ("samples", .natural row.samples),
    ("latest", .real row.latest),
    ("previous", .orNull (row.previous.map .real)),
    ("min", .real row.min),
    ("max", .real row.max)]

def SeriesSummary.toJson (s : SeriesSummary) : Json :=
  .object [
    ("series", .string s.series),
    ("entries", .natural s.entries),
    ("first_date", .orNull (s.firstDate.map .whole)),
    ("last_date", .orNull (s.lastDate.map .whole)),
    ("latest_commit", .orNull (s.latestCommit.map .string)),
    ("benchmarks", .array (s.benchmarks.map BenchmarkSummary.toJson))]

end BenchLedger
