import BenchLedger.NameMap
import BenchLedger.Text.Numeral

/-!
What a service counts while it runs, and the lines in which it shows its counters.
-/

namespace BenchLedger

inductive QueryKind where
  | series
  | latest
  | range
  | regression
  | diff
  | summary
  deriving DecidableEq, Repr

def QueryKind.name : QueryKind → String
  | .series => "series"
  | .latest => "latest"
  | .range => "range"
  | .regression => "regression"
  | .diff => "diff"
  | .summary => "summary"

structure Counters where
  ingested : Nat
  rejected : Nat
  flushFailures : Nat
  -- By the name of the query.
  queries : NameMap Nat

namespace Counters

def zero : Counters :=
  ⟨0, 0, 0, .empty⟩

def addQuery (c : Counters) (kind : QueryKind) : Counters :=
  { c with queries := c.queries.insert kind.name ((c.queries.get? kind.name).getD 0 + 1) }

/-- A counter's line; a counter that was never raised has none. -/
def line? (name : String) (n : Nat) : Option String :=
  if n = 0 then none
  else some ("bench_history_" ++ name ++ " " ++ String.ofList (Text.digitsOf n))

def lines (c : Counters) : List String :=
  [line? "flush_failures_total" c.flushFailures,
    line? "ingest_rejected_total" c.rejected,
    line? "ingest_total" c.ingested].filterMap id ++
  c.queries.pairs.filterMap fun p =>
    line? ("query_total\x7boperation=\"" ++ p.1 ++ "\"\x7d") p.2

end Counters

end BenchLedger
