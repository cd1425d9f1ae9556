import BenchLedger.History.Store
import BenchLedger.Query.Comparison
import BenchLedger.Query.Summary

/-!
Queries over a store. Each looks at one snapshot of one series.
-/

namespace BenchLedger.HistoryStore

/-- The last `n` entries by run time, the newest last. -/
def latest (s : HistoryStore) (series : String) (n : Nat) : Except Failure (List CommitEntry) :=
  if n = 0 then .ok []
  else do
    let snapshot ← s.getSeries series
    return snapshot.entries.drop (snapshot.entries.length - n)

/-- Whether there is an entry at a position that satisfies a condition. -/
def holdsAt (p : CommitEntry → Bool) (es : List CommitEntry) (i : Nat) : Bool :=
  es[i]?.any p

/-- The last position of a window at which a condition holds, or its first position if there is
none. The condition must not hold again once it has failed. -/
def lastHolding (p : CommitEntry → Bool) (es : List CommitEntry) (base size : Nat) : Nat :=
  if 1 < size then
    let half := size / 2
    let middle := base + half
    lastHolding p es (if holdsAt p es middle then middle else base) (size - half)
  else base
termination_by size

/-- How many entries in front satisfy a condition that does not hold again once it has failed. -/
def partitionPoint (p : CommitEntry → Bool) (es : List CommitEntry) : Nat :=
  let last := lastHolding p es 0 es.length
  if holdsAt p es last then last + 1 else last

/-- The positions between which the entries with run times from `first` to `last` lie. -/
def window (es : List CommitEntry) (first last : Int) : Nat × Nat :=
  (partitionPoint (fun e => e.date < first) es, partitionPoint (fun e => e.date ≤ last) es)

/-- The entries with run times from `first` to `last`, both included. -/
def range (s : HistoryStore) (series : String) (first last : Int) :
    Except Failure (List CommitEntry) :=
  if last < first then .ok []
  else do
    let es := (← s.getSeries series).entries
    let (start, stop) := window es first last
    return (es.take stop).drop start

/-- Compares the newest value of a benchmark with the one at a baseline commit. -/
def regression (s : HistoryStore) (series benchmark baseline : String) (threshold : Float)
    (polarity : Option Polarity) : Except Failure RegressionResult := do
  (validateThreshold threshold).mapError .rejected
  regressionCheck (← s.getSeries series) benchmark baseline threshold polarity

def diff (s : HistoryStore) (series baseline candidate : String) (threshold : Float)
    (polarities : PolarityMap) : Except Failure CommitDiff := do
  (validateThreshold threshold).mapError .rejected
  diffCommits (← s.getSeries series) baseline candidate threshold polarities

def summary (s : HistoryStore) (series : String) : Except Failure SeriesSummary := do
  return summarize (← s.getSeries series)

end BenchLedger.HistoryStore
