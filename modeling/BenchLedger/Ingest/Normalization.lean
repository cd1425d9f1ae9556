import BenchLedger.Run.Commit

/-!
Records with composite units, taken apart into one record for each measure. A measure whose record
is there already, from the producer or from an earlier composite, gives none.
-/

namespace BenchLedger

structure IngestConfig where
  -- Keep a composite record beside the records of its measures.
  keepComposite : Bool := true
  deriving DecidableEq, Repr

/-- The name of the record of one measure. -/
def explodedName (name unit : String) : String :=
  name ++ " - " ++ unit

def explodedRecord (r : BenchmarkRecord) (m : Measure) : BenchmarkRecord where
  name := explodedName r.name m.unit
  value := m.value
  unit := m.unit
  extra := r.extra

/-- The records of those measures whose names are new, and all names seen after them. -/
def explode (r : BenchmarkRecord) (seen : List String) :
    List Measure → List BenchmarkRecord × List String
  | [] => ([], seen)
  | m :: ms =>
    let new := explodedRecord r m
    if seen.contains new.name then explode r seen ms
    else
      let (records, seen) := explode r (new.name :: seen) ms
      (new :: records, seen)

/-- Takes records apart in turn. A record that is not composite, or whose unit is faulty, stays as
it is. -/
def normalizeRecords (keepComposite : Bool) (seen : List String) :
    List BenchmarkRecord → List BenchmarkRecord
  | [] => []
  | r :: rest =>
    match Measure.split r.value r.unit with
    | .ok (some measures) =>
      let (records, seen) := explode r seen measures
      (if keepComposite then [r] else []) ++ records ++
        normalizeRecords keepComposite seen rest
    | _ => r :: normalizeRecords keepComposite seen rest

/-- Takes the composite records of an entry apart. -/
def normalizeEntry (config : IngestConfig) (e : CommitEntry) : CommitEntry :=
  { e with
    benches := normalizeRecords config.keepComposite (e.benches.map (·.name)) e.benches }

end BenchLedger
