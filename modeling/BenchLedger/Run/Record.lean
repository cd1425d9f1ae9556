import BenchLedger.Json.Shape
import BenchLedger.Metric.Measure
import BenchLedger.Text.Numeral

/-!
Benchmark records: one named value of a run, and the note that the harness leaves beside it.
-/

namespace BenchLedger

structure BenchmarkRecord where
  name : String
  value : Float
  -- The unit of the value; a composite one carries further measures.
  unit : String
  -- A free-form note of the harness.
  extra : Option String
  deriving DecidableEq

/-- What a harness says about a run: how often it ran and how parallel. -/
structure RunNote where
  iterations : Option Nat
  procs : Option Nat
  deriving DecidableEq, Repr

namespace RunNote

def empty : RunNote :=
  ⟨none, none⟩

/-- Takes one line into account. The label is the second word; what is not a number of the right
size clears the item. -/
def addLine (note : RunNote) (line : List Char) : RunNote :=
  match Text.words line with
  | number :: label :: _ =>
    if label == "times".toList then { note with iterations := Text.unsigned? 64 number }
    else if label == "procs".toList then { note with procs := Text.unsigned? 32 number }
    else note
  | _ => note

/-- Reads a note line by line; lines that say nothing known are skipped. -/
def ofText (text : String) : RunNote :=
  (Text.lines text.toList).foldl addLine empty

end RunNote

namespace BenchmarkRecord

def isComposite (r : BenchmarkRecord) : Bool :=
  Measure.isComposite r.unit

def kind (r : BenchmarkRecord) : MetricKind :=
  .ofUnit (Measure.primaryUnit r.unit).toList

/-- All measures of the record; a plain unit gives one. -/
def measures (r : BenchmarkRecord) : Except UnitFault (List Measure) := do
  match ← Measure.split r.value r.unit with
  | some ms => return ms
  | none => return [⟨r.value, r.unit⟩]

def note (r : BenchmarkRecord) : RunNote :=
  match r.extra with
  | some text => .ofText text
  | none => .empty

def toJson (r : BenchmarkRecord) : Json :=
  .objectOf [
    ("name", some (.string r.name)),
    ("value", some (.real r.value)),
    ("unit", some (.string r.unit)),
    ("extra", r.extra.map .string)]

/-- A record whose fields are being read. -/
structure Fields where
  name : Option String := none
  value : Option Float := none
  unit : Option String := none
  extra : Option (Option String) := none

open Json.Decoder in
def decoder : Json.Decoder BenchmarkRecord :=
  record [
    .of "name" string Fields.name fun v p => { p with name := some v },
    .of "value" real Fields.value fun v p => { p with value := some v },
    .of "unit" string Fields.unit fun v p => { p with unit := some v },
    .of "extra" (optional string) Fields.extra fun v p => { p with extra := some v }]
    {}
    fun p => do
      return {
        name := ← p.name
        value := ← p.value
        unit := p.unit.getD ""
        extra := p.extra.join }

end BenchmarkRecord

end BenchLedger
