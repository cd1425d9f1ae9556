import BenchLedger.NameMap
import BenchLedger.Run.Record

/-!
Which direction is the worse one for each benchmark: an override for its name, else a common
default, else what its unit implies.
-/

namespace BenchLedger

structure PolarityMap where
  -- For benchmarks without an override; `none` goes by the unit.
  fallback : Option Polarity
  overrides : NameMap Polarity

namespace PolarityMap

def empty : PolarityMap :=
  ⟨none, .empty⟩

def uniform (polarity : Polarity) : PolarityMap :=
  ⟨some polarity, .empty⟩

def withOverride (m : PolarityMap) (name : String) (polarity : Polarity) : PolarityMap :=
  { m with overrides := m.overrides.insert name polarity }

/-- The same override for several names, which are trimmed; blank ones are skipped. -/
def withOverrides (m : PolarityMap) (names : List String) (polarity : Polarity) : PolarityMap :=
  names.foldl
    (fun m name =>
      let name := Text.trimmed name
      if name.isEmpty then m else m.withOverride name polarity)
    m

/-- A fallback, then overrides for the names in two lists; a name in both is in the second. -/
def ofLists (fallback : Option Polarity) (higherIsBetter higherIsWorse : List String) :
    PolarityMap :=
  ({ PolarityMap.empty with fallback }
    |>.withOverrides higherIsBetter .higherIsBetter
    |>.withOverrides higherIsWorse .higherIsWorse)

/-- The direction in which a record gets worse. -/
def resolve (m : PolarityMap) (r : BenchmarkRecord) : Polarity :=
  match (m.overrides.get? r.name).or m.fallback with
  | some polarity => polarity
  | none => r.kind.defaultPolarity

def toJson (m : PolarityMap) : Json :=
  .object [
    ("default", .orNull (m.fallback.map fun p => .string p.name)),
    ("overrides", .object (m.overrides.pairs.map fun p => (p.1, .string p.2.name)))]

/-- A map whose fields are being read. -/
structure Fields where
  fallback : Option (Option Polarity) := none
  overrides : Option (NameMap Polarity) := none

open Json.Decoder in
def decoder : Json.Decoder PolarityMap :=
  record [
    .of "default" (optional (stringOf Polarity.ofText?)) Fields.fallback
      fun v p => { p with fallback := some v },
    .of "overrides" (nameMap (stringOf Polarity.ofText?)) Fields.overrides
      fun v p => { p with overrides := some v }]
    {}
    fun p => some ⟨p.fallback.join, p.overrides.getD .empty⟩

end PolarityMap

end BenchLedger
