import BenchLedger.Proofs.NormalizedRecords
import BenchLedger.Query.PolarityMap

/-!
The unit of a composite record's own value, which is chosen twice: as what stands before the first
tab, and as the first segment that is not blank. Main statement: `BenchmarkRecord.primary_measure`:
both agree just if the text before the first tab is not blank; otherwise the record has no kind of
its own and is judged as if it had no unit.
-/

namespace BenchLedger

namespace Measure

/-- Whether there is nothing but blanks before the first tab of a unit. -/
def startsBlank (unit : String) : Bool :=
  Text.allBlank (unit.toList.takeWhile (!isTab ·))

variable {unit : String}

theorem primaryUnit_eq_empty : primaryUnit unit = "" ↔ startsBlank unit = true := by
  rw [startsBlank, ← Text.trim_eq_nil, primaryUnit, ← String.toList_inj]
  simp

/-- The first segment is what stands before the first tab if that is not blank. -/
theorem head?_segments (visible : startsBlank unit = false) :
    (segments unit).head? = some (primaryUnit unit).toList := by
  have piece := Text.head?_pieces isTab unit.toList
  cases found : Text.pieces isTab unit.toList with
  | nil => exact absurd found (Text.pieces_ne_nil isTab _)
  | cons first rest =>
    rw [found, List.head?_cons, Option.some.injEq] at piece
    have kept : (Text.trim first).isEmpty = false := by
      rw [List.isEmpty_eq_false_iff, Ne, Text.trim_eq_nil, piece, ← startsBlank, visible]
      decide
    rw [segments, found, List.map_cons, List.filter_cons_of_pos (by rw [kept]; rfl),
      List.head?_cons, primaryUnit, String.toList_ofList, piece]

/-- The first of the measures has the record's own value and a unit that is not empty. -/
theorem exists_primary {primary : Float} {ms : List Measure}
    (h : split primary unit = .ok (some ms)) :
    ∃ m rest, ms = m :: rest ∧ m.value = primary ∧ m.unit ≠ "" ∧
      (segments unit).head? = some m.unit.toList := by
  obtain ⟨first, rest, others, found, _, rfl⟩ := split_eq_some h
  refine ⟨_, others, rfl, rfl, ?_, by simp [found]⟩
  have segment : first ∈ segments unit := by simp [found]
  have visible := (List.mem_filter.1 segment).2
  rintro empty
  rw [← String.toList_inj, String.toList_ofList] at empty
  simp [empty] at visible

/-- Blanks around a unit do not count when it is classified. -/
theorem ofUnit_trim (cs : List Char) : MetricKind.ofUnit (Text.trim cs) = .ofUnit cs := by
  rw [MetricKind.ofUnit, MetricKind.ofUnit, Text.trim_trim]

end Measure

namespace BenchmarkRecord

variable {r : BenchmarkRecord}

theorem resolve_empty (r : BenchmarkRecord) :
    PolarityMap.empty.resolve r = r.kind.defaultPolarity := rfl

/-- The record of a measure is of the kind of the measure. -/
theorem kind_explodedRecord {ms : List Measure} (split : r.SplitsInto ms) {m : Measure}
    (member : m ∈ ms) : (explodedRecord r m).kind = m.kind := by
  have plain : Measure.isComposite m.unit = false := Measure.isComposite_of_split split member
  have untabbed : ∀ c ∈ m.unit.toList, (!Measure.isTab c) = true := by
    simpa [Measure.isComposite] using plain
  have primary : (Measure.primaryUnit m.unit).toList = Text.trim m.unit.toList := by
    rw [Measure.primaryUnit, List.takeWhile_eq_self_iff.2 untabbed, String.toList_ofList]
  show MetricKind.ofUnit (Measure.primaryUnit m.unit).toList = .ofUnit m.unit.toList
  rw [primary, Measure.ofUnit_trim]

/-- The first measure of a composite record has the record's primary unit just if the text before
the first tab is not blank. Then the kinds of the two agree, and so do the polarities of the record
and of the one that is made of the measure, where none is given. Otherwise the primary unit is
empty, the record is of no known kind, and larger values count as worse whatever the measure is. -/
theorem primary_measure {ms : List Measure} (split : r.SplitsInto ms) :
    ∃ m rest, ms = m :: rest ∧ m.value = r.value ∧
      (m.unit = Measure.primaryUnit r.unit ↔ Measure.startsBlank r.unit = false) ∧
      (Measure.startsBlank r.unit = false → r.kind = m.kind ∧
        PolarityMap.empty.resolve r = PolarityMap.empty.resolve (explodedRecord r m)) ∧
      (Measure.startsBlank r.unit = true → Measure.primaryUnit r.unit = "" ∧ r.kind = .other ∧
        PolarityMap.empty.resolve r = .higherIsWorse) := by
  obtain ⟨m, rest, rfl, value, filled, first⟩ := Measure.exists_primary split
  have same (visible : Measure.startsBlank r.unit = false) :
      m.unit = Measure.primaryUnit r.unit := by
    rw [Measure.head?_segments visible, Option.some.injEq, String.toList_inj] at first
    exact first.symm
  refine ⟨m, rest, rfl, value, ⟨fun agree => ?_, same⟩, fun visible => ?_, fun blank => ?_⟩
  · rw [← Bool.not_eq_true, ← Measure.primaryUnit_eq_empty, ← agree]
    exact filled
  · have kinds : r.kind = m.kind := by rw [kind, Measure.kind, same visible]
    refine ⟨kinds, ?_⟩
    rw [resolve_empty, resolve_empty, kind_explodedRecord split List.mem_cons_self, kinds]
  · have empty := Measure.primaryUnit_eq_empty.2 blank
    have kinds : r.kind = .other := by
      rw [kind, empty]
      rfl
    exact ⟨empty, kinds, by rw [resolve_empty, kinds]; rfl⟩

/-- A record with a rate, blank segments and a further measure. -/
def padded : BenchmarkRecord :=
  ⟨"b", 100.25, " MB/s\t \t\t 8 B/op\t", none⟩

theorem primary_measure_of_padded :
    padded.SplitsInto [⟨100.25, "MB/s"⟩, ⟨8.0, "B/op"⟩] ∧
      Measure.startsBlank padded.unit = false ∧ padded.kind = .throughput ∧
      PolarityMap.empty.resolve padded
        = PolarityMap.empty.resolve (explodedRecord padded ⟨100.25, "MB/s"⟩) := by
  have split : padded.SplitsInto [⟨100.25, "MB/s"⟩, ⟨8.0, "B/op"⟩] := rfl
  have visible : Measure.startsBlank padded.unit = false := by decide +kernel
  obtain ⟨m, rest, same, _, _, agrees, _⟩ := primary_measure split
  cases same
  obtain ⟨kinds, polarities⟩ := agrees visible
  refine ⟨split, visible, ?_, polarities⟩
  rw [kinds]
  decide +kernel

/-- A rate behind a tab. -/
def offset : BenchmarkRecord :=
  ⟨"b", 1.0, "\tMB/s", none⟩

/-- The first measure is the rate, but the record is not known as one, and more of it counts as
worse. -/
theorem kind_of_offset :
    offset.SplitsInto [⟨1.0, "MB/s"⟩] ∧ Measure.primaryUnit offset.unit ≠ "MB/s" ∧
      offset.kind ≠ Measure.kind ⟨1.0, "MB/s"⟩ ∧
      PolarityMap.empty.resolve offset
        ≠ PolarityMap.empty.resolve (explodedRecord offset ⟨1.0, "MB/s"⟩) := by
  refine ⟨rfl, ?_, ?_, ?_⟩ <;> decide +kernel

end BenchmarkRecord

end BenchLedger
