import BenchLedger.Metric.Measure
import BenchLedger.Proofs.BlankText

/-!
What the measures of a composite unit are. Main statements: `Measure.isComposite_of_split`: no
measure has a composite unit itself, and `Measure.isFinite_of_split`: all values are finite if the
record's own is.
-/

namespace BenchLedger

namespace Measure

theorem isComposite_ofList {cs : List Char} (untabbed : ∀ c ∈ cs, isTab c = false) :
    isComposite (String.ofList cs) = false := by
  simp only [isComposite, String.toList_ofList, List.any_eq_false]
  intro c member
  simp [untabbed c member]

/-- A segment has no tabs in it. -/
theorem not_isTab_of_mem_segments {unit : String} {segment : List Char}
    (found : segment ∈ segments unit) {c : Char} (member : c ∈ segment) : isTab c = false := by
  obtain ⟨piece, between, rfl⟩ := List.mem_map.1 (List.mem_filter.1 found).1
  exact Text.not_sep_of_mem_pieces between (Text.mem_of_mem_trim member)

/-- What is not blank is no tab. -/
theorem not_isTab_of_not_isBlank {c : Char} (visible : Text.isBlank c = false) :
    isTab c = false := by
  have tab : Text.isBlank '\t' = true := by decide
  simp only [isTab, beq_eq_false_iff_ne]
  rintro rfl
  rw [tab] at visible
  cases visible

/-- A measure of a further segment is finite, and its unit is not composite. -/
theorem ofSegment_eq_ok {segment : List Char} {m : Measure} (h : ofSegment segment = .ok m) :
    m.value.isFinite = true ∧ isComposite m.unit = false := by
  simp only [ofSegment] at h
  split at h
  next number unit words =>
    split at h
    next => cases h
    next value literal =>
      split at h
      next finite =>
        cases h
        have word : unit ∈ Text.words segment := by simp [words]
        refine ⟨finite, isComposite_ofList fun c member => ?_⟩
        exact not_isTab_of_not_isBlank (Text.not_isBlank_of_mem_words word member)
      next => cases h
  next => cases h

theorem mem_of_ofSegments {segments : List (List Char)} {ms : List Measure}
    (h : ofSegments segments = .ok ms) {m : Measure} (member : m ∈ ms) :
    ∃ segment ∈ segments, ofSegment segment = .ok m := by
  induction segments generalizing ms with
  | nil =>
    cases h
    cases member
  | cons segment rest ih =>
    simp only [ofSegments, bind, Except.bind] at h
    split at h
    · cases h
    next first here =>
      split at h
      · cases h
      next others later =>
        cases h
        rcases List.mem_cons.1 member with rfl | after
        · exact ⟨segment, by simp, here⟩
        · obtain ⟨s, inside, found⟩ := ih later after
          exact ⟨s, by simp [inside], found⟩

/-- The measures of a composite unit: the record's own value with the first segment, and one for
each further segment. -/
theorem split_eq_some {primary : Float} {unit : String} {ms : List Measure}
    (h : split primary unit = .ok (some ms)) :
    ∃ first rest others, segments unit = first :: rest ∧ ofSegments rest = .ok others ∧
      ms = ⟨primary, String.ofList first⟩ :: others := by
  simp only [split] at h
  split at h
  next composite =>
    split at h
    · cases h
    next first rest found =>
      cases others : ofSegments rest with
      | error fault =>
        rw [others] at h
        cases h
      | ok ms' =>
        rw [others] at h
        cases h
        exact ⟨first, rest, ms', found, others, rfl⟩
  next => cases h

/-- A unit that is not composite is not split. -/
theorem split_of_not_isComposite {unit : String} (plain : isComposite unit = false)
    (primary : Float) : split primary unit = .ok none := by
  simp [split, plain]

/-- No measure of a composite unit has a composite unit itself. -/
theorem isComposite_of_split {primary : Float} {unit : String} {ms : List Measure}
    (h : split primary unit = .ok (some ms)) {m : Measure} (member : m ∈ ms) :
    isComposite m.unit = false := by
  obtain ⟨first, rest, others, found, read, rfl⟩ := split_eq_some h
  rcases List.mem_cons.1 member with rfl | later
  · have segment : first ∈ segments unit := by simp [found]
    exact isComposite_ofList fun c inside => not_isTab_of_mem_segments segment inside
  · obtain ⟨segment, _, here⟩ := mem_of_ofSegments read later
    exact (ofSegment_eq_ok here).2

/-- The measures of a composite unit are finite if the record's own value is. -/
theorem isFinite_of_split {primary : Float} {unit : String} {ms : List Measure}
    (h : split primary unit = .ok (some ms)) (finite : primary.isFinite = true) {m : Measure}
    (member : m ∈ ms) : m.value.isFinite = true := by
  obtain ⟨first, rest, others, _, read, rfl⟩ := split_eq_some h
  rcases List.mem_cons.1 member with rfl | later
  · exact finite
  · obtain ⟨segment, _, here⟩ := mem_of_ofSegments read later
    exact (ofSegment_eq_ok here).1

end Measure

end BenchLedger
