import BenchLedger.CommandLine.Grammar
import BenchLedger.Http.Parameters
import BenchLedger.Proofs.BlankText
import Mathlib.Data.List.Forall2

/-!
Polarities that are given by lists of names. Main statement: `polarities_of_lists`: the command that
compares two commits and the request that does so build the same map, in which higher is worse for
the names of the one list, else better for those of the other.
-/

namespace BenchLedger

open Text (allBlank)

namespace PolarityMap

/-- The names of a list, trimmed, without the blank ones. -/
def givenNames (names : List String) : List String :=
  (names.map Text.trimmed).filter (· ≠ "")

theorem mem_givenNames {names : List String} {name : String} :
    name ∈ givenNames names ↔
      ∃ given ∈ names, Text.trimmed given ≠ "" ∧ Text.trimmed given = name := by
  simp only [givenNames, List.mem_filter, List.mem_map, decide_eq_true_eq]
  constructor
  · rintro ⟨⟨given, member, rfl⟩, visible⟩
    exact ⟨given, member, visible, rfl⟩
  · rintro ⟨given, member, visible, rfl⟩
    exact ⟨⟨given, member, rfl⟩, visible⟩

theorem withOverrides_eq (m : PolarityMap) (names : List String) (polarity : Polarity) :
    m.withOverrides names polarity =
      (givenNames names).foldl (fun m name => m.withOverride name polarity) m := by
  induction names generalizing m with
  | nil => rfl
  | cons first rest ih =>
    have step : m.withOverrides (first :: rest) polarity =
        (if Text.trimmed first = "" then m
          else m.withOverride (Text.trimmed first) polarity).withOverrides rest polarity := by
      simp [withOverrides]
    rw [step, ih]
    by_cases blank : Text.trimmed first = "" <;> simp [givenNames, blank]

theorem fallback_withOverrides (m : PolarityMap) (names : List String) (polarity : Polarity) :
    (m.withOverrides names polarity).fallback = m.fallback := by
  rw [withOverrides_eq]
  induction givenNames names generalizing m with
  | nil => rfl
  | cons first rest ih => exact ih (m.withOverride first polarity)

/-- The names of a list get its polarity, and all others keep what they have. -/
theorem get?_withOverrides (m : PolarityMap) (names : List String) (polarity : Polarity)
    (name : String) :
    (m.withOverrides names polarity).overrides.get? name =
      if name ∈ givenNames names then some polarity else m.overrides.get? name := by
  rw [withOverrides_eq]
  induction givenNames names generalizing m with
  | nil => rfl
  | cons first rest ih =>
    rw [List.foldl_cons, ih, withOverride, NameMap.get?_insert]
    by_cases own : name = first <;> simp [own]

/-- The second list counts more than the first, and both count more than the fallback. -/
theorem resolve_ofLists (fallback : Option Polarity) (better worse : List String)
    (r : BenchmarkRecord) :
    (ofLists fallback better worse).resolve r =
      if r.name ∈ givenNames worse then .higherIsWorse
      else if r.name ∈ givenNames better then .higherIsBetter
      else fallback.getD r.kind.defaultPolarity := by
  simp only [resolve, ofLists, get?_withOverrides, fallback_withOverrides, empty,
    NameMap.get?_empty]
  by_cases inWorse : r.name ∈ givenNames worse
  · simp [inWorse]
  · by_cases inBetter : r.name ∈ givenNames better
    · simp [inWorse, inBetter]
    · cases fallback <;> simp [inWorse, inBetter]

/-- Only the names that are given count. -/
theorem withOverrides_congr {names others : List String}
    (same : givenNames names = givenNames others) (m : PolarityMap) (polarity : Polarity) :
    m.withOverrides names polarity = m.withOverrides others polarity := by
  rw [withOverrides_eq, withOverrides_eq, same]

end PolarityMap

namespace Http

/-- A text is a name with blanks around it. -/
def Pads (name : String) (text : List Char) : Prop :=
  ∃ before after, allBlank before = true ∧ allBlank after = true ∧
    text = before ++ name.toList ++ after

/-- How a list of names is sent: not at all if there are none, else with commas between the names
and any blanks around them. -/
def SentAs (names : List String) : Option String → Prop
  | none => names = []
  | some list => names ≠ [] ∧ ∃ texts, List.Forall₂ Pads names texts ∧
      list = String.ofList (List.intercalate [','] texts)

theorem Pads.trimmed_eq {name : String} {text : List Char} (pads : Pads name text) :
    Text.trimmed (String.ofList text) = Text.trimmed name := by
  obtain ⟨before, after, blankBefore, blankAfter, rfl⟩ := pads
  rw [Text.trimmed, String.toList_ofList, Text.trim_padded blankBefore blankAfter, Text.trimmed]

theorem Pads.no_comma {name : String} {text : List Char} (pads : Pads name text)
    (plain : ',' ∉ name.toList) : ',' ∉ text := by
  obtain ⟨before, after, blankBefore, blankAfter, rfl⟩ := pads
  have visible (cs : List Char) (blank : allBlank cs = true) : ',' ∉ cs := by
    intro member
    exact absurd (List.all_eq_true.1 blank _ member) (by decide)
  simp [visible before blankBefore, visible after blankAfter, plain]

theorem no_comma_of_pads {names : List String} {texts : List (List Char)}
    (pads : List.Forall₂ Pads names texts) (plain : ∀ name ∈ names, ',' ∉ name.toList) :
    ∀ text ∈ texts, ',' ∉ text := by
  induction pads with
  | nil => nofun
  | cons first _ ih =>
    obtain ⟨own, others⟩ := List.forall_mem_cons.1 plain
    exact List.forall_mem_cons.2 ⟨first.no_comma own, ih others⟩

theorem map_trimmed_of_pads {names : List String} {texts : List (List Char)}
    (pads : List.Forall₂ Pads names texts) :
    (texts.map String.ofList).map Text.trimmed = names.map Text.trimmed := by
  induction pads with
  | nil => rfl
  | cons first _ ih => simpa [first.trimmed_eq] using ih

/-- The names that were sent arrive. -/
theorem givenNames_splitNames {names : List String} {list : Option String}
    (sent : SentAs names list) (plain : ∀ name ∈ names, ',' ∉ name.toList) :
    PolarityMap.givenNames (splitNames list) = PolarityMap.givenNames names := by
  cases list with
  | none =>
    cases sent
    rfl
  | some list =>
    obtain ⟨some, texts, pads, rfl⟩ := sent
    have present : texts ≠ [] := by
      rintro rfl
      cases pads
      exact some rfl
    rw [splitNames, Option.getD_some, String.toList_ofList, Text.pieces_eq_splitOn,
      List.splitOn_intercalate ',' (no_comma_of_pads pads plain) present,
      PolarityMap.givenNames, map_trimmed_of_pads pads, PolarityMap.givenNames]

end Http

/-- The command that compares two commits builds a map in which higher is worse for a record whose
name is a trimmed name of the one list that is not blank, else better if it is one of the other
list, else as the fallback has it, else as the record's unit has it. A request to which the same
lists are sent, with commas between the names and any blanks around them, builds the same map. -/
theorem polarities_of_lists (fallback : Option Polarity) (better worse : List String) :
    ∃ polarities : PolarityMap,
      (∀ series baseline candidate threshold markdown strict,
        CommandLine.diff.command ⟨some series, some baseline, some candidate, threshold, fallback,
            better, worse, markdown, strict⟩
          = .ok (.ask (.diff series baseline candidate (threshold.getD defaultThreshold) polarities
              markdown strict))) ∧
      (∀ r : BenchmarkRecord, polarities.resolve r =
        if ∃ name ∈ worse, Text.trimmed name ≠ "" ∧ Text.trimmed name = r.name then .higherIsWorse
        else if ∃ name ∈ better, Text.trimmed name ≠ "" ∧ Text.trimmed name = r.name then
          .higherIsBetter
        else fallback.getD r.kind.defaultPolarity) ∧
      ∀ p : Http.DiffParameters, p.polarity = fallback →
        (∀ name ∈ better ++ worse, ',' ∉ name.toList) →
        Http.SentAs better p.higherIsBetter → Http.SentAs worse p.higherIsWorse →
          p.polarities = polarities := by
  refine ⟨.ofLists fallback better worse, fun _ _ _ _ _ _ => rfl, fun r => ?_, ?_⟩
  · simp only [PolarityMap.resolve_ofLists, PolarityMap.mem_givenNames]
  · rintro p rfl plain sentBetter sentWorse
    obtain ⟨plainBetter, plainWorse⟩ := List.forall_mem_append.1 plain
    have first := Http.givenNames_splitNames sentBetter plainBetter
    have second := Http.givenNames_splitNames sentWorse plainWorse
    rw [Http.DiffParameters.polarities, PolarityMap.ofLists, PolarityMap.ofLists,
      PolarityMap.withOverrides_congr first, PolarityMap.withOverrides_congr second]

/-- Two lists with a common name, a repeated one, blank ones and blanks around names. -/
def mixedBetter : List String :=
  [" parse", "", "lex", "lex\t"]

def mixedWorse : List String :=
  ["lex ", "\u00a0"]

/-- The parameters that send these lists. -/
def mixedParameters : Http.DiffParameters where
  baseline := "c0ffee"
  candidate := "decade"
  threshold := defaultThreshold
  polarity := some .higherIsBetter
  higherIsBetter := some " parse , ,\tlex,lex\t "
  higherIsWorse := some "lex , \u00a0"

theorem polarities_of_lists_of_mixedParameters :
    (∀ name ∈ mixedBetter ++ mixedWorse, ',' ∉ name.toList) ∧
      Http.SentAs mixedBetter mixedParameters.higherIsBetter ∧
      Http.SentAs mixedWorse mixedParameters.higherIsWorse ∧
      mixedParameters.polarities.resolve ⟨"lex", 1.0, "MB/s", none⟩ = .higherIsWorse ∧
      mixedParameters.polarities.resolve ⟨"parse", 1.0, "ns/op", none⟩ = .higherIsBetter ∧
      CommandLine.diff.command ⟨some "suite", some "c0ffee", some "decade", none,
          some .higherIsBetter, mixedBetter, mixedWorse, false, true⟩
        = .ok (.ask (.diff "suite" "c0ffee" "decade" defaultThreshold mixedParameters.polarities
            false true)) := by
  have plain : ∀ name ∈ mixedBetter ++ mixedWorse, ',' ∉ name.toList := by decide
  have sentBetter : Http.SentAs mixedBetter mixedParameters.higherIsBetter := by
    refine ⟨by decide, [" parse ".toList, " ".toList, "\tlex".toList, "lex\t ".toList], ?_,
      by decide +kernel⟩
    exact .cons ⟨[], [' '], by decide, by decide, by decide⟩
      (.cons ⟨[], [' '], by decide, by decide, by decide⟩
        (.cons ⟨['\t'], [], by decide, by decide, by decide⟩
          (.cons ⟨[], [' '], by decide, by decide, by decide⟩ .nil)))
  have sentWorse : Http.SentAs mixedWorse mixedParameters.higherIsWorse := by
    refine ⟨by decide, ["lex ".toList, " \u00a0".toList], ?_, by decide +kernel⟩
    exact .cons ⟨[], [], by decide, by decide, by decide⟩
      (.cons ⟨[' '], [], by decide, by decide, by decide⟩ .nil)
  obtain ⟨polarities, built, resolved, sent⟩ :=
    polarities_of_lists (some .higherIsBetter) mixedBetter mixedWorse
  have same := sent mixedParameters rfl plain sentBetter sentWorse
  rw [same]
  refine ⟨plain, sentBetter, sentWorse, ?_, ?_, built _ _ _ none _ _⟩
  · rw [resolved, if_pos (by decide +kernel)]
  · rw [resolved, if_neg (by decide +kernel), if_pos (by decide +kernel)]

end BenchLedger
