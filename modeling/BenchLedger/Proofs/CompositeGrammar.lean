import BenchLedger.Proofs.CompositeUnits
import BenchLedger.Proofs.LiteralText
import Mathlib.Data.List.Forall2

/-!
The grammar of composite units. Main statement: `Measure.split_follows_grammar`: a unit is split
just if it has a tab and is made of pieces of the right form, the measures are those of the pieces,
and measures that are written in that form are read back, whatever blanks are put around them.
-/

namespace BenchLedger

namespace Measure

open Text (Unbroken EndsVisible allBlank isBlank trim)

/-! ### What the pieces hold -/

/-- The pieces between the tabs, trimmed, without the blank ones. -/
def visiblePieces (unit : String) : List (List Char) :=
  ((unit.toList.splitOn '\t').map trim).filter (· ≠ [])

/-- The piece is a finite number and a unit with blanks in between, and this is its measure. -/
def IsPair (piece : List Char) (m : Measure) : Prop :=
  ∃ number gap unit, piece = number ++ gap ++ unit ∧ Unbroken number ∧ Unbroken unit ∧
    gap ≠ [] ∧ allBlank gap = true ∧
    Decimal.float? number = some m.value ∧ m.value.isFinite = true ∧ m.unit = String.ofList unit

/-- The first measure is the record's own value with the first piece as its unit; each further piece
is one of the others, in order. -/
structure AreHeld (primary : Float) (pieces : List (List Char)) (ms : List Measure) : Prop where
  length : ms.length = pieces.length
  first : ms.head? = pieces.head?.map fun first => ⟨primary, String.ofList first⟩
  others : List.Forall₂ IsPair pieces.tail ms.tail

theorem isTab_iff {c : Char} : isTab c = true ↔ c = '\t' :=
  beq_iff_eq

theorem isComposite_iff {unit : String} : isComposite unit = true ↔ '\t' ∈ unit.toList := by
  simp [isComposite, isTab_iff]

theorem segments_eq (unit : String) : segments unit = visiblePieces unit := by
  have pieces : Text.pieces isTab unit.toList = unit.toList.splitOn '\t' :=
    Text.pieces_eq_splitOn '\t' _
  rw [segments, visiblePieces, pieces]
  congr
  funext piece
  cases piece <;> rfl

/-- Segments have no blanks at their ends. -/
theorem endsVisible_of_mem_segments {unit : String} {segment : List Char}
    (member : segment ∈ segments unit) : EndsVisible segment := by
  obtain ⟨piece, _, rfl⟩ := List.mem_map.1 (List.mem_filter.1 member).1
  exact Text.trim_eq_self.1 (Text.trim_trim piece)

/-- A segment gives the measure of the pair that it is. -/
theorem ofSegment_iff {segment : List Char} (visible : EndsVisible segment) {m : Measure} :
    ofSegment segment = .ok m ↔ IsPair segment m := by
  constructor
  · intro h
    simp only [ofSegment] at h
    split at h
    next number unit words =>
      split at h
      next => cases h
      next value literal =>
        split at h
        next finite =>
          cases h
          obtain ⟨left, right, gap, some, blank, same⟩ := (Text.words_eq_pair visible).1 words
          exact ⟨number, gap, unit, same, left, right, some, blank, literal, finite, rfl⟩
        next => cases h
    next => cases h
  · rintro ⟨number, gap, unit, same, left, right, some, blank, literal, finite, named⟩
    have words := (Text.words_eq_pair visible).2 ⟨left, right, gap, some, blank, same⟩
    simp only [ofSegment, words, literal, finite, if_true, ← named]

theorem ofSegments_iff {segments : List (List Char)}
    (visible : ∀ segment ∈ segments, EndsVisible segment) {ms : List Measure} :
    ofSegments segments = .ok ms ↔ List.Forall₂ IsPair segments ms := by
  induction segments generalizing ms with
  | nil => cases ms <;> simp [ofSegments]
  | cons segment rest ih =>
    obtain ⟨first, others⟩ := List.forall_mem_cons.1 visible
    have here (m : Measure) := ofSegment_iff first (m := m)
    cases read : ofSegment segment with
    | error fault =>
      have faulty (m : Measure) : ¬ IsPair segment m := by simp [← here, read]
      cases ms <;> simp [ofSegments, read, bind, Except.bind, faulty]
    | ok m =>
      have own (n : Measure) : IsPair segment n ↔ m = n := by simp [← here, read]
      cases later : ofSegments rest <;>
        cases ms <;> simp [ofSegments, read, later, bind, Except.bind, pure, Except.pure, own,
          ← ih others]

/-- A unit is split if it has a tab and its segments are a unit and pairs. -/
theorem split_iff {primary : Float} {unit : String} {ms : List Measure} :
    split primary unit = .ok (some ms) ↔
      '\t' ∈ unit.toList ∧ segments unit ≠ [] ∧ AreHeld primary (segments unit) ms := by
  constructor
  · intro h
    have tab : '\t' ∈ unit.toList := by
      rw [← isComposite_iff, ← Bool.not_eq_false]
      intro plain
      rw [split_of_not_isComposite plain] at h
      cases h
    obtain ⟨first, rest, others, found, read, rfl⟩ := split_eq_some h
    have visible : ∀ segment ∈ rest, EndsVisible segment := fun segment member =>
      endsVisible_of_mem_segments (found ▸ List.mem_cons_of_mem first member)
    have pairs := (ofSegments_iff visible).1 read
    rw [found]
    exact ⟨tab, by simp, by simp [pairs.length_eq], rfl, pairs⟩
  · rintro ⟨tab, some, held⟩
    obtain ⟨first, rest, found⟩ := List.exists_cons_of_ne_nil some
    have visible : ∀ segment ∈ rest, EndsVisible segment := fun segment member =>
      endsVisible_of_mem_segments (found ▸ List.mem_cons_of_mem first member)
    rw [found] at held
    obtain ⟨m, others, rfl⟩ : ∃ m others, ms = m :: others := by
      refine List.exists_cons_of_ne_nil fun none => ?_
      simpa [none] using held.first
    cases Option.some.inj held.first
    simp only [split, isComposite_iff.2 tab, found, (ofSegments_iff visible).2 held.others]
    rfl

/-! ### Units that are written -/

/-- Blanks other than tabs. -/
def Padding (cs : List Char) : Prop :=
  ∀ c ∈ cs, isBlank c = true ∧ c ≠ '\t'

instance {cs : List Char} : Decidable (Padding cs) :=
  List.decidableBAll (fun c => isBlank c = true ∧ c ≠ '\t') cs

/-- A literal and a unit with padding in between. -/
def JoinsPair (pair : List Char × List Char) (core : List Char) : Prop :=
  ∃ gap, gap ≠ [] ∧ Padding gap ∧ core = pair.1 ++ gap ++ pair.2

/-- The cores stand in pieces of their own, in order, with padding around them and any number of
blank pieces between them. -/
inductive SpreadOver : List (List Char) → List (List Char) → Prop where
  | done : SpreadOver [] []
  | blank {cores pieces : List (List Char)} {piece : List Char} :
    Padding piece → SpreadOver cores pieces → SpreadOver cores (piece :: pieces)
  | core {cores pieces : List (List Char)} {before core after : List Char} :
    Padding before → Padding after → SpreadOver cores pieces →
      SpreadOver (core :: cores) ((before ++ core ++ after) :: pieces)

/-- The unit is written with at least one tab between a first unit and pairs of a literal and a
unit. -/
def IsWritten (first : List Char) (pairs : List (List Char × List Char)) (unit : String) : Prop :=
  ∃ cores pieces, List.Forall₂ JoinsPair pairs cores ∧ SpreadOver (first :: cores) pieces ∧
    2 ≤ pieces.length ∧ unit = String.ofList (List.intercalate ['\t'] pieces)

/-- The measure of a literal and a unit. -/
def Means (pair : List Char × List Char) (m : Measure) : Prop :=
  Decimal.float? pair.1 = some m.value ∧ m.value.isFinite = true ∧ Unbroken pair.2 ∧
    m.unit = String.ofList pair.2

theorem Padding.allBlank {cs : List Char} (padding : Padding cs) : Text.allBlank cs = true :=
  List.all_eq_true.2 fun c member => (padding c member).1

theorem Padding.not_mem {cs : List Char} (padding : Padding cs) : '\t' ∉ cs :=
  fun member => (padding '\t' member).2 rfl

theorem not_tab_mem_of_visible {cs : List Char} (visible : Text.Visible cs) : '\t' ∉ cs := by
  intro member
  have blank : isBlank '\t' = true := by decide
  rw [visible _ member] at blank
  cases blank

/-- A core can stand in a piece: there is something of it, no blanks are at its ends, and no tab is
in it. -/
structure Fits (core : List Char) : Prop where
  filled : core ≠ []
  visible : EndsVisible core
  untabbed : '\t' ∉ core

namespace SpreadOver

variable {cores pieces : List (List Char)}

theorem untabbed (spread : SpreadOver cores pieces) (fits : ∀ core ∈ cores, Fits core) :
    ∀ piece ∈ pieces, '\t' ∉ piece := by
  induction spread with
  | done => nofun
  | blank padding _ ih => exact List.forall_mem_cons.2 ⟨padding.not_mem, ih fits⟩
  | core before after _ ih =>
    obtain ⟨core, others⟩ := List.forall_mem_cons.1 fits
    refine List.forall_mem_cons.2 ⟨?_, ih others⟩
    simp [before.not_mem, core.untabbed, after.not_mem]

/-- What is left of the pieces when they are trimmed are the cores. -/
theorem trimmed (spread : SpreadOver cores pieces) (fits : ∀ core ∈ cores, Fits core) :
    (pieces.map trim).filter (· ≠ []) = cores := by
  induction spread with
  | done => rfl
  | blank padding _ ih =>
    have nothing := Text.trim_eq_nil.2 padding.allBlank
    simpa [nothing] using ih fits
  | core before after _ ih =>
    obtain ⟨core, others⟩ := List.forall_mem_cons.1 fits
    rw [List.map_cons, Text.trim_padded before.allBlank after.allBlank,
      Text.trim_eq_self.2 core.visible, List.filter_cons_of_pos (by simpa using core.filled),
      ih others]

end SpreadOver

theorem Fits.of_pair {pair : List Char × List Char} {core : List Char} {m : Measure}
    (means : Means pair m) (joins : JoinsPair pair core) : Fits core ∧ IsPair core m := by
  obtain ⟨number, unit⟩ := pair
  obtain ⟨literal, finite, solid, named⟩ := means
  obtain ⟨gap, some, padding, rfl⟩ := joins
  have word := Decimal.unbroken_of_float? literal
  refine ⟨⟨by simp [word.1], word.endsVisible_append solid gap, ?_⟩,
    number, gap, unit, rfl, word, solid, some, padding.allBlank, literal, finite, named⟩
  simp [not_tab_mem_of_visible word.2, not_tab_mem_of_visible solid.2, padding.not_mem]

theorem Fits.of_pairs {pairs : List (List Char × List Char)} {cores : List (List Char)}
    {ms : List Measure} (means : List.Forall₂ Means pairs ms)
    (joins : List.Forall₂ JoinsPair pairs cores) :
    (∀ core ∈ cores, Fits core) ∧ List.Forall₂ IsPair cores ms := by
  induction means generalizing cores with
  | nil =>
    cases joins
    exact ⟨nofun, .nil⟩
  | cons here _ ih =>
    obtain _ | ⟨own, later⟩ := joins
    obtain ⟨fit, pair⟩ := Fits.of_pair here own
    obtain ⟨fits, pairs⟩ := ih later
    exact ⟨List.forall_mem_cons.2 ⟨fit, fits⟩, .cons pair pairs⟩

theorem tab_mem_intercalate {pieces : List (List Char)} (several : 2 ≤ pieces.length) :
    '\t' ∈ List.intercalate ['\t'] pieces := by
  match pieces, several with
  | p :: q :: rest, _ => simp [List.intercalate]

/-- What is written is read back. -/
theorem split_of_isWritten {primary : Float} {first : List Char}
    {pairs : List (List Char × List Char)} {ms : List Measure} {unit : String} (fits : Fits first)
    (means : List.Forall₂ Means pairs ms) (written : IsWritten first pairs unit) :
    split primary unit = .ok (some (⟨primary, String.ofList first⟩ :: ms)) := by
  obtain ⟨cores, pieces, joins, spread, several, rfl⟩ := written
  obtain ⟨others, held⟩ := Fits.of_pairs means joins
  have all : ∀ core ∈ first :: cores, Fits core := List.forall_mem_cons.2 ⟨fits, others⟩
  have some : pieces ≠ [] := by
    rintro rfl
    simp at several
  have visible : segments (String.ofList (List.intercalate ['\t'] pieces)) = first :: cores := by
    rw [segments_eq, visiblePieces, String.toList_ofList,
      List.splitOn_intercalate '\t' (spread.untabbed all) some, spread.trimmed all]
  rw [split_iff, visible, String.toList_ofList]
  exact ⟨tab_mem_intercalate several, by simp, by simp [held.length_eq], rfl, held⟩

/-! ### The grammar -/

private theorem exists_forall₂ {α β : Type} {R : α → β → Prop} {as : List α} :
    (∃ bs, List.Forall₂ R as bs) ↔ ∀ a ∈ as, ∃ b, R a b := by
  induction as with
  | nil => exact ⟨fun _ => nofun, fun _ => ⟨[], .nil⟩⟩
  | cons a as ih =>
    rw [List.forall_mem_cons, ← ih]
    constructor
    · rintro ⟨_, held⟩
      cases held with
      | cons own others => exact ⟨⟨_, own⟩, _, others⟩
    · rintro ⟨⟨b, own⟩, bs, others⟩
      exact ⟨b :: bs, .cons own others⟩

theorem split_eq_none {primary : Float} {unit : String} :
    split primary unit = .ok none ↔ '\t' ∉ unit.toList := by
  rw [← isComposite_iff, Bool.not_eq_true]
  constructor
  · intro h
    cases composite : isComposite unit with
    | false => rfl
    | true =>
      simp only [split, composite, if_true] at h
      split at h
      · cases h
      next rest _ => cases read : ofSegments rest <;> simp [read, Except.map] at h
  · exact fun plain => split_of_not_isComposite plain primary

/-- A unit is not split if it has no tab. One with tabs is split just if, of its pieces that are not
blank, there is a first one and each further one is a finite number and a unit; the measures are
then the record's own value in the first unit and those of the further pieces. A first unit and
pairs of a finite literal and a unit that are written between tabs, with any blanks around them and
any blank pieces among them, are read back as they are. No measure has a tab in its unit. -/
theorem split_follows_grammar (primary : Float) (unit : String) :
    (split primary unit = .ok none ↔ '\t' ∉ unit.toList) ∧
    ('\t' ∈ unit.toList →
      ((∃ ms, split primary unit = .ok (some ms)) ↔
        visiblePieces unit ≠ [] ∧ ∀ piece ∈ (visiblePieces unit).tail, ∃ m, IsPair piece m) ∧
      ∀ ms, split primary unit = .ok (some ms) → AreHeld primary (visiblePieces unit) ms) ∧
    (∀ first pairs ms, first ≠ [] → '\t' ∉ first → trim first = first →
      List.Forall₂ Means pairs ms → IsWritten first pairs unit →
      split primary unit = .ok (some (⟨primary, String.ofList first⟩ :: ms))) ∧
    (∀ ms, split primary unit = .ok (some ms) → ∀ m ∈ ms, '\t' ∉ m.unit.toList) := by
  refine ⟨split_eq_none, fun tab => ⟨⟨?_, ?_⟩, ?_⟩, ?_, ?_⟩
  · rintro ⟨ms, read⟩
    obtain ⟨_, some, held⟩ := split_iff.1 read
    rw [segments_eq] at some held
    exact ⟨some, exists_forall₂.1 ⟨_, held.others⟩⟩
  · rintro ⟨some, pairs⟩
    obtain ⟨first, rest, found⟩ := List.exists_cons_of_ne_nil some
    rw [found] at pairs
    obtain ⟨others, held⟩ := exists_forall₂.2 pairs
    refine ⟨⟨primary, String.ofList first⟩ :: others, split_iff.2 ⟨tab, ?_⟩⟩
    rw [segments_eq, found]
    exact ⟨by simp, by simpa using held.length_eq.symm, rfl, held⟩
  · intro ms read
    have held := (split_iff.1 read).2.2
    rwa [segments_eq] at held
  · intro first pairs ms filled untabbed trimmed means written
    exact split_of_isWritten ⟨filled, Text.trim_eq_self.1 trimmed, untabbed⟩ means written
  · intro ms read m member
    have plain := isComposite_of_split read member
    rw [← isComposite_iff, plain]
    exact Bool.false_ne_true

/-- A unit with blank pieces, and with more blanks than are needed. -/
def spacedUnit : String :=
  "\t ns/op\t\u00a0  91.00 payload_bytes/op\t \t1.5e3   B/op "

/-- The measures of a record with the value 1920. -/
def spacedMeasures : List Measure :=
  [⟨1920.0, "ns/op"⟩, ⟨91.0, "payload_bytes/op"⟩, ⟨1500.0, "B/op"⟩]

theorem isWritten_spacedUnit : IsWritten "ns/op".toList
    [("91.00".toList, "payload_bytes/op".toList), ("1.5e3".toList, "B/op".toList)]
    spacedUnit := by
  refine ⟨["91.00 payload_bytes/op".toList, "1.5e3   B/op".toList],
    [[], [' '] ++ "ns/op".toList ++ [],
      "\u00a0  ".toList ++ "91.00 payload_bytes/op".toList ++ [], [' '],
      [] ++ "1.5e3   B/op".toList ++ [' ']], ?_, ?_, by decide, by decide +kernel⟩
  · exact .cons ⟨[' '], by decide, by decide, by decide⟩
      (.cons ⟨[' ', ' ', ' '], by decide, by decide, by decide⟩ .nil)
  · exact .blank (by decide) (.core (by decide) (by decide) (.core (by decide) (by decide)
      (.blank (by decide) (.core (by decide) (by decide) .done))))

theorem split_follows_grammar_of_spacedUnit :
    '\t' ∈ spacedUnit.toList ∧ split 1920.0 spacedUnit = .ok (some spacedMeasures) ∧
      AreHeld 1920.0 (visiblePieces spacedUnit) spacedMeasures ∧
      ∀ m ∈ spacedMeasures, '\t' ∉ m.unit.toList := by
  have tab : '\t' ∈ spacedUnit.toList := by decide +kernel
  obtain ⟨_, pieces, reads, untabbed⟩ := split_follows_grammar 1920.0 spacedUnit
  have pairs : List.Forall₂ Means [("91.00".toList, "payload_bytes/op".toList),
      ("1.5e3".toList, "B/op".toList)] [⟨91.0, "payload_bytes/op"⟩, ⟨1500.0, "B/op"⟩] :=
    .cons ⟨by decide +kernel, by decide +kernel, by decide +kernel, rfl⟩
      (.cons ⟨by decide +kernel, by decide +kernel, by decide +kernel, rfl⟩ .nil)
  have read := reads "ns/op".toList _ _ (by decide) (by decide) (by decide) pairs
    isWritten_spacedUnit
  exact ⟨tab, read, (pieces tab).2 _ read, untabbed _ read⟩

end Measure

end BenchLedger
