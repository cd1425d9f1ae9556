import BenchLedger.Proofs.BlankText
import BenchLedger.Run.Record

/-!
Notes of the harness, line by line. Main statement: `RunNote.last_mention_decides`: of the lines
that mention an item the last one decides, whether or not it has a number; so a line without a
number does no harm just if it is not the last to mention an item for which there was a number.
-/

namespace BenchLedger

namespace Text

theorem words_dropReturn (line : List Char) : words (dropReturn line) = words line := by
  rcases List.eq_nil_or_concat line with rfl | ⟨start, c, rfl⟩
  · rfl
  · by_cases mark : c = '\r'
    · subst mark
      have blank : isBlank '\r' = true := by decide
      simp [dropReturn, words_append_cons blank start []]
    · have whole : dropReturn (start ++ [c]) = start ++ [c] := by
        simp [dropReturn, mark]
      rw [List.concat_eq_append, whole]

/-- What depends on the words of a line, and on none for a line without any, can be read off the
pieces between line feeds. -/
theorem filterMap_lines {α : Type} {f : List Char → Option α} (nothing : f [] = none)
    (onWords : ∀ line, f (dropReturn line) = f line) (cs : List Char) :
    (lines cs).filterMap f = (pieces (· == '\n') cs).filterMap f := by
  rcases List.eq_nil_or_concat (pieces (· == '\n') cs) with none | ⟨ended, last, split⟩
  · exact absurd none (pieces_ne_nil _ cs)
  · have returns : (ended.map dropReturn).filterMap f = ended.filterMap f := by
      rw [List.filterMap_map]
      exact List.filterMap_congr fun line _ => onWords line
    rw [lines, split]
    by_cases empty : last = []
    · subst empty
      simp [returns, nothing]
    · simp [returns, empty]

end Text

namespace RunNote

/-- The two things that a note can say. -/
inductive Item where
  | iterations
  | procs

namespace Item

def label : Item → List Char
  | .iterations => "times".toList
  | .procs => "procs".toList

/-- The width of the words that hold the number. -/
def bits : Item → Nat
  | .iterations => 64
  | .procs => 32

/-- What a line says of an item that it mentions by its second word: the number that is its first
word, or nothing if that is not a number of the right size. -/
def reading? (item : Item) (line : List Char) : Option (Option Nat) :=
  match Text.words line with
  | number :: label :: _ =>
    if label = item.label then some (Text.unsigned? item.bits number) else none
  | _ => none

/-- The number that a line gives for an item. -/
def value? (item : Item) (line : List Char) : Option Nat :=
  (item.reading? line).join

/-- What the lines of a text that mention an item say of it. -/
def readings (item : Item) (text : String) : List (Option Nat) :=
  (Text.lines text.toList).filterMap item.reading?

/-- The numbers that the lines of a text give for an item. -/
def values (item : Item) (text : String) : List Nat :=
  (Text.lines text.toList).filterMap item.value?

end Item

def get (note : RunNote) : Item → Option Nat
  | .iterations => note.iterations
  | .procs => note.procs

theorem ext_get {note other : RunNote} : note = other ↔ ∀ item, note.get item = other.get item := by
  constructor
  · rintro rfl item
    rfl
  · intro same
    cases note
    cases other
    have iterations := same .iterations
    have procs := same .procs
    simp_all [get]

/-- A line changes the items that it mentions and no others. -/
theorem get_addLine (note : RunNote) (line : List Char) (item : Item) :
    (note.addLine line).get item = (item.reading? line).getD (note.get item) := by
  -- A line of fewer than two words mentions nothing; the label decides about the others.
  rcases found : Text.words line with _ | ⟨number, _ | ⟨label, rest⟩⟩
  · simp [addLine, Item.reading?, found]
  · simp [addLine, Item.reading?, found]
  · by_cases times : label = "times".toList
    · cases item <;> simp [addLine, Item.reading?, Item.label, Item.bits, get, found, times]
    · by_cases procs : label = "procs".toList
      · cases item <;> simp [addLine, Item.reading?, Item.label, Item.bits, get, found, procs]
      · cases item <;> simp_all [addLine, Item.reading?, Item.label, get]

/-- Of several lines the last one that mentions an item decides. -/
theorem get_foldl_addLine (lines : List (List Char)) (note : RunNote) (item : Item) :
    (lines.foldl addLine note).get item =
      (lines.filterMap item.reading?).getLast?.getD (note.get item) := by
  induction lines using List.reverseRecOn with
  | nil => rfl
  | append_singleton lines line ih =>
    rw [List.foldl_append, List.foldl_cons, List.foldl_nil, get_addLine, ih]
    cases said : item.reading? line <;> simp [said]

theorem get_ofText (text : String) (item : Item) :
    (ofText text).get item = (item.readings text).getLast?.join := by
  rw [ofText, get_foldl_addLine, ← Item.readings]
  cases (item.readings text).getLast? with
  | none => cases item <;> rfl
  | some reading => rfl

/-! ### One more line -/

/-- A line is put into a text, in front of it, between two lines or behind it. -/
inductive Inserted (line : String) : (before after text longer : String) → Prop where
  | only : Inserted line "" "" "" line
  | first (after : String) : Inserted line "" after after (line ++ "\n" ++ after)
  | between (before after : String) :
    Inserted line before after (before ++ "\n" ++ after) (before ++ "\n" ++ line ++ "\n" ++ after)
  | last (before : String) : Inserted line before "" (before ++ "\n") (before ++ "\n" ++ line)
  | appended (before : String) : Inserted line before "" before (before ++ "\n" ++ line)

theorem Item.reading?_dropReturn (item : Item) (line : List Char) :
    item.reading? (Text.dropReturn line) = item.reading? line := by
  rw [Item.reading?, Text.words_dropReturn, ← Item.reading?]

theorem Item.readings_eq (item : Item) (text : String) :
    item.readings text = (Text.pieces (· == '\n') text.toList).filterMap item.reading? :=
  Text.filterMap_lines rfl item.reading?_dropReturn text.toList

theorem Item.readings_append (item : Item) (before after : String) :
    item.readings (before ++ "\n" ++ after) = item.readings before ++ item.readings after := by
  have parts : (before ++ "\n" ++ after).toList = before.toList ++ '\n' :: after.toList := by simp
  rw [Item.readings_eq, parts, Text.pieces_append_cons rfl, List.filterMap_append,
    ← Item.readings_eq, ← Item.readings_eq]

theorem Item.readings_line (item : Item) {line : String} (single : '\n' ∉ line.toList) :
    item.readings line = (item.reading? line.toList).toList := by
  have whole : Text.pieces (· == '\n') line.toList = [line.toList] := by
    refine Text.pieces_eq_singleton fun c member => beq_eq_false_iff_ne.2 ?_
    rintro rfl
    exact single member
  rw [Item.readings_eq, whole]
  cases said : item.reading? line.toList <;> simp [said]

@[simp] theorem Item.readings_empty (item : Item) : item.readings "" = [] := rfl

variable {line before after text longer : String}

theorem Inserted.readings (put : Inserted line before after text longer) (item : Item) :
    item.readings text = item.readings before ++ item.readings after ∧
      item.readings longer = item.readings before ++ item.readings line ++ item.readings after := by
  cases put with
  | only => simp
  | first after => simp [Item.readings_append]
  | between before after => simp [Item.readings_append]
  | last before =>
    have ended := item.readings_append before ""
    rw [String.append_empty] at ended
    simp [Item.readings_append, ended]
  | appended before => simp [Item.readings_append]

/-- A line of its own that gives no number for either item. -/
structure IsNoise (line : String) : Prop where
  single : '\n' ∉ line.toList
  silent : ∀ item : Item, item.value? line.toList = none

/-- A reading without a number makes no difference if it is overruled or has nothing to overrule. -/
theorem join_getLast?_inserted {reading : Option (Option Nat)} (silent : reading.join = none)
    (before after : List (Option Nat)) :
    (before ++ reading.toList ++ after).getLast?.join = (before ++ after).getLast?.join ↔
      reading = none ∨ after ≠ [] ∨ before.getLast?.join = none := by
  rcases List.eq_nil_or_concat after with rfl | ⟨after, later, rfl⟩
  · cases reading with
    | none => simp
    | some number =>
      obtain rfl : number = none := by simpa using silent
      simp [eq_comm]
  · simp [List.getLast?_append]

/-- The last reading has the last number just if it has a number or no reading has one. -/
theorem join_getLast?_eq_iff (readings : List (Option Nat)) :
    readings.getLast?.join = (readings.filterMap id).getLast? ↔
      (readings.getLast? = some none → readings.filterMap id = []) := by
  rcases List.eq_nil_or_concat readings with rfl | ⟨readings, reading, rfl⟩
  · simp
  · cases reading with
    | none =>
      rw [List.concat_eq_append, List.filterMap_append, List.getLast?_concat]
      simp [eq_comm (a := none)]
    | some number => simp

theorem Item.values_eq (item : Item) (text : String) :
    item.values text = (item.readings text).filterMap id := by
  rw [Item.values, Item.readings, List.filterMap_filterMap]
  rfl

/-- The number of an item is that of the last line that mentions it, if that has one; so it is that
of the last line that gives one just if no line without a number comes later. A further line without
a number changes nothing just if each item that it mentions is mentioned later, or has no number
before. -/
theorem last_mention_decides (text : String) :
    (∀ item : Item, (ofText text).get item = (item.readings text).getLast?.join ∧
      ((ofText text).get item = (item.values text).getLast? ↔
        ((item.readings text).getLast? = some none → item.values text = []))) ∧
      ∀ {line before after longer : String}, IsNoise line →
        Inserted line before after text longer →
          (ofText longer = ofText text ↔ ∀ item : Item, item.reading? line.toList = none ∨
            item.readings after ≠ [] ∨ (ofText before).get item = none) := by
  refine ⟨fun item => ?_, fun {line before after longer} noise put => ?_⟩
  · rw [get_ofText, Item.values_eq]
    exact ⟨rfl, join_getLast?_eq_iff _⟩
  · rw [ext_get]
    refine forall_congr' fun item => ?_
    obtain ⟨short, long⟩ := put.readings item
    rw [get_ofText, get_ofText, get_ofText, short, long, item.readings_line noise.single]
    exact join_getLast?_inserted (noise.silent item) _ _

theorem isNoise_manyTimes : IsNoise "many times" where
  single := by decide +kernel
  silent item := by cases item <;> decide +kernel

/-- A line without a number between two lines that both give one. -/
theorem last_mention_decides_of_overruled :
    IsNoise "many times" ∧
      Inserted "many times" "5 times" "8 times\n4 procs" "5 times\n8 times\n4 procs"
        "5 times\nmany times\n8 times\n4 procs" ∧
      ofText "5 times\nmany times\n8 times\n4 procs" = ofText "5 times\n8 times\n4 procs" := by
  have put : Inserted "many times" "5 times" "8 times\n4 procs" "5 times\n8 times\n4 procs"
      "5 times\nmany times\n8 times\n4 procs" := .between "5 times" "8 times\n4 procs"
  refine ⟨isNoise_manyTimes, put,
    ((last_mention_decides _).2 isNoise_manyTimes put).2 fun item => ?_⟩
  cases item with
  | iterations => exact .inr (.inl (by decide +kernel))
  | procs => exact .inl (by decide +kernel)

/-- A line without a number at the end hides the number that was there. -/
theorem number_lost_to_noise :
    IsNoise "many times" ∧
      Inserted "many times" "5 times" "" "5 times" "5 times\nmany times" ∧
      (ofText "5 times").get .iterations = some 5 ∧
      (ofText "5 times\nmany times").get .iterations = none ∧
      Item.values .iterations "5 times\nmany times" = [5] := by
  refine ⟨isNoise_manyTimes, .appended "5 times", ?_⟩
  decide +kernel

end RunNote

end BenchLedger
