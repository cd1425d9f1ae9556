import BenchLedger.Json.Shape
import BenchLedger.Proofs.NumberText

/-!
JSON texts that were written. Main statement: `decode_write`: a value's text, in either style, is
decoded as the value's own tree, provided its numbers have literals.
-/

namespace BenchLedger.Json

/-! ### Strings -/

private theorem hexPair_unit : ∀ n < 32,
    unit? '0' '0' (Nat.digitChar (n / 16)) (Nat.digitChar (n % 16)) = some n := by
  decide

theorem takeString_plain {c : Char} (noQuote : c ≠ '"') (noBackslash : c ≠ '\\')
    (noControl : 0x20 ≤ c.toNat) (rest : List Char) :
    takeString (c :: rest) = consChar c (takeString rest) := by
  rw [takeString.eq_def (c :: rest)]
  simp [noQuote, noBackslash, Nat.not_lt.2 noControl]

theorem takeString_short {e d : Char} (meaning : shortEscape? e = some d)
    (rest : List Char) : takeString ('\\' :: e :: rest) = consChar d (takeString rest) := by
  rw [takeString.eq_def ('\\' :: e :: rest)]
  simp [meaning]

private theorem takeString_unit {a b c d : Char} {unit : Nat} (digits : unit? a b c d = some unit)
    (low : unit < 0xD800) (rest : List Char) :
    takeString ('\\' :: 'u' :: a :: b :: c :: d :: rest)
      = consChar (Char.ofNat unit) (takeString rest) := by
  have noTrailing : isTrailing unit = false := by
    simp only [isTrailing, Bool.and_eq_false_iff, decide_eq_false_iff_not]
    omega
  have noLeading : isLeading unit = false := by
    simp only [isLeading, Bool.and_eq_false_iff, decide_eq_false_iff_not]
    omega
  have noShort : shortEscape? 'u' = none := by decide
  rw [takeString.eq_def ('\\' :: 'u' :: a :: b :: c :: d :: rest)]
  simp [noShort, digits, noTrailing, noLeading]

/-- One character is read from what is written for it. -/
theorem takeString_escapeChar (c : Char) (rest : List Char) :
    takeString (escapeChar c ++ rest) = consChar c (takeString rest) := by
  by_cases short : ∃ e, escapeChar c = ['\\', e] ∧ shortEscape? e = some c
  · obtain ⟨e, written, meaning⟩ := short
    rw [written]
    exact takeString_short meaning rest
  unfold escapeChar at short ⊢
  -- The seven characters with an escape of their own are short ones.
  split at short
  next same => exact absurd ⟨'"', rfl, by rw [beq_iff_eq.1 same]; rfl⟩ short
  split at short
  next same => exact absurd ⟨'\\', rfl, by rw [beq_iff_eq.1 same]; rfl⟩ short
  split at short
  next same => exact absurd ⟨'n', rfl, by rw [beq_iff_eq.1 same]; rfl⟩ short
  split at short
  next same => exact absurd ⟨'t', rfl, by rw [beq_iff_eq.1 same]; rfl⟩ short
  split at short
  next same => exact absurd ⟨'r', rfl, by rw [beq_iff_eq.1 same]; rfl⟩ short
  split at short
  next same => exact absurd ⟨'b', rfl, by rw [beq_iff_eq.1 same]; rfl⟩ short
  split at short
  next same => exact absurd ⟨'f', rfl, by rw [beq_iff_eq.1 same]; rfl⟩ short
  next noQuote noBackslash _ _ _ _ _ =>
    simp only [*, if_false, Bool.false_eq_true]
    split
    next control =>
      have digits := hexPair_unit c.toNat control
      have read := takeString_unit digits (by omega) rest
      rw [Char.ofNat_toNat] at read
      exact read
    next printable =>
      exact takeString_plain (by simpa using noQuote) (by simpa using noBackslash)
        (Nat.not_lt.1 printable) rest

theorem takeString_written (cs rest : List Char) :
    takeString (cs.flatMap escapeChar ++ '"' :: rest) = .ok (cs, rest) := by
  induction cs with
  | nil =>
    rw [List.flatMap_nil, List.nil_append, takeString.eq_def]
    rfl
  | cons c cs ih =>
    rw [List.flatMap_cons, List.append_assoc, takeString_escapeChar, ih]
    rfl

/-- A string reads back from behind its opening quote. -/
theorem readString_written (s : String) (rest : List Char) :
    readString (s.toList.flatMap escapeChar ++ '"' :: rest) = ⟨.ofValue s, some rest⟩ := by
  simp [readString, takeString_written, Leaf.ofValue]

/-! ### Blanks -/

@[simp] theorem skipSpace_gap (style : Style) (depth : Nat) (cs : List Char) :
    skipSpace (style.gap depth ++ cs) = skipSpace cs := by
  cases style with
  | compact => rfl
  | pretty =>
    have blank : ∀ c ∈ Style.pretty.gap depth, isSpace c = true := by
      intro c member
      simp only [Style.gap, List.mem_cons, List.mem_replicate] at member
      rcases member with rfl | ⟨_, rfl⟩ <;> decide
    exact List.dropWhile_append_of_pos blank

theorem skipSpace_of_head {c : Char} {cs : List Char} (h : isSpace c = false) :
    skipSpace (c :: cs) = c :: cs := by
  simp [skipSpace, h]

/-- Blanks in front of a value do not count. -/
theorem readValue_skipSpace (fuel : Nat) {cs ds : List Char} (h : skipSpace cs = skipSpace ds) :
    readValue fuel cs = readValue fuel ds := by
  cases fuel with
  | zero => rfl
  | succ fuel => simp only [readValue, h]

/-! ### Values -/

mutual

/-- Every number of a value has a literal. -/
def Readable : Json → Prop
  | .null => True
  | .bool _ => True
  | .number n => n.Legible
  | .string _ => True
  | .array items => ReadableItems items
  | .object members => ReadableMembers members

def ReadableItems : List Json → Prop
  | [] => True
  | v :: vs => v.Readable ∧ ReadableItems vs

def ReadableMembers : List (String × Json) → Prop
  | [] => True
  | (_, v) :: ms => v.Readable ∧ ReadableMembers ms

end

/-- A value's text starts with a character that is neither a blank nor a closing bracket. -/
theorem write_head (style : Style) (depth : Nat) {v : Json} (readable : v.Readable) :
    ∃ c more, write style depth v = c :: more ∧ isSpace c = false ∧ c ≠ ']' := by
  cases v with
  | null => exact ⟨_, _, rfl, rfl, by decide⟩
  | bool b => cases b <;> exact ⟨_, _, rfl, rfl, by decide⟩
  | string s => exact ⟨_, _, rfl, rfl, by decide⟩
  | array items => cases items <;> exact ⟨_, _, rfl, rfl, by decide⟩
  | object members =>
    cases members with
    | nil => exact ⟨_, _, rfl, rfl, by decide⟩
    | cons m ms =>
      obtain ⟨k, v⟩ := m
      exact ⟨_, _, rfl, rfl, by decide⟩
  | number n =>
    rw [Readable] at readable
    obtain ⟨c, more, text, start⟩ := readable.head
    refine ⟨c, more, text, ?_, ?_⟩
    · rcases start with rfl | digit
      · rfl
      · have range := Text.isDigit_range digit
        simp only [isSpace, Bool.or_eq_false_iff, beq_eq_false_iff_ne]
        refine ⟨⟨⟨?_, ?_⟩, ?_⟩, ?_⟩ <;> (rintro rfl; simp at range)
    · rintro rfl
      simp at start

theorem endsNumeral_of_head {c : Char} {rest : List Char}
    (h : c.isDigit = false ∧ c ≠ '.' ∧ c ≠ 'e' ∧ c ≠ 'E') : EndsNumeral (c :: rest) := by
  simpa [EndsNumeral] using h

private theorem endsNumeral_gap (style : Style) (depth : Nat) (c : Char) (rest : List Char)
    (h : c.isDigit = false ∧ c ≠ '.' ∧ c ≠ 'e' ∧ c ≠ 'E') :
    EndsNumeral (style.gap depth ++ c :: rest) := by
  cases style with
  | compact => exact endsNumeral_of_head h
  | pretty => exact endsNumeral_of_head (by decide)

private theorem endsNumeral_items (style : Style) (depth : Nat) (vs : List Json)
    {rest : List Char} (h : EndsNumeral rest) :
    EndsNumeral (writeItems style depth vs ++ rest) := by
  cases vs with
  | nil => exact h
  | cons v vs => exact endsNumeral_of_head (by decide)

private theorem endsNumeral_members (style : Style) (depth : Nat) (ms : List (String × Json))
    {rest : List Char} (h : EndsNumeral rest) :
    EndsNumeral (writeMembers style depth ms ++ rest) := by
  cases ms with
  | nil => exact h
  | cons m ms =>
    obtain ⟨k, v⟩ := m
    exact endsNumeral_of_head (by decide)

private theorem skipSpace_write (style : Style) (depth : Nat) {v : Json} (readable : v.Readable)
    (rest : List Char) :
    skipSpace (write style depth v ++ rest) = write style depth v ++ rest := by
  obtain ⟨c, more, text, noBlank, _⟩ := write_head style depth readable
  rw [text, List.cons_append, skipSpace_of_head noBlank]

private theorem readValue_gap (fuel : Nat) (style : Style) (depth : Nat) (cs : List Char) :
    readValue fuel (style.gap depth ++ cs) = readValue fuel cs :=
  readValue_skipSpace fuel (skipSpace_gap style depth cs)

/-! ### Lists of items and members -/

section

variable {fuel : Nat} {cs ds rest : List Char} {t : Tree}

theorem readItems_first {c : Char} (start : skipSpace cs = c :: ds) (open_ : c ≠ ']')
    (value : readValue fuel (c :: ds) = ⟨t, some rest⟩) :
    readItems true (fuel + 1) cs = (readItems false fuel rest).cons t := by
  simp [readItems, start, open_, value]

theorem readItems_next (comma : skipSpace cs = ',' :: ds)
    (value : readValue fuel ds = ⟨t, some rest⟩) :
    readItems false (fuel + 1) cs = (readItems false fuel rest).cons t := by
  simp [readItems, comma, value]

theorem readItems_close {first : Bool} (close : skipSpace cs = ']' :: rest) :
    readItems first (fuel + 1) cs = ⟨[], none, some rest⟩ := by
  simp [readItems, close]

section

variable {key : Leaf String} {afterKey afterColon : List Char}
  (name : readString ds = ⟨key, some afterKey⟩) (colon : skipSpace afterKey = ':' :: afterColon)
  (value : readValue fuel afterColon = ⟨t, some rest⟩)

include name colon value

theorem readMembers_first (start : skipSpace cs = '"' :: ds) :
    readMembers true (fuel + 1) cs = (readMembers false fuel rest).cons (key, t) := by
  simp [readMembers, start, name, colon, value]

theorem readMembers_next {bs : List Char} (comma : skipSpace bs = ',' :: cs)
    (start : skipSpace cs = '"' :: ds) :
    readMembers false (fuel + 1) bs = (readMembers false fuel rest).cons (key, t) := by
  simp [readMembers, comma, start, name, colon, value]

end

theorem readMembers_close {first : Bool} (close : skipSpace cs = '\x7d' :: rest) :
    readMembers first (fuel + 1) cs = ⟨[], none, some rest⟩ := by
  simp [readMembers, close]

end

section

variable {fuel : Nat} {style : Style} {k : String} {cs ds rest : List Char} {t : Tree}

private theorem skipSpace_colon (fuel : Nat) (style : Style) (cs : List Char) :
    ∃ after, skipSpace (style.colon ++ cs) = ':' :: after ∧ readValue fuel after = readValue fuel cs
    := by
  cases style with
  | compact => exact ⟨cs, skipSpace_of_head (by decide), rfl⟩
  | pretty => exact ⟨' ' :: cs, skipSpace_of_head (by decide), readValue_skipSpace fuel rfl⟩

private theorem readMembers_first_written
    (start : skipSpace ds = stringText k ++ (style.colon ++ cs))
    (value : readValue fuel cs = ⟨t, some rest⟩) :
    readMembers true (fuel + 1) ds = (readMembers false fuel rest).cons (.ofValue k, t) := by
  obtain ⟨after, colon, same⟩ := skipSpace_colon fuel style cs
  rw [stringText, List.cons_append, List.append_assoc, List.singleton_append] at start
  exact readMembers_first (readString_written k _) colon (same.trans value) start

private theorem readMembers_next_written
    (start : skipSpace ds = stringText k ++ (style.colon ++ cs))
    (value : readValue fuel cs = ⟨t, some rest⟩) :
    readMembers false (fuel + 1) (',' :: ds) = (readMembers false fuel rest).cons (.ofValue k, t)
    := by
  obtain ⟨after, colon, same⟩ := skipSpace_colon fuel style cs
  rw [stringText, List.cons_append, List.append_assoc, List.singleton_append] at start
  exact readMembers_next (readString_written k _) colon (same.trans value)
    (skipSpace_of_head (by decide)) start

end

theorem readValue_array (fuel : Nat) (cs : List Char) :
    readValue (fuel + 1) ('[' :: cs)
      = ⟨.array (readItems true fuel cs).items (readItems true fuel cs).closing,
          (readItems true fuel cs).rest⟩ :=
  rfl

theorem readValue_object (fuel : Nat) (cs : List Char) :
    readValue (fuel + 1) (Char.ofNat 0x7B :: cs)
      = ⟨.object (readMembers true fuel cs).items (readMembers true fuel cs).closing,
          (readMembers true fuel cs).rest⟩ :=
  rfl

private theorem skipSpace_stringText (k : String) (cs : List Char) :
    skipSpace (stringText k ++ cs) = stringText k ++ cs :=
  skipSpace_of_head (by decide)

/-! ### Values and their texts -/

/-- What the literal of a number gives. -/
def writtenLeaf (n : Number) : Leaf Number :=
  (readNumber n.text).leaf

/-- The tree of a value, as it is found in the value's text. -/
def Tree.ofWritten : Json → Tree :=
  .ofJsonBy writtenLeaf

@[simp] theorem Tree.ofWritten_number (n : Number) :
    Tree.ofWritten (.number n) = .number (readNumber n.text).leaf :=
  rfl

@[simp] theorem Tree.ofWritten_string (s : String) :
    Tree.ofWritten (.string s) = .string (.ofValue s) :=
  rfl

@[simp] theorem Tree.ofWritten_array (items : List Json) :
    Tree.ofWritten (.array items) = .array (items.map Tree.ofWritten) none := by
  have each : treesBy writtenLeaf items = items.map Tree.ofWritten := by
    induction items with
    | nil => rfl
    | cons v vs ih =>
      rw [treesBy, ih]
      rfl
  rw [← each]
  rfl

@[simp] theorem Tree.ofWritten_object (members : List (String × Json)) :
    Tree.ofWritten (.object members)
      = .object (members.map fun m => (.ofValue m.1, Tree.ofWritten m.2)) none := by
  have each : memberTreesBy writtenLeaf members
      = members.map fun m => (.ofValue m.1, Tree.ofWritten m.2) := by
    induction members with
    | nil => rfl
    | cons m ms ih =>
      rw [memberTreesBy, ih]
      rfl
  rw [← each]
  rfl

mutual

/-- A value is read from its text, whatever follows it. -/
theorem readValue_write (style : Style) (depth : Nat) (v : Json) (readable : v.Readable)
    (fuel : Nat) (enough : 2 * (write style depth v).length ≤ fuel) {rest : List Char}
    (ends : EndsNumeral rest) :
    readValue fuel (write style depth v ++ rest) = ⟨.ofWritten v, some rest⟩ := by
  obtain ⟨c, more, text, noBlank, _⟩ := write_head style depth readable
  have positive : fuel ≠ 0 := by
    rw [text, List.length_cons] at enough
    omega
  obtain ⟨fuel, rfl⟩ := Nat.exists_eq_succ_of_ne_zero positive
  cases v with
  | null => rfl
  | bool b => cases b <;> rfl
  | number n =>
    rw [Readable] at readable
    have literal := readable.append ends
    obtain ⟨d, tail, same, start⟩ := readable.head
    have noQuote : d ≠ '"' := by
      rintro rfl
      simp at start
    rw [same, List.cons_append] at literal
    have blank := skipSpace_write style depth (v := .number n) readable rest
    rw [write, same, List.cons_append] at blank ⊢
    simp [readValue, blank, noQuote, start, literal, same]
  | string s =>
    have blank : skipSpace (stringText s ++ rest) = stringText s ++ rest :=
      skipSpace_stringText s rest
    rw [stringText, List.cons_append, List.append_assoc, List.singleton_append] at blank
    rw [write, stringText, List.cons_append, List.append_assoc, List.singleton_append]
    simp [readValue, blank, readString_written]
  | array items =>
    match items with
    | [] =>
      obtain ⟨fuel, rfl⟩ : ∃ n, fuel = n + 1 := ⟨fuel - 1, by simp [write] at enough; omega⟩
      rfl
    | x :: xs =>
      simp only [write, List.length_cons, List.length_append, List.length_nil] at enough
      obtain ⟨fuel, rfl⟩ : ∃ n, fuel = n + 1 := ⟨fuel - 1, by omega⟩
      rw [Readable, ReadableItems] at readable
      have value := readValue_write style (depth + 1) x readable.1 fuel (by omega)
        (endsNumeral_items style (depth + 1) xs (endsNumeral_gap style depth ']' rest (by decide)))
      have others := readItems_write style (depth + 1) xs readable.2 fuel (by omega) depth rest
      obtain ⟨c, more, text, _, open_⟩ := write_head style (depth + 1) readable.1
      have start := skipSpace_gap style (depth + 1) (write style (depth + 1) x ++
        (writeItems style (depth + 1) xs ++ (style.gap depth ++ ']' :: rest)))
      rw [skipSpace_write style (depth + 1) readable.1] at start
      rw [text, List.cons_append] at start value
      simp only [write, List.cons_append, List.append_assoc, List.nil_append]
      rw [readValue_array, text, List.cons_append, readItems_first start open_ value, others,
        Tree.ofWritten_array]
      rfl
  | object members =>
    match members with
    | [] =>
      obtain ⟨fuel, rfl⟩ : ∃ n, fuel = n + 1 := ⟨fuel - 1, by simp [write] at enough; omega⟩
      rfl
    | (k, x) :: ms =>
      simp only [write, List.length_cons, List.length_append, List.length_nil] at enough
      obtain ⟨fuel, rfl⟩ : ∃ n, fuel = n + 1 := ⟨fuel - 1, by omega⟩
      rw [Readable, ReadableMembers] at readable
      have value := readValue_write style (depth + 1) x readable.1 fuel (by omega)
        (endsNumeral_members style (depth + 1) ms
          (endsNumeral_gap style depth (Char.ofNat 0x7D) rest (by decide)))
      have others := readMembers_write style (depth + 1) ms readable.2 fuel (by omega) depth rest
      have start := skipSpace_gap style (depth + 1) (stringText k ++ (style.colon ++
        (write style (depth + 1) x ++ (writeMembers style (depth + 1) ms ++
          (style.gap depth ++ Char.ofNat 0x7D :: rest)))))
      rw [skipSpace_stringText] at start
      simp only [write, List.cons_append, List.append_assoc, List.nil_append]
      rw [readValue_object, readMembers_first_written start value, others, Tree.ofWritten_object]
      rfl

/-- The items after the first are read up to the closing bracket. -/
theorem readItems_write (style : Style) (depth : Nat) (vs : List Json)
    (readable : ReadableItems vs) (fuel : Nat)
    (enough : 2 * (writeItems style depth vs).length + 1 ≤ fuel) (outer : Nat)
    (rest : List Char) :
    readItems false fuel (writeItems style depth vs ++ (style.gap outer ++ ']' :: rest))
      = ⟨vs.map Tree.ofWritten, none, some rest⟩ := by
  obtain ⟨fuel, rfl⟩ : ∃ n, fuel = n + 1 := ⟨fuel - 1, by omega⟩
  cases vs with
  | nil =>
    exact readItems_close ((skipSpace_gap style outer _).trans (skipSpace_of_head (by decide)))
  | cons v vs =>
    rw [ReadableItems] at readable
    simp only [writeItems, List.length_cons, List.length_append] at enough
    have value := readValue_write style depth v readable.1 fuel (by omega)
      (endsNumeral_items style depth vs (endsNumeral_gap style outer ']' rest (by decide)))
    rw [← readValue_gap fuel style depth] at value
    simp only [writeItems, List.cons_append, List.append_assoc]
    rw [readItems_next (skipSpace_of_head (by decide)) value,
      readItems_write style depth vs readable.2 fuel (by omega)]
    rfl

/-- The members after the first are read up to the closing bracket. -/
theorem readMembers_write (style : Style) (depth : Nat) (ms : List (String × Json))
    (readable : ReadableMembers ms) (fuel : Nat)
    (enough : 2 * (writeMembers style depth ms).length + 1 ≤ fuel) (outer : Nat)
    (rest : List Char) :
    readMembers false fuel
        (writeMembers style depth ms ++ (style.gap outer ++ Char.ofNat 0x7D :: rest))
      = ⟨ms.map fun m => (.ofValue m.1, Tree.ofWritten m.2), none, some rest⟩ := by
  obtain ⟨fuel, rfl⟩ : ∃ n, fuel = n + 1 := ⟨fuel - 1, by omega⟩
  match ms with
  | [] =>
    exact readMembers_close ((skipSpace_gap style outer _).trans (skipSpace_of_head (by decide)))
  | (k, v) :: ms =>
    rw [ReadableMembers] at readable
    simp only [writeMembers, List.length_cons, List.length_append] at enough
    have value := readValue_write style depth v readable.1 fuel (by omega)
      (endsNumeral_members style depth ms
        (endsNumeral_gap style outer (Char.ofNat 0x7D) rest (by decide)))
    have start := skipSpace_gap style depth (stringText k ++ (style.colon ++
      (write style depth v ++ (writeMembers style depth ms ++
        (style.gap outer ++ Char.ofNat 0x7D :: rest)))))
    rw [skipSpace_stringText] at start
    simp only [writeMembers, List.cons_append, List.append_assoc]
    rw [readMembers_next_written start value,
      readMembers_write style depth ms readable.2 fuel (by omega)]
    rfl

end

/-- A value's text in either style is read as the value's own tree. -/
theorem read_write (style : Style) {v : Json} (readable : v.Readable) :
    read (v.write style 0) = ⟨.ofWritten v, some []⟩ := by
  have text := readValue_write style 0 v readable (2 * (v.write style 0).length + 2) (by omega)
    endsNumeral_nil
  rwa [List.append_nil] at text

/-- Whoever decodes a value's text, in either style, is given the value's own tree. -/
theorem decode_write {α : Type} (d : Decoder α) (style : Style) {v : Json}
    (readable : v.Readable) :
    decode d (String.ofList (v.write style 0)) = d (.ofWritten v) := by
  simp only [decode, String.toList_ofList, read_write style readable]
  cases d (.ofWritten v) with
  | error fault => rfl
  | ok value => rfl

theorem decodeLeading_write {α : Type} (d : Decoder α) (style : Style) {v : Json}
    (readable : v.Readable) : decodeLeading d (v.write style 0) = d (.ofWritten v) := by
  rw [decodeLeading, read_write style readable]

end BenchLedger.Json
