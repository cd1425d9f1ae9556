import BenchLedger.Files.Host

/-!
Text as bytes. Main statements: `ofUtf8?_utf8Bytes`: every text is read back from its bytes; and
`utf8Bytes_lt`: the order of texts is that of their bytes.
-/

namespace BenchLedger.Text

/-! ### One character -/

section

variable {low high more value b : Nat} {rest : List Nat}

private theorem takeRest_last (inRange : low ≤ b ∧ b ≤ high) :
    takeRest low high 0 value (b :: rest)
      = (some (Char.ofNat (value * 64 + (b - 0x80))), rest) := by
  simp [takeRest, inRange]

private theorem takeRest_more (inRange : low ≤ b ∧ b ≤ high) :
    takeRest low high (more + 1) value (b :: rest)
      = takeRest 0x80 0xBF more (value * 64 + (b - 0x80)) rest := by
  simp [takeRest, inRange]

private theorem takeChar_lead {l : Lead} (several : 0x80 ≤ b) (found : lead? b = some l) :
    takeChar b rest = takeRest l.low l.high l.more l.bits rest := by
  have noAscii : ¬ b < 0x80 := by omega
  simp only [takeChar, noAscii, if_false, found]

end

/-- The code points that characters have. -/
private theorem toNat_valid (c : Char) :
    c.toNat < 0xD800 ∨ (0xDFFF < c.toNat ∧ c.toNat < 0x110000) :=
  c.valid

/-- Three bytes, by the first: the range of the second keeps out surrogates and what needs fewer. -/
private theorem lead?_three {v : Nat} (low : 0x800 ≤ v) (high : v < 0x10000)
    (valid : v < 0xD800 ∨ 0xDFFF < v) :
    ∃ l, lead? (v / 4096 + 0xE0) = some l ∧ l.more = 1 ∧ l.bits = v / 4096 ∧
      l.low ≤ v / 64 % 64 + 0x80 ∧ v / 64 % 64 + 0x80 ≤ l.high := by
  unfold lead?
  split
  next two =>
    simp only [Bool.and_eq_true, decide_eq_true_eq] at two
    omega
  split
  · exact ⟨_, rfl, rfl, by dsimp only; omega, by dsimp only; omega, by dsimp only; omega⟩
  split
  · exact ⟨_, rfl, rfl, by dsimp only; omega, by dsimp only; omega, by dsimp only; omega⟩
  split
  · exact ⟨_, rfl, rfl, by dsimp only; omega, by dsimp only; omega, by dsimp only; omega⟩
  next none =>
    simp only [Bool.and_eq_true, decide_eq_true_eq] at none
    omega

/-- Four bytes, by the first: the range of the second keeps to the code points there are. -/
private theorem lead?_four {v : Nat} (low : 0x10000 ≤ v) (high : v < 0x110000) :
    ∃ l, lead? (v / 262144 + 0xF0) = some l ∧ l.more = 2 ∧ l.bits = v / 262144 ∧
      l.low ≤ v / 4096 % 64 + 0x80 ∧ v / 4096 % 64 + 0x80 ≤ l.high := by
  have first : v / 262144 = 0 ∨ v / 262144 = 1 ∨ v / 262144 = 2 ∨ v / 262144 = 3 ∨
      v / 262144 = 4 := by
    omega
  rcases first with first | first | first | first | first <;>
    exact ⟨_, by rw [first]; rfl, rfl, by dsimp only; omega, by dsimp only; omega,
      by dsimp only; omega⟩

private theorem toNat_byte {n : Nat} (h : n < 256) : (UInt8.ofNat n).toNat = n := by
  rw [UInt8.toNat_ofNat']
  exact Nat.mod_eq_of_lt h

/-- The bytes of a code point. -/
private def bytesOf (v : Nat) : List Nat :=
  if v ≤ 0x7F then [v]
  else if v ≤ 0x7FF then [v / 64 + 0xC0, v % 64 + 0x80]
  else if v ≤ 0xFFFF then [v / 4096 + 0xE0, v / 64 % 64 + 0x80, v % 64 + 0x80]
  else [v / 262144 + 0xF0, v / 4096 % 64 + 0x80, v / 64 % 64 + 0x80, v % 64 + 0x80]

private theorem bytes_eq (c : Char) :
    (String.utf8EncodeChar c).map UInt8.toNat = bytesOf c.toNat := by
  have valid := toNat_valid c
  unfold String.utf8EncodeChar bytesOf
  simp only [← Char.toNat.eq_1]
  generalize c.toNat = v at valid ⊢
  by_cases one : v ≤ 0x7F
  · simp only [one, if_true, List.map_cons, List.map_nil]
    rw [toNat_byte (by omega)]
  by_cases two : v ≤ 0x7FF
  · have front : v / 64 % 32 = v / 64 := by omega
    simp only [one, two, if_true, if_false, front, List.map_cons, List.map_nil]
    rw [toNat_byte (by omega), toNat_byte (by omega)]
  by_cases three : v ≤ 0xFFFF
  · have front : v / 4096 % 16 = v / 4096 := by omega
    simp only [one, two, three, if_true, if_false, front, List.map_cons, List.map_nil]
    rw [toNat_byte (by omega), toNat_byte (by omega), toNat_byte (by omega)]
  · have front : v / 262144 % 8 = v / 262144 := by omega
    simp only [one, two, three, if_false, front, List.map_cons, List.map_nil]
    rw [toNat_byte (by omega), toNat_byte (by omega), toNat_byte (by omega),
      toNat_byte (by omega)]

/-- A character is read from its bytes, whatever follows. -/
theorem takeChar_encoded (c : Char) (rest : List Nat) :
    ∃ b tail, (String.utf8EncodeChar c).map UInt8.toNat = b :: tail ∧
      takeChar b (tail ++ rest) = (some c, rest) := by
  have valid := toNat_valid c
  have back : Char.ofNat c.toNat = c := Char.ofNat_toNat c
  rw [bytes_eq]
  unfold bytesOf
  generalize c.toNat = v at valid back ⊢
  split
  next one =>
    refine ⟨v, [], rfl, ?_⟩
    have ascii : v < 0x80 := by omega
    simp [takeChar, ascii, back]
  split
  next several two =>
    refine ⟨v / 64 + 0xC0, [v % 64 + 0x80], rfl, ?_⟩
    have digits : v / 64 * 64 + v % 64 = v := by omega
    have found : lead? (v / 64 + 0xC0) = some ⟨0x80, 0xBF, 0, v / 64⟩ := by
      unfold lead?
      split
      · simp
      next none =>
        simp only [Bool.and_eq_true, decide_eq_true_eq] at none
        omega
    rw [takeChar_lead (by omega) found, List.singleton_append,
      takeRest_last (by dsimp only; omega), Nat.add_sub_cancel, digits, back]
  split
  next several more three =>
    refine ⟨v / 4096 + 0xE0, [v / 64 % 64 + 0x80, v % 64 + 0x80], rfl, ?_⟩
    have digits : (v / 4096 * 64 + v / 64 % 64) * 64 + v % 64 = v := by omega
    obtain ⟨l, found, more, bits, low, high⟩ := lead?_three (v := v) (by omega) (by omega)
      (by omega)
    rw [takeChar_lead (by omega) found, more, bits, List.cons_append, takeRest_more ⟨low, high⟩,
      List.singleton_append, takeRest_last (by omega), Nat.add_sub_cancel, Nat.add_sub_cancel,
      digits, back]
  next several more many =>
    refine ⟨v / 262144 + 0xF0, [v / 4096 % 64 + 0x80, v / 64 % 64 + 0x80, v % 64 + 0x80], rfl, ?_⟩
    have digits : ((v / 262144 * 64 + v / 4096 % 64) * 64 + v / 64 % 64) * 64 + v % 64 = v := by
      omega
    obtain ⟨l, found, more, bits, low, high⟩ := lead?_four (v := v) (by omega) (by omega)
    rw [takeChar_lead (by omega) found, more, bits, List.cons_append, takeRest_more ⟨low, high⟩,
      List.cons_append, takeRest_more (by omega), List.singleton_append,
      takeRest_last (by omega), Nat.add_sub_cancel, Nat.add_sub_cancel, Nat.add_sub_cancel,
      digits, back]

/-! ### Texts -/

theorem decodeUtf8_utf8Bytes (cs : List Char) : decodeUtf8 (utf8Bytes cs) = cs.map some := by
  induction cs with
  | nil =>
    rw [utf8Bytes, List.flatMap_nil, decodeUtf8]
    rfl
  | cons c cs ih =>
    obtain ⟨b, tail, bytes, taken⟩ := takeChar_encoded c (utf8Bytes cs)
    have split : utf8Bytes (c :: cs) = b :: (tail ++ utf8Bytes cs) := by
      rw [utf8Bytes, List.flatMap_cons, bytes]
      rfl
    rw [split, decodeUtf8, taken, ih, List.map_cons]

/-- Every text is read back from its bytes. -/
theorem ofUtf8?_utf8Bytes (s : String) : ofUtf8? (utf8Bytes s.toList) = some s := by
  have whole (cs : List Char) : (cs.map some).mapM id = some cs := by
    induction cs with
    | nil => rfl
    | cons c cs ih => simp [List.mapM_cons, ih]
  rw [ofUtf8?, decodeUtf8_utf8Bytes, whole, Option.map_some, String.ofList_toList]

/-! ### Order -/

/-- A smaller code point has smaller bytes, whatever follows them. -/
private theorem bytesOf_lt {v w : Nat} (before : v < w) (r s : List Nat) :
    bytesOf v ++ r < bytesOf w ++ s := by
  have lengths (v : Nat) : v ≤ 0x7F ∨ (¬v ≤ 0x7F ∧ v ≤ 0x7FF) ∨
      (¬v ≤ 0x7F ∧ ¬v ≤ 0x7FF ∧ v ≤ 0xFFFF) ∨ (¬v ≤ 0x7F ∧ ¬v ≤ 0x7FF ∧ ¬v ≤ 0xFFFF) := by
    omega
  -- Of two lengths in bytes the smaller code point has the smaller first byte.
  rcases lengths v with short | short | short | short <;>
    rcases lengths w with long | long | long | long <;>
    simp only [bytesOf, short, long, if_true, if_false, List.cons_append, List.nil_append,
      List.cons_lt_cons_iff] <;>
    omega

/-- The order of texts by their code points is that by their bytes. -/
theorem utf8Bytes_lt {cs ds : List Char} (before : cs < ds) : utf8Bytes cs < utf8Bytes ds := by
  induction before with
  | nil =>
    rename_i d ds
    obtain ⟨b, tail, bytes, _⟩ := takeChar_encoded d []
    rw [utf8Bytes, List.flatMap_nil, utf8Bytes, List.flatMap_cons, bytes]
    exact .nil
  | rel smaller =>
    rw [utf8Bytes, List.flatMap_cons, bytes_eq, utf8Bytes, List.flatMap_cons, bytes_eq]
    exact bytesOf_lt smaller _ _
  | cons _ ih =>
    rw [utf8Bytes, List.flatMap_cons, utf8Bytes, List.flatMap_cons]
    exact List.append_left_lt ih

end BenchLedger.Text

namespace BenchLedger

/-- What a file holds with the bytes of a text is the text. -/
theorem textOf_utf8Bytes (s : String) : textOf (.ok (Text.utf8Bytes s.toList)) = .ok s := by
  simp only [textOf, bind, Except.bind, Text.ofUtf8?_utf8Bytes]

end BenchLedger
