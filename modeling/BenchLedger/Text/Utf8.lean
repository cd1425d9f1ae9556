/-!
Bytes and text: the UTF-8 form of characters, strict decoding, and decoding that puts U+FFFD in the
place of each longest run of bytes that begins a character but does not end it.
-/

namespace BenchLedger.Text

def utf8Bytes (cs : List Char) : List Nat :=
  cs.flatMap fun c => (String.utf8EncodeChar c).map UInt8.toNat

/-- How the bytes behind a first byte must look: the range of the second, and how many of the common
range follow it. -/
structure Lead where
  low : Nat
  high : Nat
  more : Nat
  -- What the first byte contributes.
  bits : Nat

/-- What a first byte of several asks for. -/
def lead? (b : Nat) : Option Lead :=
  if 0xC2 ≤ b && b ≤ 0xDF then some ⟨0x80, 0xBF, 0, b - 0xC0⟩
  else if b = 0xE0 then some ⟨0xA0, 0xBF, 1, 0⟩
  else if b = 0xED then some ⟨0x80, 0x9F, 1, 0xD⟩
  else if 0xE1 ≤ b && b ≤ 0xEF then some ⟨0x80, 0xBF, 1, b - 0xE0⟩
  else if b = 0xF0 then some ⟨0x90, 0xBF, 2, 0⟩
  else if 0xF1 ≤ b && b ≤ 0xF3 then some ⟨0x80, 0xBF, 2, b - 0xF0⟩
  else if b = 0xF4 then some ⟨0x80, 0x8F, 2, 4⟩
  else none

/-- Reads the bytes that remain of a character. The answer is the character, if they are there, and
the bytes after it, or after the part that was right. -/
def takeRest (low high more value : Nat) : List Nat → Option Char × List Nat
  | [] => (none, [])
  | b :: rest =>
    if low ≤ b && b ≤ high then
      let value := value * 64 + (b - 0x80)
      match more with
      | 0 => (some (Char.ofNat value), rest)
      | more + 1 => takeRest 0x80 0xBF more value rest
    else (none, b :: rest)

/-- Reads one character; `none` stands for bytes that are none. -/
def takeChar (b : Nat) (rest : List Nat) : Option Char × List Nat :=
  if b < 0x80 then (some (Char.ofNat b), rest)
  else match lead? b with
    | some l => takeRest l.low l.high l.more l.bits rest
    | none => (none, rest)

theorem takeRest_length (low high more value : Nat) (bs : List Nat) :
    (takeRest low high more value bs).2.length ≤ bs.length := by
  induction bs generalizing low high more value with
  | nil => simp [takeRest]
  | cons b rest ih =>
    simp only [takeRest]
    split
    · split
      · simp
      · exact Nat.le_succ_of_le (ih ..)
    · simp

theorem takeChar_length (b : Nat) (rest : List Nat) :
    (takeChar b rest).2.length ≤ rest.length := by
  unfold takeChar
  split
  · simp
  · split
    · exact takeRest_length ..
    · simp

/-- All characters of a sequence of bytes, `none` for each part that is no character. -/
def decodeUtf8 (bs : List Nat) : List (Option Char) :=
  match bs with
  | [] => []
  | b :: rest =>
    (takeChar b rest).1 :: decodeUtf8 (takeChar b rest).2
termination_by bs.length
decreasing_by exact Nat.lt_succ_of_le (takeChar_length b rest)

/-- The text of bytes that are UTF-8 throughout. -/
def ofUtf8? (bs : List Nat) : Option String :=
  ((decodeUtf8 bs).mapM id).map String.ofList

def ofUtf8Lossy (bs : List Nat) : String :=
  String.ofList ((decodeUtf8 bs).map (·.getD (Char.ofNat 0xFFFD)))

end BenchLedger.Text
