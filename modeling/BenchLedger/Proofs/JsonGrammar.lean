import BenchLedger.Proofs.JsonText
import Mathlib.Data.List.DropRight

/-!
The grammar of JSON texts, and what reading makes of them. Main statement: `Derives.decode_padded`:
whoever decodes a value's text is given the same, whatever blanks stand around the value.
-/

namespace BenchLedger.Json

open Text (AllDigits isBlank)

/-! ### The grammar -/

/-- The blanks between two tokens. -/
def Spaces (cs : List Char) : Prop :=
  ∀ c ∈ cs, isSpace c = true

instance (cs : List Char) : Decidable (Spaces cs) :=
  List.decidableBAll (isSpace · = true) cs

/-- A digit of a unit, in either case. -/
def isHexDigit (c : Char) : Bool :=
  ('0' ≤ c && c ≤ '9') || ('a' ≤ c && c ≤ 'f') || ('A' ≤ c && c ≤ 'F')

/-- What may stand between the quotes of a string. -/
inductive Characters : List Char → Prop where
  | nil : Characters []
  | plain {c : Char} {cs : List Char} (noQuote : c ≠ '"') (noBackslash : c ≠ '\\')
    (noControl : 0x20 ≤ c.toNat) (rest : Characters cs) : Characters (c :: cs)
  | short {e : Char} {cs : List Char} (known : e ∈ ['"', '\\', '/', 'b', 'f', 'n', 'r', 't'])
    (rest : Characters cs) : Characters ('\\' :: e :: cs)
  | unit {a b c d : Char} {cs : List Char} (digits : ∀ h ∈ [a, b, c, d], isHexDigit h = true)
    (rest : Characters cs) : Characters ('\\' :: 'u' :: a :: b :: c :: d :: cs)

/-- One digit or more. -/
structure Digits (ds : List Char) : Prop where
  filled : ds ≠ []
  all : AllDigits ds

/-- The whole part of a number. A leading zero stands alone. -/
structure Whole (ds : List Char) : Prop extends Digits ds where
  noZero : ∀ c cs, ds ≠ '0' :: c :: cs

inductive Fraction : List Char → Prop where
  | absent : Fraction []
  | point {ds : List Char} (digits : Digits ds) : Fraction ('.' :: ds)

inductive Exponent : List Char → Prop where
  | absent : Exponent []
  | mark {e : Char} {sign ds : List Char} (letter : e = 'e' ∨ e = 'E')
    (signed : sign ∈ [[], ['+'], ['-']]) (digits : Digits ds) : Exponent (e :: (sign ++ ds))

inductive Literal : List Char → Prop where
  | mk {sign whole fraction exponent : List Char} (signed : sign ∈ [[], ['-']])
    (digits : Whole whole) (point : Fraction fraction) (power : Exponent exponent) :
    Literal (sign ++ (whole ++ (fraction ++ exponent)))

/-- The parts of a text that values are made of. An element is a value with blanks around it. -/
inductive Part where
  | value
  | element
  | elements
  | member
  | members

/-- The texts of each part. -/
inductive Derives : Part → List Char → Prop where
  | null : Derives .value "null".toList
  | truth : Derives .value "true".toList
  | falsity : Derives .value "false".toList
  | number {cs : List Char} (literal : Literal cs) : Derives .value cs
  | string {cs : List Char} (characters : Characters cs) : Derives .value ('"' :: (cs ++ ['"']))
  | emptyArray {blanks : List Char} (spaces : Spaces blanks) :
    Derives .value ('[' :: (blanks ++ [']']))
  | array {cs : List Char} (elements : Derives .elements cs) : Derives .value ('[' :: (cs ++ [']']))
  | emptyObject {blanks : List Char} (spaces : Spaces blanks) :
    Derives .value ('\x7b' :: (blanks ++ ['\x7d']))
  | object {cs : List Char} (members : Derives .members cs) :
    Derives .value ('\x7b' :: (cs ++ ['\x7d']))
  | element {before v after : List Char} (left : Spaces before) (value : Derives .value v)
    (right : Spaces after) : Derives .element (before ++ (v ++ after))
  | lastElement {cs : List Char} (element : Derives .element cs) : Derives .elements cs
  | moreElements {cs ds : List Char} (element : Derives .element cs)
    (elements : Derives .elements ds) : Derives .elements (cs ++ ',' :: ds)
  | member {before name after v : List Char} (left : Spaces before) (characters : Characters name)
    (right : Spaces after) (element : Derives .element v) :
    Derives .member (before ++ '"' :: (name ++ '"' :: (after ++ ':' :: v)))
  | lastMember {cs : List Char} (member : Derives .member cs) : Derives .members cs
  | moreMembers {cs ds : List Char} (member : Derives .member cs)
    (members : Derives .members ds) : Derives .members (cs ++ ',' :: ds)

/-- A JSON text: one value with blanks around it. -/
def IsText (cs : List Char) : Prop :=
  Derives .element cs

/-! ### Blanks -/

theorem spaces_nil : Spaces [] :=
  nofun

theorem Spaces.append {cs ds : List Char} (left : Spaces cs) (right : Spaces ds) :
    Spaces (cs ++ ds) :=
  List.forall_mem_append.2 ⟨left, right⟩

theorem skipSpace_append {blanks : List Char} (spaces : Spaces blanks) (cs : List Char) :
    skipSpace (blanks ++ cs) = skipSpace cs :=
  List.dropWhile_append_of_pos spaces

theorem skipSpace_spaces {blanks : List Char} (spaces : Spaces blanks) : skipSpace blanks = [] := by
  rw [← List.append_nil blanks, skipSpace_append spaces]
  rfl

/-- Behind blanks stands the first token. -/
theorem skipSpace_append_cons {blanks : List Char} (spaces : Spaces blanks) {c : Char}
    (token : isSpace c = false) (cs : List Char) : skipSpace (blanks ++ c :: cs) = c :: cs := by
  rw [skipSpace_append spaces, skipSpace_of_head token]

theorem skipSpace_skipSpace (cs : List Char) : skipSpace (skipSpace cs) = skipSpace cs :=
  List.dropWhile_idempotent isSpace cs

theorem endsNumeral_append {blanks : List Char} (spaces : Spaces blanks) {more : List Char}
    (ends : EndsNumeral more) : EndsNumeral (blanks ++ more) := by
  cases blanks with
  | nil => exact ends
  | cons c blanks =>
    have space := spaces c (by simp)
    simp only [isSpace, Bool.or_eq_true, beq_iff_eq] at space
    refine endsNumeral_of_head ?_
    rcases space with ((rfl | rfl) | rfl) | rfl <;> decide

/-- JSON allows only blanks that are white space. -/
theorem Spaces.allBlank {cs : List Char} (spaces : Spaces cs) : Text.allBlank cs = true := by
  refine List.all_eq_true.2 fun c member => ?_
  have space := spaces c member
  simp only [isSpace, Bool.or_eq_true, beq_iff_eq] at space
  rcases space with ((rfl | rfl) | rfl) | rfl <;> decide

/-! ### Numbers -/

theorem Digits.last {ds : List Char} (digits : Digits ds) (before : List Char) :
    ∃ d ∈ (before ++ ds).getLast?, d.isDigit = true := by
  rw [List.getLast?_append_of_ne_nil _ digits.filled]
  exact ⟨_, List.getLast?_eq_some_getLast digits.filled, digits.all _ (List.getLast_mem _)⟩

/-- Digits have no sign in front. -/
theorem Digits.splitSign {ds : List Char} (digits : Digits ds) :
    (Decimal.splitSign ds).2 = ds := by
  have other (c : Char) (sign : c.isDigit = false) (rest : List Char) : ds ≠ c :: rest := by
    simpa using Text.digits_append_ne_cons digits.all digits.filled sign [] rest
  unfold Decimal.splitSign
  split
  next rest => exact absurd rfl (other '-' (by decide) rest)
  next rest => exact absurd rfl (other '+' (by decide) rest)
  · rfl

theorem Exponent.noDigit {cs : List Char} (power : Exponent cs) :
    ∀ c ∈ cs.head?, c.isDigit = false := by
  cases power with
  | absent => simp
  | mark letter => rcases letter with rfl | rfl <;> simp

theorem Fraction.noDigit {cs : List Char} (point : Fraction cs) {more : List Char}
    (stop : ∀ c ∈ more.head?, c.isDigit = false) : ∀ c ∈ (cs ++ more).head?, c.isDigit = false := by
  cases point with
  | absent => exact stop
  | point => simp

section

variable {negative : Bool} {whole fraction cs : List Char}

theorem Exponent.scan (power : Exponent cs) :
    ∃ n, scanExponent negative whole fraction cs = .complete n [] := by
  cases power with
  | absent => exact ⟨_, rfl⟩
  | @mark e sign ds letter signed digits =>
    have start : (e == 'e' || e == 'E') = true := by simpa using letter
    have unsigned : (Decimal.splitSign (sign ++ ds)).2 = ds := by
      simp only [List.mem_cons, List.not_mem_nil, or_false] at signed
      rcases signed with rfl | rfl | rfl
      · exact digits.splitSign
      · rfl
      · rfl
    have filled : ds.isEmpty = false := by simpa using digits.filled
    simp [scanExponent, start, unsigned, spanDigits_self digits.all, filled]

theorem Fraction.scan (point : Fraction fraction) (power : Exponent cs) :
    ∃ n, scanFraction negative whole (fraction ++ cs) = .complete n [] := by
  cases point with
  | absent =>
    have noPoint : ∀ more, cs ≠ '.' :: more := by
      rintro more rfl
      cases power with
      | mark letter => simp at letter
    rw [List.nil_append]
    unfold scanFraction
    split
    next more => exact absurd rfl (noPoint more)
    · exact power.scan
  | point digits =>
    rw [List.cons_append, scanFraction_digits negative whole digits.all digits.filled power.noDigit]
    exact power.scan

end

/-- A literal of the grammar is one for the reader. -/
theorem Literal.scan {cs : List Char} (literal : Literal cs) :
    ∃ n, scanNumeral cs = .complete n [] := by
  cases literal with
  | @mk sign whole fraction exponent signed digits point power =>
    have magnitude (negative : Bool) :
        ∃ n, scanMagnitude negative (whole ++ (fraction ++ exponent)) = .complete n [] := by
      rw [scanMagnitude_digits negative digits.all digits.filled digits.noZero
        (point.noDigit power.noDigit)]
      exact point.scan power
    simp only [List.mem_cons, List.not_mem_nil, or_false] at signed
    rcases signed with rfl | rfl
    · obtain ⟨n, scanned⟩ := magnitude false
      exact ⟨n, scanNumeral_of_magnitude scanned⟩
    · exact magnitude true

theorem Literal.read {cs : List Char} (literal : Literal cs) :
    ∃ leaf, ∀ more, EndsNumeral more → readNumber (cs ++ more) = ⟨leaf, some more⟩ := by
  obtain ⟨n, scanned⟩ := literal.scan
  refine ⟨⟨n.value, none⟩, fun more ends => ?_⟩
  simp only [readNumber, scanNumeral_append scanned ends]

/-- A literal ends in a digit. -/
theorem Literal.last {cs : List Char} (literal : Literal cs) :
    ∃ d ∈ cs.getLast?, d.isDigit = true := by
  cases literal with
  | @mk sign whole fraction exponent signed digits point power =>
    cases power with
    | @mark e down ds letter signed' digits' =>
      simpa using digits'.last (sign ++ (whole ++ (fraction ++ e :: down)))
    | absent =>
      cases point with
      | point digits' => simpa using digits'.last (sign ++ (whole ++ ['.']))
      | absent => simpa using digits.last sign

/-! ### Strings -/

theorem Characters.of_plain {cs : List Char}
    (plain : cs.all (fun c => c != '"' && c != '\\' && 0x20 ≤ c.toNat) = true) :
    Characters cs := by
  induction cs with
  | nil => exact .nil
  | cons c cs ih =>
    simp only [List.all_cons, Bool.and_eq_true, bne_iff_ne, decide_eq_true_eq] at plain
    obtain ⟨⟨⟨noQuote, noBackslash⟩, noControl⟩, rest⟩ := plain
    exact .plain noQuote noBackslash noControl (ih rest)

theorem hexValue?_isSome {c : Char} (digit : isHexDigit c = true) :
    (hexValue? c).isSome = true := by
  simp only [isHexDigit, Bool.or_eq_true] at digit
  rcases digit with (decimal | lower) | upper
  · simp only [hexValue?, if_pos decimal, Option.isSome_some]
  · simp only [hexValue?, if_pos lower, apply_ite Option.isSome, Option.isSome_some, ite_self]
  · simp only [hexValue?, if_pos upper, apply_ite Option.isSome, Option.isSome_some, ite_self]

theorem unit?_isSome {a b c d : Char} (digits : ∀ h ∈ [a, b, c, d], isHexDigit h = true) :
    ∃ u, unit? a b c d = some u := by
  have values := fun h member => hexValue?_isSome (digits h member)
  simp only [List.forall_mem_cons, Option.isSome_iff_exists] at values
  obtain ⟨⟨_, first⟩, ⟨_, second⟩, ⟨_, third⟩, ⟨_, fourth⟩, _⟩ := values
  exact ⟨_, by simp only [unit?, first, second, third, fourth]; rfl⟩

theorem shortEscape?_isSome {e : Char}
    (known : e ∈ ['"', '\\', '/', 'b', 'f', 'n', 'r', 't']) :
    ∃ d, shortEscape? e = some d := by
  simp only [List.mem_cons, List.not_mem_nil, or_false] at known
  rcases known with rfl | rfl | rfl | rfl | rfl | rfl | rfl | rfl <;> exact ⟨_, rfl⟩

/-- Whatever these characters are read as, reading ends behind the quote after them. -/
def Settled (cs : List Char) : Prop :=
  ∃ r : Except Fault (List Char), ∀ more, takeString (cs ++ '"' :: more) = r.map fun v => (v, more)

theorem Settled.of_cons {cs ds : List Char} {c : Char} (settled : Settled cs)
    (h : ∀ more, takeString (ds ++ '"' :: more) = consChar c (takeString (cs ++ '"' :: more))) :
    Settled ds := by
  obtain ⟨r, reads⟩ := settled
  refine ⟨r.map (c :: ·), fun more => ?_⟩
  rw [h, reads]
  cases r <;> rfl

theorem Settled.of_error {ds : List Char} (fault : Fault)
    (h : ∀ more, takeString (ds ++ '"' :: more) = .error fault) : Settled ds :=
  ⟨.error fault, h⟩

section

variable {a b c d : Char} {unit : Nat} {cs : List Char}

/-- A leading unit must be followed by a trailing one, and then the text behind both is read. -/
theorem Characters.settled_leading (characters : Characters cs)
    (value : unit? a b c d = some unit) (noTrailing : isTrailing unit = false)
    (leading : isLeading unit = true)
    (settledAfter : ∀ t₁ t₂ t₃ t₄ ds, cs = '\\' :: 'u' :: t₁ :: t₂ :: t₃ :: t₄ :: ds → Settled ds) :
    Settled ('\\' :: 'u' :: a :: b :: c :: d :: cs) := by
  have noShort : shortEscape? 'u' = none := by decide
  cases characters with
  | nil =>
    refine .of_error .malformed fun more => ?_
    rw [takeString.eq_def]
    cases more <;> simp [noShort, value, noTrailing, leading]
  | @plain c cs noQuote noBackslash noControl rest =>
    refine .of_error .malformed fun more => ?_
    rw [takeString.eq_def]
    cases cs <;> simp [noShort, value, noTrailing, leading, noBackslash]
  | @short e cs known rest =>
    have noUnit : e ≠ 'u' := by
      rintro rfl
      simp at known
    refine .of_error .malformed fun more => ?_
    rw [takeString.eq_def]
    simp [noShort, value, noTrailing, leading, noUnit]
  | unit digits rest =>
    obtain ⟨second, value'⟩ := unit?_isSome digits
    cases trailing : isTrailing second with
    | false =>
      refine .of_error .malformed fun more => ?_
      rw [takeString.eq_def]
      simp [noShort, value, noTrailing, leading, value', trailing]
    | true =>
      have after := settledAfter _ _ _ _ _ rfl
      refine after.of_cons (c := pairedChar unit second) fun more => ?_
      rw [takeString.eq_def]
      simp [noShort, value, noTrailing, leading, value', trailing]

/-- A unit is settled if what follows it is, and what follows a second unit. -/
theorem Characters.settled_unit (characters : Characters cs) (settled : Settled cs)
    (digits : ∀ h ∈ [a, b, c, d], isHexDigit h = true)
    (settledAfter : ∀ t₁ t₂ t₃ t₄ ds, cs = '\\' :: 'u' :: t₁ :: t₂ :: t₃ :: t₄ :: ds → Settled ds) :
    Settled ('\\' :: 'u' :: a :: b :: c :: d :: cs) := by
  have noShort : shortEscape? 'u' = none := by decide
  obtain ⟨unit, value⟩ := unit?_isSome digits
  cases trailing : isTrailing unit with
  | true =>
    refine .of_error .malformed fun more => ?_
    rw [takeString.eq_def]
    simp [noShort, value, trailing]
  | false =>
    cases leading : isLeading unit with
    | true => exact characters.settled_leading value trailing leading settledAfter
    | false =>
      refine settled.of_cons (c := Char.ofNat unit) fun more => ?_
      rw [takeString.eq_def]
      simp [noShort, value, trailing, leading]

end

/-- By induction on the characters, together with what follows a unit in front of them. -/
theorem Characters.settled {cs : List Char} (characters : Characters cs) :
    Settled cs ∧ ∀ t₁ t₂ t₃ t₄ ds, cs = '\\' :: 'u' :: t₁ :: t₂ :: t₃ :: t₄ :: ds → Settled ds := by
  induction characters with
  | nil =>
    refine ⟨⟨.ok [], fun more => ?_⟩, by simp⟩
    rw [takeString.eq_def]
    rfl
  | plain noQuote noBackslash noControl rest ih =>
    refine ⟨ih.1.of_cons fun more => takeString_plain noQuote noBackslash noControl _, ?_⟩
    rintro t₁ t₂ t₃ t₄ ds same
    exact absurd (List.cons.inj same).1 noBackslash
  | short known rest ih =>
    obtain ⟨d, meaning⟩ := shortEscape?_isSome known
    refine ⟨ih.1.of_cons fun more => takeString_short meaning _, ?_⟩
    rintro t₁ t₂ t₃ t₄ ds same
    obtain ⟨rfl, _⟩ := List.cons.inj (List.cons.inj same).2
    simp at known
  | unit digits rest ih =>
    refine ⟨rest.settled_unit ih.1 digits ih.2, ?_⟩
    rintro t₁ t₂ t₃ t₄ ds same
    simp only [List.cons.injEq, true_and] at same
    obtain ⟨_, _, _, _, rfl⟩ := same
    exact ih.1

theorem Characters.pass {cs : List Char} (characters : Characters cs) (more : List Char) :
    passString (cs ++ '"' :: more) = .ok more := by
  induction characters with
  | nil =>
    rw [List.nil_append, passString.eq_def]
    rfl
  | plain noQuote noBackslash noControl rest ih =>
    rw [List.cons_append, passString.eq_def]
    simp [noQuote, noBackslash, Nat.not_lt.2 noControl, ih]
  | short known rest ih =>
    obtain ⟨d, meaning⟩ := shortEscape?_isSome known
    rw [List.cons_append, List.cons_append, passString.eq_def]
    simp [meaning, ih]
  | unit digits rest ih =>
    have noShort : shortEscape? 'u' = none := by decide
    obtain ⟨unit, value⟩ := unit?_isSome digits
    simp only [List.cons_append]
    rw [passString.eq_def]
    simp [noShort, value, ih]

theorem Characters.read {cs : List Char} (characters : Characters cs) :
    ∃ leaf, ∀ more, readString (cs ++ '"' :: more) = ⟨leaf, some more⟩ := by
  obtain ⟨taken, take⟩ := characters.settled.1
  cases taken with
  | ok value =>
    refine ⟨⟨.ok (String.ofList value), none⟩, fun more => ?_⟩
    simp only [readString, take, Except.map]
  | error fault =>
    refine ⟨⟨.error fault, none⟩, fun more => ?_⟩
    simp only [readString, take, Except.map, characters.pass]

/-! ### Both ends of a value -/

/-- A value starts with no blank, no closing bracket and no letter of a name. -/
theorem Derives.value_head {v : List Char} (value : Derives .value v) :
    ∃ c more, v = c :: more ∧ isBlank c = false ∧ c ∉ [']', 'w'] := by
  cases value with
  | number literal =>
    obtain ⟨n, scanned⟩ := literal.scan
    obtain ⟨c, more, rfl, start⟩ := scanNumeral_head scanned
    refine ⟨c, more, rfl, ?_⟩
    rcases start with rfl | digit
    · decide
    · refine ⟨Text.not_isBlank_of_isDigit digit, ?_⟩
      intro other
      simp only [List.mem_cons, List.not_mem_nil, or_false] at other
      rcases other with rfl | rfl <;> cases digit
  | _ => exact ⟨_, _, rfl, by decide⟩

/-- A value ends in no blank and no semicolon. -/
theorem Derives.value_last {v : List Char} (value : Derives .value v) :
    ∃ c ∈ v.getLast?, isBlank c = false ∧ c ≠ ';' := by
  cases value with
  | number literal =>
    obtain ⟨d, last, digit⟩ := literal.last
    refine ⟨d, last, Text.not_isBlank_of_isDigit digit, ?_⟩
    rintro rfl
    cases digit
  | null => exact ⟨'l', by decide⟩
  | truth => exact ⟨'e', by decide⟩
  | falsity => exact ⟨'e', by decide⟩
  | string => exact ⟨'"', by simp [List.getLast?_cons], by decide⟩
  | emptyArray => exact ⟨']', by simp [List.getLast?_cons], by decide⟩
  | array => exact ⟨']', by simp [List.getLast?_cons], by decide⟩
  | emptyObject => exact ⟨'\x7d', by simp [List.getLast?_cons], by decide⟩
  | object => exact ⟨'\x7d', by simp [List.getLast?_cons], by decide⟩

theorem isSpace_of_not_isBlank {c : Char} (visible : isBlank c = false) : isSpace c = false := by
  cases space : isSpace c with
  | false => rfl
  | true =>
    have blank : Text.allBlank [c] = true := Spaces.allBlank (List.forall_mem_singleton.2 space)
    simp [Text.allBlank, visible] at blank

section

variable {cs : List Char}

theorem Derives.element_start (element : Derives .element cs) (more : List Char) :
    ∃ c ds, skipSpace (cs ++ more) = c :: ds ∧ c ≠ ']' := by
  cases element with
  | @element before v after left value right =>
    obtain ⟨c, ds, rfl, visible, other⟩ := value.value_head
    refine ⟨c, ds ++ (after ++ more), ?_, fun same => other (by simp [same])⟩
    simpa using skipSpace_append_cons left (isSpace_of_not_isBlank visible) (ds ++ (after ++ more))

theorem Derives.elements_start (elements : Derives .elements cs) (more : List Char) :
    ∃ c ds, skipSpace (cs ++ more) = c :: ds ∧ c ≠ ']' := by
  cases elements with
  | lastElement element => exact element.element_start more
  | moreElements element =>
    rw [List.append_assoc]
    exact element.element_start _

theorem Derives.member_start (member : Derives .member cs) (more : List Char) :
    ∃ ds, skipSpace (cs ++ more) = '"' :: ds := by
  cases member with
  | member left =>
    rw [List.append_assoc, List.cons_append]
    exact ⟨_, skipSpace_append_cons left (by decide) _⟩

theorem Derives.members_start (members : Derives .members cs) (more : List Char) :
    ∃ ds, skipSpace (cs ++ more) = '"' :: ds := by
  cases members with
  | lastMember member => exact member.member_start more
  | moreMembers member =>
    rw [List.append_assoc]
    exact member.member_start _

end

/-! ### Reading -/

section

variable {fuel : Nat} {cs ds es : List Char}

/-- Behind a comma, items are read as behind the bracket. -/
theorem readItems_comma (comma : skipSpace cs = ',' :: ds) {c : Char}
    (start : skipSpace ds = c :: es) (open_ : c ≠ ']') :
    readItems false fuel cs = readItems true fuel ds := by
  cases fuel with
  | zero => rfl
  | succ fuel =>
    have same := readValue_skipSpace fuel (skipSpace_skipSpace ds)
    rw [start] at same
    simp [readItems, comma, start, open_, same]

/-- Behind a comma, members are read as behind the brace. -/
theorem readMembers_comma (comma : skipSpace cs = ',' :: ds) (start : skipSpace ds = '"' :: es) :
    readMembers false fuel cs = readMembers true fuel ds := by
  cases fuel with
  | zero => rfl
  | succ fuel => simp [readMembers, comma, start]

end

/-- The text of a part is read to its end, whatever follows it, with enough fuel. What is read
depends on the text alone. Of an element, and of a member, the blanks at its end are left. -/
def Reads : Part → List Char → Prop
  | .value, cs => ∃ t, ∀ fuel more, 2 * cs.length ≤ fuel → EndsNumeral more →
    readValue fuel (cs ++ more) = ⟨t, some more⟩
  | .element, cs => ∃ t after, Spaces after ∧ ∀ fuel more, 2 * cs.length ≤ fuel →
    EndsNumeral more → readValue fuel (cs ++ more) = ⟨t, some (after ++ more)⟩
  | .elements, cs => ∃ ts, ∀ fuel more, 2 * cs.length + 1 < fuel →
    readItems true fuel (cs ++ ']' :: more) = ⟨ts, none, some more⟩
  | .member, cs => ∃ m after, Spaces after ∧ ∀ fuel more, 2 * cs.length ≤ fuel →
    EndsNumeral more →
      readMembers true (fuel + 1) (cs ++ more) = (readMembers false fuel (after ++ more)).cons m
  | .members, cs => ∃ ms, ∀ fuel more, 2 * cs.length + 1 < fuel →
    readMembers true fuel (cs ++ '\x7d' :: more) = ⟨ms, none, some more⟩

section

variable {before cs after ds : List Char}

theorem Literal.reads (literal : Literal cs) : Reads .value cs := by
  obtain ⟨leaf, read⟩ := literal.read
  obtain ⟨n, scanned⟩ := literal.scan
  obtain ⟨c, cs, rfl, start⟩ := scanNumeral_head scanned
  refine ⟨.number leaf, fun fuel more enough ends => ?_⟩
  rw [List.length_cons] at enough
  obtain ⟨fuel, rfl⟩ : ∃ n, fuel = n + 1 := ⟨fuel - 1, by omega⟩
  have visible : isSpace c = false := by
    rcases start with rfl | digit
    · decide
    · exact isSpace_of_not_isBlank (Text.not_isBlank_of_isDigit digit)
  have noQuote : c ≠ '"' := by
    rintro rfl
    simp at start
  have taken := read more ends
  rw [List.cons_append] at taken ⊢
  simp [readValue, skipSpace_of_head visible, noQuote, start, taken]

theorem Characters.reads (characters : Characters cs) : Reads .value ('"' :: (cs ++ ['"'])) := by
  obtain ⟨leaf, read⟩ := characters.read
  refine ⟨.string leaf, fun fuel more enough _ => ?_⟩
  rw [List.length_cons] at enough
  obtain ⟨fuel, rfl⟩ : ∃ n, fuel = n + 1 := ⟨fuel - 1, by omega⟩
  have taken := read more
  simp [readValue, skipSpace_of_head, isSpace, taken]

theorem reads_emptyArray (spaces : Spaces cs) : Reads .value ('[' :: (cs ++ [']'])) := by
  refine ⟨.array [] none, fun fuel more enough _ => ?_⟩
  simp only [List.length_cons, List.length_append, List.length_nil] at enough
  obtain ⟨fuel, rfl⟩ : ∃ n, fuel = n + 2 := ⟨fuel - 2, by omega⟩
  have close : skipSpace (cs ++ ']' :: more) = ']' :: more :=
    skipSpace_append_cons spaces (by decide) more
  rw [List.cons_append, List.append_assoc, List.singleton_append, readValue_array,
    readItems_close close]

theorem reads_array (elements : Reads .elements cs) : Reads .value ('[' :: (cs ++ [']'])) := by
  obtain ⟨ts, read⟩ := elements
  refine ⟨.array ts none, fun fuel more enough _ => ?_⟩
  simp only [List.length_cons, List.length_append, List.length_nil] at enough
  obtain ⟨fuel, rfl⟩ : ∃ n, fuel = n + 1 := ⟨fuel - 1, by omega⟩
  rw [List.cons_append, List.append_assoc, List.singleton_append, readValue_array,
    read fuel more (by omega)]

theorem reads_emptyObject (spaces : Spaces cs) :
    Reads .value ('\x7b' :: (cs ++ ['\x7d'])) := by
  refine ⟨.object [] none, fun fuel more enough _ => ?_⟩
  simp only [List.length_cons, List.length_append, List.length_nil] at enough
  obtain ⟨fuel, rfl⟩ : ∃ n, fuel = n + 2 := ⟨fuel - 2, by omega⟩
  have close : skipSpace (cs ++ '\x7d' :: more) = '\x7d' :: more :=
    skipSpace_append_cons spaces (by decide) more
  rw [List.cons_append, List.append_assoc, List.singleton_append]
  exact (readValue_object _ _).trans (by rw [readMembers_close close])

theorem reads_object (members : Reads .members cs) :
    Reads .value ('\x7b' :: (cs ++ ['\x7d'])) := by
  obtain ⟨ms, read⟩ := members
  refine ⟨.object ms none, fun fuel more enough _ => ?_⟩
  simp only [List.length_cons, List.length_append, List.length_nil] at enough
  obtain ⟨fuel, rfl⟩ : ∃ n, fuel = n + 1 := ⟨fuel - 1, by omega⟩
  rw [List.cons_append, List.append_assoc, List.singleton_append]
  exact (readValue_object _ _).trans (by rw [read fuel more (by omega)])

theorem reads_element (left : Spaces before) (value : Reads .value cs) (right : Spaces after) :
    Reads .element (before ++ (cs ++ after)) := by
  obtain ⟨t, read⟩ := value
  refine ⟨t, after, right, fun fuel more enough ends => ?_⟩
  simp only [List.length_append] at enough
  rw [List.append_assoc, List.append_assoc, readValue_skipSpace fuel (skipSpace_append left _)]
  exact read fuel _ (by omega) (endsNumeral_append right ends)

/-- One item is read, and then what is left behind it. -/
theorem Derives.items_first (element : Derives .element cs) (reads : Reads .element cs) :
    ∃ t after, Spaces after ∧ ∀ fuel more, 2 * cs.length ≤ fuel → EndsNumeral more →
      readItems true (fuel + 1) (cs ++ more) = (readItems false fuel (after ++ more)).cons t := by
  obtain ⟨t, after, right, read⟩ := reads
  refine ⟨t, after, right, fun fuel more enough ends => ?_⟩
  obtain ⟨c, ds, start, open_⟩ := element.element_start more
  have value := read fuel more enough ends
  rw [← readValue_skipSpace fuel (skipSpace_skipSpace _), start] at value
  exact readItems_first start open_ value

-- Each item takes a step of its own, so the fuel for a list exceeds that for its longest item.
theorem Derives.reads_lastElement (element : Derives .element cs) (reads : Reads .element cs) :
    Reads .elements cs := by
  obtain ⟨t, after, right, first⟩ := element.items_first reads
  refine ⟨[t], fun fuel more enough => ?_⟩
  obtain ⟨fuel, rfl⟩ : ∃ n, fuel = n + 2 := ⟨fuel - 2, by omega⟩
  have close : skipSpace (after ++ ']' :: more) = ']' :: more :=
    skipSpace_append_cons right (by decide) more
  rw [first (fuel + 1) _ (by omega) (endsNumeral_of_head (by decide)), readItems_close close]
  rfl

theorem Derives.reads_moreElements (element : Derives .element cs) (reads : Reads .element cs)
    (elements : Derives .elements ds) (others : Reads .elements ds) :
    Reads .elements (cs ++ ',' :: ds) := by
  obtain ⟨t, after, right, first⟩ := element.items_first reads
  obtain ⟨ts, read⟩ := others
  refine ⟨t :: ts, fun fuel more enough => ?_⟩
  simp only [List.length_append, List.length_cons] at enough
  obtain ⟨fuel, rfl⟩ : ∃ n, fuel = n + 1 := ⟨fuel - 1, by omega⟩
  have comma : skipSpace (after ++ ',' :: (ds ++ ']' :: more)) = ',' :: (ds ++ ']' :: more) :=
    skipSpace_append_cons right (by decide) _
  -- Behind the comma the others are read as they are behind the bracket.
  obtain ⟨c, es, start, open_⟩ := elements.elements_start (']' :: more)
  rw [List.append_assoc, List.cons_append,
    first fuel _ (by omega) (endsNumeral_of_head (by decide)),
    readItems_comma comma start open_, read fuel more (by omega)]
  rfl

theorem reads_member {name : List Char} (left : Spaces before) (characters : Characters name)
    (right : Spaces after) (element : Reads .element cs) :
    Reads .member (before ++ '"' :: (name ++ '"' :: (after ++ ':' :: cs))) := by
  obtain ⟨key, readKey⟩ := characters.read
  obtain ⟨t, behind, blank, read⟩ := element
  refine ⟨(key, t), behind, blank, fun fuel more enough ends => ?_⟩
  simp only [List.length_append, List.length_cons] at enough
  simp only [List.append_assoc, List.cons_append]
  exact readMembers_first (readKey _) (skipSpace_append_cons right (by decide) _)
    (read fuel more (by omega) ends) (skipSpace_append_cons left (by decide) _)

theorem reads_lastMember (member : Reads .member cs) : Reads .members cs := by
  obtain ⟨m, after, right, first⟩ := member
  refine ⟨[m], fun fuel more enough => ?_⟩
  obtain ⟨fuel, rfl⟩ : ∃ n, fuel = n + 2 := ⟨fuel - 2, by omega⟩
  have close : skipSpace (after ++ '\x7d' :: more) = '\x7d' :: more :=
    skipSpace_append_cons right (by decide) more
  rw [first (fuel + 1) _ (by omega) (endsNumeral_of_head (by decide)), readMembers_close close]
  rfl

theorem reads_moreMembers (member : Reads .member cs) (members : Derives .members ds)
    (others : Reads .members ds) : Reads .members (cs ++ ',' :: ds) := by
  obtain ⟨m, after, right, first⟩ := member
  obtain ⟨ms, read⟩ := others
  refine ⟨m :: ms, fun fuel more enough => ?_⟩
  simp only [List.length_append, List.length_cons] at enough
  obtain ⟨fuel, rfl⟩ : ∃ n, fuel = n + 1 := ⟨fuel - 1, by omega⟩
  have comma : skipSpace (after ++ ',' :: (ds ++ '\x7d' :: more))
      = ',' :: (ds ++ '\x7d' :: more) :=
    skipSpace_append_cons right (by decide) _
  obtain ⟨es, start⟩ := members.members_start ('\x7d' :: more)
  rw [List.append_assoc, List.cons_append,
    first fuel _ (by omega) (endsNumeral_of_head (by decide)),
    readMembers_comma comma start, read fuel more (by omega)]
  rfl

end

/-- The texts of each part are read to their end, by induction on how they are derived. -/
theorem Derives.reads {p : Part} {cs : List Char} (h : Derives p cs) : Reads p cs := by
  induction h with
  | null => exact ⟨.null, fun | fuel + 1, more, _, _ => rfl⟩
  | truth => exact ⟨.bool true, fun | fuel + 1, more, _, _ => rfl⟩
  | falsity => exact ⟨.bool false, fun | fuel + 1, more, _, _ => rfl⟩
  | number literal => exact literal.reads
  | string characters => exact characters.reads
  | emptyArray spaces => exact reads_emptyArray spaces
  | array _ ih => exact reads_array ih
  | emptyObject spaces => exact reads_emptyObject spaces
  | object _ ih => exact reads_object ih
  | element left _ right ih => exact reads_element left ih right
  | lastElement element ih => exact element.reads_lastElement ih
  | moreElements element elements first others =>
    exact element.reads_moreElements first elements others
  | member left characters right _ ih => exact reads_member left characters right ih
  | lastMember _ ih => exact reads_lastMember ih
  | moreMembers _ members first others => exact reads_moreMembers first members others

/-- Whoever decodes a value's text is given one tree, whatever blanks stand around the value. -/
theorem Derives.decode_padded {α : Type} (d : Decoder α) {before v after : List Char}
    (left : Spaces before) (value : Derives .value v) (right : Spaces after) :
    decode d (String.ofList (before ++ (v ++ after))) = decode d (String.ofList v) := by
  obtain ⟨t, reads⟩ := value.reads
  have decoded {before after : List Char} (left : Spaces before) (right : Spaces after) :
      decode d (String.ofList (before ++ (v ++ after))) = d t := by
    have ends := endsNumeral_append right endsNumeral_nil
    rw [List.append_nil] at ends
    have read := reads (2 * (before ++ (v ++ after)).length + 2) after
      (by simp only [List.length_append]; omega) ends
    rw [← readValue_skipSpace _ (skipSpace_append left _)] at read
    simp only [decode, Json.read, String.toList_ofList, read, skipSpace_spaces right]
    cases d t <;> rfl
  have alone := decoded spaces_nil spaces_nil
  rw [List.append_nil, List.nil_append] at alone
  rw [decoded left right, alone]

end BenchLedger.Json
