import BenchLedger.Proofs.NumberText
import BenchLedger.Proofs.ShortestDigits

/-!
Literals of doubles. Main statements: `scanNumeral_finite` and `legible_real`: a finite double is
written as one number literal, which stands for its shortest digits. Whether the literal gives the
double back is another question.
-/

namespace BenchLedger

namespace Decimal

open Float.Model (UnpackedFloat)
open Float.Model.UnpackedFloat (unpackExponent unpackMantissa unpackSign)
open Text (digitsOf digitsValue wholeDigits AllDigits)

/-! ### Finite doubles -/

/-- The last exponent is that of infinities and of what is not a number. -/
theorem parts_of_isFinite {x : Float} (h : x.isFinite = true) :
    ∃ negative m e, parts x = .finite negative m e := by
  have exponent : x.toBits.toNat / Nat.pow 2 52 % Nat.pow 2 11 ≠ 2047 := by
    intro last
    have field : (@unpackExponent .binary64 x.toBits.toBitVec).toNat = 2047 := by
      change (x.toBits.toNat >>> 52) % 2 ^ 11 = 2047
      rw [Nat.shiftRight_eq_div_pow]
      exact last
    have infinite : @unpackExponent .binary64 x.toBits.toBitVec = -1 :=
      BitVec.eq_of_toNat_eq field
    have unpacked : UnpackedFloat.unpack .binary64 x.toBits.toBitVec
        = if @unpackMantissa .binary64 x.toBits.toBitVec = 0 then
            .infinity (.ofBitVec (@unpackSign .binary64 x.toBits.toBitVec))
          else .notANumber := if_pos infinite
    change (UnpackedFloat.unpack .binary64 x.toBits.toBitVec).isFinite = true at h
    rw [unpacked] at h
    split at h <;> cases h
  unfold parts Parts.ofBits
  simp only [exponent, if_false]
  split
  · exact ⟨_, _, _, rfl⟩
  · exact ⟨_, _, _, rfl⟩

/-- The largest doubles have 53 ones and the exponent 971. -/
theorem bounds_of_parts {x : Float} {negative : Bool} {m : Nat} {e : Int}
    (h : parts x = .finite negative m e) : m < 2 ^ 53 ∧ e ≤ 971 := by
  unfold parts Parts.ofBits at h
  simp only [Nat.pow_eq] at h
  split at h
  · split at h <;> cases h
  split at h
  · cases h
    refine ⟨?_, by decide⟩
    omega
  · cases h
    omega

/-! ### Shortest digits -/

theorem Expansion.coefficient_pos {m : Nat} (positive : 0 < m) (e : Int) :
    0 < (ofBinary m e).coefficient := by
  cases e with
  | ofNat e => exact Nat.mul_pos positive (Nat.pow_pos (by decide))
  | negSucc e => exact Nat.mul_pos positive (Nat.pow_pos (by decide))

/-- As long as not all digits of the value are dropped, something is left. -/
theorem Interval.shortestFrom_pos {i : Interval} {dropped : Nat}
    (enough : Nat.pow 10 dropped ≤ i.value) : 0 < (i.shortestFrom dropped).1 := by
  induction dropped with
  | zero => exact enough
  | succ dropped ih =>
    have below : 0 < i.value / Nat.pow 10 (dropped + 1) :=
      Nat.div_pos enough (Nat.pow_pos (by decide))
    have fewer : Nat.pow 10 dropped ≤ i.value :=
      Nat.le_trans (Nat.pow_le_pow_right (by decide) (Nat.le_succ dropped)) enough
    unfold shortestFrom
    split
    next c found =>
      -- Whichever neighbour of the value was taken, it is not below the quotient.
      unfold nearest? at found
      grind
    · exact ih fewer

theorem stripZeros_pos {fuel c : Nat} {p : Int} (positive : 0 < c) :
    0 < (stripZeros fuel c p).coefficient := by
  induction fuel generalizing c p with
  | zero => exact positive
  | succ fuel ih =>
    unfold stripZeros
    split
    next zero =>
      simp only [Bool.and_eq_true, beq_iff_eq] at zero
      exact ih (by omega)
    · exact positive

theorem pow_digitCount_le {n : Nat} (positive : 0 < n) : Nat.pow 10 (digitCount n - 1) ≤ n := by
  by_cases one : digitCount n - 1 = 0
  · rw [one]
    exact positive
  · have long : ¬digitCount n ≤ digitCount n - 1 := by omega
    exact Nat.not_lt.1 fun small =>
      long ((Nat.length_toDigits_le_iff (by decide) (Nat.pos_of_ne_zero one)).2 small)

theorem shortest_pos {m : Nat} (positive : 0 < m) (e : Int) : 0 < (shortest m e).coefficient := by
  have value : 0 < (Interval.ofBinary m e).1.value :=
    Expansion.coefficient_pos (Nat.mul_pos (by decide) positive) _
  exact stripZeros_pos (Interval.shortestFrom_pos (pow_digitCount_le value))

end Decimal

namespace Json

open Decimal
open Text (digitsOf digitsValue wholeDigits AllDigits)

/-! ### Literals -/

/-- The digits of a positive number do not start with a zero. -/
private theorem digitsOf_pos_head {n : Nat} (positive : 0 < n) {c : Char} {cs : List Char}
    (h : digitsOf n = c :: cs) : c ≠ '0' := by
  cases cs with
  | nil =>
    rintro rfl
    have value := Text.digitsValue_digitsOf n
    rw [h] at value
    exact absurd value (Nat.ne_of_lt positive)
  | cons d ds => exact Text.digitsOf_head h (by simp)

private theorem allDigits_zeros (n : Nat) : AllDigits (List.replicate n '0') := by
  intro c member
  rw [List.eq_of_mem_replicate member]
  decide

/-- A point and digits end a literal. -/
private theorem scanFraction_last (negative : Bool) (whole : List Char) {ds : List Char}
    (digits : AllDigits ds) (filled : ds ≠ []) :
    scanFraction negative whole ('.' :: ds) = .complete ⟨negative, whole, ds, none⟩ [] := by
  have stop : ∀ c ∈ ([] : List Char).head?, c.isDigit = false := by simp
  have read := scanFraction_digits negative whole digits filled stop
  rw [List.append_nil] at read
  exact read

/-- An exponent with its sign ends a literal. -/
private theorem scanExponent_signed (negative : Bool) (whole fraction : List Char) (e : Int) :
    scanExponent negative whole fraction ('e' :: ((if e < 0 then [] else ['+']) ++ wholeDigits e))
      = .complete ⟨negative, whole, fraction, some e⟩ [] := by
  have spanned (n : Nat) : spanDigits (digitsOf n) = (digitsOf n, []) :=
    spanDigits_self (Text.allDigits_digitsOf n)
  have filled (n : Nat) : (digitsOf n).isEmpty = false := by
    simpa using Text.digitsOf_ne_nil n
  cases e with
  | ofNat n =>
    have positive : ¬(Int.ofNat n < 0) := by simp
    rw [if_neg positive]
    simp [scanExponent, wholeDigits, splitSign, spanned, filled]
  | negSucc n =>
    rw [if_pos (Int.negSucc_lt_zero n)]
    simp [scanExponent, wholeDigits, splitSign, spanned, filled]
    omega

/-! ### What literals stand for -/

/-- The number that a literal stands for, its sign apart. -/
def Numeral.magnitude (n : Numeral) : ℚ :=
  digitsValue (n.whole ++ n.fraction) * 10 ^ (n.exponent.getD 0 - n.fraction.length)

/-- A literal that stands for a number, not written as a whole number and with few digits in front
of the point. -/
structure Numeral.Shows (n : Numeral) (negative : Bool) (x : ℚ) : Prop where
  sign : n.negative = negative
  fractional : (n.fraction.isEmpty && n.exponent.isNone) = false
  digits : AllDigits n.whole
  short : n.whole.length ≤ 16
  magnitude : n.magnitude = x

/-- A text is one literal, which stands for a number. -/
private def ShownBy (negative : Bool) (cs : List Char) (x : ℚ) : Prop :=
  ∃ n, scanMagnitude negative cs = .complete n [] ∧ n.Shows negative x

private theorem shownBy_positional (negative : Bool) {s : Scientific}
    (positive : 0 < s.coefficient) (short : s.magnitude ≤ 15) :
    ShownBy negative (positionalText true s) s.value := by
  have digits := Text.allDigits_digitsOf s.coefficient
  have filled := Text.digitsOf_ne_nil s.coefficient
  have length : 0 < (digitsOf s.coefficient).length := List.length_pos_iff.2 filled
  have few : ((digitsOf s.coefficient).length : Int) - 1 + s.power ≤ 15 := short
  unfold positionalText Scientific.value
  dsimp only
  split
  next p power =>
    -- Zeros and `.0` follow the digits.
    have whole := digits.append (allDigits_zeros p)
    have noZero : ∀ c cs, digitsOf s.coefficient ++ List.replicate p '0' = '0' :: c :: cs →
        False := by
      intro c cs same
      cases text : digitsOf s.coefficient with
      | nil => exact filled text
      | cons d ds =>
        rw [text, List.cons_append] at same
        exact digitsOf_pos_head positive text (List.cons.inj same).1
    rw [if_pos rfl, ShownBy,
      scanMagnitude_digits negative whole (by simp [filled]) noZero (by simp)]
    refine ⟨_, scanFraction_last negative _ (allDigits_zeros 1) (by simp), rfl, rfl, whole, ?_, ?_⟩
    · rw [power, Int.ofNat_eq_natCast] at few
      rw [List.length_append, List.length_replicate]
      omega
    · have zeros (k : Nat) : digitsValue (List.replicate k '0') = 0 := by
        rw [← List.append_nil (List.replicate k '0'), Text.digitsValue_zeros]
        rfl
      have value : digitsValue (digitsOf s.coefficient ++ List.replicate p '0' ++ ['0'])
          = s.coefficient * 10 ^ p * 10 := by
        rw [← List.replicate_one, Text.digitsValue_append, Text.digitsValue_append, zeros, zeros,
          Text.digitsValue_digitsOf, List.length_replicate, List.length_replicate]
        rfl
      rw [Numeral.magnitude, value, power]
      simp
  next p power =>
    split
    next short =>
      -- All digits stand behind the point, perhaps after zeros.
      have stop : ∀ c ∈ ('.' :: (List.replicate (p + 1 - (digitsOf s.coefficient).length) '0' ++
          digitsOf s.coefficient)).head?, c.isDigit = false := by simp
      have read := scanMagnitude_digits negative (allDigits_zeros 1) (by simp) (by simp) stop
      rw [List.replicate_one, List.singleton_append] at read
      rw [ShownBy, read]
      have decimals := (allDigits_zeros (p + 1 - (digitsOf s.coefficient).length)).append digits
      refine ⟨_, scanFraction_last negative _ decimals (by simp [filled]), rfl, ?_,
        allDigits_zeros 1, by simp, ?_⟩
      · simp [filled]
      · have places : p + 1 - (digitsOf s.coefficient).length + (digitsOf s.coefficient).length
            = p + 1 := by
          omega
        have value : digitsValue (['0'] ++ (List.replicate (p + 1 - (digitsOf s.coefficient).length)
            '0' ++ digitsOf s.coefficient)) = s.coefficient := by
          rw [← List.replicate_one, Text.digitsValue_zeros, Text.digitsValue_zeros,
            Text.digitsValue_digitsOf]
        rw [Numeral.magnitude, value, List.length_append, List.length_replicate, places, power]
        simp [Int.negSucc_eq]
    next long =>
      -- The point stands among the digits.
      generalize cut : (digitsOf s.coefficient).length - (p + 1) = k
      have whole : AllDigits ((digitsOf s.coefficient).take k) :=
        fun c member => digits c (List.mem_of_mem_take member)
      have decimals : AllDigits ((digitsOf s.coefficient).drop k) :=
        fun c member => digits c (List.mem_of_mem_drop member)
      have noZero : ∀ c cs, (digitsOf s.coefficient).take k = '0' :: c :: cs → False := by
        intro c cs same
        have text := List.take_append_drop k (digitsOf s.coefficient)
        rw [same, List.cons_append] at text
        exact digitsOf_pos_head positive text.symm rfl
      have someWhole : (digitsOf s.coefficient).take k ≠ [] := by
        simp only [ne_eq, List.take_eq_nil_iff, not_or]
        exact ⟨by omega, filled⟩
      have someDecimals : (digitsOf s.coefficient).drop k ≠ [] := by
        simp only [ne_eq, List.drop_eq_nil_iff]
        omega
      rw [ShownBy, scanMagnitude_digits negative whole someWhole noZero (by simp)]
      refine ⟨_, scanFraction_last negative _ decimals someDecimals, rfl, ?_, whole, ?_, ?_⟩
      · simp only [List.isEmpty_eq_false_iff.2 someDecimals, Bool.false_and]
      · rw [List.length_take]
        rw [power] at few
        omega
      · have places : (digitsOf s.coefficient).length - k = p + 1 := by omega
        rw [Numeral.magnitude, List.take_append_drop, Text.digitsValue_digitsOf, List.length_drop,
          places, power]
        simp [Int.negSucc_eq]

private theorem shownBy_exponent (negative : Bool) (s : Scientific) :
    ShownBy negative (exponentText s) s.value := by
  have digits := Text.allDigits_digitsOf s.coefficient
  have value := Text.digitsValue_digitsOf s.coefficient
  have count : s.magnitude = (digitsOf s.coefficient).length - 1 + s.power := rfl
  unfold exponentText Scientific.value
  dsimp only
  cases text : digitsOf s.coefficient with
  | nil => exact absurd text (Text.digitsOf_ne_nil s.coefficient)
  | cons d ds =>
    rw [text] at digits value count
    have first : AllDigits [d] := by
      intro c member
      rw [List.mem_singleton.1 member]
      exact digits d (by simp)
    have others : AllDigits ds := fun c member => digits c (by simp [member])
    have shows : (⟨negative, [d], ds, some s.magnitude⟩ : Numeral).Shows negative
        (s.coefficient * 10 ^ s.power) := by
      refine ⟨rfl, by simp, first, by simp, ?_⟩
      rw [Numeral.magnitude, List.singleton_append, value, count]
      simp
    rw [show (d :: ds).take 1 = [d] from rfl, show (d :: ds).drop 1 = ds from rfl, ShownBy]
    cases ds with
    | nil =>
      rw [List.append_nil, scanMagnitude_digits negative first (by simp) (by simp) (by simp)]
      exact ⟨_, scanExponent_signed negative [d] [] s.magnitude, shows⟩
    | cons d' ds =>
      rw [List.append_assoc, scanMagnitude_digits negative first (by simp) (by simp) (by simp)]
      dsimp only
      rw [List.cons_append, scanFraction_digits negative [d] others (by simp) (by simp)]
      exact ⟨_, scanExponent_signed negative [d] (d' :: ds) s.magnitude, shows⟩

/-- A double's text depends on its parts. -/
theorem text_of_parts {x : Float} {negative : Bool} {m : Nat} {e : Int}
    (parts : parts x = .finite negative m e) :
    (Number.real x).text = Layout.document.finite negative m e := by
  simp only [Number.text, realText, parts]

/-- What the text of a finite double stands for. -/
def shownValue (m : Nat) (e : Int) : ℚ :=
  if m = 0 then 0 else (shortest m e).value

/-- A finite double is written as one literal, which stands for its shortest digits. -/
theorem scanNumeral_finite (negative : Bool) (m : Nat) (e : Int) :
    ∃ n, scanNumeral (Layout.document.finite negative m e) = .complete n [] ∧
      n.Shows negative (shownValue m e) := by
  have magnitude : ShownBy negative
      (if m = 0 then '0' :: (if Layout.document.pointZero then ['.', '0'] else [])
        else Layout.document.digits (shortest m e)) (shownValue m e) := by
    unfold shownValue
    split
    · refine ⟨⟨negative, ['0'], ['0'], none⟩, rfl, rfl, rfl, allDigits_zeros 1, by simp, ?_⟩
      have value : digitsValue (['0'] ++ ['0']) = 0 := by decide
      rw [Numeral.magnitude, value]
      simp
    next some =>
      have positive := shortest_pos (Nat.pos_of_ne_zero some) e
      simp only [Layout.digits, Layout.document]
      split
      next middle =>
        simp only [Bool.and_eq_true, decide_eq_true_eq] at middle
        exact shownBy_positional negative positive middle.2
      · exact shownBy_exponent negative _
  obtain ⟨n, scanned, shows⟩ := magnitude
  refine ⟨n, ?_, shows⟩
  unfold Layout.finite
  cases negative with
  | true => exact scanned
  | false => exact scanNumeral_of_magnitude scanned

/-- Every finite double is written as one literal. -/
theorem legible_real {x : Float} (finite : x.isFinite = true) : (Number.real x).Legible := by
  obtain ⟨negative, m, e, parts⟩ := parts_of_isFinite finite
  obtain ⟨n, scanned, _⟩ := scanNumeral_finite negative m e
  rw [← text_of_parts parts] at scanned
  exact ⟨n, scanned⟩

end Json

end BenchLedger
