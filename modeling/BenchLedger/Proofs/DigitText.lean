import BenchLedger.Text.Blank
import BenchLedger.Text.Numeral
import Mathlib.Algebra.Ring.Int.Defs
import Mathlib.Algebra.Ring.Nat

/-!
Decimal digits as text. Main statements: the digits of a number have its value, with zeros in front
or without, and a number that fits a width is written in exactly that width.
-/

namespace BenchLedger.Text

/-- Every character is a decimal digit. -/
def AllDigits (cs : List Char) : Prop :=
  ∀ c ∈ cs, c.isDigit = true

theorem AllDigits.append {as bs : List Char} (ha : AllDigits as) (hb : AllDigits bs) :
    AllDigits (as ++ bs) := by
  intro c member
  exact (List.mem_append.1 member).elim (ha c) (hb c)

theorem allDigits_digitsOf (n : Nat) : AllDigits (digitsOf n) :=
  fun _ member => Nat.isDigit_of_mem_toDigits (by decide) (by decide) member

theorem digitsOf_ne_nil (n : Nat) : digitsOf n ≠ [] :=
  Nat.toDigits_ne_nil

/-! ### Values -/

private theorem digitsValue_eq (cs : List Char) : digitsValue cs = Nat.ofDigitChars 10 cs 0 := by
  rw [Nat.ofDigitChars_eq_foldl]
  rfl

@[simp] theorem digitsValue_digitsOf (n : Nat) : digitsValue (digitsOf n) = n := by
  rw [digitsValue_eq]
  exact Nat.ofDigitChars_ten_toDigits

/-- Zeros in front do not count. -/
theorem digitsValue_zeros (k : Nat) (cs : List Char) :
    digitsValue (List.replicate k '0' ++ cs) = digitsValue cs := by
  simp [digitsValue_eq, Nat.ofDigitChars_append, Nat.ofDigitChars_replicate_zero]

/-- Digits in front count by the power of ten of the digits behind them. -/
theorem digitsValue_append (as bs : List Char) :
    digitsValue (as ++ bs) = digitsValue as * 10 ^ bs.length + digitsValue bs := by
  rw [digitsValue_eq, digitsValue_eq, digitsValue_eq, Nat.ofDigitChars_append,
    Nat.ofDigitChars_eq_ofDigitChars_zero, Nat.mul_comm]

/-! ### Widths -/

/-- The code points of the digits. -/
theorem isDigit_range {c : Char} (h : c.isDigit = true) : 48 ≤ c.toNat ∧ c.toNat ≤ 57 := by
  simp only [Char.isDigit, Bool.and_eq_true, decide_eq_true_eq, ge_iff_le,
    UInt32.le_iff_toNat_le] at h
  exact h

/-- A run of digits is below the next power of ten. -/
theorem digitsValue_lt {ds : List Char} (digits : AllDigits ds) :
    digitsValue ds < 10 ^ ds.length := by
  induction ds with
  | nil => decide
  | cons d ds ih =>
    have behind := ih fun c member => digits c (by simp [member])
    have range := isDigit_range (digits d (by simp))
    have first : digitsValue [d] ≤ 9 := by
      simp [digitsValue, digitValue]
      omega
    have scaled := Nat.mul_le_mul_right (10 ^ ds.length) first
    rw [← List.singleton_append, digitsValue_append, List.length_append, List.length_singleton,
      Nat.add_comm 1, Nat.pow_succ]
    omega

theorem allDigits_paddedDigits (width n : Nat) : AllDigits (paddedDigits width n) := by
  refine AllDigits.append ?_ (allDigits_digitsOf n)
  intro c member
  rw [List.eq_of_mem_replicate member]
  decide

@[simp] theorem digitsValue_paddedDigits (width n : Nat) :
    digitsValue (paddedDigits width n) = n := by
  simp [paddedDigits, digitsValue_zeros]

theorem paddedDigits_ne_nil (width n : Nat) : paddedDigits width n ≠ [] := by
  simp [paddedDigits, digitsOf_ne_nil]

/-- A number that fits a width fills it. -/
theorem length_paddedDigits {width n : Nat} (positive : 0 < width) (fits : n < 10 ^ width) :
    (paddedDigits width n).length = width := by
  have short : (digitsOf n).length ≤ width :=
    (Nat.length_toDigits_le_iff (by decide) positive).2 fits
  simp only [paddedDigits, List.length_append, List.length_replicate]
  omega

/-! ### Leading digits -/

/-- Only zero is written with a leading zero. -/
theorem digitsOf_head {n : Nat} {c : Char} {cs : List Char} (h : digitsOf n = c :: cs)
    (long : cs ≠ []) : c ≠ '0' := by
  induction n using Nat.strongRecOn generalizing c cs with
  | _ n ih =>
    unfold digitsOf at h
    rw [Nat.toDigits_eq_if (by decide)] at h
    split at h
    · cases h
      exact absurd rfl long
    next large =>
      cases front : Nat.toDigits 10 (n / 10) with
      | nil => exact absurd front Nat.toDigits_ne_nil
      | cons d ds =>
        rw [front, List.cons_append] at h
        obtain ⟨rfl, _⟩ := List.cons.inj h
        cases ds with
        | nil =>
          -- One digit is left, and it is not zero because `n` has two.
          intro zero
          subst zero
          have value := digitsValue_digitsOf (n / 10)
          rw [digitsOf, front] at value
          have none : digitsValue ['0'] = 0 := by decide
          omega
        | cons e ds => exact ih (n / 10) (by omega) front (by simp)

/-! ### Spans -/

theorem takeWhile_digits_append {ds rest : List Char} (digits : AllDigits ds)
    (stop : ∀ c ∈ rest.head?, c.isDigit = false) :
    (ds ++ rest).takeWhile Char.isDigit = ds := by
  rw [List.takeWhile_append_of_pos digits]
  cases rest with
  | nil => simp
  | cons c rest => simp [stop c (by simp)]

theorem dropWhile_digits_append {ds rest : List Char} (digits : AllDigits ds)
    (stop : ∀ c ∈ rest.head?, c.isDigit = false) :
    (ds ++ rest).dropWhile Char.isDigit = rest := by
  rw [List.dropWhile_append_of_pos digits]
  cases rest with
  | nil => simp
  | cons c rest => simp [stop c (by simp)]

/-- A run of digits starts with no other character. -/
theorem digits_append_ne_cons {ds : List Char} (digits : AllDigits ds) (filled : ds ≠ [])
    {c : Char} (other : c.isDigit = false) (rest more : List Char) : ds ++ rest ≠ c :: more := by
  cases ds with
  | nil => exact absurd rfl filled
  | cons d ds =>
    intro same
    obtain ⟨rfl, _⟩ := List.cons.inj same
    have digit := digits d (by simp)
    rw [other] at digit
    cases digit

/-- Digits are no blanks. -/
theorem not_isBlank_of_isDigit {c : Char} (h : c.isDigit = true) : isBlank c = false := by
  have range := isDigit_range h
  simp only [isBlank, Bool.or_eq_false_iff, Bool.and_eq_false_iff, decide_eq_false_iff_not,
    beq_eq_false_iff_ne]
  omega

end BenchLedger.Text
