import BenchLedger.Json.Tree
import BenchLedger.Proofs.DigitText
import Mathlib.Algebra.Ring.Int.Defs
import Mathlib.Algebra.Ring.Nat

/-!
Number literals inside a JSON text. Main statements: a literal is read alike whatever follows it, as
long as that does not go on with the literal, and whole numbers within a machine word read back.
-/

namespace BenchLedger.Json

open Text (AllDigits digitsOf digitsValue wholeDigits)

/-- No number literal goes on with this text. -/
def EndsNumeral (rest : List Char) : Prop :=
  ∀ c ∈ rest.head?, c.isDigit = false ∧ c ≠ '.' ∧ c ≠ 'e' ∧ c ≠ 'E'

theorem endsNumeral_nil : EndsNumeral [] := by
  simp [EndsNumeral]

/-! ### Literals and what follows them -/

private theorem spanDigits_append (cs : List Char) {rest : List Char} (ends : EndsNumeral rest) :
    spanDigits (cs ++ rest) = ((spanDigits cs).1, (spanDigits cs).2 ++ rest) := by
  induction cs with
  | nil =>
    cases rest with
    | nil => rfl
    | cons c rest => simp [spanDigits, (ends c (by simp)).1]
  | cons c cs ih =>
    simp only [spanDigits, Prod.mk.injEq] at ih
    by_cases digit : c.isDigit = true <;> simp [spanDigits, digit, ih]

private theorem missingDigit_ne {cs rest : List Char} {n : Numeral} :
    missingDigit cs ≠ .complete n rest := by
  cases cs <;> simp [missingDigit]

private theorem splitSign_append {cs : List Char} (more : cs ≠ []) (rest : List Char) :
    Decimal.splitSign (cs ++ rest)
      = ((Decimal.splitSign cs).1, (Decimal.splitSign cs).2 ++ rest) := by
  cases cs with
  | nil => exact absurd rfl more
  | cons c cs =>
    by_cases minus : c = '-'
    · subst minus
      rfl
    · by_cases plus : c = '+'
      · subst plus
        rfl
      · simp [Decimal.splitSign, minus, plus]

private theorem scanExponent_append {negative : Bool} {whole fraction cs : List Char}
    {n : Numeral} (h : scanExponent negative whole fraction cs = .complete n [])
    {rest : List Char} (ends : EndsNumeral rest) :
    scanExponent negative whole fraction (cs ++ rest) = .complete n rest := by
  cases cs with
  | nil =>
    simp only [scanExponent, NumeralScan.complete.injEq, and_true] at h
    cases rest with
    | nil => simp [scanExponent, h]
    | cons c rest =>
      have plain := ends c (by simp)
      simp [scanExponent, plain.2.2.1, plain.2.2.2, h]
  | cons c cs =>
    simp only [scanExponent, List.cons_append] at h ⊢
    split at h
    next letter =>
      rw [if_pos letter]
      have more : cs ≠ [] := by
        rintro rfl
        simp [Decimal.splitSign, spanDigits, missingDigit] at h
      rw [splitSign_append more]
      simp only [spanDigits_append _ ends]
      split at h
      · exact absurd h missingDigit_ne
      next digits =>
        rw [if_neg digits]
        simp only [NumeralScan.complete.injEq] at h ⊢
        exact ⟨h.1, by rw [h.2, List.nil_append]⟩
    · cases h

private theorem scanFraction_append {negative : Bool} {whole cs : List Char} {n : Numeral}
    (h : scanFraction negative whole cs = .complete n []) {rest : List Char}
    (ends : EndsNumeral rest) : scanFraction negative whole (cs ++ rest) = .complete n rest := by
  unfold scanFraction at h
  split at h
  next after =>
    simp only [List.cons_append, scanFraction, spanDigits_append _ ends] at h ⊢
    split at h
    · exact absurd h missingDigit_ne
    next digits =>
      rw [if_neg digits]
      exact scanExponent_append h ends
  next noPoint =>
    have still : ∀ after, cs ++ rest ≠ '.' :: after := by
      intro after
      cases cs with
      | nil =>
        cases rest with
        | nil => simp
        | cons c rest => simp [(ends c (by simp)).2.1]
      | cons c cs =>
        intro same
        obtain ⟨rfl, _⟩ := List.cons.inj same
        exact noPoint cs rfl
    unfold scanFraction
    split
    next after same => exact absurd same (still after)
    · exact scanExponent_append h ends

private theorem scanMagnitude_append {negative : Bool} {cs : List Char} {n : Numeral}
    (h : scanMagnitude negative cs = .complete n []) {rest : List Char} (ends : EndsNumeral rest) :
    scanMagnitude negative (cs ++ rest) = .complete n rest := by
  unfold scanMagnitude at h ⊢
  rw [spanDigits_append cs ends]
  split at h
  · exact absurd h missingDigit_ne
  · cases h
  · exact scanFraction_append h ends

/-- A complete literal is the same literal in front of any text that does not go on with it. -/
theorem scanNumeral_append {cs : List Char} {n : Numeral} (h : scanNumeral cs = .complete n [])
    {rest : List Char} (ends : EndsNumeral rest) :
    scanNumeral (cs ++ rest) = .complete n rest := by
  unfold scanNumeral at h
  split at h
  · exact scanMagnitude_append h ends
  next noMinus =>
    have still : ∀ more, cs ++ rest ≠ '-' :: more := by
      intro more same
      cases cs with
      | nil => simp [scanMagnitude, spanDigits, missingDigit] at h
      | cons c cs =>
        obtain ⟨rfl, _⟩ := List.cons.inj same
        exact noMinus cs rfl
    unfold scanNumeral
    split
    next more same => exact absurd same (still more)
    · exact scanMagnitude_append h ends

/-- A literal starts with a minus sign or a digit. -/
theorem scanNumeral_head {cs rest : List Char} {n : Numeral}
    (h : scanNumeral cs = .complete n rest) :
    ∃ c more, cs = c :: more ∧ (c = '-' ∨ c.isDigit = true) := by
  cases cs with
  | nil => simp [scanNumeral, scanMagnitude, spanDigits, missingDigit] at h
  | cons c more =>
    refine ⟨c, more, rfl, ?_⟩
    by_cases minus : c = '-'
    · exact .inl minus
    · by_cases digit : c.isDigit = true
      · exact .inr digit
      · simp [scanNumeral, minus, scanMagnitude, spanDigits, digit, missingDigit] at h

/-! ### Numbers -/

/-- A number's text is one literal, whatever number that is read as. -/
def Number.Legible (n : Number) : Prop :=
  ∃ numeral, scanNumeral n.text = .complete numeral []

/-- A number's literal is read as a number. -/
def Number.ReadAs (n m : Number) : Prop :=
  readNumber n.text = ⟨.ofValue m, some []⟩

/-- A number's literal reads back as the number. -/
def Number.ReadsBack (n : Number) : Prop :=
  readNumber n.text = ⟨.ofValue n, some []⟩

theorem readNumber_ok {cs rest : List Char} {n : Number} :
    readNumber cs = ⟨.ofValue n, some rest⟩
      ↔ ∃ numeral, scanNumeral cs = .complete numeral rest ∧ numeral.value = .ok n := by
  unfold readNumber
  cases scanNumeral cs with
  | complete numeral after =>
    constructor
    · intro same
      simp only [Leaf.ofValue, LeafReading.mk.injEq, Leaf.mk.injEq, and_true,
        Option.some.injEq] at same
      exact ⟨numeral, by rw [same.2], same.1⟩
    · rintro ⟨numeral', same, value⟩
      obtain ⟨rfl, rfl⟩ := NumeralScan.complete.inj same
      simp [value, Leaf.ofValue]
  | cut => simp [Leaf.ofValue]
  | broken => simp [Leaf.ofValue]

theorem Number.ReadAs.legible {n m : Number} (h : n.ReadAs m) : n.Legible := by
  obtain ⟨numeral, scanned, _⟩ := readNumber_ok.1 h
  exact ⟨numeral, scanned⟩

/-- A literal is read alike in front of any text that does not go on with it. -/
theorem Number.Legible.append {n : Number} (h : n.Legible) {rest : List Char}
    (ends : EndsNumeral rest) :
    readNumber (n.text ++ rest) = ⟨(readNumber n.text).leaf, some rest⟩ := by
  obtain ⟨numeral, scanned⟩ := h
  simp only [readNumber, scanned, scanNumeral_append scanned ends]

theorem Number.Legible.head {n : Number} (h : n.Legible) :
    ∃ c more, n.text = c :: more ∧ (c = '-' ∨ c.isDigit = true) := by
  obtain ⟨_, scanned⟩ := h
  exact scanNumeral_head scanned

theorem spanDigits_digits {ds rest : List Char} (digits : AllDigits ds)
    (stop : ∀ c ∈ rest.head?, c.isDigit = false) : spanDigits (ds ++ rest) = (ds, rest) := by
  rw [spanDigits, Text.takeWhile_digits_append digits stop,
    Text.dropWhile_digits_append digits stop]

theorem spanDigits_self {ds : List Char} (digits : AllDigits ds) : spanDigits ds = (ds, []) := by
  have stop : ∀ c ∈ ([] : List Char).head?, c.isDigit = false := by simp
  have spanned := spanDigits_digits digits stop
  rwa [List.append_nil] at spanned

/-- Digits are read as far as they go, unless they start with a zero that does not stand alone. -/
theorem scanMagnitude_digits (negative : Bool) {ds rest : List Char} (digits : AllDigits ds)
    (filled : ds ≠ []) (noZero : ∀ c cs, ds = '0' :: c :: cs → False)
    (stop : ∀ c ∈ rest.head?, c.isDigit = false) :
    scanMagnitude negative (ds ++ rest) = scanFraction negative ds rest := by
  unfold scanMagnitude
  rw [spanDigits_digits digits stop]
  split
  next none => exact absurd none filled
  next zero => exact (noZero _ _ zero).elim
  · rfl

/-- Digits behind a point are read as far as they go. -/
theorem scanFraction_digits (negative : Bool) (whole : List Char) {ds rest : List Char}
    (digits : AllDigits ds) (filled : ds ≠ []) (stop : ∀ c ∈ rest.head?, c.isDigit = false) :
    scanFraction negative whole ('.' :: (ds ++ rest)) = scanExponent negative whole ds rest := by
  have none : ds.isEmpty = false := by simpa using filled
  simp [scanFraction, spanDigits_digits digits stop, none]

/-- Without a sign in front, a literal is what its magnitude is. -/
theorem scanNumeral_of_magnitude {cs : List Char} {numeral : Numeral}
    (h : scanMagnitude false cs = .complete numeral []) :
    scanNumeral cs = .complete numeral [] := by
  unfold scanNumeral
  split
  next => simp [scanMagnitude, spanDigits, missingDigit] at h
  · exact h

/-- The literal of a whole number is its digits. -/
theorem scanNumeral_wholeDigits (i : Int) :
    scanNumeral (wholeDigits i)
      = .complete ⟨decide (i < 0), digitsOf i.natAbs, [], none⟩ [] := by
  have scanned (negative : Bool) (n : Nat) :
      scanMagnitude negative (digitsOf n) = .complete ⟨negative, digitsOf n, [], none⟩ [] := by
    have noZero : ∀ c cs, digitsOf n = '0' :: c :: cs → False := by
      intro c cs same
      exact Text.digitsOf_head same (by simp) rfl
    have stop : ∀ c ∈ ([] : List Char).head?, c.isDigit = false := by simp
    have read := scanMagnitude_digits negative (Text.allDigits_digitsOf n)
      (Text.digitsOf_ne_nil n) noZero stop
    rw [List.append_nil] at read
    exact read
  cases i with
  | ofNat n =>
    have noMinus : ∀ more, digitsOf n ≠ '-' :: more := by
      intro more same
      have digit := Text.allDigits_digitsOf n '-' (by simp [same])
      simp at digit
    simp only [wholeDigits]
    unfold scanNumeral
    split
    next more same => exact absurd same (noMinus more)
    · exact scanned false n
  | negSucc n =>
    rw [decide_eq_true (Int.negSucc_lt_zero n)]
    exact scanned true (n + 1)

theorem legible_whole (i : Int) : (Number.whole i).Legible :=
  ⟨_, scanNumeral_wholeDigits i⟩

/-- Whole numbers read back if they fit a word of 64 bits, signed or not. -/
theorem readsBack_whole {i : Int} (low : -2 ^ 63 ≤ i) (high : i < 2 ^ 64) :
    (Number.whole i).ReadsBack := by
  refine readNumber_ok.2 ⟨_, scanNumeral_wholeDigits i, ?_⟩
  cases i with
  | ofNat n =>
    have bound : n < Nat.pow 2 64 := by
      have : (n : Int) < 2 ^ 64 := high
      exact Int.ofNat_lt.1 this
    have integral : (([] : List Char).isEmpty && (none : Option Int).isNone && !false &&
        decide (n < Nat.pow 2 64)) = true := by
      rw [decide_eq_true bound]
      rfl
    have positive : decide (Int.ofNat n < 0) = false := rfl
    simp only [Numeral.value, Int.natAbs, Text.digitsValue_digitsOf, positive, if_pos integral]
    rfl
  | negSucc n =>
    have bound : n + 1 ≤ Nat.pow 2 63 := by
      have small : n + 1 ≤ 2 ^ 63 := by omega
      exact small
    have integral : (([] : List Char).isEmpty && (none : Option Int).isNone && true &&
        decide (0 < n + 1) && decide (n + 1 ≤ Nat.pow 2 63)) = true := by
      rw [decide_eq_true bound, decide_eq_true (Nat.succ_pos n)]
      rfl
    have negative : decide (Int.negSucc n < 0) = true :=
      decide_eq_true (Int.negSucc_lt_zero n)
    simp only [Numeral.value, Int.natAbs, Text.digitsValue_digitsOf, negative, Bool.not_true,
      Bool.and_false, Bool.false_and, Bool.false_eq_true, if_false, if_pos integral]
    rfl

end BenchLedger.Json
