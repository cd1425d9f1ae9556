import BenchLedger.Proofs.RealText
import BenchLedger.Proofs.ScaledDoubles

/-!
What the literals of doubles are read as. Main statement: `readNumber_real`: the literal of a finite
double is read as a finite double, though it need not be the same one.
-/

namespace BenchLedger.Json

open Decimal
open Text (AllDigits digitValue digitsValue)

/-! ### Significands -/

private theorem digitsValue_cons (d : Char) (ds : List Char) :
    digitsValue (d :: ds) = digitValue d * 10 ^ ds.length + digitsValue ds := by
  have one : digitsValue [d] = digitValue d := by simp [digitsValue]
  rw [← List.singleton_append, Text.digitsValue_append, one]

/-- A significand stays within its word, and what it is extended to is not above the digits. -/
theorem extendSignificand_le {n : ℕ} (word : n < 2 ^ 64) (ds : List Char) :
    (extendSignificand n ds).1 < 2 ^ 64 ∧
      (extendSignificand n ds).1 * 10 ^ (extendSignificand n ds).2.length
        ≤ n * 10 ^ ds.length + digitsValue ds := by
  induction ds generalizing n with
  | nil => exact ⟨word, Nat.le_refl _⟩
  | cons d ds ih =>
    unfold extendSignificand
    dsimp only
    split
    next fits =>
      obtain ⟨small, le⟩ := ih fits
      refine ⟨small, le.trans (Nat.le_of_eq ?_)⟩
      rw [digitsValue_cons, List.length_cons]
      ring
    · exact ⟨word, Nat.le_add_right _ _⟩

/-- Digits that fit together are all taken. -/
theorem extendSignificand_fits {n : ℕ} {ds : List Char}
    (fits : n * 10 ^ ds.length + digitsValue ds < 2 ^ 64) :
    extendSignificand n ds = (n * 10 ^ ds.length + digitsValue ds, []) := by
  induction ds generalizing n with
  | nil => simp [extendSignificand, digitsValue]
  | cons d ds ih =>
    have split : n * 10 ^ (d :: ds).length + digitsValue (d :: ds)
        = (10 * n + digitValue d) * 10 ^ ds.length + digitsValue ds := by
      rw [digitsValue_cons, List.length_cons]
      ring
    rw [split] at fits ⊢
    have first : 10 * n + digitValue d < Nat.pow 2 64 := by
      have scale : 1 ≤ 10 ^ ds.length := Nat.one_le_pow _ _ (by decide)
      exact ((Nat.le_mul_of_pos_right _ scale).trans (Nat.le_add_right _ _)).trans_lt fits
    rw [extendSignificand, if_pos first, ih fits]

/-- What is kept of a literal is not above what it stands for. -/
theorem Numeral.Shows.scientific_le {n : Numeral} {negative : Bool} {x : ℚ}
    (shows : n.Shows negative x) :
    n.scientific.1 < 2 ^ 64 ∧ (n.scientific.1 : ℚ) * 10 ^ n.scientific.2 ≤ x := by
  have short : digitsValue n.whole < 2 ^ 64 :=
    calc digitsValue n.whole < 10 ^ n.whole.length := Text.digitsValue_lt shows.digits
      _ ≤ 10 ^ 16 := Nat.pow_le_pow_right (by decide) shows.short
      _ ≤ 2 ^ 64 := by decide
  have whole : extendSignificand 0 n.whole = (digitsValue n.whole, []) := by
    have taken := @extendSignificand_fits 0 n.whole (by simpa using short)
    simpa using taken
  obtain ⟨word, le⟩ := extendSignificand_le short n.fraction
  rw [← Text.digitsValue_append] at le
  simp only [Numeral.scientific, whole, List.length_nil]
  refine ⟨word, ?_⟩
  generalize extendSignificand (digitsValue n.whole) n.fraction = kept at le ⊢
  have le' : (kept.1 : ℚ) * 10 ^ kept.2.length ≤ digitsValue (n.whole ++ n.fraction) := by
    exact_mod_cast le
  calc (kept.1 : ℚ) * 10 ^ (n.exponent.getD 0 + (0 : ℕ) + kept.2.length - n.fraction.length)
      = kept.1 * 10 ^ kept.2.length * 10 ^ (n.exponent.getD 0 - n.fraction.length) := by
        rw [mul_assoc, ← zpow_natCast, ← zpow_add₀ (by norm_num)]
        congr 2
        push_cast
        ring
    _ ≤ n.magnitude := by
        rw [Numeral.magnitude]
        gcongr
    _ = x := shows.magnitude

/-! ### Values -/

/-- A literal that is not that of a whole number gives a double if that is finite. -/
theorem Numeral.Shows.value_eq {n : Numeral} {negative : Bool} {x : ℚ} (shows : n.Shows negative x)
    (finite : (scaled n.scientific.1 n.scientific.2).isFinite = true) :
    ∃ y, y.isFinite = true ∧ n.value = .ok (.real y) := by
  refine ⟨if n.negative then -scaled n.scientific.1 n.scientific.2
    else scaled n.scientific.1 n.scientific.2, ?_, ?_⟩
  · split
    · exact isFinite_neg finite
    · exact finite
  · simp [Numeral.value, shows.fractional, finite]

/-- What a literal stands for is read as a finite double unless it is close to the overflow. -/
theorem Numeral.Shows.value_of_small {n : Numeral} {negative : Bool} {x : ℚ}
    (shows : n.Shows negative x) (small : x * (1 + roundingError) ^ 3 < 2 ^ (1024 : ℤ)) :
    ∃ y, y.isFinite = true ∧ n.value = .ok (.real y) := by
  obtain ⟨word, le⟩ := shows.scientific_le
  refine shows.value_eq (isFinite_scaled word fun e exponent => lt_of_le_of_lt ?_ small)
  rw [exponent, zpow_natCast] at le
  have error := roundingError_pos
  gcongr

/-! ### Doubles -/

private theorem shownValue_small {m : ℕ} {e : ℤ} (short : m < 2 ^ 53) (low : e ≤ 971)
    (notLargest : m + 7 < 2 ^ 53 ∨ e ≤ 970) :
    shownValue m e * (1 + roundingError) ^ 3 < 2 ^ (1024 : ℤ) := by
  have error := roundingError_pos
  have value : shownValue m e ≤ (2 * m + 1) * 2 ^ (e - 1) := by
    unfold shownValue
    split
    · positivity
    · exact shortest_le m e
  refine (mul_le_mul_of_nonneg_right value (by positivity)).trans_lt ?_
  rcases notLargest with smaller | lower
  · have smaller' : (m : ℚ) + 8 ≤ 2 ^ (53 : ℤ) := by exact_mod_cast smaller
    have odd : (2 : ℚ) * m + 1 ≤ 2 ^ (54 : ℤ) - 15 := by
      norm_num at smaller' ⊢
      linarith
    calc (2 * (m : ℚ) + 1) * 2 ^ (e - 1) * (1 + roundingError) ^ 3
        ≤ (2 ^ (54 : ℤ) - 15) * 2 ^ (970 : ℤ) * (1 + roundingError) ^ 3 := by
          gcongr
          · norm_num
          · omega
      _ = (2 ^ (54 : ℤ) - 15) * (1 + roundingError) ^ 3 * 2 ^ (970 : ℤ) := by ring
      _ < 2 ^ (54 : ℤ) * 2 ^ (970 : ℤ) := by
          refine mul_lt_mul_of_pos_right ?_ (by positivity)
          rw [roundingError]
          norm_num
      _ = 2 ^ (1024 : ℤ) := by
          rw [← zpow_add₀ two_ne_zero]
          rfl
  · have short' : (m : ℚ) + 1 ≤ 2 ^ (53 : ℤ) := by exact_mod_cast short
    have odd : (2 : ℚ) * m + 1 ≤ 2 ^ (54 : ℤ) := by
      norm_num at short' ⊢
      linarith
    calc (2 * (m : ℚ) + 1) * 2 ^ (e - 1) * (1 + roundingError) ^ 3
        ≤ 2 ^ (54 : ℤ) * 2 ^ (969 : ℤ) * (1 + roundingError) ^ 3 := by
          gcongr
          · norm_num
          · omega
      _ < 2 ^ (54 : ℤ) * 2 ^ (969 : ℤ) * 2 := by
          refine mul_lt_mul_of_pos_left ?_ (by positivity)
          rw [roundingError]
          norm_num
      _ = 2 ^ (1024 : ℤ) := by
          rw [← zpow_add₀ two_ne_zero, ← zpow_add_one₀ two_ne_zero]
          rfl

/-- Whether a literal gives a finite double. -/
private def staysFinite (cs : List Char) : Bool :=
  match scanNumeral cs with
  | .complete n _ => (scaled n.scientific.1 n.scientific.2).isFinite
  | _ => false

/-- The bound on the roundings is too coarse for the very largest doubles. -/
private theorem staysFinite_largest : ∀ negative, ∀ k < 7,
    staysFinite (Layout.document.finite negative (2 ^ 53 - 1 - k) 971) = true := by
  decide +kernel

/-- The double that the literal of a double is read as. -/
def reread (x : Float) : Float :=
  match (readNumber (Number.real x).text).leaf.value with
  | .ok n => n.toFloat
  | .error _ => x

/-- The literal of a finite double is read as a finite double. -/
theorem readNumber_real {x : Float} (finite : x.isFinite = true) :
    (reread x).isFinite = true ∧ (Number.real x).ReadAs (.real (reread x)) := by
  obtain ⟨negative, m, e, parts⟩ := parts_of_isFinite finite
  obtain ⟨short, low⟩ := bounds_of_parts parts
  obtain ⟨n, scanned, shows⟩ := scanNumeral_finite negative m e
  have value : ∃ y, y.isFinite = true ∧ n.value = .ok (.real y) := by
    by_cases notLargest : m + 7 < 2 ^ 53 ∨ e ≤ 970
    · exact shows.value_of_small (shownValue_small short low notLargest)
    · obtain rfl : e = 971 := by omega
      obtain ⟨k, few, rfl⟩ : ∃ k < 7, m = 2 ^ 53 - 1 - k := ⟨2 ^ 53 - 1 - m, by omega, by omega⟩
      have stays := staysFinite_largest negative k few
      rw [staysFinite, scanned] at stays
      exact shows.value_eq stays
  obtain ⟨y, finite', value⟩ := value
  have read : readNumber (Number.real x).text = ⟨.ofValue (.real y), some []⟩ := by
    refine readNumber_ok.2 ⟨n, ?_, value⟩
    rw [text_of_parts parts, scanned]
  have same : reread x = y := by
    rw [reread, read]
    rfl
  rw [same]
  exact ⟨finite', read⟩

end BenchLedger.Json
