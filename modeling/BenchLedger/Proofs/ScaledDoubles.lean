import BenchLedger.Decimal.Scaled
import BenchLedger.Proofs.RoundedDoubles

/-!
Doubles of decimal magnitudes. Main statements: `isFinite_scaled`: a significand and a power of ten
make a finite double unless their product is close to the overflow or beyond it; and
`isFinite_nearestFloat_whole`: so does a whole number of 64 bits.
-/

namespace BenchLedger.Decimal

open Float.Model (Format UnpackedFloat)

/-! ### Whole numbers and powers of ten -/

private theorem word_rounded_le {n : ℕ} (word : n < 2 ^ 64) :
    (n : ℚ) * (1 + roundingError) ≤ 2 ^ (65 : ℤ) := by
  have word' : (n : ℚ) ≤ 2 ^ (64 : ℤ) := by exact_mod_cast word.le
  have error : 1 + roundingError ≤ 2 := by
    have := roundingError_le
    linarith
  calc (n : ℚ) * (1 + roundingError) ≤ 2 ^ (64 : ℤ) * 2 :=
        mul_le_mul word' error (by linarith [roundingError_pos]) (by positivity)
    _ = 2 ^ (65 : ℤ) := by norm_num

private theorem word_lt_overflow : (2 : ℚ) ^ (65 : ℤ) < 2 ^ (1024 : ℤ) :=
  zpow_lt_zpow_right₀ (by norm_num) (by norm_num)

/-- The double of a positive whole number. -/
private theorem atMost_ofNat {n : ℕ} (positive : 0 < n) :
    Canonical (UnpackedFloat.ofNat .binary64 n) ∧
      AtMost (n * (1 + roundingError)) (UnpackedFloat.ofNat .binary64 n) := by
  have above : compare (n : ℤ) 0 = .gt := Int.compare_eq_gt.2 (by omega)
  simp only [UnpackedFloat.ofNat, UnpackedFloat.ofInt, UnpackedFloat.normalize, above,
    Int.toNat_natCast, UnpackedFloat.round, targetExponent_eq, UnpackedFloat.decreaseExponent]
  obtain ⟨k, shift⟩ : ∃ k : ℕ, (0 - max ((n.log2 : ℤ) + 0 - 52) leastExponent).toNat = k := ⟨_, rfl⟩
  rw [shift]
  have enough : 2 ^ 52 ≤ n <<< k := by
    have long : 52 ≤ n.log2 + k := by
      rw [leastExponent] at shift
      omega
    calc 2 ^ 52 ≤ 2 ^ (n.log2 + k) := Nat.pow_le_pow_right (by decide) long
      _ = 2 ^ n.log2 * 2 ^ k := pow_add ..
      _ ≤ n * 2 ^ k := Nat.mul_le_mul_right _ (Nat.log2_self_le positive.ne')
      _ = n <<< k := (Nat.shiftLeft_eq ..).symm
  have value : ((n <<< k : ℕ) : ℚ) * 2 ^ (0 - (k : ℤ)) = n := by
    rw [Nat.shiftLeft_eq, zero_sub, zpow_neg, zpow_natCast]
    push_cast
    field_simp
  have one : (1 : ℚ) ≤ n := by exact_mod_cast positive
  have normal : (2 : ℚ) ^ (-1022 : ℤ) ≤ n :=
    (zpow_le_one_of_nonpos₀ (by norm_num) (by norm_num)).trans one
  exact atMost_round (.inl enough) value.le normal .positive .exact

/-- A whole number of 64 bits has a double of about its magnitude. -/
theorem bounded_toFloat {n : ℕ} (word : n < 2 ^ 64) :
    Bounded ((max 1 n : ℕ) * (1 + roundingError)) n.toUInt64.toFloat := by
  have same : n.toUInt64.toNat = n := Nat.mod_eq_of_lt word
  show AtMost _ (Float.Model.pack (UnpackedFloat.ofNat .binary64 n.toUInt64.toNat)).unpack
  rw [same]
  rcases Nat.eq_zero_or_pos n with rfl | positive
  · trivial
  · obtain ⟨canonical, bounded⟩ := atMost_ofNat positive
    rw [max_eq_right positive]
    refine bounded.pack canonical ?_
    exact (word_rounded_le word).trans_lt word_lt_overflow

/-- What matters of the double of a power of ten: it is not much too large, and at least ten unless
the power is the zeroth. -/
private def nearTenTo (n : ℕ) : UnpackedFloat → Bool
  | .finite .positive m e _ =>
    -52 ≤ e && m * 2 ^ (e + 52).toNat ≤ 10 ^ n * (2 ^ 52 + 1) &&
      (n == 0 || 10 * 2 ^ 52 ≤ m * 2 ^ (e + 52).toNat)
  | _ => false

private theorem nearTenTo_tenTo :
    ∀ n < longestScale + 1, nearTenTo n (tenTo n).toModel.unpack = true := by
  decide +kernel

private theorem tenTo_bounds {n : ℕ} (short : n ≤ longestScale) :
    ∃ m e positive, (tenTo n).toModel.unpack = .finite .positive m e positive ∧
      (m : ℚ) * 2 ^ e ≤ 10 ^ n * (1 + roundingError) ∧ (n ≠ 0 → 10 ≤ (m : ℚ) * 2 ^ e) := by
  have near := nearTenTo_tenTo n (Nat.lt_succ_of_le short)
  unfold nearTenTo at near
  split at near
  next m e positive here =>
    simp only [Bool.and_eq_true, Bool.or_eq_true, decide_eq_true_eq, beq_iff_eq] at near
    obtain ⟨⟨low, upper⟩, lower⟩ := near
    have scale : ((m * 2 ^ (e + 52).toNat : ℕ) : ℚ) = m * 2 ^ e * 2 ^ 52 := by
      obtain ⟨k, shift⟩ : ∃ k : ℕ, e + 52 = k := ⟨(e + 52).toNat, by omega⟩
      have exponent : e = (k : ℤ) - 52 := by omega
      rw [shift, Int.toNat_natCast, exponent, zpow_sub₀ two_ne_zero, zpow_natCast]
      push_cast
      field_simp
      norm_num
    have upper' : ((m * 2 ^ (e + 52).toNat : ℕ) : ℚ) ≤ 10 ^ n * (2 ^ 52 + 1) := by
      exact_mod_cast upper
    rw [scale] at upper'
    refine ⟨m, e, positive, here, ?_, fun some => ?_⟩
    · refine le_of_mul_le_mul_right (upper'.trans_eq ?_) (by norm_num : (0 : ℚ) < 2 ^ 52)
      rw [roundingError, mul_assoc]
      norm_num
    · have lower' : (10 : ℚ) * 2 ^ 52 ≤ ((m * 2 ^ (e + 52).toNat : ℕ) : ℚ) := by
        exact_mod_cast lower.resolve_left some
      rw [scale] at lower'
      exact le_of_mul_le_mul_right lower' (by norm_num)
  · cases near

theorem bounded_tenTo {n : ℕ} (short : n ≤ longestScale) :
    Bounded (10 ^ n * (1 + roundingError)) (tenTo n) := by
  obtain ⟨m, e, positive, here, upper, _⟩ := tenTo_bounds short
  rw [Bounded, here]
  exact upper

theorem atLeastTen_tenTo {n : ℕ} (short : n ≤ longestScale) (some : n ≠ 0) :
    AtLeastTen (tenTo n) := by
  obtain ⟨m, e, positive, here, _, lower⟩ := tenTo_bounds short
  exact ⟨m, e, positive, here, lower some⟩

/-! ### Significands and powers of ten -/

theorem Bounded.divideRepeatedly {b : ℚ} {x : Float} (h : Bounded b x) (normal : 1 ≤ b)
    (small : b < 2 ^ (1024 : ℤ)) (n : ℕ) : Bounded b (divideRepeatedly n x) := by
  induction n generalizing x with
  | zero => exact h
  | succ n ih =>
    unfold Decimal.divideRepeatedly
    split
    · exact h
    · exact ih (h.div (atLeastTen_tenTo le_rfl (by decide)) normal small)

private theorem tenTo_lt_overflow :
    (10 : ℚ) ^ longestScale * (1 + roundingError) ^ 3 < 2 ^ (1024 : ℤ) := by
  have close : 10 ^ longestScale * 3 < 2 ^ 1025 := by decide +kernel
  have close' : (10 : ℚ) ^ longestScale * 3 < 2 ^ (1025 : ℤ) := by exact_mod_cast close
  have double : (2 : ℚ) ^ (1025 : ℤ) = 2 ^ (1024 : ℤ) * 2 := zpow_add_one₀ two_ne_zero 1024
  have error : (1 + roundingError) ^ 3 ≤ 3 / 2 := by
    calc (1 + roundingError) ^ 3 ≤ (1 + 1 / 10) ^ 3 := by
          have positive := roundingError_pos
          have := roundingError_le
          gcongr
      _ ≤ 3 / 2 := by norm_num
  generalize (2 : ℚ) ^ (1024 : ℤ) = overflow at double ⊢
  have scale : (0 : ℚ) < 10 ^ longestScale := by positivity
  have bound := mul_le_mul_of_nonneg_left error scale.le
  linarith

private theorem overflow_lt_tenTo : (2 : ℚ) ^ (1024 : ℤ) < 10 ^ (longestScale + 1) := by
  have far : 2 ^ 1024 < 10 ^ (longestScale + 1) := by decide +kernel
  exact_mod_cast far

/-- A significand times a power of ten is finite, unless it is so large that the three roundings may
take it to the overflow. -/
theorem isFinite_scaled {c : ℕ} (word : c < 2 ^ 64) {exponent : ℤ}
    (small : ∀ e : ℕ, exponent = e → (c : ℚ) * 10 ^ e * (1 + roundingError) ^ 3 < 2 ^ (1024 : ℤ)) :
    (scaled c exponent).isFinite = true := by
  have factor := bounded_toFloat word
  have one : 1 ≤ max 1 c := le_max_left 1 c
  unfold scaled
  cases exponent with
  | negSucc e =>
    have start : Bounded (2 ^ (65 : ℤ)) c.toUInt64.toFloat :=
      factor.mono (word_rounded_le (max_lt (by decide) word))
    have normal : (1 : ℚ) ≤ 2 ^ (65 : ℤ) := by norm_num
    have short : e % longestScale + 1 ≤ longestScale := Nat.mod_lt e (by decide)
    exact ((start.divideRepeatedly normal word_lt_overflow _).div
      (atLeastTen_tenTo short (Nat.succ_ne_zero _)) normal word_lt_overflow).isFinite
  | ofNat e =>
    dsimp only
    split
    next short =>
      have fits : ((max 1 c : ℕ) : ℚ) * 10 ^ e * (1 + roundingError) ^ 3 < 2 ^ (1024 : ℤ) := by
        rcases Nat.eq_zero_or_pos c with rfl | positive
        · refine lt_of_le_of_lt ?_ tenTo_lt_overflow
          have scale : (10 : ℚ) ^ e ≤ 10 ^ longestScale := pow_le_pow_right₀ (by norm_num) short
          have error := roundingError_pos
          simpa using mul_le_mul_of_nonneg_right scale (by positivity)
        · rw [max_eq_right positive]
          exact small e rfl
      have together : (max 1 c : ℕ) * (1 + roundingError) * (10 ^ e * (1 + roundingError))
          * (1 + roundingError) = ((max 1 c : ℕ) : ℚ) * 10 ^ e * (1 + roundingError) ^ 3 := by
        ring
      refine (factor.mul (bounded_tenTo short) ?_ (together.trans_lt fits)).isFinite
      have normal : (2 : ℚ) ^ (-1022 : ℤ) ≤ 1 := zpow_le_one_of_nonpos₀ (by norm_num) (by norm_num)
      have one' : (1 : ℚ) ≤ (max 1 c : ℕ) := by exact_mod_cast one
      have error : 1 ≤ 1 + roundingError := le_add_of_nonneg_right roundingError_pos.le
      have scale : (1 : ℚ) ≤ 10 ^ e := one_le_pow₀ (by norm_num)
      exact normal.trans (one_le_mul_of_one_le_of_one_le
        (one_le_mul_of_one_le_of_one_le one' error) (one_le_mul_of_one_le_of_one_le scale error))
    next long =>
      rcases Nat.eq_zero_or_pos c with rfl | positive
      · rfl
      · -- Even one times this power is beyond the overflow.
        refine absurd (small e rfl) (not_lt.2 (overflow_lt_tenTo.le.trans ?_))
        have scale : (10 : ℚ) ^ (longestScale + 1) ≤ 10 ^ e :=
          pow_le_pow_right₀ (by norm_num) (by omega)
        have some : (1 : ℚ) ≤ c := by exact_mod_cast positive
        have error : 1 ≤ (1 + roundingError) ^ 3 :=
          one_le_pow₀ (le_add_of_nonneg_right roundingError_pos.le)
        calc (10 : ℚ) ^ (longestScale + 1) ≤ 10 ^ e := scale
          _ ≤ c * 10 ^ e := le_mul_of_one_le_left (by positivity) some
          _ ≤ c * 10 ^ e * (1 + roundingError) ^ 3 := le_mul_of_one_le_right (by positivity) error

/-! ### Signs and whole numbers -/

theorem isFinite_neg {x : Float} (h : x.isFinite = true) : (-x).isFinite = true := by
  change x.toModel.unpack.isFinite = true at h
  show (-x).toModel.unpack.isFinite = true
  rw [unpack_neg]
  cases here : x.toModel.unpack with
  | zero | finite => rfl
  | infinity | notANumber =>
    rw [here] at h
    cases h

private theorem bounded_one :
    Bounded 1 (Float.ofBits 0x3FF0000000000000) := by
  have one : (Float.ofBits 0x3FF0000000000000).toModel.unpack
      = .finite .positive (2 ^ 52) (-52) (by decide) := rfl
  rw [Bounded, one]
  show ((2 ^ 52 : ℕ) : ℚ) * 2 ^ (-52 : ℤ) ≤ 1
  norm_num

private theorem isFinite_mul_one {m : ℕ} (word : m < 2 ^ 64) :
    (m.toUInt64.toFloat * Float.ofBits 0x3FF0000000000000).isFinite = true := by
  have bound : ((max 1 m : ℕ) : ℚ) * (1 + roundingError) ≤ 2 ^ (65 : ℤ) :=
    word_rounded_le (max_lt (by decide) word)
  have normal : (2 : ℚ) ^ (-1022 : ℤ) ≤ 2 ^ (65 : ℤ) * 1 := by
    rw [mul_one]
    exact zpow_le_zpow_right₀ (by norm_num) (by norm_num)
  have fits : (2 : ℚ) ^ (65 : ℤ) * 1 * (1 + roundingError) < 2 ^ (1024 : ℤ) := by
    calc (2 : ℚ) ^ (65 : ℤ) * 1 * (1 + roundingError) ≤ 2 ^ (65 : ℤ) * 1 * 2 := by
          have := roundingError_le
          gcongr
          linarith
      _ = 2 ^ (66 : ℤ) := by norm_num
      _ < 2 ^ (1024 : ℤ) := zpow_lt_zpow_right₀ (by norm_num) (by norm_num)
  have double : Bounded (2 ^ (65 : ℤ)) m.toUInt64.toFloat := (bounded_toFloat word).mono bound
  exact (double.mul bounded_one normal fits).isFinite

private theorem isFinite_unpacked_ofScientific {m : ℕ} (word : m < 2 ^ 64) :
    (Float.Model.pack (UnpackedFloat.ofScientific .binary64 m 0)).unpack.isFinite = true := by
  unfold UnpackedFloat.ofScientific
  split
  · rfl
  next some =>
    have positive : 0 < m := Nat.pos_of_ne_zero some
    have bits : Format.binary64.mantissaBits = 53 := rfl
    have small : ¬(0 : ℤ) < -(2 ^ Format.binary64.exponentBits + (m.log2 : ℤ)) := by
      have : (0 : ℤ) < 2 ^ Format.binary64.exponentBits := by positivity
      omega
    rw [if_neg (by decide), if_neg small, if_pos le_rfl]
    have value : ((m <<< 53 * 10 ^ (0 : ℤ).toNat : ℕ) : ℚ) * 2 ^ (-(53 : ℕ) + 0 : ℤ) ≤ m := by
      rw [Nat.shiftLeft_eq]
      push_cast
      norm_num
      rw [mul_assoc]
      norm_num
    have enough : Enough (m <<< 53 * 10 ^ (0 : ℤ).toNat) (-(53 : ℕ) + 0) := by
      refine .inl ?_
      rw [Nat.shiftLeft_eq, Int.toNat_zero, pow_zero, mul_one]
      omega
    have one : (1 : ℚ) ≤ m := by exact_mod_cast positive
    have normal : (2 : ℚ) ^ (-1022 : ℤ) ≤ m :=
      (zpow_le_one_of_nonpos₀ (by norm_num) (by norm_num)).trans one
    simp only [UnpackedFloat.mul, bits]
    generalize m <<< 53 * 10 ^ (0 : ℤ).toNat = n at value enough ⊢
    obtain ⟨canonical, bounded⟩ := atMost_round enough value normal (.positive * .positive) .exact
    have fits : (m : ℚ) * (1 + roundingError) < 2 ^ (1024 : ℤ) :=
      (word_rounded_le word).trans_lt word_lt_overflow
    exact (bounded.pack canonical fits).isFinite

theorem isFinite_ofScientific {m : ℕ} (word : m < 2 ^ 64) :
    (Float.ofScientific m false 0).isFinite = true := by
  unfold Float.ofScientific
  split
  -- A short significand is converted exactly and multiplied by one, a longer one is rounded.
  · exact isFinite_mul_one word
  · exact isFinite_unpacked_ofScientific word

/-- The double nearest to a whole number of 64 bits, with either sign, is finite. -/
theorem isFinite_nearestFloat_whole (negative : Bool) {m : ℕ} (word : m < 2 ^ 64) :
    (nearestFloat negative m 0).isFinite = true := by
  have magnitude := isFinite_ofScientific word
  unfold nearestFloat
  cases negative with
  | false => exact magnitude
  | true => exact isFinite_neg magnitude

end BenchLedger.Decimal
