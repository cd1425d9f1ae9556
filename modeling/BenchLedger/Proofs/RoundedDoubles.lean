import BenchLedger.Proofs.SignedDoubles

/-!
How far rounding takes a magnitude up. Main statements: `atMost_round`: by one unit in the last
place at most; `Bounded.mul` and `Bounded.div`: what follows for products and quotients of doubles.
-/

namespace BenchLedger.Decimal

open Float.Model (Format UnpackedFloat totalExponent)
open Float.Model.UnpackedFloat (Accuracy ExtendedMantissa Sign roundWithAccuracy
  shiftToTargetExponent)

/-- Zero, or finite with at most this magnitude. -/
def AtMost (b : ℚ) : UnpackedFloat → Prop
  | .zero _ => True
  | .finite _ m e _ => (m : ℚ) * 2 ^ e ≤ b
  | .infinity _ => False
  | .notANumber => False

theorem AtMost.mono {b c : ℚ} {u : UnpackedFloat} (h : AtMost b u) (le : b ≤ c) : AtMost c u := by
  cases u with
  | zero => trivial
  | finite => exact le_trans h le
  | infinity | notANumber => exact h

theorem AtMost.isFinite {b : ℚ} {u : UnpackedFloat} (h : AtMost b u) : u.isFinite = true := by
  cases u with
  | zero | finite => rfl
  | infinity | notANumber => exact absurd h id

/-! ### Rounding -/

/-- Rounding takes a number up by at most this part of it. -/
def roundingError : ℚ := 2 ^ (-52 : ℤ)

theorem roundingError_pos : 0 < roundingError := by
  rw [roundingError]
  positivity

theorem roundingError_le : roundingError ≤ 1 / 10 := by
  rw [roundingError]
  norm_num

private theorem mantissa_shift (em : ExtendedMantissa) (n : ℕ) :
    (em >>> n).mantissa = em.mantissa / 2 ^ n := by
  show (n.repeat ExtendedMantissa.shiftRightOne em).mantissa = _
  induction n with
  | zero => simp [Nat.repeat]
  | succ n ih =>
    show (n.repeat ExtendedMantissa.shiftRightOne em).mantissa / 2 = _
    rw [ih, Nat.div_div_eq_div_mul, pow_succ]

private theorem mantissa_ofMantissaAndAccuracy (m : ℕ) (accuracy : Accuracy) :
    (ExtendedMantissa.ofMantissaAndAccuracy m accuracy).mantissa = m := by
  cases accuracy with
  | exact => rfl
  | inexact o => cases o <;> rfl

private theorem roundedMantissa_bounds (em : ExtendedMantissa) :
    em.mantissa ≤ em.roundedMantissa ∧ em.roundedMantissa ≤ em.mantissa + 1 := by
  obtain ⟨m, roundBit, stickyBit⟩ := em
  cases roundBit <;> cases stickyBit <;>
    simp [ExtendedMantissa.roundedMantissa, ExtendedMantissa.accuracy, Accuracy.roundToNearestEven]
  omega

/-- Rounding keeps 53 bits, but none below the least exponent. -/
theorem targetExponent_eq (m : ℕ) (e : ℤ) :
    Format.binary64.targetExponent (totalExponent m e)
      = max ((m.log2 : ℤ) + e - 52) leastExponent := by
  have least : Format.binary64.minExponent = leastExponent := rfl
  have bits : ((Format.binary64.mantissaBits : ℕ) : ℤ) = 53 := rfl
  rw [Format.targetExponent, totalExponent, least, bits]
  congr 1
  omega

/-- The bits of the mantissa are enough to be rounded. -/
def Enough (m : ℕ) (e : ℤ) : Prop :=
  2 ^ 52 ≤ m ∨ e ≤ leastExponent

/-- What is left of a mantissa after the first shift: its bits from the target exponent on. -/
private structure Shifted (m : ℕ) (e : ℤ) (r : ExtendedMantissa × ℤ) : Prop where
  lowest : leastExponent ≤ r.2
  short : r.1.mantissa < 2 ^ 53
  full : 2 ^ 52 ≤ r.1.mantissa ∨ r.2 = leastExponent
  floor : (r.1.mantissa : ℚ) * 2 ^ r.2 ≤ m * 2 ^ e

private theorem shifted {m : ℕ} {e : ℤ} (enough : Enough m e) (accuracy : Accuracy) :
    Shifted m e (shiftToTargetExponent .binary64 m e accuracy) := by
  generalize here : Format.binary64.targetExponent (totalExponent m e) = t
  have target := (targetExponent_eq m e).symm.trans here
  have bits (large : 2 ^ 52 ≤ m) : 52 ≤ m.log2 := (Nat.le_log2 (by omega)).2 large
  have above : e ≤ t := by
    rcases enough with large | low
    · have := bits large
      omega
    · omega
  have shift : shiftToTargetExponent .binary64 m e accuracy
      = (ExtendedMantissa.ofMantissaAndAccuracy m accuracy >>> (t - e).toNat,
        e + (t - e).toNat) := by
    rw [shiftToTargetExponent, here, UnpackedFloat.shiftToExponent]
  obtain ⟨k, rfl⟩ : ∃ k : ℕ, t = e + k := ⟨(t - e).toNat, by omega⟩
  have shifts : (e + (k : ℤ) - e).toNat = k := by omega
  rw [shift, shifts]
  refine ⟨by dsimp only; omega, ?_, ?_, ?_⟩ <;>
    simp only [mantissa_shift, mantissa_ofMantissaAndAccuracy]
  · -- No bit is left in front of the 53 ones.
    refine (Nat.div_lt_iff_lt_mul (Nat.two_pow_pos k)).2 ?_
    rw [← pow_add]
    exact lt_of_lt_of_le Nat.lt_log2_self (Nat.pow_le_pow_right (by decide) (by omega))
  · by_cases last : e + (k : ℤ) = leastExponent
    · exact .inr last
    · have large : m ≠ 0 := by
        rintro rfl
        rcases enough with large | low
        · cases large
        · simp at target
          omega
      have length : m.log2 = 52 + k := by omega
      refine .inl ((Nat.le_div_iff_mul_le (Nat.two_pow_pos k)).2 ?_)
      rw [← pow_add, ← length]
      exact Nat.log2_self_le large
  · have floor : ((m / 2 ^ k : ℕ) : ℚ) * 2 ^ k ≤ m := by
      exact_mod_cast Nat.div_mul_le_self m (2 ^ k)
    have scale : (0 : ℚ) ≤ 2 ^ e := by positivity
    rw [zpow_add₀ two_ne_zero, zpow_natCast, mul_comm (2 ^ e), ← mul_assoc]
    exact mul_le_mul_of_nonneg_right floor scale

/-- What is short enough is not shifted again. -/
private theorem shift_short {m : ℕ} {e : ℤ} (lowest : leastExponent ≤ e) (short : m < 2 ^ 53) :
    shiftToTargetExponent .binary64 m e .exact = (⟨m, false, false⟩, e) := by
  have bits : m.log2 ≤ 52 := by
    by_cases zero : m = 0
    · simp [zero]
    · exact Nat.lt_succ_iff.1 ((Nat.log2_lt zero).2 short)
  have none : (max ((m.log2 : ℤ) + e - 52) leastExponent - e).toNat = 0 := by omega
  rw [shiftToTargetExponent, targetExponent_eq, UnpackedFloat.shiftToExponent, none]
  simp only [Int.natCast_zero, add_zero]
  rfl

/-- A mantissa that was rounded up to one more bit is shifted by it. -/
private theorem shift_carry {e : ℤ} (lowest : leastExponent ≤ e) :
    shiftToTargetExponent .binary64 (2 ^ 53) e .exact = (⟨2 ^ 52, false, false⟩, e + 1) := by
  have one : (max (((2 ^ 53 : ℕ).log2 : ℤ) + e - 52) leastExponent - e).toNat = 1 := by
    rw [Nat.log2_two_pow]
    omega
  rw [shiftToTargetExponent, targetExponent_eq, UnpackedFloat.shiftToExponent, one]
  rfl

/-- Rounding gives a number in canonical form, and takes its magnitude up by at most one unit in the
last place. -/
theorem atMost_round {b : ℚ} {m : ℕ} {e : ℤ} (enough : Enough m e) (le : (m : ℚ) * 2 ^ e ≤ b)
    (normal : 2 ^ (-1022 : ℤ) ≤ b) (s : Sign) (accuracy : Accuracy) :
    Canonical (roundWithAccuracy .binary64 s m e accuracy) ∧
      AtMost (b * (1 + roundingError)) (roundWithAccuracy .binary64 s m e accuracy) := by
  obtain ⟨lowest, short, full, floor⟩ := shifted enough accuracy
  unfold roundWithAccuracy
  generalize shiftToTargetExponent .binary64 m e accuracy = first at lowest short full floor
  obtain ⟨em, t⟩ := first
  obtain ⟨low, high⟩ := roundedMantissa_bounds em
  dsimp only at lowest short full floor ⊢
  -- The unit in the last place.
  have unit : (2 : ℚ) ^ t ≤ b * roundingError := by
    rcases full with large | rfl
    · have large' : (2 : ℚ) ^ 52 ≤ em.mantissa := by exact_mod_cast large
      calc (2 : ℚ) ^ t = 2 ^ 52 * 2 ^ t * roundingError := by
            rw [roundingError]
            ring
        _ ≤ em.mantissa * 2 ^ t * roundingError := by
            rw [roundingError]
            gcongr
        _ ≤ b * roundingError :=
            mul_le_mul_of_nonneg_right (floor.trans le) roundingError_pos.le
    · calc (2 : ℚ) ^ leastExponent = 2 ^ (-1022 : ℤ) * roundingError := by
            rw [roundingError, ← zpow_add₀ two_ne_zero]
            rfl
        _ ≤ b * roundingError :=
            mul_le_mul_of_nonneg_right normal roundingError_pos.le
  have value : (em.roundedMantissa : ℚ) * 2 ^ t ≤ b * (1 + roundingError) := by
    have high' : (em.roundedMantissa : ℚ) ≤ em.mantissa + 1 := by exact_mod_cast high
    calc (em.roundedMantissa : ℚ) * 2 ^ t ≤ (em.mantissa + 1) * 2 ^ t := by gcongr
      _ = em.mantissa * 2 ^ t + 2 ^ t := by ring
      _ ≤ b + b * roundingError := add_le_add (floor.trans le) unit
      _ = b * (1 + roundingError) := by ring
  generalize em.roundedMantissa = r at low high value
  by_cases carry : r = 2 ^ 53
  · subst carry
    rw [shift_carry lowest]
    refine ⟨⟨by omega, by norm_num, .inl le_rfl⟩, ?_⟩
    calc ((2 ^ 52 : ℕ) : ℚ) * 2 ^ (t + 1) = ((2 ^ 53 : ℕ) : ℚ) * 2 ^ t := by
          rw [zpow_add₀ two_ne_zero]
          push_cast
          ring
      _ ≤ b * (1 + roundingError) := value
  · rw [shift_short lowest (by omega)]
    dsimp only
    split
    · exact ⟨trivial, trivial⟩
    · exact ⟨⟨lowest, by omega, full.imp_left fun large => large.trans low⟩, value⟩

/-! ### Doubles -/

/-- Finite, with at most this magnitude. -/
def Bounded (b : ℚ) (x : Float) : Prop :=
  AtMost b x.toModel.unpack

section

variable {b c : ℚ} {x y : Float}

theorem Bounded.isFinite (h : Bounded b x) : x.isFinite = true :=
  AtMost.isFinite h

/-- What is not too large is packed as it is. -/
theorem AtMost.pack {u : UnpackedFloat} (h : AtMost b u) (canonical : Canonical u)
    (small : b < 2 ^ (1024 : ℤ)) : AtMost b (Float.Model.pack u).unpack := by
  cases u with
  | infinity | notANumber => exact absurd h id
  | zero s => cases s <;> trivial
  | finite s m e positive =>
    have fits : e ≤ 971 := by
      by_contra large
      have full : 2 ^ 52 ≤ m := canonical.2.2.resolve_right (by rw [leastExponent]; omega)
      have full' : (2 : ℚ) ^ (52 : ℤ) ≤ m := by exact_mod_cast full
      have overflow : (2 : ℚ) ^ (1024 : ℤ) ≤ m * 2 ^ e := by
        calc (2 : ℚ) ^ (1024 : ℤ) = 2 ^ (52 : ℤ) * 2 ^ (972 : ℤ) := by
              rw [← zpow_add₀ two_ne_zero]
              rfl
          _ ≤ m * 2 ^ e := by
              gcongr
              · norm_num
              · omega
      exact absurd (overflow.trans h) (not_le.2 small)
    rw [unpack_pack canonical fits]
    exact h

private theorem enough_mul {s t : Sign} {m n : ℕ} {e f : ℤ} {hm : 0 < m} {hn : 0 < n}
    (left : Canonical (.finite s m e hm)) (right : Canonical (.finite t n f hn)) :
    Enough (m * n) (e + f) := by
  rcases left.2.2 with full | rfl
  · exact .inl (full.trans (Nat.le_mul_of_pos_right m hn))
  · rcases right.2.2 with full | rfl
    · exact .inl (full.trans (Nat.le_mul_of_pos_left n hm))
    · exact .inr (by rw [leastExponent]; omega)

theorem Bounded.mul (hx : Bounded b x) (hy : Bounded c y) (normal : 2 ^ (-1022 : ℤ) ≤ b * c)
    (small : b * c * (1 + roundingError) < 2 ^ (1024 : ℤ)) :
    Bounded (b * c * (1 + roundingError)) (x * y) := by
  show AtMost _ (Float.Model.pack
    (UnpackedFloat.mul .binary64 x.toModel.unpack y.toModel.unpack)).unpack
  have left := canonical_unpack x
  have right := canonical_unpack y
  unfold Bounded at hx hy
  generalize x.toModel.unpack = u at hx left
  generalize y.toModel.unpack = v at hy right
  cases u with
  | infinity | notANumber => exact absurd hx id
  | zero s =>
    cases v with
    | infinity | notANumber => exact absurd hy id
    | zero t | finite t => exact AtMost.pack (u := .zero (s * t)) trivial trivial small
  | finite s m e =>
    cases v with
    | infinity | notANumber => exact absurd hy id
    | zero t => exact AtMost.pack (u := .zero (s * t)) trivial trivial small
    | finite t n f =>
      have le : ((m * n : ℕ) : ℚ) * 2 ^ (e + f) ≤ b * c := by
        calc ((m * n : ℕ) : ℚ) * 2 ^ (e + f) = m * 2 ^ e * (n * 2 ^ f) := by
              rw [zpow_add₀ two_ne_zero]
              push_cast
              ring
          _ ≤ b * c := mul_le_mul hx hy (by positivity) (le_trans (by positivity) hx)
      obtain ⟨canonical, bounded⟩ := atMost_round (enough_mul left right) le normal (s * t) .exact
      exact bounded.pack canonical small

/-- A finite double that is at least ten. -/
def AtLeastTen (y : Float) : Prop :=
  ∃ n f positive, y.toModel.unpack = .finite .positive n f positive ∧ 10 ≤ (n : ℚ) * 2 ^ f

/-- The quotient that is rounded has enough bits, and is not larger than the exact one. -/
private theorem divCore_bounds {t : Sign} {m n : ℕ} {e f : ℤ} (hm : 0 < m) {hn : 0 < n}
    (right : Canonical (.finite t n f hn)) :
    Enough (UnpackedFloat.divCore .binary64 m e n f).1
        (UnpackedFloat.divCore .binary64 m e n f).2.1 ∧
      ((UnpackedFloat.divCore .binary64 m e n f).1 : ℚ)
          * 2 ^ (UnpackedFloat.divCore .binary64 m e n f).2.1
        ≤ m * 2 ^ e / (n * 2 ^ f) := by
  have least : Format.binary64.minExponent = leastExponent := rfl
  have bits : ((Format.binary64.mantissaBits : ℕ) : ℤ) = 53 := rfl
  simp only [UnpackedFloat.divCore, Format.targetExponent, totalExponent, least, bits]
  generalize goal : min (e - f) (max ((m.log2 : ℤ) + 1 + e - (n.log2 + 1 + f) - 53) leastExponent)
    = target
  have short : n.log2 ≤ 52 := Nat.lt_succ_iff.1 ((Nat.log2_lt hn.ne').2 right.2.1)
  obtain ⟨k, shift⟩ : ∃ k : ℕ, e - f - target = k := ⟨(e - f - target).toNat, by omega⟩
  rw [shift, Int.toNat_natCast]
  refine ⟨?_, ?_⟩
  · by_cases low : target ≤ leastExponent
    · exact .inr low
    · -- The quotient is taken with at least 53 bits more than it needs for its integral part.
      refine .inl ((Nat.le_div_iff_mul_le hn).2 ?_)
      have enough : 53 + n.log2 ≤ m.log2 + k := by omega
      have lower : 2 ^ m.log2 ≤ m := Nat.log2_self_le hm.ne'
      have upper : n ≤ 2 ^ (n.log2 + 1) := Nat.lt_log2_self.le
      calc 2 ^ 52 * n ≤ 2 ^ 52 * 2 ^ (n.log2 + 1) := Nat.mul_le_mul_left _ upper
        _ = 2 ^ (53 + n.log2) := by ring
        _ ≤ 2 ^ (m.log2 + k) := Nat.pow_le_pow_right (by decide) enough
        _ = 2 ^ m.log2 * 2 ^ k := pow_add ..
        _ ≤ m * 2 ^ k := Nat.mul_le_mul_right _ lower
        _ = m <<< k := (Nat.shiftLeft_eq ..).symm
  · have floor : ((m <<< k / n : ℕ) : ℚ) * n ≤ m * 2 ^ k := by
      rw [Nat.shiftLeft_eq]
      exact_mod_cast Nat.div_mul_le_self (m * 2 ^ k) n
    have positive : (0 : ℚ) < n * 2 ^ f := by
      have : (0 : ℚ) < n := by exact_mod_cast hn
      positivity
    rw [le_div_iff₀ positive]
    calc ((m <<< k / n : ℕ) : ℚ) * 2 ^ target * (n * 2 ^ f)
        = ((m <<< k / n : ℕ) : ℚ) * n * 2 ^ (target + f) := by
          rw [zpow_add₀ two_ne_zero]
          ring
      _ ≤ m * 2 ^ k * 2 ^ (target + f) := by gcongr
      _ = m * 2 ^ e := by
          rw [mul_assoc, ← zpow_natCast, ← zpow_add₀ two_ne_zero]
          congr 2
          omega

/-- To divide by ten or more takes a magnitude down, however the quotient is rounded. -/
theorem Bounded.div (hx : Bounded b x) (large : AtLeastTen y) (normal : 1 ≤ b)
    (small : b < 2 ^ (1024 : ℤ)) : Bounded b (x / y) := by
  obtain ⟨n, f, positive, here, ten⟩ := large
  show AtMost _ (Float.Model.pack
    (UnpackedFloat.div .binary64 x.toModel.unpack y.toModel.unpack)).unpack
  have right := canonical_unpack y
  unfold Bounded at hx
  rw [here] at right ⊢
  generalize x.toModel.unpack = u at hx
  cases u with
  | infinity | notANumber => exact absurd hx id
  | zero s =>
    have zero : AtMost b (.zero (s / .positive)) := trivial
    exact zero.pack trivial small
  | finite s m e some =>
    obtain ⟨enough, quotient⟩ := divCore_bounds some right
    have tenth : (m : ℚ) * 2 ^ e / (n * 2 ^ f) ≤ b / 10 :=
      div_le_div₀ (zero_le_one.trans normal) hx (by norm_num) ten
    have tiny : (2 : ℚ) ^ (-1022 : ℤ) ≤ b / 10 := by
      calc (2 : ℚ) ^ (-1022 : ℤ) ≤ 2 ^ (-4 : ℤ) := zpow_le_zpow_right₀ (by norm_num) (by norm_num)
        _ ≤ 1 / 10 := by norm_num
        _ ≤ b / 10 := by gcongr
    obtain ⟨canonical, bounded⟩ := atMost_round enough (quotient.trans tenth) tiny
      (s / .positive) (UnpackedFloat.divCore .binary64 m e n f).2.2
    have less : b / 10 * (1 + roundingError) ≤ b := by
      have error : 1 + roundingError ≤ 10 := by
        have := roundingError_le
        linarith
      calc b / 10 * (1 + roundingError) ≤ b / 10 * 10 := by gcongr
        _ = b := by ring
    exact (bounded.mono less).pack canonical small

end

end BenchLedger.Decimal
