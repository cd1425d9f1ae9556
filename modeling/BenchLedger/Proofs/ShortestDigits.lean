import BenchLedger.Decimal.Shortest
import Mathlib

/-!
How large the shortest digits of a number can get. Main statement: `shortest_le`: they stand for a
decimal that is at most half a unit in the last place above the number.
-/

namespace BenchLedger.Decimal

/-- The decimal as a fraction. -/
def Scientific.value (s : Scientific) : ℚ :=
  s.coefficient * 10 ^ s.power

/-! ### Expansions -/

/-- The value of an expansion is the one written in base two. -/
theorem Expansion.coefficient_ofBinary (m : ℕ) (e : ℤ) :
    ((ofBinary m e).coefficient : ℚ) = m * 2 ^ e * 10 ^ (ofBinary m e).places := by
  cases e with
  | ofNat e => simp [ofBinary]
  | negSucc e =>
    have tens : (10 : ℚ) ^ (e + 1) = 5 ^ (e + 1) * 2 ^ (e + 1) := by
      rw [← mul_pow]
      norm_num
    simp only [ofBinary, Nat.pow_eq, tens, zpow_negSucc]
    push_cast
    field_simp

theorem Expansion.places_ofBinary (m n : ℕ) (e : ℤ) :
    (ofBinary m e).places = (ofBinary n e).places := by
  cases e <;> rfl

/-! ### Intervals -/

/-- The upper end of the interval is half a unit in the last place above the number. -/
theorem Interval.high_ofBinary (m : ℕ) (e : ℤ) : ((Interval.ofBinary m e).1.high : ℚ)
    = (2 * m + 1) * 2 ^ (e - 1) * 10 ^ (Interval.ofBinary m e).2 := by
  have high := Expansion.coefficient_ofBinary (4 * m + 2) (e - 2)
  rw [Expansion.places_ofBinary _ 1] at high
  have double : (2 : ℚ) ^ (e - 1) = 2 ^ (e - 2) * 2 := by
    rw [← zpow_add_one₀ two_ne_zero]
    congr 1
    ring
  simp only [Interval.ofBinary, high, double]
  push_cast
  ring

theorem Interval.value_le_high (m : ℕ) (e : ℤ) :
    (Interval.ofBinary m e).1.value ≤ (Interval.ofBinary m e).1.high := by
  have value := Expansion.coefficient_ofBinary (4 * m) (e - 2)
  have high := Expansion.coefficient_ofBinary (4 * m + 2) (e - 2)
  rw [Expansion.places_ofBinary _ 1] at value high
  have le : ((Interval.ofBinary m e).1.value : ℚ) ≤ (Interval.ofBinary m e).1.high := by
    simp only [Interval.ofBinary, value, high]
    gcongr
    omega
  exact_mod_cast le

/-- What is near enough to be taken is not above the upper end. -/
theorem Interval.nearest?_le {i : Interval} {unit c : ℕ} (found : i.nearest? unit = some c) :
    c * unit ≤ i.high := by
  have admitted {x : ℕ} (h : i.admits x = true) : x ≤ i.high := by
    unfold Interval.admits at h
    split at h <;> simp only [Bool.and_eq_true, decide_eq_true_eq] at h
    · exact h.2
    · exact h.2.le
  unfold Interval.nearest? at found
  dsimp only at found
  split at found
  next below _ =>
    cases found
    exact admitted below
  next _ above =>
    cases found
    exact admitted above
  · cases found
  next below above =>
    split at found
    · cases found
      exact admitted below
    split at found
    · cases found
      exact admitted above
    split at found
    · cases found
      exact admitted below
    · cases found
      exact admitted above

theorem Interval.shortestFrom_le {i : Interval} (value : i.value ≤ i.high) (dropped : ℕ) :
    (i.shortestFrom dropped).1 * 10 ^ (i.shortestFrom dropped).2 ≤ i.high := by
  induction dropped with
  | zero => simpa [Interval.shortestFrom] using value
  | succ dropped ih =>
    unfold Interval.shortestFrom
    split
    next c found => exact Interval.nearest?_le found
    · exact ih

/-- Zeros that are removed are made up for by the power. -/
theorem value_stripZeros (fuel c : ℕ) (p : ℤ) : (stripZeros fuel c p).value = c * 10 ^ p := by
  induction fuel generalizing c p with
  | zero => rfl
  | succ fuel ih =>
    unfold stripZeros
    split
    next zero =>
      simp only [Bool.and_eq_true, beq_iff_eq] at zero
      have tens : ((c / 10 : ℕ) : ℚ) * 10 = c := by
        exact_mod_cast Nat.div_mul_cancel (Nat.dvd_of_mod_eq_zero zero.1)
      rw [ih, zpow_add_one₀ (by norm_num), mul_comm (10 ^ p), ← mul_assoc, tens]
    · rfl

/-- The shortest decimal is at most half a unit in the last place above the number. -/
theorem shortest_le (m : ℕ) (e : ℤ) : (shortest m e).value ≤ (2 * m + 1) * 2 ^ (e - 1) := by
  have le := Interval.shortestFrom_le (Interval.value_le_high m e)
    (digitCount (Interval.ofBinary m e).1.value - 1)
  simp only [shortest, value_stripZeros]
  generalize (Interval.ofBinary m e).1.shortestFrom _ = r at le ⊢
  have le' : (r.1 : ℚ) * 10 ^ r.2 ≤ (Interval.ofBinary m e).1.high := by exact_mod_cast le
  rw [Interval.high_ofBinary] at le'
  have scale : (0 : ℚ) < 10 ^ (Interval.ofBinary m e).2 := by positivity
  calc (r.1 : ℚ) * 10 ^ ((r.2 : ℤ) - (Interval.ofBinary m e).2)
      = r.1 * 10 ^ r.2 / 10 ^ (Interval.ofBinary m e).2 := by
        rw [zpow_sub₀ (by norm_num), zpow_natCast, zpow_natCast, mul_div_assoc]
    _ ≤ (2 * m + 1) * 2 ^ (e - 1) := (div_le_iff₀ scale).2 le'

end BenchLedger.Decimal
