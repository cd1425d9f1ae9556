import BenchLedger.Proofs.SignedDoubles

/-!
The order of doubles and of what they are worth. Main statements: `lt_iff` and `le_iff`: doubles
compare as their values do; and `order_of_relativeChange`: the sign of a relative change tells which
of the two values is the larger one.
-/

namespace BenchLedger.Decimal

open Float.Model (Format UnpackedFloat)
open Float.Model.UnpackedFloat (Sign)

/-! ### Values -/

/-- Multiples of the least positive double, and the infinities. -/
abbrev Worth := WithBot (WithTop ℤ)

def Worth.whole (n : ℤ) : Worth :=
  ((n : WithTop ℤ) : WithBot (WithTop ℤ))

theorem Worth.whole_lt_whole {a b : ℤ} : whole a < whole b ↔ a < b := by
  rw [whole, whole, WithBot.coe_lt_coe, WithTop.coe_lt_coe]

theorem Worth.cmp_whole (a b : ℤ) : cmp (whole a) (whole b) = cmp a b :=
  (WithBot.coe_strictMono.comp WithTop.coe_strictMono).cmp_map_eq a b

/-- What a number is worth. Both zeros are worth the same. -/
def worthOf : UnpackedFloat → Worth
  | .infinity .negative => ⊥
  | .infinity .positive => ⊤
  | .zero _ => .whole 0
  | .finite s m e _ => .whole (s.apply (m * 2 ^ (e - leastExponent).toNat : ℕ))
  | .notANumber => ⊥

/-- What a double is worth. -/
def worth (x : Float) : Worth :=
  worthOf x.toModel.unpack

/-! ### Comparisons -/

/-- A mantissa with a larger exponent is worth more, if both are in canonical form. -/
private theorem magnitude_lt {m n : ℕ} {e f : ℤ} (lowest : leastExponent ≤ e) (short : m < 2 ^ 53)
    (full : 2 ^ 52 ≤ n ∨ f = leastExponent) (below : e < f) :
    m * 2 ^ (e - leastExponent).toNat < n * 2 ^ (f - leastExponent).toNat := by
  have long : 2 ^ 52 ≤ n := full.resolve_right (by omega)
  have scale : 2 ^ ((e - leastExponent).toNat + 1) ≤ 2 ^ (f - leastExponent).toNat :=
    Nat.pow_le_pow_right (by decide) (by omega)
  calc m * 2 ^ (e - leastExponent).toNat
      < 2 ^ 53 * 2 ^ (e - leastExponent).toNat :=
        Nat.mul_lt_mul_of_pos_right short (Nat.two_pow_pos _)
    _ = 2 ^ 52 * 2 ^ ((e - leastExponent).toNat + 1) := by ring
    _ ≤ n * 2 ^ (f - leastExponent).toNat := Nat.mul_le_mul long scale

/-- Mantissas and exponents in canonical form compare as what they are worth. -/
private theorem compare_magnitudes {s t : Sign} {m n : ℕ} {e f : ℤ} {hm : 0 < m} {hn : 0 < n}
    (left : Canonical (.finite s m e hm)) (right : Canonical (.finite t n f hn)) :
    (compare e f).then (compare m n)
      = cmp (m * 2 ^ (e - leastExponent).toNat) (n * 2 ^ (f - leastExponent).toNat) := by
  obtain ⟨lowest, short, full⟩ := left
  obtain ⟨lowest', short', full'⟩ := right
  rcases lt_trichotomy e f with below | rfl | above
  · rw [Int.compare_eq_lt.2 below, Ordering.lt_then]
    exact ((cmp_eq_lt_iff ..).2 (magnitude_lt lowest short full' below)).symm
  · rw [Int.compare_eq_eq.2 rfl, cmp_mul_pos_right (Nat.two_pow_pos _), cmp_eq_compare]
    rfl
  · rw [Int.compare_eq_gt.2 above, Ordering.gt_then]
    exact ((cmp_eq_gt_iff ..).2 (magnitude_lt lowest' short' full above)).symm

/-- Numbers in canonical form compare as what they are worth. -/
theorem compare_eq_cmp {u v : UnpackedFloat} (left : Canonical u) (right : Canonical v)
    (number : u ≠ .notANumber) (number' : v ≠ .notANumber) :
    u.compare v = some (cmp (worthOf u) (worthOf v)) := by
  cases u with
  | notANumber => exact absurd rfl number
  | infinity s =>
    cases v with
    | notANumber => exact absurd rfl number'
    | infinity t | zero t | finite t => cases s <;> cases t <;> rfl
  | zero s =>
    cases v with
    | notANumber => exact absurd rfl number'
    | infinity t => cases t <;> rfl
    | zero t => rfl
    | finite t n f positive =>
      have some : 0 < n * 2 ^ (f - leastExponent).toNat :=
        Nat.mul_pos positive (Nat.two_pow_pos _)
      cases t <;>
        simp only [worthOf, Worth.cmp_whole, Sign.apply, UnpackedFloat.compare, Option.some.injEq]
      · exact ((cmp_eq_gt_iff ..).2 (by omega)).symm
      · exact ((cmp_eq_lt_iff ..).2 (by omega)).symm
  | finite s m e positive =>
    have some : 0 < m * 2 ^ (e - leastExponent).toNat :=
      Nat.mul_pos positive (Nat.two_pow_pos _)
    cases v with
    | notANumber => exact absurd rfl number'
    | infinity t => cases s <;> cases t <;> rfl
    | zero t =>
      cases s <;>
        simp only [worthOf, Worth.cmp_whole, Sign.apply, UnpackedFloat.compare, Option.some.injEq]
      · exact ((cmp_eq_lt_iff ..).2 (by omega)).symm
      · exact ((cmp_eq_gt_iff ..).2 (by omega)).symm
    | finite t n f positive' =>
      have some' : 0 < n * 2 ^ (f - leastExponent).toNat :=
        Nat.mul_pos positive' (Nat.two_pow_pos _)
      have magnitudes := compare_magnitudes left right
      cases s <;> cases t <;>
        simp only [worthOf, Worth.cmp_whole, Sign.apply, UnpackedFloat.compare, Option.some.injEq]
      · have falls : StrictAnti fun k : ℕ => -(k : ℤ) := fun _ _ below => by
          dsimp only
          omega
        rw [magnitudes, cmp_swap]
        exact (falls.cmp_map_eq _ _).symm
      · exact ((cmp_eq_lt_iff ..).2 (by omega)).symm
      · exact ((cmp_eq_gt_iff ..).2 (by omega)).symm
      · rw [magnitudes]
        exact (Nat.strictMono_cast.cmp_map_eq _ _).symm

/-! ### Order -/

theorem isNaN_eq_false {x : Float} : x.isNaN = false ↔ x.toModel.unpack ≠ .notANumber := by
  show x.toModel.unpack.isNaN = false ↔ _
  cases x.toModel.unpack <;> simp [UnpackedFloat.isNaN]

theorem isNaN_of_isFinite {x : Float} (finite : x.isFinite = true) : x.isNaN = false := by
  rw [isNaN_eq_false]
  rintro nan
  change x.toModel.unpack.isFinite = true at finite
  rw [nan] at finite
  cases finite

section

variable {x y z : Float}

theorem le_iff_compare :
    x ≤ y ↔ (x.toModel.unpack.compare y.toModel.unpack).any (·.isLE) = true :=
  decide_eq_true_iff

/-- What compares is a number. -/
private theorem numbers_of_compare {u v : UnpackedFloat} {o : Ordering} (h : u.compare v = some o) :
    u ≠ .notANumber ∧ v ≠ .notANumber := by
  constructor
  · rintro rfl
    cases h
  · rintro rfl
    cases u <;> cases h

theorem compare_eq_some_iff {o : Ordering} :
    x.toModel.unpack.compare y.toModel.unpack = some o ↔
      x.isNaN = false ∧ y.isNaN = false ∧ cmp (worth x) (worth y) = o := by
  simp only [isNaN_eq_false]
  constructor
  · intro compared
    obtain ⟨number, number'⟩ := numbers_of_compare compared
    rw [compare_eq_cmp (canonical_unpack x) (canonical_unpack y) number number'] at compared
    exact ⟨number, number', Option.some.inj compared⟩
  · rintro ⟨number, number', rfl⟩
    exact compare_eq_cmp (canonical_unpack x) (canonical_unpack y) number number'

/-- One double is below another just if both are numbers and it is worth less. -/
theorem lt_iff : x < y ↔ x.isNaN = false ∧ y.isNaN = false ∧ worth x < worth y := by
  rw [lt_iff_compare, compare_eq_some_iff, cmp_eq_lt_iff]

theorem le_iff : x ≤ y ↔ x.isNaN = false ∧ y.isNaN = false ∧ worth x ≤ worth y := by
  rw [le_iff_compare, Option.any_eq_true]
  constructor
  · rintro ⟨o, compared, le⟩
    obtain ⟨number, number', rfl⟩ := compare_eq_some_iff.1 compared
    refine ⟨number, number', not_lt.1 fun above => ?_⟩
    rw [(cmp_eq_gt_iff ..).2 above] at le
    cases le
  · rintro ⟨number, number', le⟩
    refine ⟨_, compare_eq_some_iff.2 ⟨number, number', rfl⟩, ?_⟩
    cases kind : cmp (worth x) (worth y) with
    | lt | eq => rfl
    | gt => exact absurd ((cmp_eq_gt_iff ..).1 kind) (not_lt.2 le)

protected theorem lt_asymm (below : x < y) : ¬y < x := by
  intro above
  exact absurd (lt_iff.1 above).2.2 (lt_iff.1 below).2.2.asymm

protected theorem lt_of_le_of_lt (le : x ≤ y) (lt : y < z) : x < z := by
  obtain ⟨number, _, le⟩ := le_iff.1 le
  obtain ⟨_, number', lt⟩ := lt_iff.1 lt
  exact lt_iff.2 ⟨number, number', le.trans_lt lt⟩

protected theorem le_trans (first : x ≤ y) (second : y ≤ z) : x ≤ z := by
  obtain ⟨number, _, le⟩ := le_iff.1 first
  obtain ⟨_, number', le'⟩ := le_iff.1 second
  exact le_iff.2 ⟨number, number', le.trans le'⟩

protected theorem le_refl (number : x.isNaN = false) : x ≤ x :=
  le_iff.2 ⟨number, number, le_rfl⟩

protected theorem le_of_lt (below : x < y) : x ≤ y := by
  obtain ⟨number, number', below⟩ := lt_iff.1 below
  exact le_iff.2 ⟨number, number', below.le⟩

protected theorem le_of_not_lt (number : x.isNaN = false) (number' : y.isNaN = false)
    (notBelow : ¬x < y) : y ≤ x :=
  le_iff.2 ⟨number', number, not_lt.1 fun below => notBelow (lt_iff.2 ⟨number, number', below⟩)⟩

end

/-! ### Differences and quotients -/

/-- Rounding keeps the sign. -/
private theorem sign_of_rounded {spec : Format} {s t : Sign} {m : ℕ} {e : ℤ}
    {accuracy : UnpackedFloat.Accuracy}
    (signed : Signed s (UnpackedFloat.roundWithAccuracy spec t m e accuracy)) : t = s := by
  simp only [UnpackedFloat.roundWithAccuracy] at signed
  split at signed
  · exact absurd signed id
  · exact signed

private theorem sign_of_normalized {spec : Format} {s z : Sign} {n e : ℤ}
    (signed : Signed s (UnpackedFloat.normalize spec n e z)) :
    s = .positive ∧ 0 < n ∨ s = .negative ∧ n < 0 := by
  simp only [UnpackedFloat.normalize] at signed
  split at signed
  next below => exact .inr ⟨(sign_of_rounded signed).symm, Int.compare_eq_lt.1 below⟩
  next => exact absurd signed id
  next above => exact .inl ⟨(sign_of_rounded signed).symm, Int.compare_eq_gt.1 above⟩

/-- The mantissa that a number has with a smaller exponent is worth as much. -/
private theorem worthOf_finite {s : Sign} {m : ℕ} {e k : ℤ} {positive : 0 < m}
    (lowest : leastExponent ≤ k) (smaller : k ≤ e) :
    worthOf (.finite s m e positive)
      = .whole (s.apply (m <<< (e - k).toNat : ℕ) * 2 ^ (k - leastExponent).toNat) := by
  have scale : m * 2 ^ (e - leastExponent).toNat
      = m <<< (e - k).toNat * 2 ^ (k - leastExponent).toNat := by
    have exponents : (e - leastExponent).toNat = (e - k).toNat + (k - leastExponent).toNat := by
      omega
    rw [Nat.shiftLeft_eq, exponents, pow_add, mul_assoc]
  simp only [worthOf, scale]
  cases s <;> simp [Sign.apply]

/-- The sign of a number tells on which side of zero it is. -/
theorem order_of_signed {s : Sign} {u : UnpackedFloat} (signed : Signed s u) :
    s = .positive ∧ .whole 0 < worthOf u ∨ s = .negative ∧ worthOf u < .whole 0 := by
  cases u with
  | notANumber | zero => exact absurd signed id
  | infinity t =>
    cases t <;> cases signed
    · exact .inr ⟨rfl, WithBot.bot_lt_coe _⟩
    · exact .inl ⟨rfl, WithBot.coe_lt_coe.2 (WithTop.coe_lt_top _)⟩
  | finite t m e positive =>
    have some : (0 : ℤ) < (m * 2 ^ (e - leastExponent).toNat : ℕ) :=
      Int.natCast_pos.2 (Nat.mul_pos positive (Nat.two_pow_pos _))
    cases t <;> cases signed
    · exact .inr ⟨rfl, Worth.whole_lt_whole.2 (neg_lt_zero.2 some)⟩
    · exact .inl ⟨rfl, Worth.whole_lt_whole.2 some⟩

private theorem order_of_signed_neg {s : Sign} {v : UnpackedFloat} (signed : Signed s v.neg) :
    s = .positive ∧ worthOf v < .whole 0 ∨ s = .negative ∧ .whole 0 < worthOf v := by
  rcases order_of_signed (signed_neg.1 signed) with ⟨sign, above⟩ | ⟨sign, below⟩
  · cases s <;> cases sign
    exact .inr ⟨rfl, above⟩
  · cases s <;> cases sign
    exact .inl ⟨rfl, below⟩

/-- A difference is positive only if the first number is the larger one, and negative only if it is
the smaller one. -/
theorem order_of_signed_sub {s : Sign} {u v : UnpackedFloat} (left : Canonical u)
    (right : Canonical v) (signed : Signed s (UnpackedFloat.sub .binary64 u v)) :
    s = .positive ∧ worthOf v < worthOf u ∨ s = .negative ∧ worthOf u < worthOf v := by
  cases u with
  | notANumber => exact absurd signed id
  | infinity a =>
    cases v with
    | notANumber => exact absurd signed id
    | infinity b =>
      cases a <;> cases b <;> cases signed
      · exact .inr ⟨rfl, bot_lt_top⟩
      · exact .inl ⟨rfl, bot_lt_top⟩
    | zero => exact order_of_signed signed
    | finite b n f =>
      cases a <;> cases signed
      · exact .inr ⟨rfl, WithBot.bot_lt_coe _⟩
      · exact .inl ⟨rfl, WithBot.coe_lt_coe.2 (WithTop.coe_lt_top _)⟩
  | zero a =>
    cases v with
    | notANumber => exact absurd signed id
    | zero b => cases a <;> cases b <;> exact absurd signed id
    | infinity b => exact order_of_signed_neg (v := .infinity b) signed
    | finite b n f positive => exact order_of_signed_neg (v := .finite b n f positive) signed
  | finite a m e positive =>
    cases v with
    | notANumber => exact absurd signed id
    | infinity b =>
      cases b <;> cases signed
      · exact .inl ⟨rfl, WithBot.bot_lt_coe _⟩
      · exact .inr ⟨rfl, WithBot.coe_lt_coe.2 (WithTop.coe_lt_top _)⟩
    | zero => exact order_of_signed signed
    | finite b n f positive' =>
      have lowest : leastExponent ≤ min e f := le_min left.1 right.1
      have scale : (0 : ℤ) < 2 ^ (min e f - leastExponent).toNat := by positivity
      rw [worthOf_finite lowest (min_le_left e f), worthOf_finite lowest (min_le_right e f),
        Worth.whole_lt_whole, Worth.whole_lt_whole, mul_lt_mul_iff_left₀ scale,
        mul_lt_mul_iff_left₀ scale]
      simpa only [sub_pos, sub_neg] using sign_of_normalized signed

/-- A quotient has the sign of the number that is divided, if the divisor is a magnitude. -/
theorem signed_of_div_abs {s : Sign} {u v : UnpackedFloat}
    (signed : Signed s (UnpackedFloat.div .binary64 u v.abs)) : Signed s u := by
  cases u with
  | notANumber => exact absurd signed id
  | infinity a =>
    cases v with
    | notANumber | infinity => exact absurd signed id
    | zero | finite => cases a <;> exact signed
  | zero a => cases v <;> exact absurd signed id
  | finite a m e positive =>
    cases v with
    | notANumber | infinity => exact absurd signed id
    | zero => cases a <;> exact signed
    | finite b n f positive' =>
      have sign := sign_of_rounded signed
      cases a <;> exact sign

private theorem numbers_of_signed_sub {s : Sign} {u v : UnpackedFloat}
    (signed : Signed s (UnpackedFloat.sub .binary64 u v)) :
    u ≠ .notANumber ∧ v ≠ .notANumber := by
  constructor
  · rintro rfl
    exact signed
  · rintro rfl
    cases u <;> exact signed

/-- The sign of a relative change tells which of the two values is the larger one, though they are
divided by the magnitude of only one of them, and each result is rounded. -/
theorem order_of_relativeChange {s : Sign} {before after : Float}
    (signed : Signed s (relativeChange before after).toModel.unpack) :
    s = .positive ∧ before < after ∨ s = .negative ∧ after < before := by
  have quotient := signed_of_pack signed
  rw [unpack_abs] at quotient
  have difference := signed_of_pack (signed_of_div_abs quotient)
  obtain ⟨right, left⟩ := numbers_of_signed_sub difference
  rw [← isNaN_eq_false] at left right
  have order := order_of_signed_sub (canonical_unpack after) (canonical_unpack before) difference
  exact order.imp (fun up => ⟨up.1, lt_iff.2 ⟨left, right, up.2⟩⟩)
    fun down => ⟨down.1, lt_iff.2 ⟨right, left, down.2⟩⟩

end BenchLedger.Decimal
