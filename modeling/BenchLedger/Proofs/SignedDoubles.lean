import BenchLedger.Query.Comparison
import Mathlib

/-!
Signs and the order of doubles. Main statements: `lt_neg`: a double is below the negation of another
just if the other is below its own negation; and `beq_zero`: there are two zeros.
-/

namespace BenchLedger.Decimal

open Float.Model (Format UnpackedFloat)
open Float.Model.UnpackedFloat (Sign packComponents unpackSign unpackExponent unpackMantissa)

/-! ### Parts -/

private theorem toNat_normal (m : BitVec 52) : (1#1 ++ m).toNat = 2 ^ 52 + m.toNat := by
  rw [BitVec.toNat_append, ← Nat.shiftLeft_add_eq_or_of_lt m.isLt]
  rfl

/-- What the parts of a double stand for. -/
private def ofParts (s : Sign) (e : BitVec 11) (m : BitVec 52) : UnpackedFloat :=
  let exponent : Int := (e.toNat : Int) - 1075
  if e = -1#_ then if m = 0#_ then .infinity s else .notANumber
  else if e = 0#_ then
    if h : m = 0#_ then .zero s
    else .finite s m.toNat (exponent + 1)
      (by simpa [BitVec.toNat_pos, BitVec.pos_iff_ne_zero] using h)
  else .finite s (1#1 ++ m).toNat exponent (by
      rw [toNat_normal]
      omega)

private theorem unpack_eq_ofParts (b : BitVec Format.binary64.numBits) :
    UnpackedFloat.unpack .binary64 b
      = ofParts (.ofBitVec (unpackSign b)) (unpackExponent b) (unpackMantissa b) :=
  rfl

private theorem unpackSign_packed (format : Format) (s : Sign) (e : BitVec format.exponentBits)
    (m : BitVec format.mantissaBitsWithoutImplicit) :
    unpackSign (packComponents format s e m) = s.toBitVec := by
  ext i small
  obtain rfl : i = 0 := by omega
  simp [unpackSign, packComponents, BitVec.getLsbD_append, BitVec.getElem_append]

private theorem ofBitVec_toBitVec (s : Sign) : Sign.ofBitVec s.toBitVec = s := by
  cases s <;> rfl

private theorem unpack_packComponents (s : Sign) (e : BitVec 11) (m : BitVec 52) :
    UnpackedFloat.unpack .binary64 (packComponents .binary64 s e m) = ofParts s e m := by
  rw [unpack_eq_ofParts, unpackSign_packed, ofBitVec_toBitVec,
    Float.Model.UnpackedFloat.unpackExponent_packComponents,
    Float.Model.UnpackedFloat.unpackMantissa_packComponents]

private theorem neg_ofParts (s : Sign) (e : BitVec 11) (m : BitVec 52) :
    (ofParts s e m).neg = ofParts (-s) e m := by
  unfold ofParts
  dsimp only
  split
  · split <;> rfl
  · split
    · split <;> rfl
    · rfl

private theorem abs_ofParts (s : Sign) (e : BitVec 11) (m : BitVec 52) :
    (ofParts s e m).abs = ofParts .positive e m := by
  simp only [ofParts]
  split
  · split <;> rfl
  · split
    · split <;> rfl
    · rfl

private theorem log2_subnormal {m : BitVec 52} (some : m ≠ 0#_) : m.toNat.log2 < 52 := by
  have positive : m.toNat ≠ 0 := fun zero => some (BitVec.eq_of_toNat_eq zero)
  exact (Nat.log2_lt positive).2 m.isLt

private theorem log2_normal (m : BitVec 52) : (1#1 ++ m).toNat.log2 = 52 := by
  have below := m.isLt
  rw [toNat_normal]
  apply Nat.le_antisymm
  · exact Nat.lt_succ_iff.1 ((Nat.log2_lt (by omega)).2 (by omega))
  · exact (Nat.le_log2 (by omega)).2 (by omega)

/-- The parts of a number are those that it is packed to. -/
private theorem pack_ofParts {s : Sign} {e : BitVec 11} {m : BitVec 52}
    (number : ofParts s e m ≠ .notANumber) :
    UnpackedFloat.pack .binary64 (ofParts s e m) = packComponents .binary64 s e m := by
  have bias : ((Format.binary64.exponentBias : Nat) : Int) = 1023 := rfl
  have bits : Format.binary64.mantissaBits = 53 := rfl
  unfold ofParts at number ⊢
  dsimp only at number ⊢
  split at number
  next last =>
    split at number
    next zero =>
      rw [if_pos last, if_pos zero, last, zero]
      rfl
    · exact absurd rfl number
  next notLast =>
    rw [if_neg notLast]
    split
    next first =>
      split
      next zero =>
        rw [first, zero]
        rfl
      next some =>
        have short := log2_subnormal some
        have small : ¬m.toNat.log2 + 1 = 53 := by omega
        subst first
        simp [UnpackedFloat.pack, bias, bits, small]
    next notFirst =>
      have notAll : e.toNat ≠ 2047 := fun all => notLast (BitVec.eq_of_toNat_eq all)
      have below : e.toNat < 2048 := e.isLt
      have biased : ((e.toNat : Int) - 1075 + 1023 + (52 : Nat)).toNat = e.toNat := by omega
      have fits : ¬2048 ≤ e.toNat + 1 := by omega
      have mantissa : BitVec.ofNat 52 (1#1 ++ m).toNat = m := by
        apply BitVec.eq_of_toNat_eq
        rw [BitVec.toNat_ofNat, toNat_normal, Nat.add_mod_left, Nat.mod_eq_of_lt m.isLt]
      simp only [UnpackedFloat.pack, bias, bits, biased, log2_normal, Nat.reducePow, if_neg fits,
        mantissa, BitVec.ofNat_toNat, BitVec.setWidth_eq, if_true]

private theorem unpack_pack_ofParts (s : Sign) (e : BitVec 11) (m : BitVec 52) :
    (Float.Model.pack (ofParts s e m)).unpack = ofParts s e m := by
  show UnpackedFloat.unpack .binary64 (UnpackedFloat.pack .binary64 (ofParts s e m)) = _
  by_cases number : ofParts s e m = .notANumber
  · rw [number]
    rfl
  · rw [pack_ofParts number, unpack_packComponents]

private theorem packComponents_parts (b : BitVec Format.binary64.numBits) :
    packComponents .binary64 (.ofBitVec (unpackSign b)) (unpackExponent b) (unpackMantissa b)
      = b := by
  have sign (v : BitVec 1) : (Sign.ofBitVec v).toBitVec = v := by
    revert v
    decide
  unfold packComponents
  rw [sign]
  ext i small
  simp only [unpackSign, unpackExponent, unpackMantissa]
  grind

/-- Every double has parts. -/
private theorem exists_parts (x : Float.Model) : ∃ s e m, x.unpack = ofParts s e m ∧
    x.toBits.toBitVec = packComponents .binary64 s e m :=
  ⟨_, _, _, unpack_eq_ofParts _, (packComponents_parts _).symm⟩

/-! ### Signs and canonical form -/

/-- An infinity, or a number other than zero, with this sign. -/
def Signed (s : Sign) : UnpackedFloat → Prop
  | .infinity t => t = s
  | .finite t _ _ _ => t = s
  | .zero _ => False
  | .notANumber => False

private theorem sign_of_ofParts {s t : Sign} {e : BitVec 11} {m : BitVec 52}
    (signed : Signed s (ofParts t e m)) : t = s := by
  simp only [ofParts] at signed
  split at signed
  · split at signed
    · exact signed
    · exact absurd signed id
  · split at signed
    · split at signed
      · exact absurd signed id
      · exact signed
    · exact signed

private theorem sign_of_packed {s t : Sign} {e : BitVec 11} {m : BitVec 52}
    (signed : Signed s (UnpackedFloat.unpack .binary64 (packComponents .binary64 t e m))) :
    t = s := by
  rw [unpack_packComponents] at signed
  exact sign_of_ofParts signed

/-- Packing does not make a sign up, though it may lose a number to zero or to an infinity. -/
theorem signed_of_pack {s : Sign} {u : UnpackedFloat}
    (signed : Signed s (Float.Model.pack u).unpack) : Signed s u := by
  cases u with
  | notANumber => exact signed
  | zero t =>
    have zero : (Float.Model.pack (.zero t)).unpack = .zero t := by
      cases t <;> rfl
    rwa [zero] at signed
  | infinity t => exact sign_of_packed signed
  | finite t m e positive =>
    change Signed s (UnpackedFloat.unpack .binary64 (UnpackedFloat.pack .binary64 _)) at signed
    simp only [UnpackedFloat.pack] at signed
    split at signed
    · exact sign_of_packed signed
    · split at signed
      · exact sign_of_packed signed
      · exact sign_of_packed signed

/-- The mantissa of a finite number has all its bits, unless the exponent is the least one. Two
numbers of this form can be compared by their exponents first. -/
def Canonical : UnpackedFloat → Prop
  | .finite _ m e _ => leastExponent ≤ e ∧ m < 2 ^ 53 ∧ (2 ^ 52 ≤ m ∨ e = leastExponent)
  | _ => True

private theorem canonical_ofParts (s : Sign) (e : BitVec 11) (m : BitVec 52) :
    Canonical (ofParts s e m) := by
  have below := m.isLt
  simp only [ofParts]
  split
  · split <;> trivial
  · split
    next first =>
      split
      · trivial
      · refine ⟨?_, Nat.lt_trans below (by decide), .inr ?_⟩ <;> simp [first, leastExponent]
    next notFirst =>
      have positive : e.toNat ≠ 0 := fun zero => notFirst (BitVec.eq_of_toNat_eq zero)
      refine ⟨?_, ?_, .inl ?_⟩
      · simp only [leastExponent]
        omega
      · rw [toNat_normal]
        omega
      · rw [toNat_normal]
        omega

theorem canonical_unpack (x : Float) : Canonical x.toModel.unpack := by
  obtain ⟨s, e, m, here, _⟩ := exists_parts x.toModel
  rw [here]
  exact canonical_ofParts s e m

/-- A number in canonical form has parts, unless it is too large. -/
private theorem exists_ofParts {s : Sign} {m : Nat} {e : Int} {positive : 0 < m}
    (canonical : Canonical (.finite s m e positive)) (fits : e ≤ 971) :
    ∃ e' m', .finite s m e positive = ofParts s e' m' := by
  obtain ⟨lowest, short, full⟩ := canonical
  simp only [leastExponent] at lowest full
  by_cases normal : 2 ^ 52 ≤ m
  · have exponent : (BitVec.ofNat 11 (e + 1075).toNat).toNat = (e + 1075).toNat :=
      Nat.mod_eq_of_lt (by omega)
    have mantissa : (1#1 ++ BitVec.ofNat 52 (m - 2 ^ 52)).toNat = m := by
      rw [toNat_normal, BitVec.toNat_ofNat, Nat.mod_eq_of_lt (by omega)]
      omega
    have notLast : BitVec.ofNat 11 (e + 1075).toNat ≠ -1#11 := by
      intro last
      have all : (e + 1075).toNat = 2047 := exponent.symm.trans (congrArg BitVec.toNat last)
      omega
    have notFirst : BitVec.ofNat 11 (e + 1075).toNat ≠ 0#11 := by
      intro first
      have none : (e + 1075).toNat = 0 := exponent.symm.trans (congrArg BitVec.toNat first)
      omega
    refine ⟨BitVec.ofNat 11 (e + 1075).toNat, BitVec.ofNat 52 (m - 2 ^ 52), ?_⟩
    simp only [ofParts, if_neg notLast, if_neg notFirst, mantissa, exponent,
      UnpackedFloat.finite.injEq, true_and]
    omega
  · obtain rfl := full.resolve_left normal
    have mantissa : (BitVec.ofNat 52 m).toNat = m := Nat.mod_eq_of_lt (by omega)
    have some : BitVec.ofNat 52 m ≠ 0#52 := by
      intro zero
      have none : m = 0 := mantissa.symm.trans (congrArg BitVec.toNat zero)
      omega
    refine ⟨0#11, BitVec.ofNat 52 m, ?_⟩
    simp [ofParts, dif_neg some, mantissa]

/-- A number in canonical form is what it is packed to, unless it is too large. -/
theorem unpack_pack {s : Sign} {m : Nat} {e : Int} {positive : 0 < m}
    (canonical : Canonical (.finite s m e positive)) (fits : e ≤ 971) :
    (Float.Model.pack (.finite s m e positive)).unpack = .finite s m e positive := by
  obtain ⟨e', m', parts⟩ := exists_ofParts canonical fits
  rw [parts, unpack_pack_ofParts]

theorem unpack_abs (x : Float) : x.abs.toModel.unpack = x.toModel.unpack.abs := by
  obtain ⟨s, e, m, here, _⟩ := exists_parts x.toModel
  show (Float.Model.pack x.toModel.unpack.abs).unpack = _
  rw [here, abs_ofParts, unpack_pack_ofParts]

/-! ### Negation -/

/-- The negation of a double is that of the number that it stands for. -/
theorem unpack_neg (x : Float) : (-x).toModel.unpack = x.toModel.unpack.neg := by
  obtain ⟨s, e, m, here, _⟩ := exists_parts x.toModel
  show (Float.Model.pack x.toModel.unpack.neg).unpack = _
  rw [here, neg_ofParts, unpack_pack_ofParts]

/-- A double that is a number is determined by what it stands for. -/
theorem eq_of_unpack_eq {x y : Float} (number : x.toModel.unpack ≠ .notANumber)
    (same : x.toModel.unpack = y.toModel.unpack) : x = y := by
  obtain ⟨⟨bits, valid⟩⟩ := x
  obtain ⟨⟨bits', valid'⟩⟩ := y
  obtain ⟨s, e, m, here, parts⟩ := exists_parts ⟨bits, valid⟩
  obtain ⟨s', e', m', here', parts'⟩ := exists_parts ⟨bits', valid'⟩
  dsimp only at number same parts parts'
  rw [here, here'] at same
  rw [here] at number
  have packed := (pack_ofParts number).symm.trans
    ((congrArg _ same).trans (pack_ofParts (same ▸ number)))
  obtain rfl : bits = bits' := UInt64.eq_of_toBitVec_eq (parts.trans (packed.trans parts'.symm))
  rfl

private theorem neg_neg_sign (s : Sign) : - -s = s := by
  cases s <;> rfl

private theorem neg_neg_unpacked (u : UnpackedFloat) : u.neg.neg = u := by
  cases u <;> simp [UnpackedFloat.neg, neg_neg_sign]

/-! ### Order -/

/-- Two numbers compare as their negations do, the other way round. -/
private theorem compare_neg (u v : UnpackedFloat) : u.neg.compare v.neg = v.compare u := by
  have swapped (e f : Int) (m n : Nat) :
      ((compare e f).then (compare m n)).swap = (compare f e).then (compare n m) := by
    rw [Ordering.swap_then, Int.compare_swap, Nat.compare_swap]
  cases u with
  | notANumber => cases v <;> rfl
  | infinity s | zero s =>
    cases v with
    | notANumber => cases s <;> rfl
    | infinity t | zero t | finite t => cases s <;> cases t <;> rfl
  | finite s m e =>
    cases v with
    | notANumber => cases s <;> rfl
    | infinity t | zero t => cases s <;> cases t <;> rfl
    | finite t n f =>
      cases s <;> cases t
      · exact congrArg some (swapped f e n m).symm
      · rfl
      · rfl
      · exact congrArg some (swapped e f m n)

theorem lt_iff_compare {x y : Float} :
    x < y ↔ x.toModel.unpack.compare y.toModel.unpack = some .lt :=
  decide_eq_true_iff.trans beq_iff_eq

/-- One double is below the negation of another just if that is below the negation of the first. -/
theorem lt_neg {x y : Float} : x < -y ↔ y < -x := by
  rw [lt_iff_compare, lt_iff_compare, unpack_neg, unpack_neg, ← compare_neg, neg_neg_unpacked]

theorem lt_neg_neg {x y : Float} : x < - -y ↔ x < y := by
  rw [lt_iff_compare, lt_iff_compare, unpack_neg, unpack_neg, neg_neg_unpacked]

/-! ### Zero -/

private theorem unpack_zero : (0.0 : Float).toModel.unpack = .zero .positive :=
  rfl

/-- What is above something that is not below zero is positive. -/
theorem signed_of_lt {x y : Float} (notBelow : ¬x < 0.0) (above : x < y) :
    Signed .positive y.toModel.unpack := by
  rw [lt_iff_compare, unpack_zero] at notBelow
  rw [lt_iff_compare] at above
  generalize x.toModel.unpack = u at notBelow above
  generalize y.toModel.unpack = v at above
  cases u with
  | notANumber => cases above
  | infinity s =>
    cases s with
    | negative => exact absurd rfl notBelow
    | positive =>
      cases v with
      | infinity t => cases t <;> cases above
      | notANumber | zero | finite => cases above
  | zero s =>
    cases v with
    | notANumber | zero => cases above
    | infinity t | finite t =>
      cases t with
      | negative => cases above
      | positive => rfl
  | finite s m e =>
    cases s with
    | negative => exact absurd rfl notBelow
    | positive =>
      cases v with
      | notANumber | zero => cases above
      | infinity t | finite t =>
        cases t with
        | negative => cases above
        | positive => rfl

/-- The negation of a number has the other sign. -/
theorem signed_neg {s : Sign} {u : UnpackedFloat} : Signed s u.neg ↔ Signed (-s) u := by
  have other (t : Sign) : -t = s ↔ t = -s := by
    constructor
    · rintro rfl
      exact (neg_neg_sign t).symm
    · rintro rfl
      exact neg_neg_sign s
  cases u with
  | notANumber | zero => exact Iff.rfl
  | infinity t => exact other t
  | finite t => exact other t

theorem Signed.unique {s t : Sign} {u : UnpackedFloat} (h : Signed s u) (h' : Signed t u) :
    s = t := by
  cases u with
  | notANumber | zero => exact absurd h id
  | infinity r | finite r => exact h.symm.trans h'

/-- A change beyond a threshold that is not negative is not beyond it in the other direction. -/
theorem not_lt_neg {threshold change : Float} (notBelow : ¬threshold < 0.0)
    (above : threshold < change) : ¬threshold < -change := by
  intro below
  have up := signed_of_lt notBelow above
  have down := signed_of_lt notBelow below
  rw [unpack_neg, signed_neg] at down
  cases up.unique down

/-- A double equals zero just if it is one of the two zeros. -/
theorem beq_zero {x : Float} : (x == 0.0) = true ↔ x = 0.0 ∨ x = -0.0 := by
  have positive : (x == 0.0) = true ↔
      x.toModel.unpack.compare (.zero .positive) = some .eq := by
    show (x.toModel.unpack.compare (.zero .positive) == some .eq) = true ↔ _
    exact beq_iff_eq
  have negative : (-0.0 : Float).toModel.unpack = .zero .negative := rfl
  rw [positive]
  constructor
  · intro equal
    cases here : x.toModel.unpack with
    | notANumber =>
      rw [here] at equal
      cases equal
    | infinity s | finite s =>
      rw [here] at equal
      cases s <;> cases equal
    | zero s =>
      have number : x.toModel.unpack ≠ .notANumber := by simp [here]
      cases s with
      | positive => exact .inl (eq_of_unpack_eq number (here.trans unpack_zero.symm))
      | negative => exact .inr (eq_of_unpack_eq number (here.trans negative.symm))
  · rintro (rfl | rfl) <;> rfl

end BenchLedger.Decimal
