import BenchLedger.Decimal.Literal
import BenchLedger.Proofs.BlankText
import BenchLedger.Proofs.DigitText

/-!
The characters of number literals. Main statement: `Decimal.unbroken_of_float?`: a literal is one
word.
-/

namespace BenchLedger

namespace Text

/-- The lower case of a blank is a blank. -/
theorem not_isBlank_of_toLower {c : Char} (visible : isBlank c.toLower = false) :
    isBlank c = false := by
  unfold Char.toLower at visible
  split at visible
  next upper =>
    have range : 65 ≤ c.toNat ∧ c.toNat ≤ 90 := by
      simpa [UInt32.le_iff_toNat_le] using upper
    simp only [isBlank, Bool.or_eq_false_iff, Bool.and_eq_false_iff, decide_eq_false_iff_not,
      beq_eq_false_iff_ne]
    omega
  next => exact visible

theorem AllDigits.visible {cs : List Char} (digits : AllDigits cs) : Visible cs :=
  fun c member => not_isBlank_of_isDigit (digits c member)

theorem visible_of_natural? {cs : List Char} {n : Nat} (h : natural? cs = some n) :
    Visible cs := by
  unfold natural? at h
  split at h
  next digits =>
    simp only [Bool.and_eq_true, List.all_eq_true] at digits
    exact AllDigits.visible digits.2
  next => cases h

end Text

namespace Decimal

open Text (Visible Unbroken)

variable {cs : List Char}

/-- A sign is no blank. -/
theorem visible_of_splitSign (rest : Visible (splitSign cs).2) : Visible cs := by
  unfold splitSign at rest
  split at rest
  · exact rest.cons (by decide)
  · exact rest.cons (by decide)
  · exact rest

theorem visible_of_exponent? {e : Int} (h : exponent? cs = some e) : Visible cs := by
  unfold exponent? at h
  split at h
  · exact Text.visible_nil
  next letter rest =>
    split at h
    next marked =>
      obtain ⟨_, number, _⟩ := Option.map_eq_some_iff.1 h
      obtain ⟨n, digits, _⟩ := Option.bind_eq_some_iff.1 number
      refine (visible_of_splitSign (Text.visible_of_natural? digits)).cons ?_
      simp only [Bool.or_eq_true, beq_iff_eq] at marked
      rcases marked with rfl | rfl <;> decide
    next => cases h

theorem unbroken_of_magnitude? {negative : Bool} {x : Float}
    (h : magnitude? negative cs = some x) : Unbroken cs := by
  have digits (ds : List Char) : Visible (ds.takeWhile Char.isDigit) :=
    Text.AllDigits.visible fun _ member => List.mem_takeWhile_imp member
  have parts (ds : List Char) := List.takeWhile_append_dropWhile (p := Char.isDigit) (l := ds)
  unfold magnitude? at h
  dsimp only at h
  split at h
  next more point =>
    split at h
    · cases h
    next =>
      obtain ⟨e, exponent, _⟩ := Option.map_eq_some_iff.1 h
      have fraction : Visible more := by
        rw [← parts more]
        exact (digits more).append (visible_of_exponent? exponent)
      rw [← parts cs, point]
      exact ⟨by simp, (digits cs).append (fraction.cons (by decide))⟩
  next =>
    split at h
    · cases h
    next some =>
      obtain ⟨e, exponent, _⟩ := Option.map_eq_some_iff.1 h
      refine ⟨?_, ?_⟩
      · rintro rfl
        exact some rfl
      · rw [← parts cs]
        exact (digits cs).append (visible_of_exponent? exponent)

/-- A literal is one word. -/
theorem unbroken_of_float? {x : Float} (h : float? cs = some x) : Unbroken cs := by
  -- What stands behind the sign is a name or a number.
  have behind : Unbroken (splitSign cs).2 := by
    have named {name : List Char} (same : (splitSign cs).2.map Char.toLower = name)
        (word : Unbroken name) : Unbroken (splitSign cs).2 := by
      subst same
      refine ⟨by simpa using word.1, fun c member => ?_⟩
      exact Text.not_isBlank_of_toLower (word.2 _ (List.mem_map_of_mem member))
    unfold float? at h
    dsimp only at h
    split at h
    next infinite =>
      simp only [Bool.or_eq_true, beq_iff_eq] at infinite
      rcases infinite with same | same
      · exact named same (by decide)
      · exact named same (by decide)
    next =>
      split at h
      next undefined => exact named (beq_iff_eq.1 undefined) (by decide)
      next => exact unbroken_of_magnitude? h
  refine ⟨?_, visible_of_splitSign behind.2⟩
  rintro rfl
  exact behind.1 rfl

end Decimal

end BenchLedger
