import Mathlib.Algebra.Group.Int.Defs
import Mathlib.Algebra.Group.Nat.Defs
import SceneScript.Number.Binary

/-! # Integers as floats

An integer of 64 bits is rounded to a finite float. Rounding drops digits and raises the power of
two for each digit dropped, so the power stays far below the largest one that a float has.
-/
namespace SceneScript.Number
open Float.Model Float.Model.UnpackedFloat

/-! ### Packing -/

/-- A packed form is finite when its exponent is not the one of infinities and NaN. -/
theorem isFinite_of_unpackExponent {x : UnpackedFloat}
    (h : unpackExponent (UnpackedFloat.pack .binary64 x) ≠ -1#_) : (pack x).isFinite = true := by
  change (UnpackedFloat.unpack .binary64 (UnpackedFloat.pack .binary64 x)).isFinite = true
  delta UnpackedFloat.unpack
  dsimp only
  rw [if_neg h]
  by_cases hexponent : unpackExponent (UnpackedFloat.pack .binary64 x) = 0#_
  · rw [if_pos hexponent]
    by_cases hmantissa : unpackMantissa (UnpackedFloat.pack .binary64 x) = 0#_
    · rw [dif_pos hmantissa]
      rfl
    · rw [dif_neg hmantissa]
      rfl
  · rw [if_neg hexponent]
    rfl

theorem isFinite_zero (sign : Sign) : (pack (.zero sign)).isFinite = true := by
  refine isFinite_of_unpackExponent ?_
  change unpackExponent (packComponents .binary64 sign 0 0) ≠ _
  rw [unpackExponent_packComponents]
  decide

/-- The power of two of a finite float is below 972. -/
theorem isFinite_finite {sign : Sign} {m : Nat} {e : Int} (hm : 0 < m) (he : e < 972) :
    (pack (.finite sign m e hm)).isFinite = true := by
  refine isFinite_of_unpackExponent ?_
  change unpackExponent (if 2 ^ 11 ≤ (e + 1023 + 52).toNat + 1 then packedInfinity .binary64 sign
    else if m.log2 + 1 = 53 then
      packComponents .binary64 sign (BitVec.ofNat 11 (e + 1023 + 52).toNat) (BitVec.ofNat 52 m)
    else packComponents .binary64 sign 0#11 (BitVec.ofNat 52 m)) ≠ -1#11
  rw [if_neg (by omega)]
  split
  · rw [unpackExponent_packComponents]
    intro h
    have hnat : (e + 1023 + 52).toNat % 2 ^ 11 = 2 ^ 11 - 1 := congrArg BitVec.toNat h
    omega
  · rw [unpackExponent_packComponents]
    decide

/-- What a rounding gives: zero when no digit is left. -/
theorem isFinite_rounded {sign : Sign} {m : Nat} {e : Int} (he : e < 972) :
    (pack (if h : m = 0 then .zero sign else .finite sign m e (Nat.pos_of_ne_zero h))).isFinite =
      true := by
  by_cases h : m = 0
  · rw [dif_pos h]
    exact isFinite_zero sign
  · rw [dif_neg h]
    exact isFinite_finite _ he

/-! ### Rounding -/

theorem shiftToExponent_snd (m : Nat) (e : Int) (accuracy : Accuracy) (target : Int) :
    (shiftToExponent m e accuracy target).2 = max e target := by
  simp only [shiftToExponent]
  omega

theorem mantissa_shift_le (x : ExtendedMantissa) (n : Nat) : (x >>> n).mantissa ≤ x.mantissa := by
  change (n.repeat ExtendedMantissa.shiftRightOne x).mantissa ≤ _
  induction n with
  | zero => exact Nat.le_refl _
  | succ n ih => exact Nat.le_trans (Nat.div_le_self _ 2) ih

theorem shiftToExponent_fst_le (m : Nat) (e : Int) (accuracy : Accuracy) (target : Int) :
    (shiftToExponent m e accuracy target).1.mantissa ≤ m := by
  refine Nat.le_trans (mantissa_shift_le _ _) ?_
  rcases accuracy with _ | _ | _ | _ <;> exact Nat.le_refl _

theorem roundedMantissa_le (x : ExtendedMantissa) : x.roundedMantissa ≤ x.mantissa + 1 := by
  obtain ⟨m, _ | _, _ | _⟩ := x <;>
    simp only [ExtendedMantissa.roundedMantissa, ExtendedMantissa.accuracy,
      Accuracy.roundToNearestEven] <;> omega

theorem targetExponent_eq (m : Nat) (e : Int) :
    Format.binary64.targetExponent (totalExponent m e) = max (m.log2 + e - 52) (-1074) := by
  have hbits : Format.binary64.mantissaBits = 53 := rfl
  have hleast : Format.binary64.minExponent = -1074 := rfl
  simp only [Format.targetExponent, totalExponent, hbits, hleast]
  omega

theorem log2_le {m k : Nat} (h : m < 2 ^ (k + 1)) : m.log2 ≤ k := by
  by_cases hm : m = 0
  · simp [hm]
  · exact Nat.le_of_lt_succ ((Nat.log2_lt hm).mpr h)

theorem shiftToTargetExponent_bounds {m k : Nat} (hm : m < 2 ^ (k + 1)) (e : Int)
    (accuracy : Accuracy) :
    (shiftToTargetExponent .binary64 m e accuracy).1.mantissa ≤ m ∧
      (shiftToTargetExponent .binary64 m e accuracy).2 ≤ max (e + k) (-1074) := by
  refine ⟨shiftToExponent_fst_le .., ?_⟩
  have hlog := log2_le hm
  rw [shiftToTargetExponent, shiftToExponent_snd, targetExponent_eq]
  omega

/-- Each of the two shifts of a rounding raises the power by the number of digits at most. -/
theorem isFinite_roundWithAccuracy {sign : Sign} {m k : Nat} {e : Int} {accuracy : Accuracy}
    (hm : m < 2 ^ k) (hk : k ≤ 400) (he : e ≤ 0) :
    (pack (roundWithAccuracy .binary64 sign m e accuracy)).isFinite = true := by
  have hm₁ : m < 2 ^ (k + 1) := Nat.lt_trans hm (Nat.pow_lt_pow_succ (by decide))
  obtain ⟨hshifted, hpower⟩ := shiftToTargetExponent_bounds hm₁ e accuracy
  unfold roundWithAccuracy
  generalize shiftToTargetExponent .binary64 m e accuracy = first at hshifted hpower ⊢
  obtain ⟨x, e₁⟩ := first
  dsimp only at hshifted hpower ⊢
  have hrounded : x.roundedMantissa < 2 ^ (k + 1) := by
    have hle := roundedMantissa_le x
    have hdouble : 2 ^ (k + 1) = 2 ^ k + 2 ^ k := by omega
    omega
  obtain ⟨-, hfinal⟩ := shiftToTargetExponent_bounds hrounded e₁ .exact
  exact isFinite_rounded (by omega)

theorem isFinite_round {sign : Sign} {m k : Nat} {e : Int} (hm : m < 2 ^ k) (hk : k ≤ 300)
    (he : e ≤ 0) : (pack (UnpackedFloat.round .binary64 sign m e)).isFinite = true := by
  unfold UnpackedFloat.round decreaseExponent
  simp only [targetExponent_eq]
  refine isFinite_roundWithAccuracy (k := k + 52) ?_ (by omega) (by omega)
  rw [Nat.shiftLeft_eq, Nat.pow_add]
  refine Nat.mul_lt_mul_of_lt_of_le hm (Nat.pow_le_pow_right (by decide) (by omega)) ?_
  exact Nat.pow_pos (by decide)

/-- An integer of 64 bits, with or without a sign, is a finite float. -/
theorem isFinite_ofInt {n : Int} (hn : -2 ^ 63 ≤ n ∧ n < 2 ^ 64) : (ofInt n).isFinite = true := by
  unfold ofInt UnpackedFloat.ofInt UnpackedFloat.normalize
  split
  · exact isFinite_round (k := 64) (by omega) (by decide) (by decide)
  · exact isFinite_zero _
  · exact isFinite_round (k := 64) (by omega) (by decide) (by decide)

end SceneScript.Number
