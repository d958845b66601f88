import SceneScript.Number.Binary

/-! # The two zeros

Of all floats exactly two compare as equal to zero: the one with all bits clear, and the one with
nothing but the sign bit set.
-/
namespace SceneScript.Number
open Float.Model Float.Model.UnpackedFloat

/-- A form compares as equal to zero when it is a zero of either sign. -/
theorem compare_zero_eq {x : UnpackedFloat} {sign : Sign} :
    x.compare (.zero sign) = some .eq ↔ ∃ s, x = .zero s := by
  constructor
  · intro h
    cases x with
    | infinity s => cases s <;> cases h
    | notANumber => cases h
    | zero s => exact ⟨s, rfl⟩
    | finite s => cases s <;> cases h
  · rintro ⟨_, rfl⟩
    rfl

/-- Only bits with a clear exponent and a clear mantissa are decoded as a zero. -/
theorem fields_of_zero {b : BitVec 64} {sign : Sign}
    (h : UnpackedFloat.unpack .binary64 b = .zero sign) :
    @unpackExponent .binary64 b = 0#11 ∧ @unpackMantissa .binary64 b = 0#52 := by
  delta UnpackedFloat.unpack at h
  dsimp only at h
  by_cases hlast : @unpackExponent .binary64 b = -1#_
  · rw [if_pos hlast] at h
    split at h <;> cases h
  · rw [if_neg hlast] at h
    by_cases hexponent : @unpackExponent .binary64 b = 0#_
    · rw [if_pos hexponent] at h
      by_cases hmantissa : @unpackMantissa .binary64 b = 0#_
      · exact ⟨hexponent, hmantissa⟩
      · rw [dif_neg hmantissa] at h
        cases h
    · rw [if_neg hexponent] at h
      cases h

theorem bits_of_fields {b : BitVec 64} (he : @unpackExponent .binary64 b = 0#11)
    (hm : @unpackMantissa .binary64 b = 0#52) : b = 0#64 ∨ b = 0x8000000000000000#64 := by
  have hexponent : b.toNat >>> 52 % 2 ^ 11 = 0 := congrArg BitVec.toNat he
  have hmantissa : b.toNat >>> 0 % 2 ^ 52 = 0 := congrArg BitVec.toNat hm
  have hbits := b.isLt
  rw [Nat.shiftRight_eq_div_pow] at hexponent hmantissa
  rw [← BitVec.toNat_inj, ← BitVec.toNat_inj]
  simp only [BitVec.toNat_ofNat]
  omega

theorem eq_of_toBits {x y : Float} (h : x.toModel.toBits.toBitVec = y.toModel.toBits.toBitVec) :
    x = y := by
  obtain ⟨⟨⟨b⟩, _⟩⟩ := x
  obtain ⟨⟨⟨c⟩, _⟩⟩ := y
  cases h
  rfl

/-- The floats that compare as equal to zero are zero and minus zero. -/
theorem beq_zero_iff {x : Float} : (x == 0) = true ↔ x = 0.0 ∨ x = -0.0 := by
  constructor
  · intro h
    have hunpacked : unpack 0 = .zero .positive := by rfl
    have hzero : (unpack x).compare (.zero .positive) = some .eq := by
      rw [← hunpacked]
      exact eq_of_beq h
    obtain ⟨s, hs⟩ := compare_zero_eq.mp hzero
    obtain ⟨he, hm⟩ := fields_of_zero hs
    exact (bits_of_fields he hm).imp (fun hb => eq_of_toBits hb) (fun hb => eq_of_toBits hb)
  · rintro (rfl | rfl) <;> decide +kernel

end SceneScript.Number
