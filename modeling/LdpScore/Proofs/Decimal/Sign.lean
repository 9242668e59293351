import LdpScore.Decimal.Binary
import Mathlib

/-!
# The sign of a floating point number

Everything but a pattern that is not a number has a sign, zeros and infinities
included.  Rounding and packing keep it, whatever becomes of the magnitude: a
product that is too small or too large for the format is a zero or an infinity of
the right sign.  The sign is therefore what tells that a number is not below zero.

The same holds for widening to double precision, so a decimal that was read and
found not to be below zero stays so.
-/

namespace LdpScore.Decimal

open Float.Model Float.Model.UnpackedFloat

/-- The sign of a floating point number; none if it is not a number. -/
def sign? : UnpackedFloat → Option Sign
  | .notANumber => none
  | .infinity sign => some sign
  | .zero sign => some sign
  | .finite sign _ _ _ => some sign

/-! ## Packing and rounding -/

section Packing

variable {format : Float.Model.Format}

/-- Only an exponent of all ones with a significand is not a number. -/
theorem sign?_unpack_packComponents
    (sign : Sign) {exponent : BitVec format.exponentBits}
    {significand : BitVec format.mantissaBitsWithoutImplicit}
    (isNumber : exponent ≠ -1#_ ∨ significand = 0#_) :
    sign? (UnpackedFloat.unpack format
      (packComponents format sign exponent significand)) = some sign := by
  rw [UnpackedFloat.unpack]
  simp only [unpackMantissa_packComponents, unpackExponent_packComponents,
    unpackSign_packComponents, Sign.ofBitVec_toBitVec]
  split
  · rename_i allOnes
    rw [if_pos (isNumber.resolve_left (not_not_intro allOnes))]
    rfl
  · split
    · split <;> rfl
    · rfl

theorem ofNat_ne_allOnes {width number : Nat} (below : number + 1 < 2 ^ width) :
    BitVec.ofNat width number ≠ -BitVec.ofNat width 1 := by
  intro same
  have equal := congrArg BitVec.toNat same
  rw [BitVec.neg_one_eq_allOnes, BitVec.toNat_ofNat, BitVec.toNat_allOnes,
    Nat.mod_eq_of_lt (by omega)] at equal
  omega

theorem sign?_unpack_pack
    {number : UnpackedFloat} {sign : Sign} (signed : sign? number = some sign) :
    sign? (UnpackedFloat.unpack format (UnpackedFloat.pack format number)) =
      some sign := by
  cases number with
  | notANumber => cases signed
  | infinity sign =>
      cases signed
      exact sign?_unpack_packComponents sign (.inr rfl)
  | zero sign =>
      cases signed
      exact sign?_unpack_packComponents sign (.inr rfl)
  | finite sign significand exponent positive =>
      cases signed
      rw [UnpackedFloat.pack]
      split
      · exact sign?_unpack_packComponents sign (.inr rfl)
      · split
        · exact sign?_unpack_packComponents sign (.inl (ofNat_ne_allOnes (by omega)))
        · refine sign?_unpack_packComponents sign (.inl (ofNat_ne_allOnes ?_))
          exact Nat.one_lt_two_pow (Nat.ne_of_gt format.he)

theorem sign?_roundWithAccuracy
    (sign : Sign) (significand : Nat) (exponent : Int) (accuracy : Accuracy) :
    sign? (roundWithAccuracy format sign significand exponent accuracy) =
      some sign := by
  unfold roundWithAccuracy
  dsimp only
  split <;> rfl

theorem sign?_round (sign : Sign) (significand : Nat) (exponent : Int) :
    sign? (UnpackedFloat.round format sign significand exponent) = some sign := by
  rw [UnpackedFloat.round]
  exact sign?_roundWithAccuracy ..

end Packing

/-! ## Numbers that are not below zero -/

theorem nonneg_iff {number : Float} :
    0 ≤ number ↔
      UnpackedFloat.le (.zero .positive) number.toModel.unpack = true :=
  decide_eq_true_iff

/-- A number with the sign of those above zero, which may itself be zero or
infinite. -/
def IsPlus (number : Float) : Prop :=
  sign? number.toModel.unpack = some .positive

/-- A number above zero that is finite. -/
def IsPositive (number : Float) : Prop :=
  ∃ significand exponent positive,
    number.toModel.unpack = .finite .positive significand exponent positive

theorem isPlus_pack {number : UnpackedFloat} (signed : sign? number = some .positive) :
    IsPlus (.ofModel (.pack number)) :=
  sign?_unpack_pack signed

theorem IsPlus.nonneg {number : Float} (plus : IsPlus number) : 0 ≤ number := by
  rw [nonneg_iff]
  unfold IsPlus at plus
  cases unpacked : number.toModel.unpack <;> rw [unpacked] at plus <;> cases plus <;> rfl

theorem IsPositive.isPlus {number : Float} (positive : IsPositive number) :
    IsPlus number := by
  obtain ⟨_, _, _, unpacked⟩ := positive
  rw [IsPlus, unpacked]
  rfl

/-! A product is a number unless one factor is zero and the other infinite, so one
finite factor above zero is enough. -/

theorem IsPlus.mul
    {left right : Float} (plus : IsPlus left) (positive : IsPositive right) :
    IsPlus (left * right) := by
  obtain ⟨_, _, _, unpacked⟩ := positive
  refine isPlus_pack ?_
  rw [unpacked]
  unfold IsPlus at plus
  cases number : left.toModel.unpack <;> rw [number] at plus <;> cases plus
  · rfl
  · rfl
  · exact sign?_roundWithAccuracy ..

theorem IsPositive.mul
    {left right : Float} (positive : IsPositive left) (plus : IsPlus right) :
    IsPlus (left * right) := by
  obtain ⟨_, _, _, unpacked⟩ := positive
  refine isPlus_pack ?_
  rw [unpacked]
  unfold IsPlus at plus
  cases number : right.toModel.unpack <;> rw [number] at plus <;> cases plus
  · rfl
  · rfl
  · exact sign?_roundWithAccuracy ..

/-! ## Numbers read from a text -/

theorem neg_iff {number : Float32} :
    number < 0 ↔
      UnpackedFloat.lt number.toModel.unpack (.zero .positive) = true :=
  decide_eq_true_iff

/-- A number that is not below zero is not below zero in double precision either; it
may be a negative zero in both. -/
theorem widen_nonneg
    {number : Float32} {sign : Sign} (signed : sign? number.toModel.unpack = some sign)
    (notBelow : ¬number < 0) :
    0 ≤ widen number := by
  rw [neg_iff] at notBelow
  cases unpacked : number.toModel.unpack with
  | notANumber =>
      rw [unpacked] at signed
      cases signed
  | infinity sign =>
      rw [unpacked] at notBelow
      cases sign with
      | negative => exact absurd rfl notBelow
      | positive =>
          rw [widen, unpacked]
          exact (isPlus_pack rfl).nonneg
  | zero sign =>
      rw [widen, unpacked]
      cases sign <;> rfl
  | finite sign significand exponent positive =>
      rw [unpacked] at notBelow
      cases sign with
      | negative => exact absurd rfl notBelow
      | positive =>
          rw [widen, unpacked]
          exact (isPlus_pack (sign?_round ..)).nonneg

theorem ofFraction_mod_le (fraction : Fraction) :
    Format.single.ofFraction fraction % 2 ^ 31 ≤ 0xff * 2 ^ 23 := by
  have limited : Format.single.round fraction.digits (powerOfTen fraction.places) ≤
      0xff * 2 ^ 23 := by
    unfold Format.round
    split
    · omega
    · exact Nat.min_le_right _ _
  have signBit : Format.single.signBit = 2 ^ 31 := rfl
  rw [Format.ofFraction]
  split <;> omega

theorem exists_sign?_ofBits
    {pattern : UInt32} (isNumber : pattern.toNat % 2 ^ 31 ≤ 0xff * 2 ^ 23) :
    ∃ sign, sign? (Float32.ofBits pattern).toModel.unpack = some sign := by
  have signed : ∃ sign,
      sign? (UnpackedFloat.unpack .binary32 pattern.toBitVec) = some sign := by
    rw [UnpackedFloat.unpack]
    dsimp only
    split
    · rename_i allOnes
      have greatest := congrArg BitVec.toNat allOnes
      rw [if_pos]
      · exact ⟨_, rfl⟩
      · apply BitVec.eq_of_toNat_eq
        simp [unpackExponent, unpackMantissa, Nat.shiftRight_eq_div_pow] at greatest ⊢
        omega
    · split
      · split <;> exact ⟨_, rfl⟩
      · exact ⟨_, rfl⟩
  obtain ⟨sign, signed⟩ := signed
  exact ⟨sign, sign?_unpack_pack signed⟩

/-- A decimal is a number in single precision; the greatest ones are infinite. -/
theorem exists_sign?_toFloat32 (fraction : Fraction) :
    ∃ sign, sign? fraction.toFloat32.toModel.unpack = some sign := by
  have limited := ofFraction_mod_le fraction
  refine exists_sign?_ofBits ?_
  rw [UInt32.toNat_ofNat']
  omega

end LdpScore.Decimal
