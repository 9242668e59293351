import LdpScore.Proofs.Decimal.Sign

/-!
# Floating point numbers with a full significand

A positive number in double precision is normal if all binary digits of its
significand are used.  Arithmetic on normal numbers gives a normal number as long as
the exponents stay within the range of the format, and then the exponent of the
outcome is known up to two.  So no such calculation comes down to zero or goes up
to infinity.
-/

namespace LdpScore.Decimal

open Float.Model Float.Model.UnpackedFloat

/-- A normal positive number whose exponent is within bounds.  The exponent is that
of the last binary digit. -/
def IsNormal (least greatest : Int) (number : Float) : Prop :=
  ∃ significand exponent positive,
    number.toModel.unpack = .finite .positive significand exponent positive ∧
      significand.log2 = 52 ∧ least ≤ exponent ∧ exponent ≤ greatest

theorem IsNormal.isPositive {least greatest : Int} {number : Float}
    (normal : IsNormal least greatest number) : IsPositive number := by
  obtain ⟨_, _, _, unpacked, _⟩ := normal
  exact ⟨_, _, _, unpacked⟩

/-! ## Binary digits -/

theorem log2_shiftLeft {number : Nat} (positive : 0 < number) (count : Nat) :
    (number <<< count).log2 = number.log2 + count := by
  have bounds := (Nat.log2_eq_iff (Nat.ne_of_gt positive)).mp rfl
  have nonzero := Nat.mul_pos positive (Nat.two_pow_pos count)
  rw [Nat.shiftLeft_eq, Nat.log2_eq_iff (Nat.ne_of_gt nonzero)]
  constructor
  · rw [Nat.pow_add]
    exact Nat.mul_le_mul_right _ bounds.1
  · rw [Nat.add_right_comm, Nat.pow_add]
    exact Nat.mul_lt_mul_of_pos_right bounds.2 (Nat.two_pow_pos _)

/-- What is left of a number once it is cut down to a significand. -/
theorem div_two_pow_bounds {number : Nat} (wide : 52 ≤ number.log2) :
    2 ^ 52 ≤ number / 2 ^ (number.log2 - 52) ∧
      number / 2 ^ (number.log2 - 52) < 2 ^ 53 := by
  have nonzero : number ≠ 0 := by
    rintro rfl
    simp at wide
  constructor
  · rw [Nat.le_div_iff_mul_le (Nat.two_pow_pos _), ← Nat.pow_add,
      Nat.add_sub_cancel' wide]
    exact Nat.log2_self_le nonzero
  · rw [Nat.div_lt_iff_lt_mul (Nat.two_pow_pos _), ← Nat.pow_add,
      show 53 + (number.log2 - 52) = number.log2 + 1 by omega]
    exact Nat.lt_log2_self

theorem shiftLeft_bounds {number : Nat} (full : number.log2 = 52) (count : Nat) :
    2 ^ (52 + count) ≤ number <<< count ∧ number <<< count < 2 ^ (53 + count) := by
  have positive : 0 < number := by
    refine Nat.pos_of_ne_zero ?_
    rintro rfl
    simp at full
  have nonzero : number <<< count ≠ 0 := by
    rw [Nat.shiftLeft_eq]
    exact Nat.ne_of_gt (Nat.mul_pos positive (Nat.two_pow_pos count))
  have bounds := (Nat.log2_eq_iff nonzero).mp (log2_shiftLeft positive count)
  rw [full] at bounds
  rwa [Nat.add_right_comm] at bounds

/-- A sum has at most one binary digit more than the longer of its terms. -/
theorem log2_add_shiftLeft_bounds {number number' : Nat}
    (full : number.log2 = 52) (full' : number'.log2 = 52) (count count' : Nat) :
    52 + max count count' ≤ (number <<< count + number' <<< count').log2 ∧
      (number <<< count + number' <<< count').log2 < 54 + max count count' := by
  have bounds := shiftLeft_bounds full count
  have bounds' := shiftLeft_bounds full' count'
  generalize number <<< count = shifted at *
  generalize number' <<< count' = shifted' at *
  have nonzero : shifted + shifted' ≠ 0 := by
    have := Nat.two_pow_pos (52 + count)
    omega
  have longer : 2 ^ (53 + count) ≤ 2 ^ (53 + max count count') :=
    Nat.pow_le_pow_right (by decide) (by omega)
  have longer' : 2 ^ (53 + count') ≤ 2 ^ (53 + max count count') :=
    Nat.pow_le_pow_right (by decide) (by omega)
  constructor
  · rw [Nat.le_log2 nonzero]
    rcases Nat.le_total count count' with order | order
    · rw [Nat.max_eq_right order]
      omega
    · rw [Nat.max_eq_left order]
      omega
  · rw [Nat.log2_lt nonzero,
      show 54 + max count count' = 53 + max count count' + 1 by omega, Nat.pow_succ]
    omega

/-! ## Rounding -/

theorem mantissa_repeat_shiftRightOne (count : Nat) (extended : ExtendedMantissa) :
    (count.repeat ExtendedMantissa.shiftRightOne extended).mantissa =
      extended.mantissa / 2 ^ count := by
  induction count with
  | zero => simp [Nat.repeat]
  | succ count induction =>
      rw [Nat.repeat, ExtendedMantissa.shiftRightOne, induction,
        Nat.div_div_eq_div_mul, Nat.pow_succ]

theorem shiftToTargetExponent_of_wide {significand : Nat} {exponent : Int}
    (wide : 52 ≤ significand.log2) (least : -1074 ≤ exponent + significand.log2 - 52)
    (accuracy : Accuracy) :
    (shiftToTargetExponent .binary64 significand exponent accuracy).1.mantissa =
        significand / 2 ^ (significand.log2 - 52) ∧
      (shiftToTargetExponent .binary64 significand exponent accuracy).2 =
        exponent + (significand.log2 - 52) := by
  have shift : (Format.binary64.targetExponent (totalExponent significand exponent) -
      exponent).toNat = significand.log2 - 52 := by
    simp [Format.targetExponent, totalExponent, Format.mantissaBits, Format.minExponent]
    omega
  have kept : (ExtendedMantissa.ofMantissaAndAccuracy significand accuracy).mantissa =
      significand := by
    unfold ExtendedMantissa.ofMantissaAndAccuracy
    split <;> rfl
  rw [shiftToTargetExponent, shiftToExponent, shift]
  constructor
  · exact (mantissa_repeat_shiftRightOne ..).trans (congrArg (· / _) kept)
  · dsimp only
    omega

theorem roundedMantissa_bounds (extended : ExtendedMantissa) :
    extended.mantissa ≤ extended.roundedMantissa ∧
      extended.roundedMantissa ≤ extended.mantissa + 1 := by
  rw [ExtendedMantissa.roundedMantissa]
  unfold Accuracy.roundToNearestEven
  split <;> omega

theorem exists_roundWithAccuracy {significand : Nat} {exponent : Int}
    (wide : 52 ≤ significand.log2) (least : -1074 ≤ exponent + significand.log2 - 52)
    (accuracy : Accuracy) :
    ∃ rounded shifted positive,
      roundWithAccuracy .binary64 .positive significand exponent accuracy =
          .finite .positive rounded shifted positive ∧
        rounded.log2 = 52 ∧ exponent + significand.log2 - 52 ≤ shifted ∧
        shifted ≤ exponent + significand.log2 - 51 := by
  have first := shiftToTargetExponent_of_wide wide least accuracy
  have bounds := div_two_pow_bounds wide
  rw [← first.1] at bounds
  unfold roundWithAccuracy
  dsimp only
  generalize shiftToTargetExponent .binary64 significand exponent accuracy = shifted at *
  obtain ⟨extended, raised⟩ := shifted
  dsimp only at *
  have near := roundedMantissa_bounds extended
  generalize extended.roundedMantissa = rounded at *
  -- Rounding up may carry into one more binary digit, which the second shift drops.
  have full : rounded.log2 = 52 ∨ rounded = 2 ^ 53 := by
    by_cases carried : rounded < 2 ^ 53
    · exact .inl ((Nat.log2_eq_iff (by omega)).mpr ⟨by omega, carried⟩)
    · exact .inr (by omega)
  have digits : 52 ≤ rounded.log2 ∧ rounded.log2 ≤ 53 := by
    rcases full with full | full
    · omega
    · rw [full, Nat.log2_two_pow]
      omega
  have again : -1074 ≤ raised + rounded.log2 - 52 := by omega
  have second := shiftToTargetExponent_of_wide digits.1 again .exact
  have bounds := div_two_pow_bounds digits.1
  rw [← second.1] at bounds
  rw [dif_neg (by omega)]
  refine ⟨_, _, _, rfl, ?_, by omega, by omega⟩
  exact (Nat.log2_eq_iff (by omega)).mpr bounds

/-- Packing loses nothing of a number with a full significand whose exponent is
within the range of the format. -/
theorem unpack_pack_of_log2 {significand : Nat} {exponent : Int}
    (positive : 0 < significand) (full : significand.log2 = 52)
    (least : -1074 ≤ exponent) (greatest : exponent ≤ 971) :
    (Float.Model.pack (.finite .positive significand exponent positive)).unpack =
      .finite .positive significand exponent positive := by
  have bounds := (Nat.log2_eq_iff (by omega)).mp full
  have biased : (exponent + Format.binary64.exponentBias +
      Format.binary64.mantissaBitsWithoutImplicit).toNat = (exponent + 1075).toNat := by
    change (exponent + 1023 + 52).toNat = _
    omega
  have stored : (BitVec.ofNat 11 (exponent + 1075).toNat).toNat =
      (exponent + 1075).toNat := by
    rw [BitVec.toNat_ofNat]
    exact Nat.mod_eq_of_lt (by omega)
  have common : ∀ special : BitVec 11, special.toNat = 0 ∨ special.toNat = 2047 →
      BitVec.ofNat 11 (exponent + 1075).toNat ≠ special := by
    rintro special isSpecial rfl
    omega
  have restored : (1#1 ++ BitVec.ofNat 52 significand).toNat = significand := by
    have joined : (1#1 ++ BitVec.ofNat 52 significand).toNat =
        2 ^ 52 * 1 ||| significand % 2 ^ 52 := by
      rw [BitVec.toNat_append]
      rfl
    rw [joined, ← Nat.two_pow_add_eq_or_of_lt (Nat.mod_lt _ (Nat.two_pow_pos 52))]
    omega
  change UnpackedFloat.unpack .binary64
    (UnpackedFloat.pack .binary64 (.finite .positive significand exponent positive)) = _
  rw [UnpackedFloat.pack]
  dsimp only
  rw [biased, if_neg (by omega), if_pos (by rw [full]; rfl), UnpackedFloat.unpack]
  simp only [unpackMantissa_packComponents, unpackExponent_packComponents,
    unpackSign_packComponents, Sign.ofBitVec_toBitVec]
  rw [if_neg (common _ (.inr rfl)), if_neg (common _ (.inl rfl)),
    UnpackedFloat.finite.injEq]
  refine ⟨rfl, restored, ?_⟩
  change ((BitVec.ofNat 11 (exponent + 1075).toNat).toNat : Int) - (1023 + 52) = exponent
  omega

section Bounds

variable {least greatest : Int} {significand : Nat} {exponent : Int}

theorem isNormal_roundWithAccuracy
    (wide : 52 ≤ significand.log2) (accuracy : Accuracy)
    (atLeast : least ≤ exponent + significand.log2 - 52)
    (atMost : exponent + significand.log2 - 51 ≤ greatest)
    (limited : -1074 ≤ least ∧ greatest ≤ 971) :
    IsNormal least greatest (.ofModel (.pack
      (roundWithAccuracy .binary64 .positive significand exponent accuracy))) := by
  have above : -1074 ≤ exponent + significand.log2 - 52 := by omega
  obtain ⟨rounded, shifted, positive, isRounded, full, low, high⟩ :=
    exists_roundWithAccuracy wide above accuracy
  refine ⟨rounded, shifted, positive, ?_, full, by omega, by omega⟩
  rw [isRounded]
  exact unpack_pack_of_log2 positive full (by omega) (by omega)

/-- A significand that is too short is first filled up with zeros. -/
theorem isNormal_round
    (positive : 0 < significand)
    (atLeast : least ≤ exponent + significand.log2 - 52)
    (atMost : exponent + significand.log2 - 51 ≤ greatest)
    (limited : -1074 ≤ least ∧ greatest ≤ 971) :
    IsNormal least greatest (.ofModel (.pack
      (UnpackedFloat.round .binary64 .positive significand exponent))) := by
  have target : Format.binary64.targetExponent (totalExponent significand exponent) =
      exponent + significand.log2 - 52 := by
    simp [Format.targetExponent, totalExponent, Format.mantissaBits, Format.minExponent]
    omega
  have shift : (exponent - (exponent + significand.log2 - 52)).toNat =
      52 - significand.log2 := by
    omega
  have filled := log2_shiftLeft positive (52 - significand.log2)
  rw [UnpackedFloat.round, target]
  simp only [decreaseExponent, shift]
  exact isNormal_roundWithAccuracy (by omega) _ (by omega) (by omega) limited

end Bounds

/-! ## Arithmetic -/

section Arithmetic

variable {left right : Float} {least greatest least' greatest' : Int}

theorem IsNormal.mul
    (normal : IsNormal least greatest left) (normal' : IsNormal least' greatest' right)
    (limited : -1126 ≤ least + least' ∧ greatest + greatest' ≤ 917) :
    IsNormal (least + least' + 52) (greatest + greatest' + 54) (left * right) := by
  obtain ⟨m, e, positive, unpacked, full, low, high⟩ := normal
  obtain ⟨m', e', positive', unpacked', full', low', high'⟩ := normal'
  have bounds := (Nat.log2_eq_iff (by omega)).mp full
  have bounds' := (Nat.log2_eq_iff (by omega)).mp full'
  have nonzero : m * m' ≠ 0 := Nat.ne_of_gt (Nat.mul_pos positive positive')
  have wide : 104 ≤ (m * m').log2 := by
    rw [Nat.le_log2 nonzero, Nat.pow_add 2 52 52]
    exact Nat.mul_le_mul bounds.1 bounds'.1
  have narrow : (m * m').log2 < 106 := by
    rw [Nat.log2_lt nonzero, Nat.pow_add 2 53 53]
    exact Nat.mul_lt_mul'' bounds.2 bounds'.2
  change IsNormal _ _ (.ofModel (.pack
    (UnpackedFloat.mul .binary64 left.toModel.unpack right.toModel.unpack)))
  rw [unpacked, unpacked']
  exact isNormal_roundWithAccuracy (by omega) _ (by omega) (by omega) (by omega)

/-- The dividend is given 53 more binary digits, so that the quotient has enough. -/
theorem IsNormal.div
    (normal : IsNormal least greatest left) (normal' : IsNormal least' greatest' right)
    (limited : -1021 ≤ least - greatest' ∧ greatest - least' ≤ 1022) :
    IsNormal (least - greatest' - 53) (greatest - least' - 51) (left / right) := by
  obtain ⟨m, e, positive, unpacked, full, low, high⟩ := normal
  obtain ⟨m', e', positive', unpacked', full', low', high'⟩ := normal'
  have bounds := (Nat.log2_eq_iff (by omega)).mp full
  have bounds' := (Nat.log2_eq_iff (by omega)).mp full'
  have quotient : divCore .binary64 m e m' e' =
      (m <<< 53 / m', e - e' - 53, accuracyOfFraction (m <<< 53 % m') m') := by
    have exponent : min (e - e') (Format.binary64.targetExponent
        (totalExponent m e - totalExponent m' e')) = e - e' - 53 := by
      simp [Format.targetExponent, totalExponent, Format.mantissaBits, Format.minExponent]
      omega
    have shift : (e - e' - (e - e' - 53)).toNat = 53 := by omega
    simp only [divCore, exponent, shift]
  have atLeast : 2 ^ 52 ≤ m <<< 53 / m' := by
    rw [Nat.shiftLeft_eq, Nat.le_div_iff_mul_le positive']
    exact Nat.mul_le_mul bounds.1 (Nat.le_of_lt bounds'.2)
  have below : m <<< 53 / m' < 2 ^ 54 := by
    rw [Nat.shiftLeft_eq, Nat.div_lt_iff_lt_mul positive']
    omega
  have nonzero : m <<< 53 / m' ≠ 0 := by omega
  have wide : 52 ≤ (m <<< 53 / m').log2 := (Nat.le_log2 nonzero).mpr atLeast
  have narrow : (m <<< 53 / m').log2 < 54 := (Nat.log2_lt nonzero).mpr below
  change IsNormal _ _ (.ofModel (.pack
    (UnpackedFloat.div .binary64 left.toModel.unpack right.toModel.unpack)))
  rw [unpacked, unpacked', UnpackedFloat.div, quotient]
  exact isNormal_roundWithAccuracy (by omega) _ (by omega) (by omega) (by omega)

theorem normalize_of_pos {number : Nat} (positive : 0 < number) (exponent : Int) :
    UnpackedFloat.normalize .binary64 number exponent .positive =
      UnpackedFloat.round .binary64 .positive number exponent := by
  have above : compare (number : Int) 0 = .gt := Int.compare_eq_gt.mpr (by omega)
  simp [UnpackedFloat.normalize, above]

theorem IsNormal.add
    (normal : IsNormal least greatest left) (normal' : IsNormal least' greatest' right)
    (limited : -1074 ≤ least ∧ greatest ≤ 969 ∧ greatest' ≤ greatest) :
    IsNormal least (greatest + 2) (left + right) := by
  obtain ⟨m, e, positive, unpacked, full, low, high⟩ := normal
  obtain ⟨m', e', positive', unpacked', full', low', high'⟩ := normal'
  have bounds := log2_add_shiftLeft_bounds full full'
    (e - min e e').toNat (e' - min e e').toNat
  have added : UnpackedFloat.add .binary64 (.finite .positive m e positive)
      (.finite .positive m' e' positive') =
      UnpackedFloat.normalize .binary64
        (m <<< (e - min e e').toNat + m' <<< (e' - min e e').toNat : Nat)
        (min e e') .positive := rfl
  have nonzero : 0 < m <<< (e - min e e').toNat + m' <<< (e' - min e e').toNat := by
    refine Nat.pos_of_ne_zero fun zero => ?_
    rw [zero] at bounds
    simp at bounds
  change IsNormal _ _ (.ofModel (.pack
    (UnpackedFloat.add .binary64 left.toModel.unpack right.toModel.unpack)))
  rw [unpacked, unpacked', added, normalize_of_pos nonzero]
  exact isNormal_round nonzero (by omega) (by omega) (by omega)

end Arithmetic

/-! ## Integers -/

theorem isNormal_toFloat {number : Nat} (positive : 0 < number) (below : number < 2 ^ 32) :
    IsNormal (-52) (-18) number.toFloat := by
  have log : number.log2 < 32 := (Nat.log2_lt (Nat.ne_of_gt positive)).mpr below
  have converted : IsNormal (-52) (-20) number.toUInt64.toFloat := by
    change IsNormal _ _ (.ofModel (.pack
      (UnpackedFloat.normalize .binary64 number.toUInt64.toNat 0 .positive)))
    have same : number.toUInt64.toNat = number := Nat.mod_eq_of_lt (by omega)
    rw [same, normalize_of_pos positive]
    exact isNormal_round positive (by omega) (by omega) (by omega)
  have one : IsNormal (-52) (-52) (.ofBits 0x3FF0000000000000) :=
    ⟨2 ^ 52, -52, by decide, rfl, Nat.log2_two_pow, by decide, by decide⟩
  have scaled : number.toFloat =
      number.toUInt64.toFloat * .ofBits 0x3FF0000000000000 :=
    dif_pos ⟨by omega, by omega⟩
  rw [scaled]
  exact converted.mul one (by decide)

theorem isNormal_ofNat {number : Nat} (positive : 0 < number) (below : number < 2 ^ 32) :
    IsNormal (-52) (-18) (OfNat.ofNat number) :=
  isNormal_toFloat positive below

theorem isNormal_two : IsNormal (-51) (-51) 2 :=
  ⟨2 ^ 52, -51, by decide, rfl, Nat.log2_two_pow, by decide, by decide⟩

theorem IsNormal.half {number : Float} {least greatest : Int}
    (normal : IsNormal least greatest number)
    (limited : -1072 ≤ least ∧ greatest ≤ 971) :
    IsNormal (least - 2) greatest (number / 2) := by
  have halved := normal.div isNormal_two (by omega)
  rwa [show least - -51 - 53 = least - 2 by omega,
    show greatest - -51 - 51 = greatest by omega] at halved

end LdpScore.Decimal
