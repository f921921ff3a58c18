import Mathlib
import StreamPath.Number.Decimal
import StreamPath.Proofs.NumberOrder

/-!
# Rounding what is exact

A finite number has one mantissa and one exponent. Rounding a value that is such a number, however it
is written as a mantissa and a power of two, or as a decimal, gives these two back, so nothing is lost.

* `Number.Canonical` — the mantissas and exponents that finite numbers have;
* `Number.ofModel_pack_eq` — packing what was unpacked gives the number back;
* `Number.roundWithAccuracy_of_canonical` — rounding a value that is a number;
* `Number.Binary.toRat`, `Number.Decimal.toRat` — the exact values;
* `Number.Decimal.toFloat_of_toRat` — a decimal whose value is that of a number is read as it.
-/

namespace StreamPath.Number

open Float.Model Float.Model.UnpackedFloat

/-! ## The numbers -/

/-- A mantissa and an exponent that a finite number has. The mantissa has its leading bit, unless the
exponent is the lowest. -/
structure Canonical (mantissa : Nat) (exponent : Int) : Prop where
  positive : 0 < mantissa
  bounded : mantissa < 2 ^ 53
  lowest : -1074 ≤ exponent
  highest : exponent ≤ 971
  leading : exponent = -1074 ∨ 2 ^ 52 ≤ mantissa

variable {x y : Float} {sign : Sign} {mantissa : Nat} {exponent : Int} {positive : 0 < mantissa}

theorem isNaN_of_unpack (unpacked : x.toModel.unpack = .finite sign mantissa exponent positive) :
    x.isNaN = false := by
  show x.toModel.unpack.isNaN = false
  rw [unpacked]
  rfl

/-- Where a finite number stands, said of what it unpacks to. -/
theorem place_of_unpack (unpacked : x.toModel.unpack = .finite sign mantissa exponent positive) :
    Canonical mantissa exponent ∧
      place x = sign.apply ((exponent + 1074).toNat * 2 ^ 52 + mantissa) := by
  have stands : StandsAt x.toModel.unpack (place x) :=
    standsAt_unpack x.toBits.toBitVec (isNaN_of_unpack unpacked)
  rw [unpacked] at stands
  generalize place x = there at stands
  cases stands with
  | finite _ _ step _ bounded leading highest =>
    refine ⟨⟨positive, bounded, by omega, by omega, leading.imp (by omega) id⟩, ?_⟩
    rw [show ((step : Int) - 1074 + 1074).toNat = step by omega]

theorem place_ne_zero (unpacked : x.toModel.unpack = .finite sign mantissa exponent positive) :
    place x ≠ 0 := by
  rw [(place_of_unpack unpacked).2]
  cases sign <;> simp only [Sign.apply] <;> omega

/-- Away from zero, one number stands at each place. -/
theorem eq_of_place (same : place x = place y) (nonzero : place x ≠ 0) : x = y := by
  have boundedX : x.toBits.toNat < 2 ^ 64 := x.toBits.toBitVec.isLt
  have boundedY : y.toBits.toNat < 2 ^ 64 := y.toBits.toBitVec.isLt
  unfold place placeOfBits at same nonzero
  refine Float.toBits_inj.mp (UInt64.toNat_inj.mp ?_)
  split at same <;> split at same <;> split at nonzero <;> omega

/-- The fields of a number unpack to its parts. The lowest exponent has two fields, one for the
mantissas without their leading bit. -/
theorem unpack_packComponents (positive : 0 < mantissa) (step : Nat) (small : step < 2047)
    (bounded : mantissa < 2 ^ 53)
    (leading : if step = 0 then mantissa < 2 ^ 52 else 2 ^ 52 ≤ mantissa) :
    UnpackedFloat.unpack .binary64 (packComponents .binary64 sign (BitVec.ofNat 11 step)
        (BitVec.ofNat 52 mantissa)) =
      .finite sign mantissa (((max step 1 : Nat) : Int) - 1075) positive := by
  have exponent : (BitVec.ofNat 11 step).toNat = step := by
    rw [BitVec.toNat_ofNat]
    omega
  have notFull : BitVec.ofNat 11 step ≠ -1#11 := fun full => by
    have same := congrArg BitVec.toNat full
    rw [exponent] at same
    simp at same
    omega
  have bias : (Format.binary64.exponentBias : Int) = 1023 := rfl
  unfold UnpackedFloat.unpack
  simp only [unpackMantissa_packComponents, unpackExponent_packComponents,
    unpackSign_packComponents, Sign.ofBitVec_toBitVec, if_neg notFull]
  by_cases lowest : step = 0
  · rw [if_pos lowest] at leading
    have field : (BitVec.ofNat 52 mantissa).toNat = mantissa := by
      rw [BitVec.toNat_ofNat]
      omega
    have notZero : BitVec.ofNat 52 mantissa ≠ 0#52 := fun zero => by
      rw [zero] at field
      exact positive.ne field
    subst lowest
    rw [if_pos rfl, dif_neg notZero]
    congr 1
  · rw [if_neg lowest] at leading
    have field : (BitVec.ofNat 52 mantissa).toNat = mantissa - 2 ^ 52 := by
      rw [BitVec.toNat_ofNat]
      omega
    have notLowest : BitVec.ofNat 11 step ≠ 0#11 := fun zero => by
      rw [zero] at exponent
      exact lowest exponent.symm
    rw [if_neg notLowest]
    congr 1
    · rw [toNat_leading, field]
      omega
    · rw [exponent, bias]
      show _ - (1023 + 52) = _
      omega

/-- What is packed unpacks to itself. -/
theorem unpack_pack (canonical : Canonical mantissa exponent) :
    (Float.ofModel (.pack (.finite sign mantissa exponent positive))).toModel.unpack =
      .finite sign mantissa exponent positive := by
  obtain ⟨_, bounded, lowest, highest, leading⟩ := canonical
  show UnpackedFloat.unpack .binary64 (UnpackedFloat.pack .binary64 _) = _
  have biased : (exponent + ((Format.binary64.exponentBias : Nat) : Int) +
      ((Format.binary64.mantissaBitsWithoutImplicit : Nat) : Int)).toNat = (exponent + 1075).toNat := by
    show (exponent + 1023 + 52).toNat = _
    omega
  have small : ¬2 ^ Format.binary64.exponentBits ≤ (exponent + 1075).toNat + 1 := by
    show ¬2 ^ 11 ≤ _
    omega
  unfold UnpackedFloat.pack
  simp only [biased, if_neg small]
  by_cases full : 2 ^ 52 ≤ mantissa
  · have log : mantissa.log2 + 1 = Format.binary64.mantissaBits :=
      congrArg (· + 1) ((Nat.log2_eq_iff (by omega)).mpr ⟨full, bounded⟩)
    rw [if_pos log, unpack_packComponents positive _ (by omega) bounded
      (by rw [if_neg (by omega)]; exact full)]
    congr 1
    omega
  · have log : mantissa.log2 + 1 ≠ Format.binary64.mantissaBits := by
      have less : mantissa.log2 < 52 := (Nat.log2_lt (by omega)).mpr (by omega)
      show _ ≠ 53
      omega
    rw [if_neg log]
    refine (unpack_packComponents positive 0 (by omega) bounded
      (by rw [if_pos rfl]; omega)).trans ?_
    congr 1
    omega

/-- A finite number is what packing its parts gives. -/
theorem ofModel_pack_eq (unpacked : x.toModel.unpack = .finite sign mantissa exponent positive) :
    Float.ofModel (.pack (.finite sign mantissa exponent positive)) = x := by
  rw [← unpacked]
  exact Float.ofBits_toBits x

/-- Changing the sign of a finite number changes the sign alone. -/
theorem neg_eq_of_unpack (one : x.toModel.unpack = .finite sign mantissa exponent positive)
    (two : y.toModel.unpack = .finite (-sign) mantissa exponent positive) : -x = y := by
  show Float.ofModel (.pack x.toModel.unpack.neg) = y
  rw [one]
  exact ofModel_pack_eq two

/-! ## Rounding -/

/-- Shifting out zeros loses nothing. -/
theorem ofMantissa_shiftRight (mantissa shift : Nat) :
    ExtendedMantissa.ofMantissaAndAccuracy (mantissa * 2 ^ shift) .exact >>> shift =
      ⟨mantissa, false, false⟩ := by
  induction shift generalizing mantissa with
  | zero =>
    rw [Nat.pow_zero, Nat.mul_one]
    rfl
  | succ shift ih =>
    show ExtendedMantissa.shiftRightOne (ExtendedMantissa.ofMantissaAndAccuracy _ .exact >>> shift) = _
    rw [Nat.pow_succ, Nat.mul_comm (2 ^ shift), ← Nat.mul_assoc, ih]
    simp [ExtendedMantissa.shiftRightOne]

theorem log2_mul_two_pow (nonzero : 0 < mantissa) (shift : Nat) :
    (mantissa * 2 ^ shift).log2 = mantissa.log2 + shift := by
  have bounds := (Nat.log2_eq_iff nonzero.ne').mp rfl
  refine (Nat.log2_eq_iff (Nat.mul_pos nonzero (Nat.two_pow_pos shift)).ne').mpr ⟨?_, ?_⟩
  · rw [Nat.pow_add]
    exact Nat.mul_le_mul_right _ bounds.1
  · rw [Nat.add_right_comm, Nat.pow_add]
    exact Nat.mul_lt_mul_of_pos_right bounds.2 (Nat.two_pow_pos shift)

theorem targetExponent_eq (total : Int) :
    Format.binary64.targetExponent total = max (total - 53) (-1074) := rfl

/-- The exponent of a number is the one that it is rounded to. -/
theorem Canonical.targetExponent (canonical : Canonical mantissa exponent) :
    Format.binary64.targetExponent (mantissa.log2 + 1 + exponent) = exponent := by
  obtain ⟨positive, bounded, lowest, -, leading⟩ := canonical
  have less : mantissa.log2 < 53 := (Nat.log2_lt positive.ne').mpr bounded
  have full : exponent = -1074 ∨ 52 ≤ mantissa.log2 :=
    leading.imp id (Nat.le_log2 positive.ne').mpr
  rw [targetExponent_eq]
  omega

/-- Rounding a value that is a number gives that number, from any exponent that is not above. -/
theorem roundWithAccuracy_of_canonical (canonical : Canonical mantissa exponent) (sign : Sign)
    {lower : Int} (below : lower ≤ exponent) :
    roundWithAccuracy .binary64 sign (mantissa * 2 ^ (exponent - lower).toNat) lower .exact =
      .finite sign mantissa exponent canonical.positive := by
  have shifted : ∀ lower ≤ exponent, shiftToTargetExponent .binary64
      (mantissa * 2 ^ (exponent - lower).toNat) lower .exact = (⟨mantissa, false, false⟩, exponent) := by
    intro lower below
    have total : totalExponent (mantissa * 2 ^ (exponent - lower).toNat) lower =
        mantissa.log2 + 1 + exponent := by
      rw [totalExponent, log2_mul_two_pow canonical.positive]
      omega
    rw [shiftToTargetExponent, total, canonical.targetExponent, shiftToExponent,
      ofMantissa_shiftRight, Int.toNat_of_nonneg (Int.sub_nonneg.mpr below), add_sub_cancel]
  -- nothing was rounded, so the second shift finds the number in place
  have settled := shifted exponent (le_refl exponent)
  rw [sub_self, Int.toNat_zero, Nat.pow_zero, Nat.mul_one] at settled
  unfold roundWithAccuracy
  rw [shifted lower below]
  show (match shiftToTargetExponent .binary64 mantissa exponent .exact with
    | (extended, final) => if h : extended.mantissa = 0 then UnpackedFloat.zero sign
      else .finite sign extended.mantissa final (Nat.pos_of_ne_zero h)) = _
  rw [settled]
  exact dif_neg canonical.positive.ne'

/-! ## Exact values -/

/-- The exact value of a binary number. -/
def Binary.toRat (value : Binary) : ℚ :=
  (if value.negative then -1 else 1) * (value.mantissa * 2 ^ value.exponent)

/-- The exact value of a decimal. -/
def Decimal.toRat (decimal : Decimal) : ℚ := decimal.digits / 10 ^ decimal.places

section Decimal

variable {decimal : Decimal} (canonical : Canonical mantissa exponent)
  (same : decimal.toRat = mantissa * 2 ^ exponent)

include same

/-- A decimal and a number of one value, with all denominators cleared. -/
theorem Decimal.digits_mul_two_pow {lower : Int} (below : lower ≤ exponent) (fraction : lower ≤ 0) :
    decimal.digits * 2 ^ (-lower).toNat =
      mantissa * 2 ^ (exponent - lower).toNat * 10 ^ decimal.places := by
  have cleared : (decimal.digits : ℚ) = mantissa * 2 ^ exponent * 10 ^ decimal.places :=
    (div_eq_iff (by positivity)).mp same
  have power : (2 : ℚ) ^ exponent * 2 ^ (-lower).toNat = 2 ^ (exponent - lower).toNat := by
    rw [← zpow_natCast, ← zpow_natCast, ← zpow_add₀ two_ne_zero]
    congr 1
    omega
  have scaled : (decimal.digits : ℚ) * 2 ^ (-lower).toNat =
      mantissa * 2 ^ (exponent - lower).toNat * 10 ^ decimal.places := by
    rw [cleared, ← power]
    ring
  exact_mod_cast scaled

include canonical

theorem Decimal.digits_pos : 0 < decimal.digits := by
  have scaled := digits_mul_two_pow same (min_le_left exponent 0) (min_le_right exponent 0)
  have positive : 0 < decimal.digits * 2 ^ (-min exponent 0).toNat := by
    rw [scaled]
    exact Nat.mul_pos (Nat.mul_pos canonical.positive (Nat.two_pow_pos _)) (Nat.pow_pos (by omega))
  exact Nat.pos_of_mul_pos_right positive

/-- A decimal has hardly more places than its value has digits in base two. -/
theorem Decimal.places_le : decimal.places ≤ decimal.digits.log2 + 1074 := by
  have positive := digits_pos canonical same
  have scaled := digits_mul_two_pow same (min_le_left exponent 0) (min_le_right exponent 0)
  have reached : decimal.places ≤ (decimal.digits * 2 ^ (-min exponent 0).toNat).log2 := by
    rw [Nat.le_log2 (Nat.mul_pos positive (Nat.two_pow_pos _)).ne', scaled]
    calc 2 ^ decimal.places ≤ 10 ^ decimal.places := Nat.pow_le_pow_left (by omega) _
      _ ≤ _ := Nat.le_mul_of_pos_left _ (Nat.mul_pos canonical.positive (Nat.two_pow_pos _))
  rw [log2_mul_two_pow positive] at reached
  have := canonical.lowest
  omega

/-- The digits and the power of ten are no further apart than the number is from one. -/
theorem Decimal.log2_sub_le :
    (decimal.digits.log2 : Int) - (10 ^ decimal.places : Nat).log2 ≤ mantissa.log2 + 1 + exponent := by
  have positive := digits_pos canonical same
  have scaled := digits_mul_two_pow same (min_le_left exponent 0) (min_le_right exponent 0)
  have upperMantissa := (Nat.log2_lt canonical.positive.ne').mp (Nat.lt_succ_self mantissa.log2)
  have upperPower := (Nat.log2_lt (Nat.pow_pos (by omega : 0 < 10)).ne').mp
    (Nat.lt_succ_self (10 ^ decimal.places).log2)
  have total : (decimal.digits * 2 ^ (-min exponent 0).toNat).log2 < mantissa.log2 + 1 +
      (exponent - min exponent 0).toNat + ((10 ^ decimal.places).log2 + 1) := by
    rw [Nat.log2_lt (Nat.mul_pos positive (Nat.two_pow_pos _)).ne', scaled, Nat.pow_add, Nat.pow_add]
    exact Nat.mul_lt_mul'' (Nat.mul_lt_mul_of_pos_right upperMantissa (Nat.two_pow_pos _)) upperPower
  rw [log2_mul_two_pow positive] at total
  omega

/-- The digits of a whole number are scaled down far enough before they are rounded. -/
theorem Decimal.neg_le_exponent (none : decimal.places = 0) : -53 ≤ exponent := by
  have positive := digits_pos canonical same
  have bounded := canonical.bounded
  have scaled := digits_mul_two_pow same (min_le_left exponent 0) (min_le_right exponent 0)
  by_contra below
  have steep : 2 ^ 53 ≤ 2 ^ (-min exponent 0).toNat := Nat.pow_le_pow_right (by omega) (by omega)
  have large : 2 ^ (-min exponent 0).toNat ≤ decimal.digits * 2 ^ (-min exponent 0).toNat :=
    Nat.le_mul_of_pos_left _ positive
  rw [scaled, none, show (exponent - min exponent 0).toNat = 0 by omega] at large
  omega

/-- Dividing the digits by the power of ten leaves no rest, at an exponent that is not above that of
the number. -/
theorem Decimal.divCore_eq : ∃ lower ≤ exponent,
    divCore .binary64 decimal.digits 0 (10 ^ decimal.places) 0 =
      (mantissa * 2 ^ (exponent - lower).toNat, lower, .exact) := by
  have target : Format.binary64.targetExponent (totalExponent decimal.digits 0 -
      totalExponent (10 ^ decimal.places) 0) ≤ exponent := by
    have log := log2_sub_le canonical same
    have own := canonical.targetExponent
    rw [targetExponent_eq] at own ⊢
    unfold totalExponent
    omega
  refine ⟨_, (min_le_right 0 _).trans target, ?_⟩
  have scaled := digits_mul_two_pow same ((min_le_right 0 _).trans target) (min_le_left 0 _)
  unfold divCore
  dsimp only
  rw [sub_self, zero_sub, Nat.shiftLeft_eq, scaled, Nat.mul_div_cancel _ (Nat.pow_pos (by omega)),
    Nat.mul_mod_left]
  rfl

/-- A decimal whose value is that of a number is rounded to that number. -/
theorem Decimal.ofScientific_eq :
    UnpackedFloat.ofScientific .binary64 decimal.digits (-decimal.places) =
      .finite .positive mantissa exponent canonical.positive := by
  have positive := digits_pos canonical same
  have places := places_le canonical same
  unfold UnpackedFloat.ofScientific
  rw [dif_neg positive.ne', if_neg (by show ¬_ > (2 ^ 11 : Int); omega),
    if_neg (by show ¬_ < -((2 ^ 11 : Int) + _); omega)]
  by_cases none : decimal.places = 0
  · rw [if_pos (by omega)]
    have below := neg_le_exponent canonical same none
    have scaled := digits_mul_two_pow same below (by omega)
    have written : decimal.digits <<< 53 * 10 ^ (-(decimal.places : Int)).toNat =
        mantissa * 2 ^ (exponent - -53).toNat := by
      rw [none, Nat.pow_zero, Nat.mul_one] at scaled
      rw [none, Nat.shiftLeft_eq, ← scaled]
      exact Nat.mul_one _
    show roundWithAccuracy _ _ (_ <<< 53 * 10 ^ (-(decimal.places : Int)).toNat) (-53 + 0) _ = _
    rw [written]
    exact roundWithAccuracy_of_canonical canonical _ below
  · rw [if_neg (by omega)]
    obtain ⟨lower, below, divided⟩ := divCore_eq canonical same
    show (match divCore .binary64 decimal.digits 0 (10 ^ (- -(decimal.places : Int)).toNat) 0 with
      | (m, e, accuracy) => roundWithAccuracy .binary64 .positive m e accuracy) = _
    rw [neg_neg, Int.toNat_natCast, divided]
    exact roundWithAccuracy_of_canonical canonical _ below

end Decimal

/-- A decimal whose value is that of a nonnegative number is read as that number. -/
theorem Decimal.toFloat_of_toRat {decimal : Decimal}
    (unpacked : x.toModel.unpack = .finite .positive mantissa exponent positive)
    (same : decimal.toRat = mantissa * 2 ^ exponent) : decimal.toFloat = x := by
  have canonical := (place_of_unpack unpacked).1
  show Float.ofModel (.pack (UnpackedFloat.ofScientific .binary64 _ _)) = x
  rw [ofScientific_eq canonical same]
  exact ofModel_pack_eq unpacked

end StreamPath.Number
