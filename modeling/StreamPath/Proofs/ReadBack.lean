import Mathlib
import StreamPath.Proofs.ExactRounding
import StreamPath.Proofs.Numerals

/-!
# What is written reads back

A finite number is written as a decimal that is read as the same number: either one that was found to
read back, or the exact decimal, which every number has. Reading the text gives the decimal again,
digit for digit.

* `Number.Decimal.ofChars?_text` — a decimal is read back from its text;
* `Number.exists_decimal` — the text of a number is that of a decimal which is read as it;
* `Number.parse_format`, `Number.format_eq_format_iff` — so writing and reading lose nothing;
* `Number.format_of_toRat` — integers within the limit, written out exactly;
* `Number.format_lossless` — what writing and reading come to.
-/

namespace StreamPath.Number

open Float.Model Float.Model.UnpackedFloat

/-! ## Digits -/

variable {chars whole fraction : List Char}

theorem naturalOf_eq (digits : List Char) : naturalOf digits = Nat.ofDigitChars 10 digits 0 :=
  Nat.ofDigitChars_eq_foldl.symm

theorem naturalOf_digitsOf (n : Nat) : naturalOf (digitsOf n) = n := by
  rw [naturalOf_eq, digitsOf, Nat.ofDigitChars_ten_toDigits]

theorem isDigit_of_mem_digitsOf {n : Nat} : ∀ c ∈ digitsOf n, isDigit c = true := fun _ mem =>
  Nat.isDigit_of_mem_toDigits (by omega) (by omega) mem

/-- Zeros in front do not count. -/
theorem naturalOf_replicate_append (count : Nat) (digits : List Char) :
    naturalOf (List.replicate count '0' ++ digits) = naturalOf digits := by
  rw [naturalOf_eq, Nat.ofDigitChars_append, Nat.ofDigitChars_replicate_zero, Nat.mul_zero,
    naturalOf_eq]

namespace Decimal

variable (digits : ∀ c ∈ whole, isDigit c = true) (nonempty : whole ≠ [])

include digits nonempty

/-- Digits without a point are read as a whole number. -/
theorem ofChars?_whole : ofChars? whole = some ⟨naturalOf whole, 0⟩ := by
  have front : whole.takeWhile isDigit = whole := List.takeWhile_eq_self_iff.mpr digits
  have back : whole.dropWhile isDigit = [] := List.dropWhile_eq_nil_iff.mpr digits
  unfold ofChars?
  rw [front, back]
  simp [nonempty]

/-- Digits with a point among them are read as one number with places. -/
theorem ofChars?_point (further : ∀ c ∈ fraction, isDigit c = true) :
    ofChars? (whole ++ '.' :: fraction) = some ⟨naturalOf (whole ++ fraction), fraction.length⟩ := by
  have point : isDigit '.' = false := by decide
  have front : (whole ++ '.' :: fraction).takeWhile isDigit = whole := by
    rw [List.takeWhile_append_of_pos digits, List.takeWhile_cons_of_neg (by simp [point]),
      List.append_nil]
  have back : (whole ++ '.' :: fraction).dropWhile isDigit = '.' :: fraction := by
    rw [List.dropWhile_append_of_pos digits, List.dropWhile_cons_of_neg (by simp [point])]
  have all : fraction.all isDigit = true := List.all_eq_true.mpr further
  unfold ofChars?
  rw [front, back]
  simp [nonempty, all]

end Decimal

/-- A decimal is read back from its text, with as many digits and places. -/
theorem Decimal.ofChars?_text (decimal : Decimal) : ofChars? decimal.text = some decimal := by
  obtain ⟨digits, places⟩ := decimal
  have nonempty : digitsOf digits ≠ [] := Nat.toDigits_ne_nil
  unfold text
  by_cases none : places = 0
  · rw [if_pos none, ofChars?_whole isDigit_of_mem_digitsOf nonempty, naturalOf_digitsOf, none]
  · rw [if_neg none]
    have padding : ∀ c ∈ padded ⟨digits, places⟩, isDigit c = true := by
      intro c mem
      rcases List.mem_append.mp mem with zero | digit
      · rw [List.eq_of_mem_replicate zero]
        decide
      · exact isDigit_of_mem_digitsOf c digit
    have enough : places < (padded ⟨digits, places⟩).length := by
      simp only [padded, List.length_append, List.length_replicate]
      omega
    dsimp only
    rw [ofChars?_point (fun c mem => padding c (List.mem_of_mem_take mem)) ?_
      fun c mem => padding c (List.mem_of_mem_drop mem)]
    · rw [List.take_append_drop, List.length_drop, padded, naturalOf_replicate_append,
        naturalOf_digitsOf]
      rw [padded] at enough
      congr 2
      omega
    · rw [Ne, List.take_eq_nil_iff]
      rintro (zero | empty)
      · omega
      · rw [empty] at enough
        simp at enough

example : (⟨5, 3⟩ : Decimal).text = "0.005".toList ∧
    Decimal.ofChars? "0.005".toList = some ⟨5, 3⟩ := by decide

/-! ## Exact decimals -/

/-- The magnitude is the fraction of numerator and denominator. -/
theorem Binary.magnitude_eq (value : Binary) :
    (value.numerator : ℚ) / value.denominator = value.mantissa * 2 ^ value.exponent := by
  have power : (2 : ℚ) ^ value.exponent =
      2 ^ value.exponent.toNat / 2 ^ (-value.exponent).toNat := by
    rw [← zpow_natCast, ← zpow_natCast, ← zpow_sub₀ two_ne_zero]
    congr 1
    omega
  rw [numerator, denominator, power, Nat.pow_eq, Nat.pow_eq]
  push_cast
  ring

/-- Every binary number is a decimal. -/
theorem Binary.toRat_toDecimal (value : Binary) :
    value.toDecimal.toRat = value.mantissa * 2 ^ value.exponent := by
  rw [← magnitude_eq, denominator, toDecimal, Decimal.toRat, Nat.pow_eq, Nat.pow_eq]
  push_cast
  rw [show (10 : ℚ) = 2 * 5 by norm_num, mul_pow]
  field_simp

/-- An integer is the decimal without places. -/
theorem Binary.toRat_whole {value : Binary} (integral : value.hasFraction = false) :
    (⟨value.whole, 0⟩ : Decimal).toRat = value.mantissa * 2 ^ value.exponent := by
  have divides : value.denominator ∣ value.numerator := by
    rw [hasFraction, bne_eq_false_iff_eq] at integral
    exact Nat.dvd_of_mod_eq_zero integral
  rw [← magnitude_eq, Decimal.toRat, whole, pow_zero, div_one, Nat.cast_div divides]
  exact_mod_cast (Nat.two_pow_pos _).ne'

/-! ## Writing -/

section Nonzero

variable {x : Float} {sign : Sign} {mantissa : Nat} {exponent : Int} {positive : 0 < mantissa}
  (unpacked : x.toModel.unpack = .finite sign mantissa exponent positive)

theorem signOf_isMinus (sign : Sign) : signOf (isMinus sign) = sign := by
  cases sign <;> rfl

include unpacked

theorem toBinary?_of_unpack : toBinary? x = some ⟨isMinus sign, mantissa, exponent⟩ := by
  rw [toBinary?, unpacked]

theorem unpack_magnitude :
    (Float.ofModel (.pack (.finite .positive mantissa exponent positive))).toModel.unpack =
      .finite .positive mantissa exponent positive :=
  unpack_pack (place_of_unpack unpacked).1

/-- The magnitude of a finite number is a number, which needs no rounding. -/
theorem toFloat_magnitude : Binary.toFloat ⟨false, mantissa, exponent⟩ =
    .ofModel (.pack (.finite .positive mantissa exponent positive)) := by
  have canonical := (place_of_unpack unpacked).1
  have same : UnpackedFloat.round .binary64 .positive mantissa exponent =
      .finite .positive mantissa exponent positive := by
    have rounded := roundWithAccuracy_of_canonical canonical .positive (le_refl exponent)
    rw [sub_self, Int.toNat_zero, Nat.pow_zero, Nat.mul_one] at rounded
    have kept : decreaseExponent mantissa exponent exponent = (mantissa, exponent) := by
      simp [decreaseExponent]
    unfold UnpackedFloat.round
    dsimp only
    rw [totalExponent, canonical.targetExponent, kept]
    exact rounded
  rw [Binary.toFloat]
  exact congrArg (fun unpacked => Float.ofModel (.pack unpacked)) same

/-- The text of a number is that of a decimal which is read as its magnitude. -/
theorem exists_decimal : ∃ decimal : Decimal,
    magnitudeText ⟨isMinus sign, mantissa, exponent⟩ = decimal.text ∧
    decimal.toFloat = .ofModel (.pack (.finite .positive mantissa exponent positive)) := by
  have exact : ∀ decimal : Decimal, decimal.toRat = mantissa * 2 ^ exponent →
      decimal.toFloat = .ofModel (.pack (.finite .positive mantissa exponent positive)) :=
    fun decimal same => Decimal.toFloat_of_toRat (unpack_magnitude unpacked) same
  unfold magnitudeText
  split
  · next short =>
    rw [Bool.and_eq_true, Bool.not_eq_true'] at short
    exact ⟨⟨_, 0⟩, (if_pos rfl).symm, exact _ (Binary.toRat_whole short.1)⟩
  · refine ⟨_, rfl, ?_⟩
    dsimp only
    rw [toFloat_magnitude unpacked]
    rcases shortest_reads_back_or_exact (.ofModel (.pack (.finite .positive mantissa exponent
      positive))) ⟨isMinus sign, mantissa, exponent⟩ with readsBack | isExact
    · exact readsBack
    · rw [isExact]
      exact exact _ (Binary.toRat_toDecimal _)

end Nonzero

/-! ## Reading what is written -/

/-- A numeral has no blanks to be trimmed of. -/
theorem parse_of_numeral (numeral : Numeral chars) :
    parse (String.ofList chars) = (ofNumeral? chars).getD nan := by
  have trimmed := @Text.trim_of_blank [] chars [] nofun nofun (not_isBlank_of_numeral numeral)
  rw [List.nil_append, List.append_nil] at trimmed
  rw [parse, String.toList_ofList, trimmed]

section Written

variable (decimal : Decimal)

theorem plain_text : Plain decimal.text :=
  isSome_ofChars?_iff.mp (by rw [Decimal.ofChars?_text]; rfl)

theorem parse_text : parse (String.ofList decimal.text) = decimal.toFloat := by
  have plain := plain_text decimal
  rw [parse_of_numeral (.unsigned plain)]
  unfold ofNumeral?
  split
  · next minus =>
    rw [minus] at plain
    exact absurd plain not_plain_minus
  · rw [Decimal.ofChars?_text]
    rfl

theorem parse_minus_text : parse (String.ofList ('-' :: decimal.text)) = -decimal.toFloat := by
  rw [parse_of_numeral (.negative (plain_text decimal)), ofNumeral?, Decimal.ofChars?_text]
  rfl

end Written

variable {x y : Float}

/-- A finite number is a zero, or its mantissa is none. -/
theorem unpack_of_isFinite (finite : x.isFinite = true) :
    (∃ sign, x.toModel.unpack = .zero sign) ∨
      ∃ sign mantissa exponent positive, x.toModel.unpack = .finite sign mantissa exponent positive := by
  change x.toModel.unpack.isFinite = true at finite
  cases unpacked : x.toModel.unpack with
  | notANumber | infinity =>
    rw [unpacked] at finite
    cases finite
  | zero sign => exact .inl ⟨sign, rfl⟩
  | finite sign mantissa exponent positive => exact .inr ⟨sign, mantissa, exponent, positive, rfl⟩

theorem isNaN_of_isFinite (finite : x.isFinite = true) : x.isNaN = false := by
  change x.toModel.unpack.isNaN = false
  rcases unpack_of_isFinite finite with ⟨sign, unpacked⟩ | ⟨sign, mantissa, exponent, positive, unpacked⟩ <;>
  · rw [unpacked]
    rfl

/-- A finite number that stands at zero is a zero. -/
theorem unpack_zero_iff (finite : x.isFinite = true) :
    (∃ sign, x.toModel.unpack = .zero sign) ↔ place x = 0 := by
  constructor
  · rintro ⟨sign, unpacked⟩
    have stands : StandsAt x.toModel.unpack (place x) :=
      standsAt_unpack x.toBits.toBitVec (isNaN_of_isFinite finite)
    rw [unpacked] at stands
    generalize place x = there at stands
    cases stands
    rfl
  · intro zero
    rcases unpack_of_isFinite finite with isZero | ⟨_, _, _, _, unpacked⟩
    · exact isZero
    · exact absurd zero (place_ne_zero unpacked)

theorem place_zero : place 0 = 0 := by decide +kernel

theorem beq_zero_iff (finite : x.isFinite = true) : (x == 0) = true ↔ place x = 0 := by
  rw [beq_iff_place_eq (isNaN_of_isFinite finite) (by decide +kernel), place_zero]

/-- Zero is written without a sign. -/
theorem format_of_place_zero (finite : x.isFinite = true) (zero : place x = 0) : format x = "0" := by
  obtain ⟨sign, unpacked⟩ := (unpack_zero_iff finite).mpr zero
  rw [format, toBinary?, unpacked]
  rfl

/-- What is written reads back, but for the sign of zero. -/
theorem parse_format (finite : x.isFinite = true) : parse (format x) = if x == 0 then 0 else x := by
  by_cases zero : place x = 0
  · rw [if_pos ((beq_zero_iff finite).mpr zero), format_of_place_zero finite zero]
    decide +kernel
  rw [if_neg (mt (beq_zero_iff finite).mp zero)]
  rcases unpack_of_isFinite finite with isZero | ⟨sign, mantissa, exponent, positive, unpacked⟩
  · exact absurd ((unpack_zero_iff finite).mp isZero) zero
  obtain ⟨decimal, written, read⟩ := exists_decimal unpacked
  rw [format, toBinary?_of_unpack unpacked]
  dsimp only
  rw [if_neg positive.ne', written]
  cases sign with
  | positive =>
    rw [if_neg (by decide), parse_text, read]
    exact ofModel_pack_eq unpacked
  | negative =>
    rw [if_pos (by decide), parse_minus_text, read]
    exact neg_eq_of_unpack (unpack_magnitude unpacked) unpacked

/-- Two finite numbers have one text if they are equal, and only then. -/
theorem format_eq_format_iff (finite : x.isFinite = true) (alsoFinite : y.isFinite = true) :
    format x = format y ↔ (x == y) = true := by
  have kept : ∀ {z : Float}, z.isFinite = true → place (if z == 0 then 0 else z) = place z := by
    intro z finite
    split
    · next zero => rw [(beq_zero_iff finite).mp zero, place_zero]
    · rfl
  rw [beq_iff_place_eq (isNaN_of_isFinite finite) (isNaN_of_isFinite alsoFinite)]
  constructor
  · intro same
    have read := congrArg (fun text => place (parse text)) same
    rwa [parse_format finite, parse_format alsoFinite, kept finite, kept alsoFinite] at read
  · intro same
    by_cases zero : place x = 0
    · rw [format_of_place_zero finite zero, format_of_place_zero alsoFinite (same ▸ zero)]
    · rw [eq_of_place same zero]

/-! ## Integers -/

/-- The text of an integer. -/
theorem toString_eq (n : Int) : toString n =
    String.ofList (if n < 0 then '-' :: digitsOf n.natAbs else digitsOf n.natAbs) := by
  rw [Int.toString_eq_repr]
  cases n with
  | ofNat k =>
    have nonneg : ¬Int.ofNat k < 0 := Int.not_lt.mpr (Int.natCast_nonneg k)
    rw [if_neg nonneg]
    exact Nat.repr_eq_ofList_toDigits
  | negSucc k =>
    rw [if_pos (Int.negSucc_lt_zero k), String.ofList_cons]
    show "-" ++ (k + 1).repr = _
    rw [Nat.repr_eq_ofList_toDigits]
    rfl

section Integral

variable {negative : Bool} {mantissa : Nat} {exponent : Int} {n : Int}
  (integral : Binary.toRat ⟨negative, mantissa, exponent⟩ = n)

include integral

/-- The magnitude and the sign of a binary number whose value is an integer. -/
theorem magnitude_of_toRat : (mantissa * 2 ^ exponent : ℚ) = n.natAbs ∧
    n = (signOf negative).apply n.natAbs := by
  have nonneg : (0 : ℚ) ≤ mantissa * 2 ^ exponent := by positivity
  unfold Binary.toRat at integral
  cases negative with
  | false =>
    simp only [Bool.false_eq_true, if_false, one_mul] at integral
    rw [integral] at nonneg ⊢
    have sign : n = (n.natAbs : Int) := (Int.natAbs_of_nonneg (by exact_mod_cast nonneg)).symm
    exact ⟨by rw [← Int.cast_natCast, ← sign], sign⟩
  | true =>
    simp only [if_true, neg_mul, one_mul] at integral
    rw [neg_eq_iff_eq_neg.mp integral] at nonneg ⊢
    have sign : n = -(n.natAbs : Int) := by
      have below : n ≤ 0 := by exact_mod_cast neg_nonneg.mp nonneg
      omega
    exact ⟨by rw [← Int.cast_natCast, ← Int.cast_neg, ← neg_eq_iff_eq_neg.mpr sign], sign⟩

/-- The numerator is the integer, with the denominator cleared. -/
theorem numerator_of_toRat : mantissa * 2 ^ exponent.toNat = n.natAbs * 2 ^ (-exponent).toNat := by
  have fraction := Binary.magnitude_eq ⟨negative, mantissa, exponent⟩
  rw [(magnitude_of_toRat integral).1] at fraction
  have cleared := (div_eq_iff (by exact_mod_cast (Nat.two_pow_pos _).ne')).mp fraction
  exact_mod_cast cleared

/-- Cutting an integer to an integer loses nothing. -/
theorem roundToInt_of_toRat : roundToInt (signOf negative) mantissa exponent = n := by
  have shifted : ExtendedMantissa.ofMantissaAndAccuracy (mantissa <<< (exponent - 0).toNat) .exact >>>
      (0 - (exponent - ((exponent - 0).toNat : Int))).toNat = ⟨n.natAbs, false, false⟩ := by
    rw [sub_zero, Nat.shiftLeft_eq, numerator_of_toRat integral,
      show (0 - (exponent - (exponent.toNat : Int))).toNat = (-exponent).toNat by omega,
      ofMantissa_shiftRight]
  show (signOf negative).apply ((ExtendedMantissa.ofMantissaAndAccuracy
    (mantissa <<< (exponent - 0).toNat) .exact >>>
      (0 - (exponent - ((exponent - 0).toNat : Int))).toNat).mantissa) = n
  rw [shifted]
  exact (magnitude_of_toRat integral).2.symm

theorem whole_of_toRat : Binary.whole ⟨negative, mantissa, exponent⟩ = n.natAbs ∧
    Binary.hasFraction ⟨negative, mantissa, exponent⟩ = false := by
  have positive : 0 < Binary.denominator ⟨negative, mantissa, exponent⟩ := Nat.two_pow_pos _
  have numerator : Binary.numerator ⟨negative, mantissa, exponent⟩ =
      n.natAbs * Binary.denominator ⟨negative, mantissa, exponent⟩ := numerator_of_toRat integral
  rw [Binary.whole, Binary.hasFraction, numerator, Nat.mul_div_cancel _ positive, Nat.mul_mod_left]
  exact ⟨rfl, rfl⟩

/-- Integers below the limit are written as what they are. -/
theorem magnitudeText_of_toRat (within : n.natAbs < integerLimit) :
    magnitudeText ⟨negative, mantissa, exponent⟩ = digitsOf n.natAbs := by
  obtain ⟨whole, fraction⟩ := whole_of_toRat integral
  rw [magnitudeText, whole, fraction, if_pos (by simpa using within)]

end Integral

/-- An integer below the limit is converted to sixty-four bits exactly, and its text is that of the
integer. -/
theorem format_of_toRat {value : Binary} {n : Int} (found : toBinary? x = some value)
    (integral : value.toRat = n) (within : n.natAbs < 10 ^ 18) :
    x.toModel.toInt64.toInt = n ∧ format x = toString n := by
  have fits : ∀ m : Int, m = n → (Int64.ofIntClamp m).toInt = n := by
    rintro m rfl
    refine Int64.toInt_ofIntClamp ?_ ?_
    · show (-2 ^ 63 : Int) ≤ m
      omega
    · show m ≤ (2 ^ 63 - 1 : Int)
      omega
  unfold toBinary? at found
  split at found
  · next sign mantissa exponent positive unpacked =>
    cases found
    have cut := roundToInt_of_toRat integral
    rw [signOf_isMinus] at cut
    constructor
    · show (Int64.ofIntClamp (UnpackedFloat.toInt _ _ x.toModel.unpack)).toInt = n
      rw [unpacked]
      exact fits _ cut
    · have signed := (magnitude_of_toRat integral).2
      have scaled := numerator_of_toRat integral
      have nonzero : n.natAbs ≠ 0 := fun zero => by
        rw [zero, Nat.zero_mul] at scaled
        exact (Nat.mul_pos positive (Nat.two_pow_pos _)).ne' scaled
      rw [format, toBinary?_of_unpack unpacked, toString_eq]
      dsimp only
      rw [if_neg positive.ne', magnitudeText_of_toRat integral within]
      cases sign with
      | positive =>
        rw [if_neg (by decide), if_neg (by rw [signed]; exact Int.not_lt.mpr (Int.natCast_nonneg _))]
      | negative =>
        have below : n < 0 := by
          rw [signed]
          show -(n.natAbs : Int) < 0
          omega
        rw [if_pos (by decide), if_pos below]
  · next sign unpacked =>
    cases found
    obtain rfl : n = 0 := by
      have zero : ((0 : Nat) : ℚ) * 2 ^ (0 : Int) = n.natAbs := (magnitude_of_toRat integral).1
      rw [Nat.cast_zero, zero_mul] at zero
      exact Int.natAbs_eq_zero.mp (by exact_mod_cast zero.symm)
    constructor
    · show (Int64.ofIntClamp (UnpackedFloat.toInt _ _ x.toModel.unpack)).toInt = 0
      rw [unpacked]
      exact fits 0 rfl
    · rw [format, toBinary?, unpacked]
      rfl
  · cases found
  · cases found

/-- Writing a finite number loses nothing. Its text is read as the number again, and both zeros as the
positive one, so that two finite numbers have one text only if they are equal. An integer below the
limit is converted to sixty-four bits exactly, and its text is that of the integer. -/
theorem format_lossless :
    (∀ x : Float, x.isFinite = true → parse (format x) = if x == 0 then 0 else x) ∧
    (∀ x y : Float, x.isFinite = true → y.isFinite = true →
      (format x = format y ↔ (x == y) = true)) ∧
    ∀ (x : Float) (value : Binary) (n : Int), toBinary? x = some value → value.toRat = n →
      n.natAbs < 10 ^ 18 → x.toModel.toInt64.toInt = n ∧ format x = toString n :=
  ⟨fun _ => parse_format, fun _ _ => format_eq_format_iff, fun _ _ _ => format_of_toRat⟩

/-- The least positive number, and the integer farthest below zero within the limit. -/
theorem format_lossless_extremes :
    let least := Float.ofBits 1
    let large : Float := -999999999999999872
    let value : Binary := ⟨true, 7812499999999999, 7⟩
    least.isFinite = true ∧ large.isFinite = true ∧ toBinary? large = some value ∧
      value.toRat = (-999999999999999872 : Int) ∧ (-999999999999999872 : Int).natAbs < 10 ^ 18 ∧
      parse (format least) = least ∧ format least ≠ format large ∧
      large.toModel.toInt64.toInt = -999999999999999872 ∧ format large = "-999999999999999872" := by
  intro least large value
  have finite : least.isFinite = true := by decide +kernel
  have alsoFinite : large.isFinite = true := by decide +kernel
  have found : toBinary? large = some value := by decide +kernel
  have integral : value.toRat = (-999999999999999872 : Int) := by
    norm_num [value, Binary.toRat]
  have within : (-999999999999999872 : Int).natAbs < 10 ^ 18 := by decide
  obtain ⟨readsBack, injective, integers⟩ := format_lossless
  exact ⟨finite, alsoFinite, found, integral, within,
    (readsBack least finite).trans (if_neg (by decide +kernel)),
    mt (injective least large finite alsoFinite).mp (by decide +kernel),
    integers large value _ found integral within⟩

end StreamPath.Number
