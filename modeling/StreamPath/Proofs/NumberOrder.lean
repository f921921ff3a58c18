import Mathlib
import StreamPath.Number.Priority

/-!
# Two orders of numbers

Numbers are compared by value, where both zeros are equal, and priorities are ranked by `orderKey`,
which tells the zeros apart. Both go back to the place that the bit pattern gives a number: without
its sign bit the pattern counts the magnitudes from zero on, and the sign mirrors them.

* `Number.place` — that place, zero for both zeros;
* `Number.compare_eq` — comparing by value is comparing places;
* `Priority.orderKey_inj` — no two priorities are ranked alike;
* `Priority.orderKey_lt_of_lt` — a smaller number is ranked below;
* `Priority.orderKey_eq_of_beq` — equal numbers are ranked alike, unless they are the two zeros;
* `Priority.orderKey_lt_of_isNaN` — what is no number is ranked outside all numbers, on the side that
  its sign says.
-/

namespace StreamPath

open Float.Model Float.Model.UnpackedFloat

namespace Number

/-- Where a bit pattern stands on the line of all numbers, counted from zero. -/
def placeOfBits (bits : Nat) : Int := if bits < 2 ^ 63 then bits else (2 : Int) ^ 63 - bits

def place (x : Float) : Int := placeOfBits x.toBits.toNat

/-! ## Places of unpacked numbers -/

/-- An unpacked number stands at a place. The magnitudes of one exponent are consecutive. All but the
lowest exponent have those with the leading bit only. -/
inductive StandsAt : UnpackedFloat → Int → Prop
  | zero (sign : Sign) : StandsAt (.zero sign) 0
  | finite (sign : Sign) (mantissa exponent : Nat) (positive : 0 < mantissa)
    (bounded : mantissa < 2 ^ 53) (leading : exponent = 0 ∨ 2 ^ 52 ≤ mantissa)
    (finite : exponent ≤ 2045) :
    StandsAt (.finite sign mantissa ((exponent : Int) - 1074) positive)
      (sign.apply (exponent * 2 ^ 52 + mantissa))
  | infinity (sign : Sign) : StandsAt (.infinity sign) (sign.apply (2047 * 2 ^ 52))

/-- Magnitudes are ordered by exponent first. -/
theorem compare_magnitudes {m n e f : Nat} (boundedM : m < 2 ^ 53) (boundedN : n < 2 ^ 53)
    (leadingM : e = 0 ∨ 2 ^ 52 ≤ m) (leadingN : f = 0 ∨ 2 ^ 52 ≤ n) :
    (compare ((e : Int) - 1074) ((f : Int) - 1074)).then (compare m n) =
      compare ((e : Int) * 2 ^ 52 + m) ((f : Int) * 2 ^ 52 + n) := by
  rcases Nat.lt_trichotomy e f with less | rfl | more
  · rw [Int.compare_eq_lt.mpr (show (e : Int) - 1074 < f - 1074 by omega),
      Int.compare_eq_lt.mpr (show (e : Int) * 2 ^ 52 + m < f * 2 ^ 52 + n by omega)]
    rfl
  · rw [Int.compare_eq_eq.mpr rfl, Ordering.eq_then]
    rcases Nat.lt_trichotomy m n with less | rfl | more
    · rw [Nat.compare_eq_lt.mpr less, Int.compare_eq_lt.mpr (by omega)]
    · rw [Nat.compare_eq_eq.mpr rfl, Int.compare_eq_eq.mpr rfl]
    · rw [Nat.compare_eq_gt.mpr more, Int.compare_eq_gt.mpr (by omega)]
  · rw [Int.compare_eq_gt.mpr (show (f : Int) - 1074 < e - 1074 by omega),
      Int.compare_eq_gt.mpr (show (f : Int) * 2 ^ 52 + n < e * 2 ^ 52 + m by omega)]
    rfl

theorem swap_compare (a b : Int) : (compare a b).swap = compare (-a) (-b) := by
  rcases Int.lt_trichotomy a b with less | rfl | more
  · rw [Int.compare_eq_lt.mpr less, Int.compare_eq_gt.mpr (by omega)]
    rfl
  · rw [Int.compare_eq_eq.mpr rfl, Int.compare_eq_eq.mpr rfl]
    rfl
  · rw [Int.compare_eq_gt.mpr more, Int.compare_eq_lt.mpr (by omega)]
    rfl

/-- Unpacked numbers compare as their places do. -/
theorem StandsAt.compare_eq {u v : UnpackedFloat} {a b : Int} (one : StandsAt u a)
    (two : StandsAt v b) : u.compare v = some (compare a b) := by
  have less : a < b → some Ordering.lt = some (compare a b) := fun lt => by
    rw [Int.compare_eq_lt.mpr lt]
  have more : b < a → some Ordering.gt = some (compare a b) := fun lt => by
    rw [Int.compare_eq_gt.mpr lt]
  cases one with
  | zero sign =>
    cases two with
    | zero other => rfl
    | finite other n f positive =>
      cases other with
      | negative => exact more (by simp only [Sign.apply]; omega)
      | positive => exact less (by simp only [Sign.apply]; omega)
    | infinity other =>
      cases other with
      | negative => exact more (by simp only [Sign.apply]; omega)
      | positive => exact less (by simp only [Sign.apply]; omega)
  | finite sign m e positiveM boundedM leadingM finiteM =>
    cases two with
    | zero other =>
      cases sign with
      | negative => exact less (by simp only [Sign.apply]; omega)
      | positive => exact more (by simp only [Sign.apply]; omega)
    | finite other n f positiveN boundedN leadingN =>
      have magnitudes := compare_magnitudes boundedM boundedN leadingM leadingN
      cases sign with
      | negative =>
        cases other with
        | negative =>
          show some (Ordering.swap _) = _
          rw [magnitudes, swap_compare]
          rfl
        | positive => exact less (by simp only [Sign.apply]; omega)
      | positive =>
        cases other with
        | negative => exact more (by simp only [Sign.apply]; omega)
        | positive => exact congrArg some magnitudes
    | infinity other =>
      cases other with
      | negative => cases sign <;> exact more (by simp only [Sign.apply]; omega)
      | positive => cases sign <;> exact less (by simp only [Sign.apply]; omega)
  | infinity sign =>
    cases two with
    | zero other =>
      cases sign with
      | negative => exact less (by simp only [Sign.apply]; omega)
      | positive => exact more (by simp only [Sign.apply]; omega)
    | finite other n f positive bounded leading finite =>
      cases sign with
      | negative => cases other <;> exact less (by simp only [Sign.apply]; omega)
      | positive => cases other <;> exact more (by simp only [Sign.apply]; omega)
    | infinity other =>
      cases sign <;> cases other <;> rfl

/-! ## Bit fields -/

section Fields

variable (bits : BitVec 64)

theorem toNat_unpackMantissa :
    (@unpackMantissa .binary64 bits).toNat = bits.toNat % 2 ^ 52 := by
  simp [unpackMantissa]

theorem toNat_unpackExponent :
    (@unpackExponent .binary64 bits).toNat = bits.toNat / 2 ^ 52 % 2 ^ 11 := by
  simp [unpackExponent, Nat.shiftRight_eq_div_pow]

theorem toNat_unpackSign : (@unpackSign .binary64 bits).toNat = bits.toNat / 2 ^ 63 := by
  have bounded : bits.toNat < 2 ^ 64 := bits.isLt
  simp only [unpackSign, BitVec.toNat_cast, BitVec.extractLsb_toNat, Nat.shiftRight_eq_div_pow]
  omega

/-- The place of a bit pattern is its magnitude with its sign. -/
theorem placeOfBits_eq :
    placeOfBits bits.toNat = (Sign.ofBitVec (@unpackSign .binary64 bits)).apply
      (bits.toNat % 2 ^ 63 : Nat) := by
  have bounded : bits.toNat < 2 ^ 64 := bits.isLt
  have sign := toNat_unpackSign bits
  unfold placeOfBits Sign.ofBitVec
  by_cases positive : bits.toNat < 2 ^ 63
  · rw [if_pos positive, if_pos (BitVec.eq_of_toNat_eq (by rw [sign]; simp; omega))]
    simp only [Sign.apply]
    omega
  · rw [if_neg positive, if_neg (fun zero => by rw [zero] at sign; simp at sign; omega)]
    simp only [Sign.apply]
    omega

/-- A bit pattern is no number exactly if its magnitude lies above that of the infinities. -/
theorem isNaNBits_iff :
    @isNaNBits .binary64 bits = true ↔ 2047 * 2 ^ 52 < bits.toNat % 2 ^ 63 := by
  have mantissa := toNat_unpackMantissa bits
  have exponent := toNat_unpackExponent bits
  have full : (-BitVec.ofNat Format.binary64.exponentBits 1).toNat = 2047 := rfl
  have none : (BitVec.ofNat Format.binary64.mantissaBitsWithoutImplicit 0).toNat = 0 := rfl
  rw [isNaNBits, decide_eq_true_eq, ← BitVec.toNat_inj, Ne, ← BitVec.toNat_inj, full, none]
  omega

/-- A mantissa with its leading bit. -/
theorem toNat_leading (mantissa : BitVec 52) :
    (1#1 ++ mantissa).toNat = 2 ^ 52 + mantissa.toNat := by
  rw [BitVec.toNat_append, ← Nat.shiftLeft_add_eq_or_of_lt mantissa.isLt]
  rfl

/-- A bit pattern that is a number unpacks to what stands at its place. -/
theorem standsAt_unpack (number : (UnpackedFloat.unpack .binary64 bits).isNaN = false) :
    StandsAt (UnpackedFloat.unpack .binary64 bits) (placeOfBits bits.toNat) := by
  have mantissa := toNat_unpackMantissa bits
  have exponent := toNat_unpackExponent bits
  have finite : ∀ (sign : Sign) (m : Nat) (e : Int) (positive : 0 < m) (step : Nat),
      e = step - 1074 → m < 2 ^ 53 → (step = 0 ∨ 2 ^ 52 ≤ m) → step ≤ 2045 →
      step * 2 ^ 52 + m = bits.toNat % 2 ^ 63 →
      StandsAt (.finite sign m e positive) (sign.apply (bits.toNat % 2 ^ 63 : Nat)) := by
    rintro sign m _ positive step rfl bounded leading small magnitude
    rw [← magnitude]
    exact .finite sign m step positive bounded leading small
  have bias : (Format.binary64.exponentBias : Int) = 1023 := rfl
  rw [placeOfBits_eq]
  unfold UnpackedFloat.unpack at number ⊢
  dsimp only at number ⊢
  by_cases full : @unpackExponent .binary64 bits = -1#11
  · rw [if_pos full] at number ⊢
    by_cases none : @unpackMantissa .binary64 bits = 0#52
    · rw [if_pos none]
      have magnitude : bits.toNat % 2 ^ 63 = 2047 * 2 ^ 52 := by
        rw [full] at exponent
        rw [none] at mantissa
        simp at exponent mantissa
        omega
      rw [magnitude]
      exact .infinity _
    · rw [if_neg none] at number
      cases number
  · rw [if_neg full]
    by_cases lowest : @unpackExponent .binary64 bits = 0#11
    · rw [if_pos lowest]
      have zero : (@unpackExponent .binary64 bits).toNat = 0 := congrArg BitVec.toNat lowest
      split
      · next none =>
        have magnitude : bits.toNat % 2 ^ 63 = 0 := by
          rw [none] at mantissa
          simp at mantissa
          omega
        rw [magnitude]
        cases Sign.ofBitVec (@unpackSign .binary64 bits) <;> exact .zero _
      · exact finite _ _ _ _ 0 (by omega) (by omega) (.inl rfl) (by omega) (by omega)
    · have above : (@unpackExponent .binary64 bits).toNat ≠ 0 := fun same =>
        lowest (BitVec.eq_of_toNat_eq same)
      have below : (@unpackExponent .binary64 bits).toNat ≠ 2047 := fun same =>
        full (BitVec.eq_of_toNat_eq same)
      have leading := toNat_leading (@unpackMantissa .binary64 bits)
      rw [if_neg lowest]
      refine finite _ _ _ _ ((@unpackExponent .binary64 bits).toNat - 1) ?_ ?_ (.inr ?_) ?_ ?_ <;>
        omega

end Fields

/-! ## Comparing -/

variable {x y : Float}

/-- Numbers compare as their places do. -/
theorem compare_eq (isNumber : x.isNaN = false) (isOther : y.isNaN = false) :
    x.toModel.compare y.toModel = some (compare (place x) (place y)) :=
  (standsAt_unpack x.toBits.toBitVec isNumber).compare_eq (standsAt_unpack y.toBits.toBitVec isOther)

theorem lt_iff_place_lt (isNumber : x.isNaN = false) (isOther : y.isNaN = false) :
    x < y ↔ place x < place y := by
  have unfolded : x < y ↔ (x.toModel.compare y.toModel == some .lt) = true := by
    show decide ((x.toModel.compare y.toModel == some .lt) = true) = true ↔ _
    exact decide_eq_true_iff
  rw [unfolded, compare_eq isNumber isOther, ← Int.compare_eq_lt]
  cases compare (place x) (place y) <;> decide

theorem beq_iff_place_eq (isNumber : x.isNaN = false) (isOther : y.isNaN = false) :
    (x == y) = true ↔ place x = place y := by
  show (x.toModel.compare y.toModel == some .eq) = true ↔ _
  rw [compare_eq isNumber isOther, ← Int.compare_eq_eq]
  cases compare (place x) (place y) <;> decide

end Number

/-! ## Ranking -/

namespace Priority

open Number

variable {p q : Priority}

theorem orderKey_eq_ite (priority : Priority) :
    priority.orderKey = if priority.bits.toNat < 2 ^ 63 then (priority.bits.toNat : Int)
      else 2 ^ 63 - 1 - priority.bits.toNat := rfl

/-- The order is total: priorities that share a place are the same pattern. -/
theorem orderKey_inj : p.orderKey = q.orderKey ↔ p = q := by
  constructor
  · intro same
    rw [orderKey_eq_ite, orderKey_eq_ite] at same
    have bits : p.bits = q.bits := UInt64.toNat_inj.mp (by split at same <;> split at same <;> omega)
    cases p
    cases q
    exact congrArg mk bits
  · rintro rfl
    rfl

theorem number_ofNumber (x : Float) : (ofNumber x).number = x := Float.ofBits_toBits x

/-- The pattern of the number that a priority is. All patterns that are no number are read as one. -/
theorem toBits_number (p : Priority) : p.number.toBits.toBitVec =
    if @isNaNBits .binary64 p.bits.toBitVec then packedNaN .binary64 else p.bits.toBitVec :=
  @pack_unpack .binary64 p.bits.toBitVec (by decide)

theorem isNaN_number (p : Priority) : p.number.isNaN = @isNaNBits .binary64 p.bits.toBitVec := by
  have isPacked : p.number.isNaN = true ↔ p.number.toBits.toBitVec = packedNaN .binary64 :=
    isNaN_unpack_iff_of_valid p.number.toModel.valid (by decide)
  rw [Bool.eq_iff_iff, isPacked, toBits_number]
  split
  · next undefined => exact iff_of_true rfl undefined
  · next number =>
    refine iff_of_false (fun same => number ?_) number
    rw [same]
    exact isNaNBits_packedNaN

theorem bits_number (number : p.number.isNaN = false) : p.number.toBits = p.bits := by
  rw [← UInt64.toBitVec_inj, toBits_number, if_neg]
  rw [← isNaN_number, number]
  exact Bool.false_ne_true

/-- A priority that is a number is the priority of that number. -/
theorem ofNumber_number (number : p.number.isNaN = false) : ofNumber p.number = p :=
  congrArg mk (bits_number number)

/-- Where a number is ranked. The sign bit decides on which side of zero that is, and it moves the
negative side one lower, so that both zeros have room. -/
theorem orderKey_place (number : p.number.isNaN = false) :
    (0 ≤ place p.number ∧ p.orderKey = place p.number) ∨
      (place p.number ≤ 0 ∧ p.orderKey = place p.number - 1) := by
  unfold place placeOfBits
  rw [orderKey_eq_ite, bits_number number]
  by_cases positive : p.bits.toNat < 2 ^ 63
  · simp only [if_pos positive]
    exact .inl ⟨by omega, trivial⟩
  · simp only [if_neg positive]
    exact .inr ⟨by omega, by omega⟩

/-- A smaller number is ranked below. -/
theorem orderKey_lt_of_lt (isNumber : p.number.isNaN = false) (isOther : q.number.isNaN = false)
    (less : p.number < q.number) : p.orderKey < q.orderKey := by
  rw [lt_iff_place_lt isNumber isOther] at less
  rcases orderKey_place isNumber with ⟨sideP, keyP⟩ | ⟨sideP, keyP⟩ <;>
    rcases orderKey_place isOther with ⟨sideQ, keyQ⟩ | ⟨sideQ, keyQ⟩ <;> omega

/-- Equal numbers are ranked alike, unless they are the two zeros, of which `0` is ranked above. -/
theorem orderKey_eq_of_beq (isNumber : p.number.isNaN = false) (isOther : q.number.isNaN = false)
    (equal : (p.number == q.number) = true) :
    p.orderKey = q.orderKey ∨ p.number = 0 ∧ q.number = -0.0 ∧ q.orderKey < p.orderKey ∨
      p.number = -0.0 ∧ q.number = 0 ∧ p.orderKey < q.orderKey := by
  have minus : (-0 : Float) = -0.0 := by decide +kernel
  have below : (ofNumber (-0.0)).orderKey < (ofNumber 0).orderKey := by decide +kernel
  rw [← ofNumber_number isNumber, ← ofNumber_number isOther, number_ofNumber, number_ofNumber]
  rcases (Float.beq_iff_ne_nan_and_eq.mp equal).2.2 with same | ⟨left, right⟩ | ⟨left, right⟩
  · exact .inl (by rw [same])
  · rw [left, right, minus]
    exact .inr (.inl ⟨rfl, rfl, below⟩)
  · rw [left, right, minus]
    exact .inr (.inr ⟨rfl, rfl, below⟩)

/-- What is no number is ranked outside all numbers: below them with a sign bit, above them without
one. -/
theorem orderKey_lt_of_isNaN (isNumber : p.number.isNaN = false) (undefined : q.number.isNaN = true) :
    if q.bits.toNat < 2 ^ 63 then p.orderKey < q.orderKey else q.orderKey < p.orderKey := by
  have boundedP : p.bits.toNat < 2 ^ 64 := p.bits.toBitVec.isLt
  have boundedQ : q.bits.toNat < 2 ^ 64 := q.bits.toBitVec.isLt
  have inside : ¬2047 * 2 ^ 52 < p.bits.toNat % 2 ^ 63 := by
    rw [← UInt64.toNat_toBitVec, ← isNaNBits_iff, ← isNaN_number, isNumber]
    exact Bool.false_ne_true
  have outside : 2047 * 2 ^ 52 < q.bits.toNat % 2 ^ 63 := by
    rw [← UInt64.toNat_toBitVec, ← isNaNBits_iff, ← isNaN_number, undefined]
  rw [orderKey_eq_ite, orderKey_eq_ite]
  split <;> split <;> omega

end Priority

end StreamPath
