/-!
# Exact arithmetic on binary numbers

A finite number is a sign, a natural mantissa and a power of two. The operations that have exact
answers work on that view and never round on the way:

* `floor`, `ceiling` — the neighbouring integers, a zero keeping the sign of its argument;
* `remainder` — what is left of a division whose quotient is cut toward zero, with the sign of
  the dividend;
* `roundHalfUp` — the nearest integer, a half going toward positive infinity.
-/

namespace StreamPath.Number

open Float.Model

/-- The number that stands for an undefined result. -/
def nan : Float := Float.ofBits 0x7ff8000000000000

/-- The number above all finite ones. -/
def infinity : Float := Float.ofBits 0x7ff0000000000000

/-- The value `± mantissa · 2 ^ exponent`, with a sign for zero too. -/
structure Binary where
  negative : Bool
  mantissa : Nat
  exponent : Int
deriving DecidableEq, Repr

def isMinus : UnpackedFloat.Sign → Bool
  | .negative => true
  | .positive => false

/-- The minus sign for `true`. -/
def signOf : Bool → UnpackedFloat.Sign
  | true => .negative
  | false => .positive

/-- The exact value of a finite number. -/
def toBinary? (x : Float) : Option Binary :=
  match x.toModel.unpack with
  | .finite sign mantissa exponent _ => some ⟨isMinus sign, mantissa, exponent⟩
  | .zero sign => some ⟨isMinus sign, 0, 0⟩
  | .infinity _ | .notANumber => none

namespace Binary

/-- The nearest number; exact whenever the value has one. -/
def toFloat (value : Binary) : Float :=
  .ofModel (.pack (UnpackedFloat.round .binary64 (signOf value.negative)
    value.mantissa value.exponent))

/-- The denominator of the magnitude, a power of two. -/
def denominator (value : Binary) : Nat := Nat.pow 2 (-value.exponent).toNat

/-- The numerator of the magnitude over `denominator`. -/
def numerator (value : Binary) : Nat := value.mantissa * Nat.pow 2 value.exponent.toNat

/-- The integer part of the magnitude. -/
def whole (value : Binary) : Nat := value.numerator / value.denominator

/-- Whether the value lies strictly between two integers. -/
def hasFraction (value : Binary) : Bool := value.numerator % value.denominator != 0

/-- The integer of the given sign and magnitude. -/
def integer (negative : Bool) (magnitude : Nat) : Float := toFloat ⟨negative, magnitude, 0⟩

end Binary

/-- The greatest integer that is not above. -/
def floor (x : Float) : Float :=
  match toBinary? x with
  | none => x
  | some value =>
    if value.hasFraction then
      Binary.integer value.negative (if value.negative then value.whole + 1 else value.whole)
    else x

/-- The least integer that is not below. -/
def ceiling (x : Float) : Float :=
  match toBinary? x with
  | none => x
  | some value =>
    if value.hasFraction then
      Binary.integer value.negative (if value.negative then value.whole else value.whole + 1)
    else x

/-- The nearest integer, a half going up; what is not finite stays as it is. -/
def roundHalfUp (x : Float) : Float := if x.isFinite then floor (x + 0.5) else x

/-- The rest of a division cut toward zero. Both magnitudes are brought to one power of two, so the
rest is a rest of natural numbers. -/
def remainder (x y : Float) : Float :=
  match toBinary? x, toBinary? y with
  | some dividend, some divisor =>
    if divisor.mantissa = 0 then nan
    else
      -- multiples of the smaller power of two, so nothing is rounded
      let exponent := min dividend.exponent divisor.exponent
      let scaled (value : Binary) : Nat :=
        value.mantissa * Nat.pow 2 (value.exponent - exponent).toNat
      Binary.toFloat ⟨dividend.negative, scaled dividend % scaled divisor, exponent⟩
  | some _, none => if y.isNaN then nan else x
  | none, _ => nan

/-- The sum of a list from the left. The empty sum is `-0`, the number that changes no other when
added to it. -/
def sum (xs : List Float) : Float := xs.foldl (· + ·) (-0.0)

example : floor (-0.5) = -1 ∧ floor 2.5 = 2 ∧ floor (-0.0) = -0.0 := by decide +kernel
example : ceiling (-0.5) = -0.0 ∧ ceiling 2.5 = 3 := by decide +kernel
example : roundHalfUp 2.5 = 3 ∧ roundHalfUp (-2.5) = -2 := by decide +kernel
example : remainder 5.5 2 = 1.5 ∧ remainder (-5) 3 = -2 ∧ remainder (-6) 3 = -0.0 := by decide +kernel

end StreamPath.Number
