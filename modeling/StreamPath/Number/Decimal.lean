/-!
# Plain decimals

A `Decimal` is a natural number over a power of ten: what a run of digits with at most one point
means. It is written without an exponent and read back from any such run of digits.

* `Decimal.text` — at least one digit before the point, and no point without a digit after it;
* `Decimal.ofChars?` — digits, at most one point, and at least one digit;
* `Decimal.toFloat` — the nearest binary number.
-/

namespace StreamPath.Number

/-- The value `digits / 10 ^ places`. -/
structure Decimal where
  digits : Nat
  places : Nat
deriving DecidableEq, Repr

def isDigit (c : Char) : Bool := '0' ≤ c && c ≤ '9'

def digitValue (c : Char) : Nat := c.toNat - '0'.toNat

def naturalOf (digits : List Char) : Nat :=
  digits.foldl (fun acc c => 10 * acc + digitValue c) 0

/-- The digits of a natural number, the first one not `0` unless it is the only one. -/
def digitsOf (n : Nat) : List Char := Nat.toDigits 10 n

namespace Decimal

/-- The digits, with zeros in front so that one of them stands before the point. -/
def padded (decimal : Decimal) : List Char :=
  let digits := digitsOf decimal.digits
  List.replicate (decimal.places + 1 - digits.length) '0' ++ digits

/-- The written form, with a point only if there are places after it. -/
def text (decimal : Decimal) : List Char :=
  if decimal.places = 0 then digitsOf decimal.digits
  else
    let digits := decimal.padded
    let cut := digits.length - decimal.places
    digits.take cut ++ '.' :: digits.drop cut

/-- Read digits with at most one point among them and at least one digit. -/
def ofChars? (chars : List Char) : Option Decimal :=
  let whole := chars.takeWhile isDigit
  -- what follows the first run of digits is nothing, or a point and digits to the end
  let fraction? : Option (List Char) :=
    match chars.dropWhile isDigit with
    | [] => some []
    | c :: rest => if c = '.' && rest.all isDigit then some rest else none
  fraction?.bind fun fraction =>
    if whole.isEmpty && fraction.isEmpty then none
    else some ⟨naturalOf (whole ++ fraction), fraction.length⟩

/-- The nearest binary number, of two equally near ones the even one; infinity past the range. -/
def toFloat (decimal : Decimal) : Float :=
  .ofModel (Float.Model.ofScientific decimal.digits (-decimal.places))

end Decimal

example : (⟨125, 2⟩ : Decimal).text = "1.25".toList := by decide
example : (⟨5, 3⟩ : Decimal).text = "0.005".toList := by decide
example : Decimal.ofChars? "5.".toList = some ⟨5, 0⟩ := by decide
example : Decimal.ofChars? ".5".toList = some ⟨5, 1⟩ := by decide
example : Decimal.ofChars? ".".toList = none ∧ Decimal.ofChars? "1.2.3".toList = none := by decide

end StreamPath.Number
