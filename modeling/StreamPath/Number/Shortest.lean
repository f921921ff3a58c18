import StreamPath.Number.Binary
import StreamPath.Number.Decimal

/-!
# The shortest decimal of a number

A finite number is written with the fewest significant digits that read back as the same number.
On the grid of decimals with that many digits the two neighbours of the exact value are tried; when
both read back the nearer one is taken, and of two equally near ones the upper one. The exact
decimal, which every binary number has, stands behind the search.

* `shortest` — the search itself;
* `shortest_reads_back_or_exact` — what is written reads back, or is the exact value.
-/

namespace StreamPath.Number

/-- A positive fraction of natural numbers. -/
structure Ratio where
  numerator : Nat
  denominator : Nat

/-- The magnitude of a binary number as a fraction. -/
def Binary.magnitude (value : Binary) : Ratio := ⟨value.numerator, value.denominator⟩

/-- The exact decimal of a binary number: a half is five tenths. -/
def Binary.toDecimal (value : Binary) : Decimal :=
  ⟨value.numerator * Nat.pow 5 (-value.exponent).toNat, (-value.exponent).toNat⟩

namespace Ratio

/-- The fraction divided by a power of ten, which may be a fraction itself. -/
def scaleDown (ratio : Ratio) (power : Int) : Ratio :=
  ⟨ratio.numerator * Nat.pow 10 (-power).toNat, ratio.denominator * Nat.pow 10 power.toNat⟩

/-- The number of digits before the point: the least power of ten above the fraction, negative for
one that starts with zeros after the point. -/
def decimalOrder (ratio : Ratio) : Int :=
  let guess : Int :=
    ((digitsOf ratio.numerator).length : Int) - (digitsOf ratio.denominator).length
  -- the digit counts leave two neighbouring orders open, and one comparison settles it
  let scaled := ratio.scaleDown guess
  if scaled.denominator ≤ scaled.numerator then guess + 1 else guess

end Ratio

/-- The decimal `units · 10 ^ power`. -/
def Decimal.ofScaled (units : Nat) (power : Int) : Decimal :=
  if 0 ≤ power then ⟨units * Nat.pow 10 power.toNat, 0⟩ else ⟨units, (-power).toNat⟩

/-- The two decimals with the given count of significant digits that enclose a fraction, the nearer
one first, the upper one of two equally near. The upper neighbour of `9…9` is written with a single
digit. -/
def neighbours (ratio : Ratio) (order : Int) (count : Nat) : List Decimal :=
  let power := order - count
  let scaled := ratio.scaleDown power
  let below := scaled.numerator / scaled.denominator
  let rest := scaled.numerator % scaled.denominator
  let lower := Decimal.ofScaled below power
  let upper :=
    -- a carry through all digits leaves a single one
    if below + 1 = Nat.pow 10 count then Decimal.ofScaled 1 order
    else Decimal.ofScaled (below + 1) power
  if 2 * rest < scaled.denominator then [lower, upper] else [upper, lower]

/-- The first decimal that reads back as the number, on grids of growing digit count. -/
def searchGrids (x : Float) (ratio : Ratio) (order : Int) : List Nat → Option Decimal
  | [] => none
  | count :: rest =>
    ((neighbours ratio order count).find? fun decimal => decimal.toFloat = x).or
      (searchGrids x ratio order rest)

/-- The digit counts that can be needed: seventeen digits tell any two numbers apart. -/
def digitCounts : List Nat := List.range' 1 17

/-- The decimal of a nonnegative finite number: the shortest that reads back. -/
def shortest (x : Float) (value : Binary) : Decimal :=
  (searchGrids x value.magnitude value.magnitude.decimalOrder digitCounts).getD value.toDecimal

theorem toFloat_of_searchGrids {x : Float} {ratio : Ratio} {order : Int} {counts : List Nat}
    {decimal : Decimal} (found : searchGrids x ratio order counts = some decimal) :
    decimal.toFloat = x := by
  induction counts with
  | nil => simp [searchGrids] at found
  | cons count rest ih =>
    rw [searchGrids, Option.or_eq_some_iff] at found
    rcases found with here | ⟨_, later⟩
    · simpa using List.find?_some here
    · exact ih later

/-- What is written reads back as the number, unless no short decimal did and it is the exact
value. -/
theorem shortest_reads_back_or_exact (x : Float) (value : Binary) :
    (shortest x value).toFloat = x ∨ shortest x value = value.toDecimal := by
  cases found : searchGrids x value.magnitude value.magnitude.decimalOrder digitCounts with
  | none => exact Or.inr (by simp [shortest, found])
  | some decimal => exact Or.inl (by simp [shortest, found, toFloat_of_searchGrids found])

end StreamPath.Number
