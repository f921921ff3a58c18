import StreamPath.Number.Shortest
import StreamPath.Text.Blank

/-!
# Numbers as text

The canonical written form of a number, and the numerals that are read as numbers. A number is
written without an exponent: integers below `integerLimit` exactly, everything else with the fewest
digits that read back. A numeral is an optional minus sign and plain digits with at most one point,
with blanks around it; all other text is `NaN`.
-/

namespace StreamPath.Number

/-- Integers below this limit are written out exactly. -/
def integerLimit : Nat := Nat.pow 10 18

/-- The written form of the magnitude of a finite number. -/
def magnitudeText (value : Binary) : List Char :=
  if !value.hasFraction && value.whole < integerLimit then digitsOf value.whole
  else (shortest (Binary.toFloat { value with negative := false }) value).text

/-- The canonical written form. Both zeros are written `0`. -/
def format (x : Float) : String :=
  match toBinary? x with
  | none => if x.isNaN then "NaN" else if x < 0 then "-Infinity" else "Infinity"
  | some value =>
    if value.mantissa = 0 then "0"
    else if value.negative then String.ofList ('-' :: magnitudeText value)
    else String.ofList (magnitudeText value)

/-- The number that trimmed text denotes. -/
def ofNumeral? : List Char → Option Float
  | '-' :: digits => (Decimal.ofChars? digits).map fun decimal => -decimal.toFloat
  | digits => (Decimal.ofChars? digits).map Decimal.toFloat

/-- The number that a text denotes, or `NaN`. -/
def parse (text : String) : Float := (ofNumeral? (Text.trim text.toList)).getD nan

end StreamPath.Number
