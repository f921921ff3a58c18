import StreamPath.Sequence

/-!
# Comparing values

A comparison of sequences asks for one item on each side that satisfies it, so an empty side makes
every comparison false, inequality included. Two items of different types are brought to the type
that comes first in boolean, number, string; nodes count as strings, and strings are ordered by code
point.

* `sequences_append_left` — a comparison with two parts is one with either part.
-/

namespace StreamPath

/-- The six relations that can be asked of two values. -/
inductive Comparison
  | eq
  | ne
  | lt
  | le
  | gt
  | ge
deriving DecidableEq, Repr

namespace Comparison

def symbol : Comparison → String
  | eq => "="
  | ne => "!="
  | lt => "<"
  | le => "<="
  | gt => ">"
  | ge => ">="

/-- The relation with its sides exchanged. -/
def converse : Comparison → Comparison
  | eq => eq
  | ne => ne
  | lt => gt
  | le => ge
  | gt => lt
  | ge => le

/-- Compare numbers. Nothing but inequality holds of an undefined number. -/
def numbers (op : Comparison) (x y : Float) : Bool :=
  match op with
  | eq => x == y
  | ne => x != y
  | lt => x < y
  | le => x ≤ y
  | gt => x > y
  | ge => x ≥ y

/-- Compare strings by code point. -/
def strings (op : Comparison) (x y : String) : Bool :=
  match op with
  | eq => x == y
  | ne => x != y
  | lt => x < y
  | le => x ≤ y
  | gt => x > y
  | ge => x ≥ y

/-- Compare items, brought to a common type. -/
def items (op : Comparison) (x y : Item) : Bool :=
  match x.type, y.type with
  | .boolean, _ | _, .boolean =>
    op.numbers (Item.ofBool x.toBoolean) (Item.ofBool y.toBoolean)
  | .number, _ | _, .number => op.numbers x.toNumber y.toNumber
  | _, _ => op.strings x.toText y.toText

/-- Compare sequences: some item of one side with some item of the other. -/
def sequences (op : Comparison) (a b : Sequence) : Bool := a.any fun x => b.any fun y => op.items x y

@[simp] theorem sequences_nil_left (op : Comparison) (b : Sequence) : op.sequences [] b = false :=
  rfl

@[simp] theorem sequences_nil_right (op : Comparison) (a : Sequence) : op.sequences a [] = false := by
  simp [sequences]

theorem sequences_ofNumber (op : Comparison) (x y : Float) :
    op.sequences (.ofNumber x) (.ofNumber y) = op.numbers x y := by
  show (op.numbers x y || false || false) = op.numbers x y
  rw [Bool.or_false, Bool.or_false]

theorem sequences_append_left (op : Comparison) (a more b : Sequence) :
    op.sequences (a ++ more) b = (op.sequences a b || op.sequences more b) := by
  simp [sequences]

end Comparison

end StreamPath
