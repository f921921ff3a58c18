import StreamPath.Number.Binary

/-!
# Priorities

A priority is a floating-point number kept as its bit pattern. The order of rules needs the pattern:
it tells the two zeros apart, and also all undefined results, which are one and the same as numbers.

* `Priority.number` — the number that a priority is, wherever numbers are compared;
* `Priority.orderKey` — the place of a priority in the total order of all patterns.
-/

namespace StreamPath

structure Priority where
  bits : UInt64
deriving DecidableEq, Repr

namespace Priority

def ofNumber (x : Float) : Priority := ⟨x.toBits⟩

def number (priority : Priority) : Float := Float.ofBits priority.bits

/-- Priorities are stated and shown as numbers. -/
instance : Coe Float Priority := ⟨ofNumber⟩

instance : Coe Priority Float := ⟨number⟩

/-- Priorities are ordered by their bit patterns read as sign and magnitude, so `-0` comes just below
`0`, and finite numbers where their values are. Undefined results stand outside the infinities: below
the negative one if their sign bit is set, and above the positive one if not. -/
def orderKey (priority : Priority) : Int :=
  let bits := priority.bits.toNat
  let signBit := Nat.pow 2 63
  -- with the sign bit set, a larger pattern lies further below zero
  if bits < signBit then bits else (signBit : Int) - 1 - bits

example : (⟨0xfff8000000000000⟩ : Priority).orderKey < (ofNumber (-Number.infinity)).orderKey ∧
    (ofNumber (-0.0)).orderKey < (ofNumber 0).orderKey ∧
    (ofNumber Number.infinity).orderKey < (ofNumber Number.nan).orderKey := by decide +kernel

end Priority

end StreamPath
