import Mathlib
import StreamPath.Comparison
import StreamPath.Proofs.NumberOrder

/-!
# Laws of comparing

Two items are in an order, whatever their types, unless they are compared as numbers and one of these
is undefined. Each of the six relations asks for that order and for nothing else, so a law of the
relations need only be checked for the four answers there are.

* `Item.order?` — the order of two items;
* `Comparison.items_eq_accepts` — comparing items asks for their order;
* `Item.order?_swap`, `Item.order?_eq_none_iff` — what is true of the order;
* `Comparison.comparison_laws` — what is true of comparing.
-/

namespace StreamPath

/-! ## Orders of numbers and strings -/

namespace Number

variable {x y : Float}

theorem unpack_of_isNaN (undefined : x.isNaN = true) : x.toModel.unpack = .notANumber := by
  change x.toModel.unpack.isNaN = true at undefined
  cases unpacked : x.toModel.unpack with
  | notANumber => rfl
  | infinity | zero | finite =>
    rw [unpacked] at undefined
    cases undefined

/-- An undefined number is in no order to any other. -/
theorem compare_eq_none_iff :
    x.toModel.compare y.toModel = none ↔ x.isNaN = true ∨ y.isNaN = true := by
  constructor
  · intro unordered
    by_contra defined
    simp only [not_or, Bool.not_eq_true] at defined
    rw [compare_eq defined.1 defined.2] at unordered
    cases unordered
  · show _ → Float.Model.UnpackedFloat.compare _ _ = none
    rintro (undefined | undefined)
    · rw [unpack_of_isNaN undefined]
      rfl
    · rw [unpack_of_isNaN undefined]
      cases x.toModel.unpack <;> rfl

theorem compare_swap (x y : Float) :
    y.toModel.compare x.toModel = (x.toModel.compare y.toModel).map Ordering.swap := by
  cases order : x.toModel.compare y.toModel with
  | none => exact compare_eq_none_iff.mpr (compare_eq_none_iff.mp order).symm
  | some _ =>
    have defined : ¬(x.isNaN = true ∨ y.isNaN = true) := by
      rw [← compare_eq_none_iff, order]
      nofun
    simp only [not_or, Bool.not_eq_true] at defined
    rw [← order, compare_eq defined.1 defined.2, compare_eq defined.2 defined.1, Option.map_some,
      Int.compare_swap]

end Number

namespace Comparison

/-- Whether a relation holds of two values in a given order, or in none. -/
def accepts (op : Comparison) (order? : Option Ordering) : Bool :=
  match op with
  | eq => order? == some .eq
  | ne => order? != some .eq
  | lt => order? == some .lt
  | le => order?.any Ordering.isLE
  | gt => order? == some .gt
  | ge => order?.any Ordering.isGE

theorem accepts_converse (op : Comparison) (order? : Option Ordering) :
    op.converse.accepts (order?.map Ordering.swap) = op.accepts order? := by
  rcases order? with _ | _ | _ | _ <;> cases op <;> rfl

/-- Comparing numbers asks for their order. -/
theorem numbers_eq_accepts (op : Comparison) (x y : Float) :
    op.numbers x y = op.accepts (x.toModel.compare y.toModel) := by
  have less : ∀ a b : Float, decide (a < b) = (a.toModel.compare b.toModel == some .lt) := by
    intro a b
    show decide (decide (_ = true) = true) = _
    rw [Bool.decide_coe, Bool.decide_coe]
    rfl
  have notMore : ∀ a b : Float, decide (a ≤ b) = (a.toModel.compare b.toModel).any Ordering.isLE := by
    intro a b
    show decide (decide (_ = true) = true) = _
    rw [Bool.decide_coe, Bool.decide_coe]
    rfl
  cases op with
  | eq | ne => rfl
  | lt => exact less x y
  | le => exact notMore x y
  | gt =>
    refine (less y x).trans ?_
    rw [Number.compare_swap]
    exact accepts_converse .gt _
  | ge =>
    refine (notMore y x).trans ?_
    rw [Number.compare_swap]
    exact accepts_converse .ge _

/-- Strings are in an order that is total. -/
theorem strings_eq_accepts (op : Comparison) (x y : String) :
    op.strings x y = op.accepts (some (compareOfLessAndEq x y)) := by
  have equal : compareOfLessAndEq x y = .eq ↔ x = y :=
    compareOfLessAndEq_eq_eq String.le_refl String.not_le
  rw [Bool.eq_iff_iff]
  cases op with
  | eq => simp [strings, accepts, equal]
  | ne => simp [strings, accepts, equal]
  | lt => simp [strings, accepts, compareOfLessAndEq_eq_lt]
  | le =>
    simp [strings, accepts, isLE_compareOfLessAndEq String.le_antisymm String.not_le String.le_total]
  | gt =>
    simp [strings, accepts, compareOfLessAndEq_eq_gt String.le_antisymm String.le_total String.not_le]
  | ge =>
    simp [strings, accepts, isGE_compareOfLessAndEq String.le_antisymm String.not_le String.le_total]

end Comparison

/-! ## The order of two items -/

namespace Item

variable {x y : Item}

/-- The order of two items, brought to the type that comes first in boolean, number, string. -/
def order? (x y : Item) : Option Ordering :=
  if x.type = .boolean ∨ y.type = .boolean then
    (ofBool x.toBoolean).toModel.compare (ofBool y.toBoolean).toModel
  else if x.type = .number ∨ y.type = .number then x.toNumber.toModel.compare y.toNumber.toModel
  else some (compareOfLessAndEq x.toText y.toText)

/-- Two items are compared as numbers, and one of these is undefined. -/
structure Unordered (x y : Item) : Prop where
  noBoolean : x.type ≠ .boolean ∧ y.type ≠ .boolean
  number : x.type = .number ∨ y.type = .number
  undefined : x.toNumber.isNaN = true ∨ y.toNumber.isNaN = true

theorem order?_swap (x y : Item) : y.order? x = (x.order? y).map Ordering.swap := by
  simp only [order?, @or_comm (y.type = .boolean) (x.type = .boolean),
    @or_comm (y.type = .number) (x.type = .number)]
  split
  · exact Number.compare_swap _ _
  · split
    · exact Number.compare_swap _ _
    · exact congrArg some
        (compareOfLessAndEq_eq_swap String.le_antisymm String.le_total String.not_le)

/-- Only an undefined number keeps two items from being ordered. -/
theorem order?_eq_none_iff : x.order? y = none ↔ Unordered x y := by
  have defined : ∀ value, (ofBool value).isNaN = false := by decide +kernel
  unfold order?
  split
  · next boolean =>
    rw [Number.compare_eq_none_iff, defined, defined]
    exact iff_of_false (by simp) fun unordered => boolean.elim unordered.noBoolean.1
      unordered.noBoolean.2
  · next noBoolean =>
    rw [not_or] at noBoolean
    split
    · next number =>
      rw [Number.compare_eq_none_iff]
      exact ⟨fun undefined => ⟨noBoolean, number, undefined⟩, Unordered.undefined⟩
    · next noNumber => exact iff_of_false nofun fun unordered => noNumber unordered.number

end Item

namespace Comparison

/-- Comparing items asks for their order. -/
theorem items_eq_accepts (op : Comparison) (x y : Item) : op.items x y = op.accepts (x.order? y) := by
  unfold items Item.order?
  -- the types decide which conversion is compared
  generalize x.type = one
  generalize y.type = two
  cases one <;> cases two <;> simp only [numbers_eq_accepts, strings_eq_accepts] <;> rfl

/-! ## Laws -/

/-- Comparing sequences from the other side asks the converse question. -/
theorem sequences_converse (op : Comparison) (a b : Sequence) :
    op.sequences a b = op.converse.sequences b a := by
  have items : ∀ x y, op.items x y = op.converse.items y x := by
    intro x y
    rw [items_eq_accepts, items_eq_accepts, Item.order?_swap x y, accepts_converse]
  rw [Bool.eq_iff_iff]
  simp only [sequences, List.any_eq_true, items]
  constructor
  · rintro ⟨x, inA, y, inB, holds⟩
    exact ⟨y, inB, x, inA, holds⟩
  · rintro ⟨y, inB, x, inA, holds⟩
    exact ⟨x, inA, y, inB, holds⟩

/-- The laws of comparing. For sequences: the sides can be exchanged if the relation is turned round,
and a comparison with two parts is one with either part. For items of any types: inequality is the
negation of equality, at most is less or equal, at most one of less, equal and greater holds, and one
does unless an undefined number is compared as a number. -/
theorem comparison_laws :
    (∀ (op : Comparison) (a b : Sequence), op.sequences a b = op.converse.sequences b a) ∧
    (∀ (op : Comparison) (a more b : Sequence),
      op.sequences (a ++ more) b = (op.sequences a b || op.sequences more b)) ∧
    ∀ x y : Item, ne.items x y = !eq.items x y ∧
      le.items x y = (lt.items x y || eq.items x y) ∧
      ¬(lt.items x y = true ∧ eq.items x y = true) ∧
      ¬(lt.items x y = true ∧ gt.items x y = true) ∧
      ¬(eq.items x y = true ∧ gt.items x y = true) ∧
      ((lt.items x y = true ∨ eq.items x y = true ∨ gt.items x y = true) ↔ ¬x.Unordered y) := by
  refine ⟨sequences_converse, sequences_append_left, fun x y => ?_⟩
  simp only [items_eq_accepts, ← Item.order?_eq_none_iff]
  rcases x.order? y with _ | _ | _ | _ <;> decide

/-- An undefined number is compared as one with a string, but not with a boolean. -/
example : Item.Unordered (.number Number.nan) (.string "1") ∧
    eq.items (.number Number.nan) (.boolean false) = true :=
  ⟨⟨by decide, .inl rfl, .inl (by decide +kernel)⟩, by decide +kernel⟩

end Comparison

end StreamPath
