import Mathlib
import StreamPath.Number.Text

/-!
# Numerals

A text is read as a number if, without the blanks around it, it is a numeral: digits with at most one
point anywhere among them, behind at most one minus sign. Everything else is `NaN`, and no numeral
is, however far it lies out of range.

* `Number.Plain`, `Number.Numeral` — the grammar, said without the reader;
* `Text.exists_trim`, `Text.trim_of_blank` — trimming takes away the blanks at both ends and no more;
* `Number.isSome_ofChars?_iff` — plain digits are read, and nothing else is;
* `Number.isNaN_toFloat` — what is read is a number;
* `Number.isNaN_parse_iff` — the texts that are read as numbers.
-/

namespace StreamPath

/-! ## Trimming -/

namespace Text

/-- What trimming takes away are blanks. -/
theorem exists_trim (text : List Char) : ∃ front back, text = front ++ trim text ++ back ∧
    (∀ c ∈ front, isBlank c = true) ∧ ∀ c ∈ back, isBlank c = true := by
  let rest := (text.dropWhile isBlank).reverse
  refine ⟨text.takeWhile isBlank, (rest.takeWhile isBlank).reverse, ?_,
    fun c => List.mem_takeWhile_imp, fun c mem => ?_⟩
  · have back : trim text ++ (rest.takeWhile isBlank).reverse = text.dropWhile isBlank := by
      rw [trim, ← List.reverse_append, List.takeWhile_append_dropWhile, List.reverse_reverse]
    rw [List.append_assoc, back, List.takeWhile_append_dropWhile]
  · exact List.mem_takeWhile_imp (List.mem_reverse.mp mem)

/-- Characters that are not blank stay when the blanks around them are taken away. -/
theorem trim_of_blank {front inner back : List Char} (frontBlank : ∀ c ∈ front, isBlank c = true)
    (backBlank : ∀ c ∈ back, isBlank c = true) (full : ∀ c ∈ inner, isBlank c = false) :
    trim (front ++ inner ++ back) = inner := by
  have stays : ∀ chars rest : List Char, (∀ c ∈ chars, isBlank c = false) → chars ≠ [] →
      (chars ++ rest).dropWhile isBlank = chars ++ rest := by
    intro chars rest full nonempty
    cases chars with
    | nil => exact absurd rfl nonempty
    | cons c chars =>
      rw [List.cons_append, List.dropWhile_cons_of_neg (by simp [full c List.mem_cons_self])]
  rw [trim, List.append_assoc, List.dropWhile_append_of_pos frontBlank]
  by_cases empty : inner = []
  · subst empty
    have gone : back.dropWhile isBlank = [] := List.dropWhile_eq_nil_iff.mpr backBlank
    rw [List.nil_append, gone]
    rfl
  · have kept := stays inner.reverse [] (fun c mem => full c (List.mem_reverse.mp mem))
      (by simpa using empty)
    rw [List.append_nil] at kept
    rw [stays inner back full empty, List.reverse_append,
      List.dropWhile_append_of_pos (by simpa using backBlank), kept, List.reverse_reverse]

end Text

namespace Number

open Float.Model Float.Model.UnpackedFloat

/-! ## The grammar -/

/-- Digits with at most one point anywhere among them, and at least one digit. -/
structure Plain (chars : List Char) : Prop where
  allowed : ∀ c ∈ chars, isDigit c = true ∨ c = '.'
  points : chars.count '.' ≤ 1
  digit : ∃ c ∈ chars, isDigit c = true

/-- Plain digits, or plain digits behind one minus sign. -/
inductive Numeral : List Char → Prop
  | unsigned {digits : List Char} : Plain digits → Numeral digits
  | negative {digits : List Char} : Plain digits → Numeral ('-' :: digits)

variable {chars : List Char}

/-- No point is among digits. -/
theorem count_point_of_digits (digits : ∀ c ∈ chars, isDigit c = true) : chars.count '.' = 0 := by
  refine List.count_eq_zero.mpr fun mem => ?_
  exact absurd (digits '.' mem) (by decide)

/-- Digits without a point are plain if there is one. -/
theorem plain_of_digits (digits : ∀ c ∈ chars, isDigit c = true) : Plain chars ↔ chars ≠ [] := by
  constructor
  · rintro plain rfl
    obtain ⟨c, mem, -⟩ := plain.digit
    cases mem
  · intro nonempty
    obtain ⟨c, mem⟩ := List.exists_mem_of_ne_nil chars nonempty
    exact ⟨fun c mem => .inl (digits c mem), by rw [count_point_of_digits digits]; exact Nat.zero_le 1,
      c, mem, digits c mem⟩

/-- Only a point can follow the first digits, with further digits to the end. -/
theorem plain_append_cons {whole tail : List Char} {c : Char}
    (digits : ∀ c ∈ whole, isDigit c = true) (notDigit : isDigit c = false) :
    Plain (whole ++ c :: tail) ↔
      (c = '.' ∧ ∀ d ∈ tail, isDigit d = true) ∧ ¬(whole = [] ∧ tail = []) := by
  constructor
  · intro plain
    obtain rfl : c = '.' := by
      rcases plain.allowed c (by simp) with isDigit | isPoint
      · rw [notDigit] at isDigit
        cases isDigit
      · exact isPoint
    have points := plain.points
    rw [List.count_append, List.count_cons_self] at points
    have noPoint : '.' ∉ tail := List.count_eq_zero.mp (by omega)
    refine ⟨⟨rfl, fun d mem => ?_⟩, ?_⟩
    · rcases plain.allowed d (by simp [mem]) with isDigit | rfl
      · exact isDigit
      · exact absurd mem noPoint
    · rintro ⟨rfl, rfl⟩
      obtain ⟨d, mem, isDigit⟩ := plain.digit
      rw [List.mem_singleton.mp mem, notDigit] at isDigit
      cases isDigit
  · rintro ⟨⟨rfl, tailDigits⟩, nonempty⟩
    refine ⟨fun d mem => ?_, ?_, ?_⟩
    · rcases List.mem_append.mp mem with inWhole | later
      · exact .inl (digits d inWhole)
      · rcases List.mem_cons.mp later with rfl | inTail
        · exact .inr rfl
        · exact .inl (tailDigits d inTail)
    · rw [List.count_append, List.count_cons_self, count_point_of_digits digits,
        count_point_of_digits tailDigits]
    · rw [not_and_or] at nonempty
      rcases nonempty with nonempty | nonempty
      · obtain ⟨d, mem⟩ := List.exists_mem_of_ne_nil whole nonempty
        exact ⟨d, List.mem_append_left _ mem, digits d mem⟩
      · obtain ⟨d, mem⟩ := List.exists_mem_of_ne_nil tail nonempty
        exact ⟨d, by simp [mem], tailDigits d mem⟩

/-- No plain digits begin with a minus sign. -/
theorem not_plain_minus : ¬Plain ('-' :: chars) := by
  intro plain
  exact absurd (plain.allowed '-' List.mem_cons_self) (by decide)

theorem not_isBlank_of_isDigit {c : Char} (digit : isDigit c = true) : Text.isBlank c = false := by
  have lower : 48 ≤ c.toNat := by
    simp only [isDigit, Bool.and_eq_true, decide_eq_true_eq] at digit
    exact digit.1
  have upper : c.toNat ≤ 57 := by
    simp only [isDigit, Bool.and_eq_true, decide_eq_true_eq] at digit
    exact digit.2
  simp [Text.isBlank, Text.blankRanges]
  omega

/-- No character of a numeral is a blank. -/
theorem not_isBlank_of_numeral (numeral : Numeral chars) : ∀ c ∈ chars, Text.isBlank c = false := by
  have ofPlain : ∀ {digits : List Char}, Plain digits → ∀ c ∈ digits, Text.isBlank c = false := by
    intro digits plain c mem
    rcases plain.allowed c mem with digit | rfl
    · exact not_isBlank_of_isDigit digit
    · decide
  cases numeral with
  | unsigned plain => exact ofPlain plain
  | negative plain => exact List.forall_mem_cons.mpr ⟨by decide, ofPlain plain⟩

/-! ## Reading digits -/

/-- Plain digits are read, and nothing else is. -/
theorem isSome_ofChars?_iff : (Decimal.ofChars? chars).isSome = true ↔ Plain chars := by
  have digits : ∀ c ∈ chars.takeWhile isDigit, isDigit c = true := fun c => List.mem_takeWhile_imp
  have split : chars = chars.takeWhile isDigit ++ chars.dropWhile isDigit :=
    List.takeWhile_append_dropWhile.symm
  unfold Decimal.ofChars?
  cases rest : chars.dropWhile isDigit with
  | nil =>
    rw [rest, List.append_nil] at split
    rw [← split] at digits ⊢
    rw [plain_of_digits digits]
    cases chars <;> simp
  | cons c tail =>
    have notDigit : isDigit c = false := by
      have := List.dropWhile_get_zero_not isDigit chars (by simp [rest])
      simpa [rest] using this
    rw [rest] at split
    generalize chars.takeWhile isDigit = whole at split digits ⊢
    rw [split, plain_append_cons digits notDigit]
    have cut : c = '.' ∧ (∀ d ∈ tail, isDigit d = true) ↔
        (decide (c = '.') && tail.all isDigit) = true := by simp
    rw [cut]
    dsimp only
    cases decide (c = '.') && tail.all isDigit with
    | false => simp
    | true => cases whole <;> cases tail <;> simp

/-- Numerals are read, and nothing else is. -/
theorem isSome_ofNumeral?_iff : (ofNumeral? chars).isSome = true ↔ Numeral chars := by
  unfold ofNumeral?
  split
  · next digits =>
    rw [Option.isSome_map, isSome_ofChars?_iff]
    constructor
    · exact .negative
    · rintro (plain | plain)
      · exact absurd plain not_plain_minus
      · exact plain
  · next noMinus =>
    rw [Option.isSome_map, isSome_ofChars?_iff]
    constructor
    · exact .unsigned
    · rintro (plain | plain)
      · exact plain
      · exact absurd rfl (noMinus _)

example : (["-", ".", "-.", "5.", "-.5"].map fun text => (ofNumeral? text.toList).isSome) =
    [false, false, false, true, true] := by decide

/-! ## What is read is a number -/

/-- A number that is packed is still a number when it is unpacked. -/
theorem isNaN_unpack_pack {f : UnpackedFloat} (number : f.isNaN = false) :
    (UnpackedFloat.unpack .binary64 (UnpackedFloat.pack .binary64 f)).isNaN = false := by
  have components : ∀ (sign : Sign) (exponent : BitVec 11) (mantissa : BitVec 52),
      exponent ≠ -1#11 ∨ mantissa = 0#52 →
      (UnpackedFloat.unpack .binary64 (packComponents .binary64 sign exponent mantissa)).isNaN = false := by
    intro sign exponent mantissa holds
    unfold UnpackedFloat.unpack
    simp only [unpackMantissa_packComponents, unpackExponent_packComponents]
    split
    · next full =>
      rw [if_pos (holds.resolve_left (not_not.mpr full))]
      rfl
    · split
      · split <;> rfl
      · rfl
  cases f with
  | notANumber => cases number
  | infinity sign => exact components sign _ _ (.inr rfl)
  | zero sign => exact components sign _ _ (.inr rfl)
  | finite sign mantissa exponent positive =>
    unfold UnpackedFloat.pack
    dsimp only
    split
    · exact components sign _ _ (.inr rfl)
    · next small =>
      split
      · refine components sign _ _ (.inl fun full => ?_)
        have same := congrArg BitVec.toNat full
        rw [BitVec.toNat_ofNat, Nat.mod_eq_of_lt (by omega)] at same
        exact absurd small (not_not.mpr (Nat.le_of_eq (by rw [same]; rfl)))
      · exact components sign _ _ (.inl (by decide))

theorem isNaN_roundWithAccuracy (sign : Sign) (mantissa : Nat) (exponent : Int)
    (accuracy : Accuracy) :
    (roundWithAccuracy .binary64 sign mantissa exponent accuracy).isNaN = false := by
  unfold roundWithAccuracy
  dsimp only
  split <;> rfl

/-- What digits denote is a number; past the range it is infinite. -/
theorem isNaN_toFloat (decimal : Decimal) : decimal.toFloat.isNaN = false := by
  apply isNaN_unpack_pack
  unfold UnpackedFloat.ofScientific
  split
  · rfl
  split
  · rfl
  split
  · rfl
  split
  · exact isNaN_roundWithAccuracy ..
  · exact isNaN_roundWithAccuracy ..

theorem isNaN_neg {x : Float} (number : x.isNaN = false) : (-x).isNaN = false := by
  apply isNaN_unpack_pack
  change x.toModel.unpack.isNaN = false at number
  cases unpacked : x.toModel.unpack <;> rw [unpacked] at number
  · rfl
  · cases number
  · rfl
  · rfl

/-- What a numeral denotes is a number. -/
theorem isNaN_of_ofNumeral? {x : Float} (read : ofNumeral? chars = some x) : x.isNaN = false := by
  unfold ofNumeral? at read
  split at read
  · obtain ⟨decimal, -, rfl⟩ := Option.map_eq_some_iff.mp read
    exact isNaN_neg (isNaN_toFloat decimal)
  · obtain ⟨decimal, -, rfl⟩ := Option.map_eq_some_iff.mp read
    exact isNaN_toFloat decimal

/-- A text is read as a number exactly if it is a numeral with blanks around it. -/
theorem isNaN_parse_iff (text : String) :
    (parse text).isNaN = false ↔ ∃ front numeral back, text.toList = front ++ numeral ++ back ∧
      (∀ c ∈ front, Text.isBlank c = true) ∧ (∀ c ∈ back, Text.isBlank c = true) ∧
      Numeral numeral := by
  trans Numeral (Text.trim text.toList)
  · rw [← isSome_ofNumeral?_iff, parse]
    cases read : ofNumeral? (Text.trim text.toList) with
    | none => decide
    | some x => exact iff_of_true (isNaN_of_ofNumeral? read) rfl
  · constructor
    · intro numeral
      obtain ⟨front, back, split, frontBlank, backBlank⟩ := Text.exists_trim text.toList
      exact ⟨front, _, back, split, frontBlank, backBlank, numeral⟩
    · rintro ⟨front, inner, back, split, frontBlank, backBlank, numeral⟩
      rw [split, Text.trim_of_blank frontBlank backBlank (not_isBlank_of_numeral numeral)]
      exact numeral

end Number

end StreamPath
