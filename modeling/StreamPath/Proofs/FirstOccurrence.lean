import StreamPath.Function.Core

/-!
# The first occurrence of a separator

Four core functions ask about a separator in a text: whether it occurs at all, whether the text starts
with it, and what stands before and after it. All four describe one split of the text, at the first
occurrence.

The search goes from character to character. That it misses nothing in the encoded text is a property
of UTF-8: the bytes of a text that is not empty occur only where a character starts, so an occurrence
among the bytes is one among the characters (`exists_of_occursAt`).

* `Text.Split` — the answers of the four functions, with what relates them;
* `Text.Split.eq` — there are no two splits of one text;
* `Core.searches_describe_split` — the core functions give those answers.
-/

namespace StreamPath

namespace Text

/-- The bytes of a separator stand among those of a text, from an offset on. Nothing is said about where
the characters of the text start. -/
def OccursAt (separator text : String) (offset : Nat) : Prop :=
  ∃ front back : ByteArray, front.size = offset ∧
    front ++ separator.toByteArray ++ back = text.toByteArray

/-- What the searching functions answer for a text and a separator. -/
@[ext] structure Split (text separator : String) where
  /-- Whether the separator occurs. -/
  found : Bool
  /-- Whether the text starts with the separator. -/
  opening : Bool
  /-- What stands before the first occurrence. -/
  front : String
  /-- What stands after it. -/
  back : String
  found_iff : found = true ↔ ∃ offset, OccursAt separator text offset
  rejoined : found = true → front ++ separator ++ back = text
  first : found = true → ∀ offset, OccursAt separator text offset → front.utf8ByteSize ≤ offset
  absent : found = false → front = "" ∧ back = ""
  opening_iff : opening = true ↔ found = true ∧ front = ""

section Bytes

variable {text separator : String} {offset : Nat}

/-- An occurrence among the characters is one among the bytes. -/
theorem occursAt_of_append {front back : String} (joined : front ++ separator ++ back = text) :
    OccursAt separator text front.utf8ByteSize := by
  refine ⟨front.toByteArray, back.toByteArray, rfl, ?_⟩
  rw [← joined, String.toByteArray_append, String.toByteArray_append]

/-- Where the bytes of a separator stand in a text, a character of the text starts, or the separator
is empty. -/
theorem isValid_of_occursAt (occurs : OccursAt separator text offset) (some : separator ≠ "") :
    String.Pos.Raw.IsValid text ⟨offset⟩ := by
  obtain ⟨front, back, size, joined⟩ := occurs
  have length : 0 < separator.toByteArray.size :=
    Nat.pos_of_ne_zero fun none => some (String.utf8ByteSize_eq_zero_iff.mp none)
  have total : front.size + separator.toByteArray.size + back.size = text.toByteArray.size := by
    rw [← joined, ByteArray.size_append, ByteArray.size_append]
  refine String.Pos.Raw.isValid_iff_isUTF8FirstByte.mpr (.inr ⟨?_, ?_⟩)
  · show offset < text.toByteArray.size
    omega
  · have byte (within : offset < text.toByteArray.size) :
        text.toByteArray[offset] = separator.toByteArray[0] := by
      simp only [← joined, ← size]
      rw [ByteArray.getElem_append_left (by rw [ByteArray.size_append]; omega),
        ByteArray.getElem_append_right (Nat.le_refl _)]
      simp
    rw [String.getUTF8Byte, byte]
    exact ByteArray.IsValidUTF8.isUTF8FirstByte_getElem_zero separator.isValidUTF8 length

/-- An occurrence among the bytes is one among the characters. The empty separator alone occurs inside a
character, and it occurs at the start too. -/
theorem exists_of_occursAt (occurs : OccursAt separator text offset) :
    ∃ front back : String, front ++ separator ++ back = text ∧ front.utf8ByteSize ≤ offset := by
  by_cases some : separator = ""
  · exact ⟨"", text, by simp [some], Nat.zero_le _⟩
  obtain ⟨front, rest, split, place⟩ :=
    String.Pos.Raw.isValid_iff_exists_append.mp (isValid_of_occursAt occurs some)
  obtain ⟨bytes, last, size, joined⟩ := occurs
  have atFront : front.utf8ByteSize = offset := (congrArg String.Pos.Raw.byteIdx place).symm
  rw [split, String.toByteArray_append, ByteArray.append_assoc] at joined
  have same : bytes = front.toByteArray := ByteArray.append_inj_left joined (size.trans atFront.symm)
  rw [same, ByteArray.append_right_inj] at joined
  have starts : separator.toList <+: rest.toList := by
    refine List.isPrefix_of_utf8Encode_append_eq_utf8Encode last ?_
    rw [String.utf8Encode_toList, String.utf8Encode_toList, joined]
  obtain ⟨back, eq⟩ := starts
  refine ⟨front, String.ofList back, ?_, Nat.le_of_eq atFront⟩
  rw [split, String.append_assoc]
  congr 1
  rw [← String.toList_inj]
  simpa using eq

end Bytes

/-! ## The search -/

section Search

variable {text separator : String}

/-- If the separator is found, the parts around it are those of one cut. -/
theorem cut?_of_contains (found : contains text separator = true) :
    cut? separator.toList text.toList =
      some ((before text separator).toList, (after text separator).toList) := by
  obtain ⟨⟨front, back⟩, cut⟩ := Option.isSome_iff_exists.mp found
  simp [before, after, cut]

theorem append_of_contains (found : contains text separator = true) :
    before text separator ++ separator ++ after text separator = text := by
  rw [← String.toList_inj]
  simpa using append_of_cut? (cut?_of_contains found)

theorem contains_iff_occursAt :
    contains text separator = true ↔ ∃ offset, OccursAt separator text offset := by
  constructor
  · exact fun found => ⟨_, occursAt_of_append (append_of_contains found)⟩
  · rintro ⟨offset, occurs⟩
    obtain ⟨front, back, rfl, _⟩ := exists_of_occursAt occurs
    exact cut?_isSome_iff.mpr ⟨front.toList, back.toList, by simp⟩

/-- No occurrence starts before the one that is found. -/
theorem before_le_of_occursAt (found : contains text separator = true) {offset : Nat}
    (occurs : OccursAt separator text offset) :
    (before text separator).utf8ByteSize ≤ offset := by
  obtain ⟨earlier, later, joined, place⟩ := exists_of_occursAt occurs
  have within : (before text separator).toList <+: earlier.toList :=
    isPrefix_of_cut? (cut?_of_contains found)
      (show earlier.toList ++ separator.toList ++ later.toList = text.toList by simp [← joined])
  obtain ⟨more, eq⟩ := within
  have longer : before text separator ++ String.ofList more = earlier := by
    rw [← String.toList_inj]
    simpa using eq
  calc (before text separator).utf8ByteSize
      ≤ (before text separator).utf8ByteSize + (String.ofList more).utf8ByteSize := Nat.le_add_right ..
    _ = earlier.utf8ByteSize := by rw [← String.utf8ByteSize_append, longer]
    _ ≤ offset := place

/-- A text starts with a separator if nothing stands before the first occurrence. -/
theorem startsWith_iff :
    startsWith text separator = true ↔
      contains text separator = true ∧ before text separator = "" := by
  rw [startsWith, List.isPrefixOf_iff_prefix]
  constructor
  · rintro ⟨back, joined⟩
    have found : contains text separator = true := cut?_isSome_iff.mpr ⟨[], back, joined⟩
    have nothing : (before text separator).toList <+: [] :=
      isPrefix_of_cut? (cut?_of_contains found) joined
    exact ⟨found, by simpa using nothing⟩
  · rintro ⟨found, nothing⟩
    have joined := append_of_cut? (cut?_of_contains found)
    rw [nothing] at joined
    exact ⟨(after text separator).toList, joined⟩

theorem parts_of_not_contains (missing : contains text separator = false) :
    before text separator = "" ∧ after text separator = "" := by
  have none : cut? separator.toList text.toList = none :=
    Option.not_isSome_iff_eq_none.mp (ne_true_of_eq_false missing)
  simp [before, after, none]

/-- The split that the search finds. -/
def split (text separator : String) : Split text separator where
  found := contains text separator
  opening := startsWith text separator
  front := before text separator
  back := after text separator
  found_iff := contains_iff_occursAt
  rejoined := append_of_contains
  first found _ := before_le_of_occursAt found
  absent := parts_of_not_contains
  opening_iff := startsWith_iff

end Search

example : (before "äöäöü" "öü", after "äöäöü" "öü", contains "" "") = ("äöä", "", true) := by decide

/-- A text is split at a separator in one way. -/
theorem Split.eq {text separator : String} (split other : Split text separator) : split = other := by
  have found : split.found = other.found :=
    Bool.eq_iff_iff.mpr (split.found_iff.trans other.found_iff.symm)
  have parts : split.front = other.front ∧ split.back = other.back := by
    cases there : split.found with
    | false =>
      obtain ⟨front, back⟩ := split.absent there
      obtain ⟨otherFront, otherBack⟩ := other.absent (found ▸ there)
      exact ⟨front.trans otherFront.symm, back.trans otherBack.symm⟩
    | true =>
      have otherThere : other.found = true := found ▸ there
      have joined := split.rejoined there
      have otherJoined := other.rejoined otherThere
      have size : split.front.utf8ByteSize = other.front.utf8ByteSize :=
        Nat.le_antisymm (split.first there _ (occursAt_of_append otherJoined))
          (other.first otherThere _ (occursAt_of_append joined))
      have bytes := congrArg String.toByteArray (joined.trans otherJoined.symm)
      simp only [String.append_assoc, String.toByteArray_append] at bytes
      have front : split.front = other.front :=
        String.toByteArray_inj.mp (ByteArray.append_inj_left bytes size)
      rw [front, ByteArray.append_right_inj, ByteArray.append_right_inj] at bytes
      exact ⟨front, String.toByteArray_inj.mp bytes⟩
  have opening : split.opening = other.opening := by
    rw [Bool.eq_iff_iff, split.opening_iff, other.opening_iff, found, parts.1]
  exact Split.ext found opening parts.1 parts.2

end Text

namespace Core

/-- What a core function gives at a call site. -/
def call (function : String) (site : CallSite) (arguments : List Sequence) : Except Cause Sequence := do
  let overload ← Library.core.resolve (.unqualified function) arguments.length
  overload.body site arguments

/-- The core functions that search for a separator always answer, and all of them describe one split
of the text. -/
theorem searches_describe_split (site : CallSite) (text separator : Sequence) :
    ∃ split : Text.Split text.toText separator.toText,
      call "contains" site [text, separator] = boolean split.found ∧
      call "starts-with" site [text, separator] = boolean split.opening ∧
      call "substring-before" site [text, separator] = string split.front ∧
      call "substring-after" site [text, separator] = string split.back :=
  ⟨Text.split text.toText separator.toText, rfl, rfl, rfl, rfl⟩

end Core

end StreamPath
