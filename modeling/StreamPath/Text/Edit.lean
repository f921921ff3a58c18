import StreamPath.Number.Binary

/-!
# Cutting and replacing characters

A substring is given by a start and a length that need not be whole numbers: the characters kept are
those whose 1-based place lies at or above the rounded start and below the rounded end. Replacing
takes the characters of one list to those at the same place in another and drops the rest.
-/

namespace StreamPath.Text

open StreamPath.Number

/-- Keep the characters whose place satisfies a test, counting on from a given place. -/
def keepPlaces (keep : Nat → Bool) (place : Nat) : List Char → List Char
  | [] => []
  | c :: rest =>
    if keep place then c :: keepPlaces keep (place + 1) rest else keepPlaces keep (place + 1) rest

/-- The characters from a rounded start on, up to a rounded length if there is one. An undefined
start or length keeps nothing. -/
def substring (text : String) (start : Float) (length? : Option Float) : String :=
  let first := roundHalfUp start
  let keep (place : Nat) : Bool :=
    first ≤ Float.ofNat place &&
      length?.all fun length => Float.ofNat place < first + roundHalfUp length
  String.ofList (keepPlaces keep 1 text.toList)

/-- Replace each character found in `source` by the one at the same place in `target`, dropping
those that have none. The first of equal characters in `source` counts. -/
def translate (text source target : String) : String :=
  String.ofList <| text.toList.filterMap fun c =>
    match source.toList.findIdx? (· = c) with
    | some place => target.toList[place]?
    | none => some c

end StreamPath.Text
