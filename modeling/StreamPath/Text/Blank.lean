/-!
# Blank characters

The twenty-five characters that separate words. Text is trimmed of them at both ends, cut into words
at them, and normalised by joining its words with single spaces.
-/

namespace StreamPath.Text

/-- The first and last character of each run of blanks. -/
def blankRanges : List (Nat × Nat) :=
  [(0x9, 0xd), (0x20, 0x20), (0x85, 0x85), (0xa0, 0xa0), (0x1680, 0x1680), (0x2000, 0x200a),
    (0x2028, 0x2029), (0x202f, 0x202f), (0x205f, 0x205f), (0x3000, 0x3000)]

def isBlank (c : Char) : Bool :=
  blankRanges.any fun range => range.1 ≤ c.toNat && c.toNat ≤ range.2

/-- The text without the blanks at its two ends. -/
def trim (text : List Char) : List Char :=
  ((text.dropWhile isBlank).reverse.dropWhile isBlank).reverse

/-- The runs of characters between blanks, given the run that is still open. -/
def wordsFrom (run : List Char) : List Char → List (List Char)
  | [] => if run.isEmpty then [] else [run]
  | c :: rest =>
    if isBlank c then
      if run.isEmpty then wordsFrom [] rest else run :: wordsFrom [] rest
    else wordsFrom (run ++ [c]) rest

def words (text : List Char) : List (List Char) := wordsFrom [] text

/-- The words of a text with one space between them. -/
def normalizeSpace (text : String) : String :=
  String.intercalate " " ((words text.toList).map String.ofList)

end StreamPath.Text
