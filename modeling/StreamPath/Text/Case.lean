import StreamPath.Text.CaseMapping
import StreamPath.Text.CaseProperty

/-!
# Upper case and lower case

Whole texts are mapped character by character with the full mappings, so one character can become
several. The one mapping that looks around itself is that of the capital sigma: at the end of a word
it becomes a final sigma.
-/

namespace StreamPath.Text

/-- The form of a code point: several characters if it is listed so, else one. -/
def caseForm (runs : List CaseRun) (sequences : List (Nat × List Nat)) (c : Char) : List Char :=
  match sequences.find? fun entry => entry.1 = c.toNat with
  | some entry => entry.2.map Char.ofNat
  | none => [((runs.findSome? fun run => run.map? c.toNat).map Char.ofNat).getD c]

def upperForm (c : Char) : List Char := caseForm upperRuns upperSequences c

/-- The lower-case form of a character that stands alone. -/
def lowerForm (c : Char) : List Char := caseForm lowerRuns lowerSequences c

/-- Whether the first character that is not skipped has case. -/
def startsCased (text : List Char) : Bool :=
  ((text.dropWhile isCaseIgnorable).head?).any isCased

/-- The lower-case form of the rest of a text, given the characters before it, nearest first. A
capital sigma is final if a character with case stands before it and none behind it. -/
def lowerFrom (before : List Char) : List Char → List Char
  | [] => []
  | c :: rest =>
    (if c = 'Σ' then [if startsCased before && !startsCased rest then 'ς' else 'σ']
      else lowerForm c) ++ lowerFrom (c :: before) rest

def upperCase (text : String) : String := String.ofList (text.toList.flatMap upperForm)

def lowerCase (text : String) : String := String.ofList (lowerFrom [] text.toList)

end StreamPath.Text
