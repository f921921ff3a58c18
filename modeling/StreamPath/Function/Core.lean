import StreamPath.Comparison
import StreamPath.Function.Library
import StreamPath.Text.Case
import StreamPath.Text.Edit
import StreamPath.Text.Search

/-!
# The core functions

The functions that every library starts with: what the context offers, accessors of nodes,
conversions, and functions on strings, numbers and sequences. An accessor called without an argument
applies to the context node.
-/

namespace StreamPath.Core

open StreamPath.Number

def argument (arguments : List Sequence) (place : Nat) : Sequence := arguments[place]?.getD []

def textOf (arguments : List Sequence) (place : Nat) : String := (argument arguments place).toText

/-- The node that an accessor applies to: the first item of its argument, or the context node when it
has none. An empty argument has no node, and an item that is not a node is refused. -/
def nodeOf (function : String) (site : CallSite) (arguments : List Sequence) :
    Except Cause (Option Node) :=
  match arguments with
  | [] => .ok site.contextNode?
  | [] :: _ => .ok none
  | (.node node :: _) :: _ => .ok (some node)
  | (item :: _) :: _ => .error (.nodeExpected function item.type)

/-- The text that an accessor applies to: that of its argument, or of the context node. -/
def subjectText (site : CallSite) (arguments : List Sequence) : String :=
  match arguments with
  | [] => (site.contextNode?.map Node.text).getD ""
  | subject :: _ => subject.toText

def number (value : Float) : Except Cause Sequence := .ok (.ofNumber value)

def string (value : String) : Except Cause Sequence := .ok (.ofString value)

def boolean (value : Bool) : Except Cause Sequence := .ok (.ofBoolean value)

/-! ## Bodies -/

def position : Body := fun site _ => number (Float.ofNat site.position)

/-- How many open nodes the context node has around it; empty without a context node. -/
def level : Body := fun site _ =>
  match site.top with
  | 0 => .ok []
  | depth + 1 => number (Float.ofNat depth)

def nodeKind : Body := fun site arguments => do
  match ← nodeOf "node-kind" site arguments with
  | some node => string node.kind.display
  | none => .ok []

/-- A text taken from the name of a node; empty if it has no name. -/
def nameText (function : String) (part : Name → String) : Body := fun site arguments => do
  let node? ← nodeOf function site arguments
  string (((node?.bind Node.name?).map part).getD "")

/-- The number of the argument, or of the text of the context node. -/
def toNumber : Body := fun site arguments =>
  match arguments with
  | [] => number ((site.contextNode?.map fun node => (Item.node node).toNumber).getD nan)
  | subject :: _ => number subject.toNumber

/-- A number of the argument's number; empty for an empty argument. -/
def numeric (f : Float → Float) : Body := fun _ arguments =>
  let subject := argument arguments 0
  if subject.isEmpty then .ok [] else number (f subject.toNumber)

def relate (f : String → String → Bool) : Body := fun _ arguments =>
  boolean (f (textOf arguments 0) (textOf arguments 1))

def combine (f : String → String → String) : Body := fun _ arguments =>
  string (f (textOf arguments 0) (textOf arguments 1))

/-- The characters from a place on, up to a length if one is given. -/
def substring : Body := fun _ arguments =>
  string (Text.substring (textOf arguments 0) (argument arguments 1).toNumber
    (arguments[2]?.map Sequence.toNumber))

/-- The item at a 1-based place; empty for a place that is not a whole number or not there. -/
def itemAt : Body := fun _ arguments =>
  let place := (argument arguments 1).toNumber
  match toBinary? place with
  | some value =>
    if value.hasFraction || place < 1 then .ok []
    else .ok ((argument arguments 0)[value.whole - 1]?).toList
  | none => .ok []

/-- The 1-based places, from a given one on, of the items equal to a searched one. -/
def placesOf (searched : Item) (place : Nat) : Sequence → Sequence
  | [] => []
  | item :: rest =>
    if Comparison.eq.items item searched then
      .number (Float.ofNat place) :: placesOf searched (place + 1) rest
    else placesOf searched (place + 1) rest

/-- The places of the items equal to the first item of the second argument, which must have one. -/
def indexOf : Body := fun _ arguments =>
  match argument arguments 1 with
  | [] => .error .searchItemExpected
  | searched :: _ => .ok (placesOf searched 1 (argument arguments 0))

/-! ## The library -/

/-- A function of a fixed number of arguments that depends on them alone. -/
def exact (name : String) (arity : Nat) (body : Body) : List (Name × Overload) :=
  [(.unqualified name, ⟨arity, some arity, .pure, body⟩)]

/-- A function without arguments that depends on the context. -/
def context (name : String) (body : Body) : List (Name × Overload) :=
  [(.unqualified name, ⟨0, some 0, .contextual, body⟩)]

/-- A function of the context node, or of one argument. -/
def accessor (name : String) (body : Body) : List (Name × Overload) :=
  context name body ++ exact name 1 body

/-- Every core function with its overloads. -/
def functions : List (Name × Overload) :=
  context "position" position ++
  context "level" level ++
  accessor "node-kind" nodeKind ++
  accessor "name" (nameText "name" Name.display) ++
  accessor "local-name" (nameText "local-name" Name.localPart) ++
  accessor "namespace-uri" (nameText "namespace-uri" Name.uriText) ++
  accessor "string" (fun site arguments => string (subjectText site arguments)) ++
  accessor "number" toNumber ++
  exact "boolean" 1 (fun _ arguments => boolean (argument arguments 0).toBoolean) ++
  exact "not" 1 (fun _ arguments => boolean (!(argument arguments 0).toBoolean)) ++
  exact "true" 0 (fun _ _ => boolean true) ++
  exact "false" 0 (fun _ _ => boolean false) ++
  [(.unqualified "concat", ⟨2, none, .pure, fun _ arguments =>
    string (String.join (arguments.map Sequence.toText))⟩)] ++
  exact "string-join" 2
    (fun _ arguments => string ((argument arguments 0).join (textOf arguments 1))) ++
  accessor "string-length" (fun site arguments =>
    number (Float.ofNat (subjectText site arguments).length)) ++
  accessor "normalize-space" (fun site arguments =>
    string (Text.normalizeSpace (subjectText site arguments))) ++
  exact "contains" 2 (relate Text.contains) ++
  exact "starts-with" 2 (relate Text.startsWith) ++
  exact "ends-with" 2 (relate Text.endsWith) ++
  [(.unqualified "substring", ⟨2, some 3, .pure, substring⟩)] ++
  exact "substring-before" 2 (combine Text.before) ++
  exact "substring-after" 2 (combine Text.after) ++
  exact "translate" 3 (fun _ arguments =>
    string (Text.translate (textOf arguments 0) (textOf arguments 1) (textOf arguments 2))) ++
  exact "upper-case" 1 (fun _ arguments => string (Text.upperCase (textOf arguments 0))) ++
  exact "lower-case" 1 (fun _ arguments => string (Text.lowerCase (textOf arguments 0))) ++
  exact "floor" 1 (numeric floor) ++
  exact "ceiling" 1 (numeric ceiling) ++
  exact "round" 1 (numeric roundHalfUp) ++
  exact "sum" 1 (fun _ arguments => number (sum ((argument arguments 0).map Item.toNumber))) ++
  exact "count" 1 (fun _ arguments => number (Float.ofNat (argument arguments 0).length)) ++
  exact "empty" 1 (fun _ arguments => boolean (argument arguments 0).isEmpty) ++
  exact "exists" 1 (fun _ arguments => boolean !(argument arguments 0).isEmpty) ++
  exact "item-at" 2 itemAt ++
  exact "index-of" 2 indexOf

end StreamPath.Core

namespace StreamPath

def Library.core : Library :=
  Core.functions.foldl (fun library entry => library.register entry.1 entry.2) .empty

end StreamPath
