import StreamPath.Name

/-!
# Events

What a document looks like to a reader that sees it once: one event for every node that opens. An
element or a document has no text of its own, since its content has not been seen while it is open.
An `Occurrence` is an event at one place of the document; its serial number tells it from every
other one, however equal the two events are.
-/

namespace StreamPath

inductive Kind
  | document
  | element
  | attr
  | text
  | cdata
  | comment
  | instruction
deriving DecidableEq, Repr

namespace Kind

def display : Kind → String
  | document => "document"
  | element => "element"
  | attr => "attribute"
  | text => "text"
  | cdata => "cdata"
  | comment => "comment"
  | instruction => "processing-instruction"

end Kind

/-- What an event says about its node. -/
inductive Content
  | document
  | element (name : Name)
  | attr (name : Name) (value : String)
  | text (value : String)
  | cdata (value : String)
  | comment (value : String)
  | instruction (target data : String)
deriving DecidableEq, Repr

structure Attribute where
  name : Name
  value : String
deriving DecidableEq, Repr

/-- A node that opens: its content and the attributes it lists. -/
structure Event where
  content : Content
  attributes : List Attribute := []
deriving DecidableEq, Repr

namespace Event

def kind (event : Event) : Kind :=
  match event.content with
  | .document => .document
  | .element _ => .element
  | .attr _ _ => .attr
  | .text _ => .text
  | .cdata _ => .cdata
  | .comment _ => .comment
  | .instruction _ _ => .instruction

/-- The name of the node, if its kind has one; an instruction is named by its target. -/
def name? (event : Event) : Option Name :=
  match event.content with
  | .element name | .attr name _ => some name
  | .instruction target _ => some (.unqualified target)
  | _ => none

/-- The text of the node; empty for documents and elements. -/
def value (event : Event) : String :=
  match event.content with
  | .document | .element _ => ""
  | .attr _ value | .text value | .cdata value | .comment value => value
  | .instruction _ data => data

/-- Whether the event is an element of exactly this name. -/
def isElementNamed (event : Event) (name : Name) : Bool := event.content = .element name

end Event

/-- An event at one place of the document. -/
structure Occurrence where
  /-- Told apart from every other occurrence by this number. -/
  serial : Nat
  event : Event
deriving DecidableEq, Repr

namespace Occurrence

/-- Whether two occurrences are one and the same, however equal their events are. -/
def same (a b : Occurrence) : Bool := a.serial = b.serial

@[simp] theorem same_self (a : Occurrence) : a.same a = true := by simp [same]

theorem same_comm (a b : Occurrence) : a.same b = b.same a := by simp [same, eq_comm]

theorem same_trans {a b c : Occurrence} (first : a.same b) (second : b.same c) : a.same c := by
  simp_all [same]

end Occurrence

end StreamPath
