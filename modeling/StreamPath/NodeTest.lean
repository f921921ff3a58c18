import StreamPath.Event

/-!
# Node tests

A node test selects the children of a node by kind and name. Positions are counted in classes of
siblings, and every test has the class of those that it selects, so a node's position for a test is
its rank among the siblings that the test selects.

* `mem_classes_iff` — an event is counted in the class of a test exactly if the test selects it.
-/

namespace StreamPath

/-- A test on children: elements by name, other nodes by kind. -/
inductive NodeTest
  | element (name : Name)
  | anyElement
  | elementIn (uri : String)
  | elementNamed (localPart : String)
  /-- All nodes that can be children. -/
  | anyNode
  /-- Text and CDATA sections together. -/
  | text
  | cdata
  | comment
  /-- Instructions, of one target if one is given. -/
  | instruction (target : Option String)
deriving DecidableEq, Repr

namespace NodeTest

def selects (test : NodeTest) (event : Event) : Bool :=
  match test, event.content with
  | element name, .element other => name = other
  | anyElement, .element _ => true
  | elementIn uri, .element name => uri = name.uriText
  | elementNamed localPart, .element name => localPart = name.localPart
  | anyNode, .document => false
  | anyNode, .attr _ _ => false
  | anyNode, _ => true
  | text, .text _ => true
  | text, .cdata _ => true
  | cdata, .cdata _ => true
  | comment, .comment _ => true
  | instruction none, .instruction _ _ => true
  | instruction (some target), .instruction other _ => target = other
  | _, _ => false

/-- An attribute is nobody's child, so no test selects one. -/
theorem not_selects_of_attr (test : NodeTest) {event : Event} (attr : event.kind = .attr) :
    test.selects event = false := by
  obtain ⟨content, attributes⟩ := event
  cases content <;> simp only [Event.kind, reduceCtorEq] at attr
  cases test <;> simp [selects]

end NodeTest

/-! ## Classes of siblings -/

/-- A class of siblings in which positions are counted. -/
inductive SiblingClass
  | anyNode
  | anyElement
  | element (name : Name)
  | elementIn (uri : String)
  | elementNamed (localPart : String)
  /-- Text and CDATA sections together. -/
  | text
  | cdata
  | comment
  | anyInstruction
  | instruction (target : String)
deriving DecidableEq, Repr

/-- The classes in which a child is counted. -/
def SiblingClass.classes (event : Event) : List SiblingClass :=
  match event.content with
  | .document | .attr _ _ => []
  | .element name =>
    [anyElement, element name, elementIn name.uriText, elementNamed name.localPart, anyNode]
  | .text _ => [text, anyNode]
  | .cdata _ => [text, cdata, anyNode]
  | .comment _ => [comment, anyNode]
  | .instruction target _ => [anyInstruction, instruction target, anyNode]

/-- The class in which a test counts positions. -/
def NodeTest.siblingClass : NodeTest → SiblingClass
  | element name => .element name
  | anyElement => .anyElement
  | elementIn uri => .elementIn uri
  | elementNamed localPart => .elementNamed localPart
  | anyNode => .anyNode
  | text => .text
  | cdata => .cdata
  | comment => .comment
  | instruction none => .anyInstruction
  | instruction (some target) => .instruction target

namespace SiblingClass

/-- A child is counted in the class of a test exactly if the test selects it. -/
theorem mem_classes_iff (test : NodeTest) (event : Event) :
    test.siblingClass ∈ classes event ↔ test.selects event = true := by
  obtain ⟨content, attributes⟩ := event
  cases test
  case instruction target =>
    cases target <;> cases content <;> simp [classes, NodeTest.siblingClass, NodeTest.selects]
  all_goals cases content <;> simp [classes, NodeTest.siblingClass, NodeTest.selects]

/-- A child is counted once in each class. -/
theorem nodup_classes (event : Event) : (classes event).Nodup := by
  obtain ⟨content, attributes⟩ := event
  cases content <;> simp [classes]

end SiblingClass

/-- A test on attributes, by name alone. -/
inductive AttributeTest
  | named (name : Name)
  | any
  | inNamespace (uri : String)
  | locallyNamed (localPart : String)
deriving DecidableEq, Repr

namespace AttributeTest

def selects : AttributeTest → Name → Bool
  | named expected, name => expected = name
  | any, _ => true
  | inNamespace uri, name => uri = name.uriText
  | locallyNamed localPart, name => localPart = name.localPart

end AttributeTest

end StreamPath
