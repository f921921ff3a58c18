import StreamPath.Event

/-!
# Nodes as values

A node value points to an open node: an entry of the stack of open nodes, or one attribute that such
an entry lists. It carries the occurrence it was taken from, so its name and text can be read even
after the node has closed; whether it is still open is a question to the stack.
-/

namespace StreamPath

inductive Node
  /-- The entry at a depth of the stack of open nodes. -/
  | entry (depth : Nat) (occurrence : Occurrence)
  /-- An attribute, by its place in the owner's list. -/
  | attr (owner : Occurrence) (index : Nat)
deriving DecidableEq, Repr

namespace Node

def kind : Node → Kind
  | entry _ occurrence => occurrence.event.kind
  | attr _ _ => .attr

def name? : Node → Option Name
  | entry _ occurrence => occurrence.event.name?
  | attr owner index => (owner.event.attributes[index]?).map Attribute.name

/-- The text of the node; empty for an attribute that its owner does not list. -/
def text : Node → String
  | entry _ occurrence => occurrence.event.value
  | attr owner index => ((owner.event.attributes[index]?).map Attribute.value).getD ""

/-- The depth of an entry; an attribute is not on the stack itself. -/
def depth? : Node → Option Nat
  | entry depth _ => some depth
  | attr _ _ => none

/-- Whether two references point to one and the same node: places agree and so does the occurrence,
which may be open at several depths at once. -/
def same : Node → Node → Bool
  | entry depth occurrence, entry otherDepth other => depth = otherDepth && occurrence.same other
  | attr owner index, attr otherOwner otherIndex =>
    index = otherIndex && owner.same otherOwner
  | _, _ => false

@[simp] theorem same_self (node : Node) : node.same node = true := by
  cases node <;> simp [same]

theorem same_comm (a b : Node) : a.same b = b.same a := by
  cases a <;> cases b <;> simp [same, Occurrence.same_comm, eq_comm]

end Node

end StreamPath
