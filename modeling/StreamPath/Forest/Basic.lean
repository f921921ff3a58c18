import StreamPath.Expr.Form
import StreamPath.Function.Core

/-!
# Forests

All expressions of a compiled program live in one forest: nodes in order of creation, each with a
form over the identifiers of its operands, which were there before it. Trees can share nodes. A node
also has a default priority as a pattern and a flag that tells whether its value is the same
everywhere; both are fixed when it is added.

* `WellFounded` — every operand was there before its node;
* `wellFounded_add` — adding a node over nodes that are there keeps it so.
-/

namespace StreamPath

structure TreeNode where
  form : Form NodeId
  priority : Priority
  /-- Whether the value depends on nothing outside the node. -/
  constant : Bool

/-- The nodes of a compiled program. -/
structure Forest where
  nodes : Array TreeNode := #[]
  policy : PriorityPolicy := {}
  /-- The functions that calls refer to. -/
  library : Library := .core

namespace Forest

/-- The forest without nodes, with the standard priorities and the core functions. -/
def empty : Forest := {}

instance : Inhabited Forest := ⟨empty⟩

def size (forest : Forest) : Nat := forest.nodes.size

def node? (forest : Forest) (id : NodeId) : Option TreeNode := forest.nodes[id.index]?

def form? (forest : Forest) (id : NodeId) : Option (Form NodeId) :=
  (forest.node? id).map TreeNode.form

def priority (forest : Forest) (id : NodeId) : Priority :=
  ((forest.node? id).map TreeNode.priority).getD forest.policy.composite

def isConstant (forest : Forest) (id : NodeId) : Bool := (forest.node? id).any TreeNode.constant

def describe (forest : Forest) (id : NodeId) : String := ((forest.form? id).map Form.describe).getD ""

/-! ## Chains -/

/-- The arguments chained below a node, which is itself the only one if it chains none. An operand
was there before its node, so as many steps as the identifier counts reach the end. -/
def chained (forest : Forest) : (steps : Nat) → NodeId → List NodeId
  | 0, id => [id]
  | steps + 1, id =>
    match forest.form? id with
    | some (.list left last) => forest.chained steps left ++ [last]
    | _ => [id]

def arguments (forest : Forest) : Option NodeId → List NodeId
  | none => []
  | some id => forest.chained id.index id

/-- The alternatives of a pattern, at most `steps` unions deep. -/
def alternativesWithin (forest : Forest) : (steps : Nat) → NodeId → List NodeId
  | 0, id => [id]
  | steps + 1, id =>
    match forest.form? id with
    | some (.union left right) =>
      forest.alternativesWithin steps left ++ forest.alternativesWithin steps right
    | _ => [id]

/-- The alternatives of a union, nested ones included, from left to right; any other pattern is its
own only alternative. -/
def alternatives (forest : Forest) (id : NodeId) : List NodeId :=
  forest.alternativesWithin id.index id

/-! ## Adding nodes -/

/-- Whether a form depends on the context only through its operands. -/
def isContextFree (forest : Forest) : Form NodeId → Bool
  | .literal _ | .arithmetic .. | .negate _ | .logic .. | .compare .. | .sequence .. | .list ..
  | .template .. => true
  | .call function arguments =>
    forest.library.isPure function (forest.arguments arguments).length
  | _ => false

/-- The flag of a new node: its form and all its operands depend on nothing outside. -/
def infersConstant (forest : Forest) (form : Form NodeId) : Bool :=
  forest.isContextFree form && form.operands.all forest.isConstant

def append (forest : Forest) (node : TreeNode) : NodeId × Forest :=
  (⟨forest.size⟩, { forest with nodes := forest.nodes.push node })

/-- Add a node over nodes that are there. -/
def add (forest : Forest) (form : Form NodeId) : NodeId × Forest :=
  forest.append ⟨form, form.priority forest.policy, forest.infersConstant form⟩

/-- Chain further arguments behind a chain of arguments. -/
def addChain (forest : Forest) (chain : NodeId) : List NodeId → NodeId × Forest
  | [] => (chain, forest)
  | argument :: rest =>
    let (longer, grown) := forest.add (.list chain argument)
    grown.addChain longer rest

/-- Add a call. The arguments are chained from left to right. -/
def addCall (forest : Forest) (function : Name) : List NodeId → NodeId × Forest
  | [] => forest.add (.call function none)
  | first :: rest =>
    let (chain, grown) := forest.addChain first rest
    grown.add (.call function (some chain))

/-- Append parts to a template. -/
def addParts (forest : Forest) (before : NodeId) : List NodeId → NodeId × Forest
  | [] => (before, forest)
  | part :: rest =>
    let (longer, grown) := forest.add (.template (some before) (some part))
    grown.addParts longer rest

/-- Add a template of the given parts, a node for every part. -/
def addTemplate (forest : Forest) : List NodeId → NodeId × Forest
  | [] => forest.add (.template none none)
  | part :: rest =>
    let (first, grown) := forest.add (.template none (some part))
    grown.addParts first rest

/-! ## Reachable nodes -/

/-- The nodes below `limit` that are operands of marked ones, or of nodes marked on the way down. -/
def markOperands (forest : Forest) : (limit : Nat) → (marked : List NodeId) → List NodeId
  | 0, marked => marked
  | index + 1, marked =>
    let further :=
      if marked.contains ⟨index⟩ then
        (((forest.form? ⟨index⟩).map Form.operands).getD []).filter fun id => !marked.contains id
      else []
    forest.markOperands index (further ++ marked)

/-- The nodes reachable from a node, itself included, in order of creation. -/
def reachable (forest : Forest) (id : NodeId) : List NodeId :=
  let marked := forest.markOperands (id.index + 1) [id]
  ((List.range (id.index + 1)).map NodeId.mk).filter fun candidate => marked.contains candidate

/-! ## Well-founded forests -/

/-- Every operand was there before its node. -/
def WellFounded (forest : Forest) : Prop :=
  ∀ id form, forest.form? id = some form → ∀ operand ∈ form.operands, operand.index < id.index

theorem wellFounded_empty : empty.WellFounded := by
  intro id form found
  simp [form?, node?, empty] at found

theorem form?_append (forest : Forest) (node : TreeNode) (id : NodeId) :
    (forest.append node).2.form? id =
      if id.index = forest.size then some node.form else forest.form? id := by
  by_cases last : id.index = forest.size
  · simp only [last, if_true, form?, node?, append, size] at *
    simp
  · have ne : id.index ≠ forest.nodes.size := last
    simp [form?, node?, append, Array.getElem?_push, ne, last]

/-- A new node over nodes that are there keeps every operand before its node. -/
theorem wellFounded_append {forest : Forest} (founded : forest.WellFounded) {node : TreeNode}
    (there : ∀ operand ∈ node.form.operands, operand.index < forest.size) :
    (forest.append node).2.WellFounded := by
  intro id other found operand mem
  rw [form?_append] at found
  split at found
  · next last =>
    cases found
    rw [last]
    exact there operand mem
  · exact founded id other found operand mem

/-- Adding a node over nodes that are there keeps every operand before its node. -/
theorem wellFounded_add {forest : Forest} (founded : forest.WellFounded) {form : Form NodeId}
    (there : ∀ operand ∈ form.operands, operand.index < forest.size) :
    (forest.add form).2.WellFounded :=
  wellFounded_append founded there

end Forest

end StreamPath
