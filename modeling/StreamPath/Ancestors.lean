import StreamPath.NodeTest
import StreamPath.Node
import StreamPath.Table

/-!
# The stack of open nodes

Every node that is open, outermost first. An entry counts the children it has seen, one count per
class of siblings, so the position of a child is known without remembering the children before it.

* `occurrence?_pushOccurrence`, `occurrence?_pop` — what pushing and popping leave open;
* `isLive_of_node?` — a reference just taken is live;
* `isLive_attr_iff` — an attribute is live if its owner is open anywhere.
-/

namespace StreamPath

/-- An open node and how many children of each class it has seen. -/
structure Entry where
  occurrence : Occurrence
  counts : Table SiblingClass Nat := .empty
deriving Repr

/-- Count a child in every class that it belongs to. -/
def Entry.countChild (entry : Entry) (event : Event) : Entry :=
  { entry with
    counts := (SiblingClass.classes event).foldl
      (fun counts kin => counts.insert kin ((counts.find? kin).getD 0 + 1)) entry.counts }

/-- The open nodes, outermost first. -/
structure Ancestors where
  entries : Array Entry := #[]
  /-- The serial number of the next new occurrence. -/
  nextSerial : Nat := 0
deriving Repr

namespace Ancestors

def empty : Ancestors := {}

instance : Inhabited Ancestors := ⟨empty⟩

def height (stack : Ancestors) : Nat := stack.entries.size

/-- The occurrence open at a depth. -/
def occurrence? (stack : Ancestors) (depth : Nat) : Option Occurrence :=
  (stack.entries[depth]?).map Entry.occurrence

def top? (stack : Ancestors) : Option Occurrence := stack.occurrence? (stack.height - 1)

/-- Open a given occurrence, which may be open already. The innermost open node counts it. -/
def pushOccurrence (stack : Ancestors) (occurrence : Occurrence) : Ancestors where
  entries :=
    (stack.entries.modify (stack.height - 1) fun parent => parent.countChild occurrence.event).push
      { occurrence }
  nextSerial := max stack.nextSerial (occurrence.serial + 1)

/-- Open a node that differs from every node before it. -/
def push (stack : Ancestors) (event : Event) : Ancestors :=
  stack.pushOccurrence ⟨stack.nextSerial, event⟩

def pop (stack : Ancestors) : Ancestors := { stack with entries := stack.entries.pop }

/-- Close nodes until at most `height` are open. -/
def truncate (stack : Ancestors) (height : Nat) : Ancestors :=
  { stack with entries := stack.entries.take height }

/-- A reference to the entry at a depth. -/
def node? (stack : Ancestors) (depth : Nat) : Option Node :=
  (stack.occurrence? depth).map (Node.entry depth)

/-- The attributes listed by the entry at a depth. -/
def attributes (stack : Ancestors) (depth : Nat) : List Attribute :=
  ((stack.occurrence? depth).map fun occurrence => occurrence.event.attributes).getD []

/-- How many children of a class an entry has seen. -/
def count (stack : Ancestors) (depth : Nat) (kin : SiblingClass) : Nat :=
  ((stack.entries[depth]?).bind fun entry => entry.counts.find? kin).getD 0

/-- The position of an entry among its siblings in the class of a test: how many of them its parent
has seen. The outermost node has no siblings. -/
def positionOf (stack : Ancestors) (depth : Nat) (test : NodeTest) : Nat :=
  match depth with
  | 0 => 1
  | parent + 1 => stack.count parent test.siblingClass

/-- The innermost depth below `limit` at which an occurrence is open. -/
def depthBelow (stack : Ancestors) (occurrence : Occurrence) : (limit : Nat) → Option Nat
  | 0 => none
  | depth + 1 =>
    if (stack.occurrence? depth).any occurrence.same then some depth
    else stack.depthBelow occurrence depth

/-- The innermost depth at which an occurrence is open. -/
def depthOf? (stack : Ancestors) (occurrence : Occurrence) : Option Nat :=
  stack.depthBelow occurrence stack.height

/-- Whether a node is still open: an entry at its own depth, an attribute with its owner. -/
def isLive (stack : Ancestors) : Node → Bool
  | .entry depth occurrence => (stack.occurrence? depth).any occurrence.same
  | .attr owner _ => (stack.depthOf? owner).isSome

/-! ## The view of the open occurrences -/

@[simp] theorem height_pushOccurrence (stack : Ancestors) (occurrence : Occurrence) :
    (stack.pushOccurrence occurrence).height = stack.height + 1 := by
  simp [height, pushOccurrence]

@[simp] theorem height_push (stack : Ancestors) (event : Event) :
    (stack.push event).height = stack.height + 1 := height_pushOccurrence stack _

@[simp] theorem height_pop (stack : Ancestors) : stack.pop.height = stack.height - 1 := by
  simp [height, pop]

@[simp] theorem height_truncate (stack : Ancestors) (height : Nat) :
    (stack.truncate height).height = min height stack.height := by
  simp [Ancestors.height, truncate]

theorem lt_height_of_occurrence? {stack : Ancestors} {depth : Nat} {occurrence : Occurrence}
    (there : stack.occurrence? depth = some occurrence) : depth < stack.height := by
  obtain ⟨entry, found, -⟩ := Option.map_eq_some_iff.mp there
  exact (Array.getElem?_eq_some_iff.mp found).1

/-- Opening a node leaves the ones below it where they are. -/
theorem occurrence?_pushOccurrence (stack : Ancestors) (occurrence : Occurrence) (depth : Nat) :
    (stack.pushOccurrence occurrence).occurrence? depth =
      if depth = stack.height then some occurrence else stack.occurrence? depth := by
  by_cases top : depth = stack.height
  · subst top
    simp [occurrence?, pushOccurrence, height, Array.getElem_push]
  · have ne : depth ≠ stack.entries.size := top
    rw [if_neg top]
    simp only [occurrence?, pushOccurrence, Array.getElem?_push, Array.size_modify, ne, if_false,
      Array.getElem?_modify]
    split
    · next eq =>
      subst eq
      cases stack.entries[stack.height - 1]? <;> simp [Entry.countChild]
    · rfl

/-- Closing a node leaves the ones below it where they are. -/
theorem occurrence?_pop (stack : Ancestors) (depth : Nat) :
    stack.pop.occurrence? depth =
      if depth < stack.height - 1 then stack.occurrence? depth else none := by
  by_cases below : depth < stack.height - 1
  · rw [if_pos below]
    have inside : depth < stack.entries.size := by simp only [height] at below; omega
    simp [occurrence?, pop, show depth < stack.entries.size - 1 from below, inside]
  · rw [if_neg below]
    simp [occurrence?, pop, show ¬depth < stack.entries.size - 1 from below]

/-! ## References -/

section Search

variable {stack : Ancestors}

theorem exists_of_depthBelow {occurrence : Occurrence} {limit depth : Nat}
    (found : stack.depthBelow occurrence limit = some depth) :
    (stack.occurrence? depth).any occurrence.same = true := by
  induction limit with
  | zero => cases found
  | succ limit ih =>
    unfold depthBelow at found
    split at found
    · next there =>
      cases found
      exact there
    · exact ih found

/-- The search finds an occurrence below a limit if it is open somewhere below. -/
theorem isSome_depthBelow {occurrence : Occurrence} {limit depth : Nat} (below : depth < limit)
    (there : (stack.occurrence? depth).any occurrence.same = true) :
    (stack.depthBelow occurrence limit).isSome = true := by
  induction limit with
  | zero => exact absurd below (Nat.not_lt_zero depth)
  | succ limit ih =>
    unfold depthBelow
    split
    · rfl
    · next elsewhere =>
      refine ih (Nat.lt_of_le_of_ne (Nat.le_of_lt_succ below) ?_)
      rintro rfl
      exact elsewhere there

/-- An attribute is live if its owner is open anywhere. -/
theorem isLive_attr_iff {owner : Occurrence} {index : Nat} :
    stack.isLive (.attr owner index) = true ↔
      ∃ depth, (stack.occurrence? depth).any owner.same = true := by
  constructor
  · intro live
    obtain ⟨depth, found⟩ := Option.isSome_iff_exists.mp live
    exact ⟨depth, exists_of_depthBelow found⟩
  · rintro ⟨depth, there⟩
    obtain ⟨found, open?, -⟩ := (Option.any_eq_true _ _).mp there
    exact isSome_depthBelow (lt_height_of_occurrence? open?) there

end Search

/-- A reference just taken is live. -/
theorem isLive_of_node? {stack : Ancestors} {depth : Nat} {node : Node}
    (taken : stack.node? depth = some node) : stack.isLive node = true := by
  simp only [node?, Option.map_eq_some_iff] at taken
  obtain ⟨occurrence, open?, rfl⟩ := taken
  simp [isLive, open?]

end Ancestors

end StreamPath
