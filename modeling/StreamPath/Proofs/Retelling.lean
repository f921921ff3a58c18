import Mathlib.Data.List.Forall2
import StreamPath.Proofs.Evaluation
import StreamPath.Proofs.Liveness

/-!
# Values that differ in closed nodes

What a closed node was called and what it said can be told anew without anyone noticing. Here two
values are the same but for that: item by item they have the same type and the same content, and
nodes are the same nodes, of the same kind, and equal if they are open. The same is said of bindings,
scenes and contexts, item by item.

* `Sequence.Retold` — values that differ in the contents of closed nodes only;
* `Context.Retold` — contexts whose variables have such values;
* `Sequence.Retold.eq_of_open` — values without closed nodes are equal then.
-/

namespace StreamPath

variable (stack : Ancestors)

/-! ## Nodes -/

/-- One occurrence with another content of the same kind, unless it is open. -/
structure Occurrence.Retold (a b : Occurrence) : Prop where
  serial : a.serial = b.serial
  kind : a.event.kind = b.event.kind
  eq_of_open : ∀ depth, (stack.occurrence? depth).any a.same = true → a = b

/-- One node, whose occurrence may be told anew. -/
inductive Node.Retold : Node → Node → Prop
  | entry (depth : Nat) {a b : Occurrence} (told : a.Retold stack b) :
    Node.Retold (.entry depth a) (.entry depth b)
  | attr {a b : Occurrence} (index : Nat) (told : a.Retold stack b) :
    Node.Retold (.attr a index) (.attr b index)

/-- Equal items, or one node. -/
inductive Item.Retold : Item → Item → Prop
  | plain {item : Item} (noNode : item.node? = none) : Item.Retold item item
  | node {a b : Node} (told : a.Retold stack b) : Item.Retold (.node a) (.node b)

/-- Values that are retold item by item. -/
abbrev Sequence.Retold : Sequence → Sequence → Prop := List.Forall₂ (Item.Retold stack)

/-- Operands with retold values. -/
abbrev OperandsRetold : List (Operand × Sequence) → List (Operand × Sequence) → Prop :=
  List.Forall₂ fun operand other =>
    operand.1 = other.1 ∧ Sequence.Retold stack operand.2 other.2

variable {stack}

theorem Occurrence.Retold.same_left {a b : Occurrence} (told : a.Retold stack b)
    (other : Occurrence) : a.same other = b.same other := by
  unfold same
  rw [told.serial]

namespace Ancestors

/-- Where an occurrence is open does not depend on what it says. -/
theorem depthBelow_congr {a b : Occurrence} (same : ∀ other, a.same other = b.same other)
    (limit : Nat) : stack.depthBelow a limit = stack.depthBelow b limit := by
  have tests : a.same = b.same := funext same
  induction limit with
  | zero => rfl
  | succ depth ih => rw [depthBelow, depthBelow, tests, ih]

end Ancestors

theorem Node.Retold.refl (node : Node) : node.Retold stack node := by
  have told : ∀ occurrence : Occurrence, occurrence.Retold stack occurrence :=
    fun _ => ⟨rfl, rfl, fun _ _ => rfl⟩
  cases node with
  | entry depth occurrence => exact .entry depth (told occurrence)
  | attr owner index => exact .attr index (told owner)

namespace Node.Retold

variable {a b : Node} (told : a.Retold stack b)

include told

theorem kind : a.kind = b.kind := by
  cases told with
  | entry depth told => exact told.kind
  | attr index told => rfl

theorem depth? : a.depth? = b.depth? := by
  cases told <;> rfl

theorem isLive : stack.isLive a = stack.isLive b := by
  cases told with
  | entry depth told =>
    simp only [Ancestors.isLive, funext told.same_left]
  | attr index told =>
    simp only [Ancestors.isLive, Ancestors.depthOf?, Ancestors.depthBelow_congr told.same_left]

theorem eq_of_isLive (live : stack.isLive a = true) : a = b := by
  cases told with
  | entry depth told => rw [told.eq_of_open depth live]
  | attr index told =>
    obtain ⟨depth, found⟩ := Option.isSome_iff_exists.mp live
    rw [told.eq_of_open depth (Ancestors.exists_of_depthBelow found)]

end Node.Retold

/-! ## Items and sequences -/

theorem Item.Retold.refl (item : Item) : item.Retold stack item := by
  cases item with
  | node node => exact .node (.refl node)
  | boolean | number | string => exact .plain rfl

namespace Item.Retold

variable {a b : Item} (told : a.Retold stack b)

include told

theorem type : a.type = b.type := by
  cases told <;> rfl

theorem toBoolean : a.toBoolean = b.toBoolean := by
  cases told <;> rfl

theorem node? : Option.Rel (Node.Retold stack) a.node? b.node? := by
  cases told with
  | plain noNode =>
    rw [noNode]
    exact .none
  | node told => exact .some told

/-- The depth of an open entry does not depend on what it says. -/
theorem openDepth? {scene : Scene} (here : scene.stack = stack) :
    scene.openDepth? a = scene.openDepth? b := by
  subst here
  cases told with
  | plain => rfl
  | @node a b told =>
    simp only [Scene.openDepth?, Item.node?, Option.filter, told.isLive]
    split
    · exact told.depth?
    · rfl

end Item.Retold

namespace Sequence.Retold

theorem refl (items : Sequence) : Sequence.Retold stack items items :=
  List.forall₂_same.mpr fun item _ => .refl item

variable {a b : Sequence} (told : Sequence.Retold stack a b)

include told

theorem nodes : List.Forall₂ (Node.Retold stack) a.nodes b.nodes :=
  List.rel_filterMap (fun _ _ told => told.node?) told

theorem isEmpty : a.isEmpty = b.isEmpty := by
  cases told <;> rfl

theorem toBoolean : a.toBoolean = b.toBoolean := by
  cases told with
  | nil => rfl
  | cons first rest =>
    cases rest with
    | nil => exact first.toBoolean
    | cons second rest => rfl

theorem singleNumber? : a.singleNumber? = b.singleNumber? := by
  cases told with
  | nil => rfl
  | @cons item other _ _ first rest =>
    cases rest with
    | nil => cases first <;> rfl
    | cons second rest =>
      -- more than one item is no number, whatever the first one is
      cases first with
      | plain => cases item <;> rfl
      | node => rfl

theorem holdsAt (position : Nat) : holdsAt a position = holdsAt b position := by
  unfold StreamPath.holdsAt
  rw [told.singleNumber?, told.toBoolean]

/-- The first closed nodes are one and the same. -/
theorem firstClosed : Option.Rel (Node.Retold stack)
    (a.nodes.find? fun node => !stack.isLive node) (b.nodes.find? fun node => !stack.isLive node) := by
  have nodes := told.nodes
  generalize a.nodes = first at nodes
  generalize b.nodes = second at nodes
  induction nodes with
  | nil => exact .none
  | @cons node other rest others told _ ih =>
    rw [List.find?_cons, List.find?_cons, ← told.isLive]
    split
    · exact .some told
    · exact ih

/-- Values without closed nodes are not told anew. -/
theorem eq_of_open (isOpen : ¬stack.HoldsClosed a) : a = b := by
  induction told with
  | nil => rfl
  | @cons first second rest others told _ ih =>
    have same : first = second := by
      cases told with
      | plain => rfl
      | @node a b told =>
        have live : stack.isLive a = true := by
          by_contra closed
          exact isOpen ⟨a, List.mem_cons_self, by simpa using closed⟩
        rw [told.eq_of_isLive live]
    have later : ¬stack.HoldsClosed rest := by
      intro closed
      have held : stack.HoldsClosed ([first] ++ rest) := Ancestors.holdsClosed_append.mpr (.inr closed)
      exact isOpen held
    rw [same, ih later]

end Sequence.Retold

/-! ## Scenes and contexts -/

/-- The same variables are bound, to retold values. -/
def Bindings.Retold (stack : Ancestors) (a b : Bindings) : Prop :=
  ∀ name, Option.Rel (Sequence.Retold stack) (a.find? name) (b.find? name)

structure Activation.Retold (stack : Ancestors) (a b : Activation) : Prop where
  group : a.group = b.group
  previous : a.previous = b.previous
  bindings : a.bindings.Retold stack b.bindings

/-- Two scenes that differ in what their variables say of closed nodes, and in nothing else. -/
structure Scene.Retold (first second : Scene) : Prop where
  stack : first.stack = second.stack
  groups : first.groups = second.groups
  current : first.current = second.current
  activations : List.Forall₂ (Activation.Retold first.stack) first.activations second.activations
  locals : first.locals.Retold first.stack second.locals
  location : first.location = second.location
  sink : first.sink = second.sink

/-- Two contexts whose scenes differ so, and whose memories are the same. -/
structure Context.Retold (first second : Context) : Prop where
  scene : first.toScene.Retold second.toScene
  memory : first.toMemory = second.toMemory

theorem Bindings.Retold.contains {a b : Bindings} (told : a.Retold stack b) (name : Name) :
    a.contains name = b.contains name := by
  have same := told name
  unfold Table.contains
  generalize a.find? name = one at same
  generalize b.find? name = two at same
  cases same <;> rfl

namespace Scene.Retold

variable {first second : Scene} (told : first.Retold second)

include told

theorem frame? (group : GroupId) :
    Option.Rel (Bindings.Retold first.stack) (first.frame? group) (second.frame? group) := by
  have activations := told.activations
  unfold Scene.frame?
  generalize first.activations = here at activations
  generalize second.activations = there at activations
  induction activations with
  | nil => exact .none
  | @cons activation other rest others same _ ih =>
    rw [List.find?_cons, List.find?_cons, ← same.group]
    split
    · exact .some same.bindings
    · exact ih

/-- A search leads to the same place, since the same variables are bound. -/
theorem findScope (name : Name) : first.findScope name = second.findScope name := by
  have bound : ∀ group, (first.frame? group).any (fun bindings => bindings.contains name) =
      (second.frame? group).any fun bindings => bindings.contains name := by
    intro group
    have frames := told.frame? group
    generalize first.frame? group = one at frames
    generalize second.frame? group = two at frames
    cases frames with
    | none => rfl
    | some same => exact same.contains name
  unfold Scene.findScope
  rw [told.locals.contains, told.current, told.groups, funext bound]

theorem report (cause : Cause) : Run.report first cause = Run.report second cause := by
  unfold Run.report
  rw [Scene.judge_congr told.location.symm (congrArg Sink.respond told.sink.symm)]

end Scene.Retold

end StreamPath
