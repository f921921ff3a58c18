import StreamPath.Expr.Basic
import StreamPath.Function.Library
import StreamPath.Ranking
import StreamPath.Scene

/-!
# Evaluating expressions

`evaluate` computes the value of an expression with the open nodes up to a height `top` in view; the
innermost of these is the context node. A path reaches only nodes that are open, and the attributes
of open elements. What goes wrong with the data is reported, and the value is then empty if the run
goes on.

Every operator that uses up its operands first asks whether their nodes are still open (`usable`);
operators that only pass values on do not.
-/

namespace StreamPath

/-! ## Checks on operands -/

/-- Whether every node among the items is still open. The first that is not is reported. -/
def Scene.usable (scene : Scene) (operand : Operand) (items : Sequence) : Run Bool :=
  match items.nodes.find? fun node => !scene.stack.isLive node with
  | some closed => do
    Run.report scene (.closedOperand operand closed.kind)
    return false
  | none => return true

/-- Whether all operands are usable, asked in order up to the first that is not. -/
def Scene.allUsable (scene : Scene) : List (Operand × Sequence) → Run Bool
  | [] => return true
  | (operand, items) :: rest => do
    if ← scene.usable operand items then scene.allUsable rest else return false

/-- Use operands if they are usable; the value is empty otherwise. -/
def Scene.using (scene : Scene) (operands : List (Operand × Sequence)) (use : Run Sequence) :
    Run Sequence := do
  if ← scene.allUsable operands then use else return []

/-! ## Unions -/

/-- Keep the first of identical nodes. -/
def distinct : List Node → List Node
  | [] => []
  | node :: rest => node :: (distinct rest).filter fun other => !other.same node

/-- The place of a node in document order: an entry before the attributes it lists, and those before
the entries above it. -/
def Ancestors.orderKey (stack : Ancestors) : Node → Nat × Nat
  | .entry depth _ => (depth, 0)
  | .attr owner index => ((stack.depthOf? owner).getD 0, index + 1)

/-- Whether one node comes before another in document order. -/
def Ancestors.precedes (stack : Ancestors) (a b : Node) : Bool :=
  let (depthA, placeA) := stack.orderKey a
  let (depthB, placeB) := stack.orderKey b
  depthA < depthB || (depthA = depthB && placeA < placeB)

/-- Each node once, in document order. -/
def Ancestors.documentOrder (stack : Ancestors) (nodes : List Node) : List Node :=
  Ranking.arrange stack.precedes (distinct nodes)

/-- The union of the nodes among usable items, which must all be nodes. -/
def Scene.unionOf (scene : Scene) (items : Sequence) : Run Sequence :=
  match items.find? fun item => item.node?.isNone with
  | some item => Run.fallback scene (.unionOfItem item.type)
  | none => return (scene.stack.documentOrder items.nodes).map .node

/-! ## Steps -/

/-- The heights at which a step from a depth looks for nodes. -/
def Scene.heights (scene : Scene) (axis : Axis) (depth : Nat) : List Nat :=
  match axis with
  | .child => [depth + 1]
  | .descendant => List.range' (depth + 1) (scene.stack.height - depth)

/-- What a computation gives at several heights, one after the other. -/
def atHeights (next : Nat → Run Sequence) : List Nat → Run Sequence
  | [] => return []
  | height :: rest => do
    let here ← next height
    let more ← atHeights next rest
    return here ++ more

/-- What a step finds from each item in turn. Attributes have nothing below them. The first item that
is not an open node is reported, and then there is no result. -/
def Scene.stepFrom (scene : Scene) (axis : Axis) (next : Nat → Run Sequence) :
    Sequence → Run (Option Sequence)
  | [] => return some []
  | .node node :: rest =>
    if scene.stack.isLive node then do
      let here ← match node.depth? with
        | some depth => atHeights next (scene.heights axis depth)
        | none => pure []
      let more ← scene.stepFrom axis next rest
      return more.map (here ++ ·)
    else do
      Run.report scene (.closedStep node.kind)
      return none
  | item :: _ => do
    Run.report scene (.stepFromItem item.type)
    return none

/-! ## Filters -/

/-- Whether the value of a condition selects the item at a position: a single number selects its
position, any other value selects if it is true. -/
def holdsAt (value : Sequence) (position : Nat) : Bool :=
  match value.singleNumber? with
  | some number => number == Float.ofNat position
  | none => value.toBoolean

/-- The items that one value selects, counting positions from a given one. -/
def selected (value : Sequence) (position : Nat) : Sequence → Sequence
  | [] => []
  | item :: rest =>
    if holdsAt value position then item :: selected value (position + 1) rest
    else selected value (position + 1) rest

/-- The depth of an item that is an open entry. -/
def Scene.openDepth? (scene : Scene) (item : Item) : Option Nat :=
  (item.node?.filter scene.stack.isLive).bind Node.depth?

/-- The items that a condition selects, each with the item as context node and its place as
position. The first item that is not an open entry is reported, with the position moved back, and
then there is no result. -/
def Scene.select (scene : Scene) (condition : Nat → Run Sequence) (saved : Nat) (position : Nat) :
    Sequence → Run (Option Sequence)
  | [] => return some []
  | item :: rest =>
    match scene.openDepth? item with
    | some depth => do
      Run.setPosition position
      let value ← condition (depth + 1)
      let more ← scene.select condition saved (position + 1) rest
      return more.map fun items => if holdsAt value position then item :: items else items
    | none => do
      Run.setPosition saved
      Run.report scene (.filterOffStack item.type)
      return none

/-! ## Variables -/

/-- The value of a variable. The group found by the first reference is remembered for the node, and
later references go straight to the newest activation of that group. -/
def Scene.readVariable (scene : Scene) (id : NodeId) (name : Name) : Run (Option Sequence) := do
  match scene.locals.find? name with
  | some value => return some value
  | none =>
    match (← get).scopes.find? id with
    | some group => return (scene.frame? group).bind fun bindings => bindings.find? name
    | none =>
      match scene.findScope name with
      | some (.group group) =>
        modify fun memory => { memory with scopes := memory.scopes.insert id group }
        return (scene.frame? group).bind fun bindings => bindings.find? name
      | some .rule | none => return none

/-! ## Expressions -/

/-- The entry above the first `top` open nodes, which is the one child of the context node in view,
if the test selects it. -/
def Scene.childEntry (scene : Scene) (test : NodeTest) (top : Nat) : Sequence :=
  if 1 ≤ top && (scene.stack.occurrence? top).any fun child => test.selects child.event then
    scene.entryAt top
  else []

/-- The attributes of the context node that the test selects, if the node is an element. -/
def Scene.contextAttributes (scene : Scene) (test : AttributeTest) (top : Nat) : Sequence :=
  match top with
  | 0 => []
  | depth + 1 =>
    match scene.stack.occurrence? depth with
    | some owner =>
      if owner.event.kind = .element then
        (List.range owner.event.attributes.length).filterMap fun index =>
          match owner.event.attributes[index]? with
          | some item => if test.selects item.name then some (.node (.attr owner index)) else none
          | none => none
      else []
    | none => []

namespace Expr

variable (library : Library) (scene : Scene)

mutual

/-- The value of an expression with `top` open nodes in view. -/
def evaluate : Expr → Nat → Run Sequence
  | root, top => return if top = 0 then [] else scene.entryAt 0
  | contextItem _, top =>
    match top with
    | 0 => return []
    | depth + 1 => return scene.entryAt depth
  | parent _, top =>
    match top with
    | 0 | 1 => return []
    | depth + 2 => return scene.entryAt depth
  | nodeTest test, top => return scene.childEntry test top
  | attributeTest test, top => return scene.contextAttributes test top
  | step axis base next, top => do
    let starts ← base.evaluate top
    let found? ← scene.stepFrom axis (fun height => next.evaluate height) starts
    return found?.getD []
  | union left right, top => do
    let a ← left.evaluate top
    let b ← right.evaluate top
    scene.using [(.union, a ++ b)] (scene.unionOf (a ++ b))
  | filter true base condition, top => do
    -- asked once, even if there is no item to ask it of
    let items ← base.evaluate top
    let value ← condition.evaluate top
    return selected value 1 items
  | filter false base condition, top => do
    let items ← base.evaluate top
    let saved ← Run.position
    -- a condition that ends the run leaves the position where it was asked
    let kept? ← scene.select (fun height => condition.evaluate height) saved 1 items
    Run.setPosition saved
    return kept?.getD []
  | call _ function arguments, top => do
    let values ← evaluateAll arguments top
    -- closed nodes are refused before the function is even looked up
    scene.using (values.map fun value => (.argument function, value)) do
      let position ← Run.position
      match library.resolve function values.length with
      | .error cause => Run.fallback scene cause
      | .ok overload =>
        match overload.body ⟨scene.stack, position, top⟩ values with
        | .error cause => Run.fallback scene cause
        | .ok value => return value
  | literal _ value, _ => return value.value
  | arithmetic _ op left right, top => do
    let a ← left.evaluate top
    let b ← right.evaluate top
    if a.isEmpty || b.isEmpty then return []
    else if a.length > 1 || b.length > 1 then Run.fallback scene .manyArithmetic
    else
      scene.using [(.arithmetic, a), (.arithmetic, b)]
        (return .ofNumber (op.apply a.toNumber b.toNumber))
  | negate _ operand, top => do
    let value ← operand.evaluate top
    if value.isEmpty then return []
    else if value.length > 1 then Run.fallback scene .manyNegated
    else scene.using [(.negated, value)] (return .ofNumber (-value.toNumber))
  | logic _ op left right, top => do
    let first ← left.evaluate top
    -- the second operand is evaluated only if the first leaves the answer open
    match op, first.toBoolean with
    | .and, false => return .ofBoolean false
    | .or, true => return .ofBoolean true
    | _, _ => do
      let second ← right.evaluate top
      return .ofBoolean second.toBoolean
  | compare _ op left right, top => do
    let a ← left.evaluate top
    let b ← right.evaluate top
    scene.using [(.compared, a), (.compared, b)] (return .ofBoolean (op.sequences a b))
  | sequence _ left right, top => do
    let a ← left.evaluate top
    let b ← right.evaluate top
    return a ++ b
  | list id, _ => Run.abort scene (.unsuitable (Form.list () ()).describe id .value)
  | template _ before part, top => do
    let text ← before.evaluate top
    let items ← part.evaluate top
    scene.using [(.templateText, text), (.templatePart, items)]
      (return .ofString (text.toText ++ items.join " "))
  | var id name, _ => do
    match ← scene.readVariable id name with
    | some value => return value
    | none => Run.fallback scene (.undeclaredVariable name)

/-- The values of expressions, from left to right. -/
def evaluateAll : List Expr → Nat → Run (List Sequence)
  | [], _ => return []
  | expr :: rest, top => do
    let value ← expr.evaluate top
    let values ← evaluateAll rest top
    return value :: values

end

end Expr

end StreamPath
