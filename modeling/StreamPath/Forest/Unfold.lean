import StreamPath.Context
import StreamPath.Expr.Pattern
import StreamPath.Forest.Basic

/-!
# From forests to expressions

Every node of a forest stands for an expression, which its operands' expressions make up. They are
built in order of creation, so shared nodes are built once.

* `expression` — the expression of a node;
* `evaluate`, `accepts` — running it in a context.
-/

namespace StreamPath

namespace Forest

/-- The expression of a form, given those of its operands. A missing part of a template is an
expression whose value is always empty. -/
def assemble (forest : Forest) (operand : NodeId → Expr) (id : NodeId) : Form NodeId → Expr
  | .root => .root
  | .step axis base next => .step axis (operand base) (operand next)
  | .union left right => .union (operand left) (operand right)
  | .nodeTest test => .nodeTest test
  | .attributeTest test => .attributeTest test
  | .filter base condition =>
    .filter (forest.isConstant condition) (operand base) (operand condition)
  | .call function arguments => .call id function ((forest.arguments arguments).map operand)
  | .literal value => .literal id value
  | .arithmetic op left right => .arithmetic id op (operand left) (operand right)
  | .negate inner => .negate id (operand inner)
  | .logic op left right => .logic id op (operand left) (operand right)
  | .compare op left right => .compare id op (operand left) (operand right)
  | .sequence left right => .sequence id (operand left) (operand right)
  | .list _ _ => .list id
  | .template before part =>
    .template id ((before.map operand).getD (.nothing id)) ((part.map operand).getD (.nothing id))
  | .var name => .var id name
  | .contextItem => .contextItem id
  | .parent => .parent id

/-- The expression of a node, given those of the nodes before it. A node that is not there stands
for no value. -/
def expressionOver (forest : Forest) (earlier : Array Expr) (id : NodeId) : Expr :=
  match forest.form? id with
  | some form =>
    forest.assemble (fun operand => earlier[operand.index]?.getD (.nothing operand)) id form
  | none => .nothing id

/-- The expressions of the first nodes. -/
def expressions (forest : Forest) : (count : Nat) → Array Expr
  | 0 => #[]
  | count + 1 =>
    let earlier := forest.expressions count
    earlier.push (forest.expressionOver earlier ⟨count⟩)

/-- The expression that a node stands for. -/
def expression (forest : Forest) (id : NodeId) : Expr :=
  forest.expressionOver (forest.expressions id.index) id

@[simp] theorem size_expressions (forest : Forest) (count : Nat) :
    (forest.expressions count).size = count := by
  induction count with
  | zero => rfl
  | succ count ih => simp [expressions, ih]

/-- The expressions of the first nodes are those that the nodes stand for. -/
theorem getElem?_expressions (forest : Forest) {count index : Nat} (lt : index < count) :
    (forest.expressions count)[index]? = some (forest.expression ⟨index⟩) := by
  induction count with
  | zero => exact absurd lt (Nat.not_lt_zero index)
  | succ count ih =>
    rw [expressions, Array.getElem?_push, size_expressions]
    by_cases last : index = count
    · subst last
      simp [expression]
    · rw [if_neg last]
      exact ih (by omega)

/-- A node that is not there stands for no value. -/
theorem expression_of_missing {forest : Forest} {id : NodeId} (missing : forest.form? id = none) :
    forest.expression id = .nothing id := by
  rw [expression, expressionOver, missing]

/-- The expression of a node is made up of those of its operands that were there before it. -/
theorem expression_of_form? {forest : Forest} {id : NodeId} {form : Form NodeId}
    (found : forest.form? id = some form) :
    forest.expression id =
      forest.assemble
        (fun operand =>
          if operand.index < id.index then forest.expression operand else .nothing operand)
        id form := by
  have same : (fun operand : NodeId =>
      ((forest.expressions id.index)[operand.index]?).getD (.nothing operand)) =
      fun operand =>
        if operand.index < id.index then forest.expression operand else .nothing operand := by
    funext operand
    by_cases lt : operand.index < id.index
    · rw [getElem?_expressions forest lt, if_pos lt]
      rfl
    · rw [if_neg lt, Array.getElem?_eq_none (by simpa using lt)]
      rfl
  rw [expression, expressionOver, found]
  simp only [same]

/-- Forms make up the same expressions where the arguments of calls and the flags are the same. -/
theorem assemble_congr {before after : Forest}
    (arguments : ∀ chain, after.arguments chain = before.arguments chain)
    (isConstant : ∀ id, after.isConstant id = before.isConstant id) (operand : NodeId → Expr)
    (id : NodeId) (form : Form NodeId) :
    after.assemble operand id form = before.assemble operand id form := by
  cases form <;> simp only [assemble, arguments, isConstant]

/-! ## Running in a context -/

/-- The value of a node's expression with `top` open nodes in view. -/
def evaluate (forest : Forest) (id : NodeId) (context : Context) (top : Nat) :
    Except Diagnostic Sequence × Context :=
  context.run fun scene => (forest.expression id).evaluate forest.library scene top

/-- Whether the innermost of `top` open nodes satisfies a node's pattern. -/
def accepts (forest : Forest) (id : NodeId) (context : Context) (top : Nat) (rank : Bool) :
    Except Diagnostic Bool × Context :=
  context.run fun scene => (forest.expression id).accepts forest.library scene top rank

end Forest

end StreamPath
