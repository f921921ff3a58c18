import StreamPath.Expr.Form

/-!
# Expressions

An expression as a tree. Forms that can fail as patterns, or that remember something between runs,
carry the identifier of the node they stand for. Arguments of a call are in a list, and a filter
knows whether its condition can be evaluated once for all nodes.

* `Expr.induct` — induction with a hypothesis for every argument of a call.
-/

namespace StreamPath

/-- A pattern or an expression. -/
inductive Expr
  | root
  | step (axis : Axis) (base next : Expr)
  | union (left right : Expr)
  | nodeTest (test : NodeTest)
  | attributeTest (test : AttributeTest)
  /-- With `once`, the condition does not depend on the node it is asked of. -/
  | filter (once : Bool) (base condition : Expr)
  | call (id : NodeId) (function : Name) (arguments : List Expr)
  | literal (id : NodeId) (value : Literal)
  | arithmetic (id : NodeId) (op : Arithmetic) (left right : Expr)
  | negate (id : NodeId) (operand : Expr)
  | logic (id : NodeId) (op : Connective) (left right : Expr)
  | compare (id : NodeId) (op : Comparison) (left right : Expr)
  | sequence (id : NodeId) (left right : Expr)
  /-- Chained arguments outside a call, which mean nothing. -/
  | list (id : NodeId)
  | template (id : NodeId) (before part : Expr)
  | var (id : NodeId) (name : Name)
  | contextItem (id : NodeId)
  | parent (id : NodeId)

namespace Expr

/-- The expression whose value is always empty. -/
def nothing (id : NodeId) : Expr := literal id (.computed [])

/-- The identifier and form of an expression that is not a pattern. -/
def unsuitable? : Expr → Option (NodeId × Form Unit)
  | root | step .. | union .. | nodeTest _ | attributeTest _ | filter .. => none
  | call id function _ => some (id, .call function none)
  | literal id value => some (id, .literal value)
  | arithmetic id op _ _ => some (id, .arithmetic op () ())
  | negate id _ => some (id, .negate ())
  | logic id op _ _ => some (id, .logic op () ())
  | compare id op _ _ => some (id, .compare op () ())
  | sequence id _ _ => some (id, .sequence () ())
  | list id => some (id, .list () ())
  | template id _ _ => some (id, .template none none)
  | var id name => some (id, .var name)
  | contextItem id => some (id, .contextItem)
  | parent id => some (id, .parent)

/-- Induction with a hypothesis for every argument of a call. -/
@[elab_as_elim]
theorem induct {motive : Expr → Prop}
    (root : motive .root)
    (step : ∀ axis base next, motive base → motive next → motive (.step axis base next))
    (union : ∀ left right, motive left → motive right → motive (.union left right))
    (nodeTest : ∀ test, motive (.nodeTest test))
    (attributeTest : ∀ test, motive (.attributeTest test))
    (filter : ∀ once base condition, motive base → motive condition →
      motive (.filter once base condition))
    (call : ∀ id function arguments, (∀ argument ∈ arguments, motive argument) →
      motive (.call id function arguments))
    (literal : ∀ id value, motive (.literal id value))
    (arithmetic : ∀ id op left right, motive left → motive right →
      motive (.arithmetic id op left right))
    (negate : ∀ id operand, motive operand → motive (.negate id operand))
    (logic : ∀ id op left right, motive left → motive right → motive (.logic id op left right))
    (compare : ∀ id op left right, motive left → motive right → motive (.compare id op left right))
    (sequence : ∀ id left right, motive left → motive right → motive (.sequence id left right))
    (list : ∀ id, motive (.list id))
    (template : ∀ id before part, motive before → motive part → motive (.template id before part))
    (var : ∀ id name, motive (.var id name))
    (contextItem : ∀ id, motive (.contextItem id))
    (parent : ∀ id, motive (.parent id)) (expr : Expr) : motive expr :=
  Expr.rec (motive_1 := motive) (motive_2 := fun arguments => ∀ argument ∈ arguments, motive argument)
    root step union nodeTest attributeTest filter call literal arithmetic negate logic compare
    sequence list template var contextItem parent (by simp)
    (fun _ _ first rest argument mem =>
      (List.mem_cons.mp mem).elim (fun eq => eq ▸ first) (rest argument)) expr

end Expr

end StreamPath
