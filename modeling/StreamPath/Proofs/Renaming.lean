import StreamPath.Expr.Basic

/-!
# References and renaming

Expressions carry the identifiers of the nodes they stand for, so that variables can be remembered
and faults can name a node. What an expression refers to can be listed, and its nodes can be called
by other identifiers; nothing else about it changes.

* `Expr.references` — the variable references in an expression, each with its node;
* `Expr.rename` — the same expression over other identifiers.
-/

namespace StreamPath

namespace Expr

mutual

/-- The variable references in an expression, each with its node. -/
def references : Expr → List (NodeId × Name)
  | step _ base next => base.references ++ next.references
  | union left right => left.references ++ right.references
  | filter _ base condition => base.references ++ condition.references
  | call _ _ arguments => referencesOfAll arguments
  | arithmetic _ _ left right => left.references ++ right.references
  | negate _ operand => operand.references
  | logic _ _ left right => left.references ++ right.references
  | compare _ _ left right => left.references ++ right.references
  | sequence _ left right => left.references ++ right.references
  | template _ before part => before.references ++ part.references
  | var id name => [(id, name)]
  | root | nodeTest _ | attributeTest _ | literal _ _ | list _ | contextItem _ | parent _ => []

/-- The variable references in some expressions, each with its node. -/
def referencesOfAll : List Expr → List (NodeId × Name)
  | [] => []
  | expr :: rest => expr.references ++ referencesOfAll rest

end

theorem referencesOfAll_eq (exprs : List Expr) :
    referencesOfAll exprs = exprs.flatMap references := by
  induction exprs with
  | nil => rfl
  | cons expr rest ih => rw [referencesOfAll, List.flatMap_cons, ih]

mutual

/-- The same expression with its nodes called by other identifiers. -/
def rename (f : NodeId → NodeId) : Expr → Expr
  | root => root
  | step axis base next => step axis (base.rename f) (next.rename f)
  | union left right => union (left.rename f) (right.rename f)
  | nodeTest test => nodeTest test
  | attributeTest test => attributeTest test
  | filter once base condition => filter once (base.rename f) (condition.rename f)
  | call id function arguments => call (f id) function (renameAll f arguments)
  | literal id value => literal (f id) value
  | arithmetic id op left right => arithmetic (f id) op (left.rename f) (right.rename f)
  | negate id operand => negate (f id) (operand.rename f)
  | logic id op left right => logic (f id) op (left.rename f) (right.rename f)
  | compare id op left right => compare (f id) op (left.rename f) (right.rename f)
  | sequence id left right => sequence (f id) (left.rename f) (right.rename f)
  | list id => list (f id)
  | template id before part => template (f id) (before.rename f) (part.rename f)
  | var id name => var (f id) name
  | contextItem id => contextItem (f id)
  | parent id => parent (f id)

/-- Some expressions with their nodes called by other identifiers. -/
def renameAll (f : NodeId → NodeId) : List Expr → List Expr
  | [] => []
  | expr :: rest => expr.rename f :: renameAll f rest

end

theorem renameAll_eq (f : NodeId → NodeId) (exprs : List Expr) :
    renameAll f exprs = exprs.map (rename f) := by
  induction exprs with
  | nil => rfl
  | cons expr rest ih => rw [renameAll, List.map_cons, ih]

/-- Calling every node by its own name changes nothing. -/
@[simp] theorem rename_id (expr : Expr) : expr.rename id = expr := by
  induction expr using Expr.induct with
  | root | nodeTest | attributeTest | literal | list | var | contextItem | parent => rfl
  | step axis base next ihBase ihNext => rw [rename, ihBase, ihNext]
  | union left right ihLeft ihRight => rw [rename, ihLeft, ihRight]
  | filter once base condition ihBase ihCondition => rw [rename, ihBase, ihCondition]
  | call node function arguments ih =>
    have same : arguments.map (rename id) = arguments := by
      rw [List.map_congr_left ih, List.map_id']
    rw [rename, renameAll_eq, same]
    rfl
  | negate node operand ih =>
    rw [rename, ih]
    rfl
  | arithmetic node op left right ihLeft ihRight | logic node op left right ihLeft ihRight
  | compare node op left right ihLeft ihRight | sequence node left right ihLeft ihRight
  | template node left right ihLeft ihRight =>
    rw [rename, ihLeft, ihRight]
    rfl

end Expr

end StreamPath
