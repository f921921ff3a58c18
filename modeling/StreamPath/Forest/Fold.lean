import StreamPath.Forest.Unfold

/-!
# Folding constants

A constant expression has the same value everywhere, so it can be computed once and for all. Folding
replaces every largest constant expression below a node by its value. One whose evaluation reports
anything stays, since the report belongs to the run; what is below it is folded all the same.
-/

namespace StreamPath

namespace Forest

/-- The scene in which constants are computed: nothing is open and every report is noted. -/
def blankScene : Scene := { sink := .collecting }

/-- The value of an expression that needs no context, if computing it reports nothing. -/
def quietValue? (forest : Forest) (id : NodeId) : Option Sequence :=
  match ((forest.expression id).evaluate forest.library blankScene 0).run {} with
  | .ok value memory => if memory.reported.isEmpty then some value else none
  | .error _ _ => none

/-- Replace a node by a value, with the priority it had. -/
def settle (forest : Forest) (id : NodeId) (value : Sequence) : Forest :=
  { forest with
    nodes := forest.nodes.modify id.index fun node =>
      { node with form := .literal (.computed value), constant := true } }

/-- Fold the nodes below a node, at most `steps` operands deep, and count those replaced. Values are
left alone, and so are chained arguments, which have no value of their own. -/
def foldWithin : (steps : Nat) → NodeId → Forest → Nat × Forest
  | 0, _, forest => (0, forest)
  | steps + 1, id, forest =>
    match forest.node? id with
    | none => (0, forest)
    | some node =>
      if node.form.isLiteral then (0, forest)
      else
        -- chained arguments are no expression, however constant they are
        let value? := if node.constant && !node.form.isList then forest.quietValue? id else none
        match value? with
        | some value => (1, forest.settle id value)
        | none =>
          node.form.operands.foldl
            (fun counted operand =>
              let (more, folded) := foldWithin steps operand counted.2
              (counted.1 + more, folded))
            (0, forest)

/-- Replace every largest constant expression below a node, the node itself included, by its value,
and count those replaced. -/
def foldConstants (forest : Forest) (id : NodeId) : Nat × Forest :=
  foldWithin (id.index + 1) id forest

end Forest

end StreamPath
