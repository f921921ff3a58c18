import StreamPath.Expr.Evaluate

/-!
# Matching patterns

`accepts` asks whether the open nodes up to a height satisfy a pattern, which it reads from right to
left: the last step is about the innermost node, the steps before it about the nodes around it. Too
few open nodes are no fault but a plain refusal. When asked to, the match moves the context position
to the rank of the innermost node among the siblings selected by the last test.
-/

namespace StreamPath

/-- Whether some height below `top` satisfies a test, the highest tried first. -/
def anyBelow (test : Nat → Run Bool) : (top : Nat) → Run Bool
  | 0 => return false
  | height + 1 => do
    if ← test height then return true else anyBelow test height

namespace Expr

variable (library : Library) (scene : Scene)

/-- Whether the innermost of `top` open nodes satisfies a pattern. With `rank`, the context position
becomes its rank among the siblings that the deciding test selects. -/
def accepts : Expr → Nat → (rank : Bool) → Run Bool
  | root, top, rank => do
    if top = 1 && (scene.stack.occurrence? 0).any fun outermost =>
        outermost.event.kind = .document then
      if rank then Run.setPosition 1
      return true
    else return false
  | step .child base next, top, rank =>
    match top with
    | 0 => return false
    | below + 1 => do
      -- the last step is the narrower test, so it goes first
      if ← next.accepts (below + 1) rank then base.accepts below false else return false
  | step .descendant base next, top, rank => do
    if ← next.accepts top rank then anyBelow (fun height => base.accepts height false) top
    else return false
  | union left right, top, rank => do
    if ← left.accepts top rank then return true else right.accepts top rank
  | filter _ base condition, top, rank => do
    -- the condition is asked at the rank of the node, kept or not
    let saved ← Run.position
    let accepted ←
      if ← base.accepts top true then do
        let value ← condition.evaluate library scene top
        let position ← Run.position
        pure (holdsAt value position)
      else pure false
    if !rank then Run.setPosition saved
    return accepted
  | nodeTest test, top, rank =>
    match top with
    | 0 | 1 => return false
    | depth + 2 => do
      if (scene.stack.occurrence? (depth + 1)).any fun innermost =>
          test.selects innermost.event then
        if rank then Run.setPosition (scene.stack.positionOf (depth + 1) test)
        return true
      else return false
  | attributeTest test, top, _ =>
    match top with
    | 0 | 1 | 2 => return false
    | depth + 3 =>
      return (scene.stack.occurrence? (depth + 2)).any fun innermost =>
        innermost.event.kind = .attr && innermost.event.name?.any test.selects
  | expr, _, _ =>
    match expr.unsuitable? with
    | some (id, form) => Run.abort scene (.unsuitable form.describe id .pattern)
    | none => return false

end Expr

end StreamPath
