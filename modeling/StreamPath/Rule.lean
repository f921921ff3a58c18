import StreamPath.Forest.Unfold

/-!
# Rules

A rule has a pattern, a priority and the group that declares it. A declaration whose pattern is a
union gives one rule for each alternative. Rules are ranked by the total order of priorities and then
by declaration, the higher and the later first, so the best rule for a node is the first whose pattern
it satisfies.
-/

namespace StreamPath

structure Rule where
  pattern : NodeId
  priority : Priority
  /-- The group that declares the rule. -/
  group : GroupId
  /-- The place of its declaration, shared by the alternatives of one union. -/
  index : Nat

/-- Whether one rule is asked strictly before another. -/
def Rule.precedes (a b : Rule) : Bool :=
  b.priority.orderKey < a.priority.orderKey ||
    (a.priority.orderKey = b.priority.orderKey && b.index < a.index)

/-- The declared rules, in the order in which they are asked. -/
structure RuleTable where
  rules : List Rule := []
  declarations : Nat := 0

namespace RuleTable

def empty : RuleTable := {}

instance : Inhabited RuleTable := ⟨empty⟩

/-- Declare a rule in a group, and tell the place of the declaration. Without a priority of its own
every alternative has its default priority. -/
def add (table : RuleTable) (forest : Forest) (pattern : NodeId) (priority? : Option Priority)
    (group : GroupId) : Nat × RuleTable :=
  -- the later of equal rules is asked first, and alternatives stay from left to right
  let index := table.declarations
  let rules := (forest.alternatives pattern).map fun alternative =>
    { pattern := alternative
      priority := priority?.getD (forest.priority alternative)
      group
      index }
  (index,
    { rules := rules.foldl (fun ranked rule => Ranking.place Rule.precedes rule ranked) table.rules
      declarations := index + 1 })

/-- The first rule whose pattern is satisfied, each asked from the same context position. The
position is that of the last match, or the one at the start if there is none. -/
def firstAccepted (forest : Forest) (scene : Scene) (top : Nat) (saved : Nat) :
    List Rule → Run (Option Rule)
  | [] => do
    Run.setPosition saved
    return none
  | rule :: rest => do
    Run.setPosition saved
    if ← (forest.expression rule.pattern).accepts forest.library scene top true then
      return some rule
    else firstAccepted forest scene top saved rest

/-- The best among the rules that pass a test. -/
def bestAmong (table : RuleTable) (visible : Rule → Bool) (forest : Forest) (context : Context)
    (top : Nat) : Except Diagnostic (Option Rule) × Context :=
  context.run fun scene =>
    firstAccepted forest scene top context.position (table.rules.filter visible)

/-- The best rule for the innermost of `top` open nodes. -/
def best (table : RuleTable) (forest : Forest) (context : Context) (top : Nat) :
    Except Diagnostic (Option Rule) × Context :=
  table.bestAmong (fun _ => true) forest context top

/-- Whether the rules of a group are visible from a viewpoint: the group is the viewpoint, one of its
ancestors, or nested in it directly. -/
def isVisible (groups : GroupTable) (viewpoint group : GroupId) : Bool :=
  groups.isWithin viewpoint group || groups.parent? group = some viewpoint

/-- The best rule among those visible from a group. -/
def bestVisible (table : RuleTable) (viewpoint : GroupId) (forest : Forest) (context : Context)
    (top : Nat) : Except Diagnostic (Option Rule) × Context :=
  table.bestAmong (fun rule => isVisible context.groups viewpoint rule.group) forest context top

end RuleTable

end StreamPath
