import StreamPath.Forest.Unfold
import StreamPath.Proofs.Simulation

/-!
# Closed nodes as operands

A reference outlives the node that it was taken from. Most operators look at the values of their
operands before they use them up: if one holds a closed node, they report a type error and yield
nothing. Three let it pass. A connective takes the truth value of whatever it is given, arithmetic is
empty beside an empty operand whatever the other one holds, and a filter whose condition is the same
for all items does not look at the items. No filter looks at the values of its condition.

* `Ancestors.HoldsClosed` — some node among the items is closed;
* `Ancestors.HoldsClosed.holdsAt` — a condition with such a value holds everywhere;
* `Expr.obtained` — the values that an operator obtains from its operands;
* `Expr.checks` — whether it looks at them;
* `Forest.evaluate_of_holdsClosed` — what it then does with a closed node.
-/

namespace StreamPath

open Run

/-- Some node among the items is no longer open. -/
def Ancestors.HoldsClosed (stack : Ancestors) (items : Sequence) : Prop :=
  ∃ node ∈ items.nodes, stack.isLive node = false

namespace Ancestors

variable {stack : Ancestors} {items : Sequence}

theorem HoldsClosed.ne_nil (closed : stack.HoldsClosed items) : items ≠ [] := by
  rintro rfl
  obtain ⟨_, mem, -⟩ := closed
  cases mem

theorem holdsClosed_append {more : Sequence} :
    stack.HoldsClosed (items ++ more) ↔ stack.HoldsClosed items ∨ stack.HoldsClosed more := by
  unfold HoldsClosed
  simp only [Sequence.nodes_append, List.mem_append, or_and_right, exists_or]

/-- If the first of some items is open, the closed one is among the others. -/
theorem HoldsClosed.tail {item : Item} (closed : stack.HoldsClosed (item :: items))
    (isOpen : item.node?.all stack.isLive = true) : stack.HoldsClosed items := by
  obtain ⟨node, mem, isClosed⟩ := closed
  refine ⟨node, ?_, isClosed⟩
  cases item with
  | boolean | number | string => exact mem
  | node first =>
    rcases List.mem_cons.mp mem with rfl | later
    · rw [show stack.isLive node = true from isOpen] at isClosed
      cases isClosed
    · exact later

/-- A closed node counts as true. -/
theorem HoldsClosed.toBoolean (closed : stack.HoldsClosed items) : items.toBoolean = true := by
  obtain ⟨node, mem, -⟩ := closed
  match items with
  | [] => cases mem
  | [.node _] => rfl
  | [.boolean _] | [.number _] | [.string _] => cases mem
  | _ :: _ :: _ => rfl

/-- So it holds at every position if it is the value of a condition. -/
theorem HoldsClosed.holdsAt (closed : stack.HoldsClosed items) (position : Nat) :
    holdsAt items position = true := by
  have noNumber : items.singleNumber? = none := by
    obtain ⟨node, mem, -⟩ := closed
    match items with
    | [] | [.node _] | [.boolean _] | [.string _] => rfl
    | [.number _] => cases mem
    | first :: _ :: _ => cases first <;> rfl
  unfold StreamPath.holdsAt
  rw [noNumber]
  exact closed.toBoolean

end Ancestors

namespace Scene

variable {scene : Scene}

/-! ## Checks -/

/-- An operand that holds a closed node is reported. -/
theorem usable_of_holdsClosed (operand : Operand) {items : Sequence}
    (closed : scene.stack.HoldsClosed items) :
    ∃ kind, scene.usable operand items =
      report scene (.closedOperand operand kind) >>= fun _ => pure false := by
  obtain ⟨node, mem, isClosed⟩ := closed
  cases found : items.nodes.find? fun node => !scene.stack.isLive node with
  | none =>
    have isLive := List.find?_eq_none.mp found node mem
    rw [isClosed] at isLive
    exact absurd rfl isLive
  | some first =>
    refine ⟨first.kind, ?_⟩
    unfold usable
    rw [found]

/-- An operand that holds none is usable. -/
theorem usable_of_not_holdsClosed (operand : Operand) {items : Sequence}
    (isOpen : ¬scene.stack.HoldsClosed items) : scene.usable operand items = pure true := by
  have none : items.nodes.find? (fun node => !scene.stack.isLive node) = none := by
    rw [List.find?_eq_none]
    intro node mem isClosed
    exact isOpen ⟨node, mem, by simpa using isClosed⟩
  unfold usable
  rw [none]

/-- If one holds a closed node, it is reported, and the others are not used either. -/
theorem using_of_holdsClosed {operands : List (Operand × Sequence)}
    (closed : ∃ operand ∈ operands, scene.stack.HoldsClosed operand.2) (use : Run Sequence) :
    ∃ operand ∈ operands, ∃ kind,
      scene.using operands use = fallback scene (.closedOperand operand.1 kind) := by
  induction operands with
  | nil =>
    obtain ⟨_, mem, -⟩ := closed
    cases mem
  | cons head rest ih =>
    by_cases first : scene.stack.HoldsClosed head.2
    · obtain ⟨kind, reported⟩ := usable_of_holdsClosed head.1 first
      refine ⟨head, List.mem_cons_self, kind, ?_⟩
      unfold Scene.using allUsable fallback
      rw [reported]
      simp only [bind_assoc, pure_bind, Bool.false_eq_true, if_false]
    · obtain ⟨operand, mem, isClosed⟩ := closed
      have later : ∃ operand ∈ rest, scene.stack.HoldsClosed operand.2 := by
        rcases List.mem_cons.mp mem with rfl | inRest
        · exact absurd isClosed first
        · exact ⟨operand, inRest, isClosed⟩
      obtain ⟨operand, mem, kind, same⟩ := ih later
      refine ⟨operand, List.mem_cons_of_mem _ mem, kind, ?_⟩
      rw [← same]
      unfold Scene.using
      rw [allUsable, usable_of_not_holdsClosed head.1 first, pure_bind]
      rfl

end Scene

/-! ## Refusals -/

section Refusals

variable {α β : Type} {scene : Scene} {asked : Nat → Run Sequence}

/-- A type error is reported, and the run goes on with a fallback if it may go on. -/
def Complains (scene : Scene) (fallback : α) (result : EStateM.Result Diagnostic Memory α) : Prop :=
  ∃ cause memory, cause.code = .typeMismatch ∧
    result = (report scene cause >>= fun _ => pure fallback) memory

/-- A run ends because one of several runs of an operand does. -/
def Interrupted (asked : Nat → Run Sequence) (result : EStateM.Result Diagnostic Memory α) : Prop :=
  ∃ height memory failure final, asked height memory = .error failure final ∧
    result = .error failure final

/-- A type error is reported, unless the run ends in an operand before that. -/
def Refuses (scene : Scene) (asked : Nat → Run Sequence) (fallback : α)
    (result : EStateM.Result Diagnostic Memory α) : Prop :=
  Complains scene fallback result ∨ Interrupted asked result

/-- What follows a refusal may move the position and change the fallback. -/
theorem Refuses.bind {first : Run α} {next : α → Run β} {fallback : α} {other : β}
    {memory : Memory} (refuses : Refuses scene asked fallback (first memory))
    (settles : ∀ memory, ∃ place, next fallback memory = .ok other { memory with position := place }) :
    Refuses scene asked other ((first >>= next) memory) := by
  rcases refuses with ⟨cause, reached, isType, same⟩ | ⟨height, start, failure, final, ended, same⟩
  · left
    rw [bind_apply, same, bind_apply, report_apply]
    cases judged : scene.judge cause with
    | ok diagnostic =>
      obtain ⟨place, settled⟩ :=
        settles { reached with reported := reached.reported ++ [diagnostic] }
      refine ⟨cause, { reached with position := place }, isType, ?_⟩
      rw [bind_apply, report_apply, judged]
      exact settled
    | error refused =>
      refine ⟨cause, reached, isType, ?_⟩
      rw [bind_apply, report_apply, judged]
  · right
    refine ⟨height, start, failure, final, ended, ?_⟩
    rw [bind_apply, same]

/-- To report a type error is to refuse. -/
theorem refuses_of_report {cause : Cause} (isType : cause.code = .typeMismatch) (fallback : α)
    (memory : Memory) : Refuses scene asked fallback
      ((report scene cause >>= fun _ => (pure fallback : Run α)) memory) :=
  .inl ⟨cause, memory, isType, rfl⟩

theorem exists_of_atHeights_error {heights : List Nat} {memory final : Memory}
    {failure : Diagnostic} (ended : atHeights asked heights memory = .error failure final) :
    ∃ height middle, asked height middle = .error failure final := by
  induction heights generalizing memory with
  | nil => cases ended
  | cons height rest ih =>
    unfold atHeights at ended
    rcases bind_eq_error.mp ended with here | ⟨_, middle, -, later⟩
    · exact ⟨height, memory, here⟩
    · rcases bind_eq_error.mp later with more | ⟨_, _, -, done⟩
      · exact ih more
      · cases done

end Refusals

namespace Scene

variable {scene : Scene}

/-- A step from items among which a node is closed is refused. -/
theorem stepFrom_of_holdsClosed (axis : Axis) (next : Nat → Run Sequence) {items : Sequence}
    (closed : scene.stack.HoldsClosed items) (memory : Memory) :
    Refuses scene next none (scene.stepFrom axis next items memory) := by
  induction items generalizing memory with
  | nil => exact absurd rfl closed.ne_nil
  | cons item rest ih =>
    cases item with
    | boolean | number | string => exact refuses_of_report rfl none memory
    | node node =>
      -- from an open node the walk goes on, unless it ends the run
      have goesOn : ∀ here : Run Sequence, scene.stack.isLive node = true →
          (∀ failure final, here memory = .error failure final →
            ∃ height middle, next height middle = .error failure final) →
          Refuses scene next none ((here >>= fun found =>
            scene.stepFrom axis next rest >>= fun more => pure (more.map (found ++ ·))) memory) := by
        intro here live walks
        rw [bind_apply]
        cases walked : here memory with
        | error failure final =>
          obtain ⟨height, middle, ended⟩ := walks failure final walked
          exact .inr ⟨height, middle, failure, final, ended, rfl⟩
        | ok found middle =>
          refine (ih (closed.tail live) middle).bind ?_
          exact fun memory => ⟨memory.position, rfl⟩
      unfold stepFrom
      by_cases live : scene.stack.isLive node = true
      · rw [if_pos live]
        cases node with
        | entry depth occurrence =>
          exact goesOn (atHeights next (scene.heights axis depth)) live fun _ _ ended =>
            exists_of_atHeights_error ended
        | attr owner index =>
          refine goesOn (pure []) live fun failure final ended => ?_
          cases ended
      · rw [if_neg live]
        exact refuses_of_report rfl none memory

/-- A filter over items among which a node is closed is refused if it looks at them. -/
theorem select_of_holdsClosed (condition : Nat → Run Sequence) (saved position : Nat)
    {items : Sequence} (closed : scene.stack.HoldsClosed items) (memory : Memory) :
    Refuses scene condition none (scene.select condition saved position items memory) := by
  induction items generalizing position memory with
  | nil => exact absurd rfl closed.ne_nil
  | cons item rest ih =>
    unfold select
    cases place : scene.openDepth? item with
    | none => exact refuses_of_report rfl none { memory with position := saved }
    | some depth =>
      have isOpen : item.node?.all scene.stack.isLive = true := by
        unfold openDepth? at place
        cases taken : item.node? with
        | none => rfl
        | some node =>
          rw [taken] at place
          cases live : scene.stack.isLive node with
          | true => exact live
          | false => simp [Option.filter, live] at place
      show Refuses scene condition none ((condition (depth + 1) >>= fun value =>
        scene.select condition saved (position + 1) rest >>= fun more =>
          pure (more.map fun items => if holdsAt value position then item :: items else items))
            { memory with position })
      rw [bind_apply]
      cases asked : condition (depth + 1) { memory with position } with
      | error failure final => exact .inr ⟨depth + 1, _, failure, final, asked, rfl⟩
      | ok value middle =>
        refine (ih (position + 1) (closed.tail isOpen) middle).bind ?_
        exact fun memory => ⟨memory.position, rfl⟩

end Scene

/-! ## Operators -/

namespace Expr

variable (library : Library) (scene : Scene)

/-- The values that an operator obtains from its operands. A connective leaves out the operand that
it does not need. What is run for each node, the condition of a filter or the second part of a step,
comes later. -/
def obtained : Expr → Nat → Run (List Sequence)
  | step _ base _, top | filter false base _, top | negate _ base, top => do
    let value ← base.evaluate library scene top
    return [value]
  | union left right, top | filter true left right, top | arithmetic _ _ left right, top
  | compare _ _ left right, top | template _ left right, top => do
    let a ← left.evaluate library scene top
    let b ← right.evaluate library scene top
    return [a, b]
  | logic _ op left right, top => do
    let first ← left.evaluate library scene top
    match op, first.toBoolean with
    | .and, false | .or, true => return [first]
    | _, _ => do
      let second ← right.evaluate library scene top
      return [first, second]
  | call _ _ arguments, top => evaluateAll library scene arguments top
  | _, _ => return []

/-- Whether an operator looks for closed nodes in the values that it has obtained. -/
def checks : Expr → List Sequence → Bool
  | step .., _ | union .., _ | filter false _ _, _ | call .., _ | negate .., _ | compare .., _
  | template .., _ => true
  | arithmetic .., values => values.all fun value => !value.isEmpty
  | _, _ => false

/-- The operand that is run for each node. -/
def repeated? : Expr → Option Expr
  | step _ _ next => some next
  | filter false _ condition => some condition
  | _ => none

variable {library scene}

/-- What an operator makes of the value of its only operand. -/
theorem exists_of_obtained_one {one : Run Sequence} {memory reached : Memory}
    {values : List Sequence}
    (ended : (one >>= fun a => pure [a]) memory = .ok values reached) :
    ∃ a, values = [a] ∧ ∀ next : Sequence → Run Sequence, (one >>= next) memory = next a reached := by
  obtain ⟨a, middle, head, done⟩ := bind_eq_ok.mp ended
  cases done
  refine ⟨a, rfl, fun next => ?_⟩
  rw [bind_apply, head]

/-- What an operator makes of the values of its two operands. -/
theorem exists_of_obtained_two {one two : Run Sequence} {memory reached : Memory}
    {values : List Sequence}
    (ended : (one >>= fun a => two >>= fun b => pure [a, b]) memory = .ok values reached) :
    ∃ a b, values = [a, b] ∧ ∀ next : Sequence → Sequence → Run Sequence,
      (one >>= fun a => two >>= fun b => next a b) memory = next a b reached := by
  obtain ⟨a, middle, head, rest⟩ := bind_eq_ok.mp ended
  obtain ⟨b, last, tail, done⟩ := bind_eq_ok.mp rest
  cases done
  refine ⟨a, b, rfl, fun next => ?_⟩
  simp only [bind_apply, head, tail]

/-- A connective has nothing to report once it has obtained its values. -/
theorem exists_of_obtained_logic {top : Nat} {memory reached : Memory} {values : List Sequence}
    (id : NodeId) (op : Connective) (left right : Expr)
    (ended : (logic id op left right).obtained library scene top memory = .ok values reached) :
    ∃ value, (logic id op left right).evaluate library scene top memory = .ok value reached := by
  obtain ⟨first, middle, head, rest⟩ := bind_eq_ok.mp ended
  have second : (right.evaluate library scene top >>= fun second => pure [first, second] :
        Run (List Sequence)) middle = .ok values reached →
      ∃ value, (right.evaluate library scene top >>= fun second =>
        (pure (.ofBoolean second.toBoolean) : Run Sequence)) middle = .ok value reached := by
    intro obtained
    obtain ⟨second, last, tail, done⟩ := bind_eq_ok.mp obtained
    cases done
    refine ⟨.ofBoolean second.toBoolean, ?_⟩
    rw [bind_apply, tail]
    rfl
  simp only [evaluate, bind_apply, head]
  cases op with
  | and =>
    cases truth : first.toBoolean with
    | true =>
      rw [truth] at rest
      exact second rest
    | false =>
      rw [truth] at rest
      cases rest
      exact ⟨_, rfl⟩
  | or =>
    cases truth : first.toBoolean with
    | true =>
      rw [truth] at rest
      cases rest
      exact ⟨_, rfl⟩
    | false =>
      rw [truth] at rest
      exact second rest

/-- Refused operands are reported in the place of the value. -/
theorem complains_using {operands : List (Operand × Sequence)}
    (closed : ∃ operand ∈ operands, scene.stack.HoldsClosed operand.2) (use : Run Sequence)
    (memory : Memory) : Complains scene [] (scene.using operands use memory) := by
  obtain ⟨operand, -, kind, refused⟩ := Scene.using_of_holdsClosed closed use
  rw [refused]
  exact ⟨.closedOperand operand.1 kind, memory, rfl, rfl⟩

/-- An operator with a closed node among the values of its operands reports a type error if it looks
for one, unless the run ends in an operand before that. If it does not, nothing is reported. -/
theorem complains_or_passes {expr : Expr} {top : Nat} {memory reached : Memory}
    {values : List Sequence}
    (ended : expr.obtained library scene top memory = .ok values reached)
    (closed : ∃ value ∈ values, scene.stack.HoldsClosed value) :
    (expr.checks values = true →
      Complains scene [] (expr.evaluate library scene top memory) ∨
        ∃ inner, expr.repeated? = some inner ∧
          Interrupted (fun height => inner.evaluate library scene height)
            (expr.evaluate library scene top memory)) ∧
    (expr.checks values = false →
      ∃ value, expr.evaluate library scene top memory = .ok value reached) := by
  cases expr with
  | root | nodeTest | attributeTest | literal | sequence | list | var | contextItem | parent =>
    cases ended
    obtain ⟨_, mem, -⟩ := closed
    cases mem
  | step axis base next =>
    obtain ⟨starts, rfl, same⟩ := exists_of_obtained_one ended
    have held : scene.stack.HoldsClosed starts := by simpa using closed
    refine ⟨fun _ => ?_, nofun⟩
    rw [evaluate, same]
    have refuses : Refuses scene (fun height => next.evaluate library scene height) []
        ((scene.stepFrom axis (fun height => next.evaluate library scene height) starts >>=
          fun found? => pure (found?.getD [])) reached) :=
      (Scene.stepFrom_of_holdsClosed axis _ held reached).bind fun memory => ⟨memory.position, rfl⟩
    rcases refuses with complains | interrupted
    · exact .inl complains
    · exact .inr ⟨next, rfl, interrupted⟩
  | union left right =>
    obtain ⟨a, b, rfl, same⟩ := exists_of_obtained_two ended
    refine ⟨fun _ => .inl ?_, nofun⟩
    rw [evaluate, same]
    have held : scene.stack.HoldsClosed (a ++ b) := by
      rw [Ancestors.holdsClosed_append]
      simpa using closed
    exact complains_using ⟨_, List.mem_singleton_self _, held⟩ _ _
  | filter once base condition =>
    cases once with
    | true =>
      obtain ⟨items, value, rfl, same⟩ := exists_of_obtained_two ended
      refine ⟨nofun, fun _ => ?_⟩
      rw [evaluate, same]
      exact ⟨_, rfl⟩
    | false =>
      obtain ⟨items, rfl, same⟩ := exists_of_obtained_one ended
      have held : scene.stack.HoldsClosed items := by simpa using closed
      refine ⟨fun _ => ?_, nofun⟩
      rw [evaluate, same]
      have refuses : Refuses scene (fun height => condition.evaluate library scene height) []
          ((scene.select (fun height => condition.evaluate library scene height) reached.position 1
            items >>= fun kept? => setPosition reached.position >>= fun _ =>
              pure (kept?.getD [])) reached) :=
        (Scene.select_of_holdsClosed _ reached.position 1 held reached).bind fun _ =>
          ⟨reached.position, rfl⟩
      rcases refuses with complains | interrupted
      · exact .inl complains
      · exact .inr ⟨condition, rfl, interrupted⟩
  | call id function arguments =>
    refine ⟨fun _ => .inl ?_, nofun⟩
    obtain ⟨value, mem, held⟩ := closed
    rw [evaluate, bind_apply]
    rw [show evaluateAll library scene arguments top memory = .ok values reached from ended]
    exact complains_using ⟨_, List.mem_map_of_mem mem, held⟩ _ _
  | arithmetic id op left right =>
    obtain ⟨a, b, rfl, same⟩ := exists_of_obtained_two ended
    have looks : (arithmetic id op left right).checks [a, b] = !(a.isEmpty || b.isEmpty) := by
      simp [checks]
    rw [evaluate, same, looks]
    cases empty : a.isEmpty || b.isEmpty with
    | true =>
      -- the empty operand decides before the other one is looked at
      exact ⟨nofun, fun _ => ⟨[], rfl⟩⟩
    | false =>
      refine ⟨fun _ => .inl ?_, nofun⟩
      rw [if_neg Bool.false_ne_true]
      split
      · exact ⟨.manyArithmetic, reached, rfl, rfl⟩
      · exact complains_using (by simpa using closed) _ _
  | negate id operand =>
    obtain ⟨value, rfl, same⟩ := exists_of_obtained_one ended
    have held : scene.stack.HoldsClosed value := by simpa using closed
    refine ⟨fun _ => .inl ?_, nofun⟩
    rw [evaluate, same, if_neg (by simpa using held.ne_nil)]
    split
    · exact ⟨.manyNegated, reached, rfl, rfl⟩
    · exact complains_using (by simpa using held) _ _
  | logic id op left right =>
    exact ⟨nofun, fun _ => exists_of_obtained_logic id op left right ended⟩
  | compare id op left right =>
    obtain ⟨a, b, rfl, same⟩ := exists_of_obtained_two ended
    refine ⟨fun _ => .inl ?_, nofun⟩
    rw [evaluate, same]
    exact complains_using (by simpa using closed) _ _
  | template id before part =>
    obtain ⟨a, b, rfl, same⟩ := exists_of_obtained_two ended
    refine ⟨fun _ => .inl ?_, nofun⟩
    rw [evaluate, same]
    exact complains_using (by simpa using closed) _ _

end Expr

/-- A type error is reported at some point of a run in a context, and the value is empty if the run
goes on. -/
def Context.Complains (context : Context) (outcome : Except Diagnostic Sequence × Context) : Prop :=
  ∃ cause memory, cause.code = .typeMismatch ∧
    outcome = { context with toMemory := memory }.run fun scene => fallback scene cause

/-- An operator that has obtained a closed node from its operands reports a type error if it looks
for closed nodes. Only steps and filters can come to another end before that, where the operand that
they run for each node ends the run. An operator that does not look goes on as if nothing was
wrong. -/
theorem Forest.evaluate_of_holdsClosed (forest : Forest) (context : Context) (top : Nat)
    {id : NodeId} {values : List Sequence} {reached : Memory}
    (ended : (forest.expression id).obtained forest.library context.toScene top context.toMemory =
      .ok values reached)
    (closed : ∃ value ∈ values, context.stack.HoldsClosed value) :
    ((forest.expression id).checks values = true →
      context.Complains (forest.evaluate id context top) ∨
        ∃ inner height memory failure final, (forest.expression id).repeated? = some inner ∧
          inner.evaluate forest.library context.toScene height memory = .error failure final ∧
          forest.evaluate id context top =
            (.error failure, { context with toMemory := final })) ∧
    ((forest.expression id).checks values = false →
      ∃ value, forest.evaluate id context top =
        (.ok value, { context with toMemory := reached })) := by
  obtain ⟨looks, passes⟩ := Expr.complains_or_passes ended closed
  refine ⟨fun checked => ?_, fun unchecked => ?_⟩
  · rcases looks checked with ⟨cause, memory, isType, same⟩ |
      ⟨inner, isRepeated, height, memory, failure, final, stops, same⟩
    · refine .inl ⟨cause, memory, isType, ?_⟩
      have outcome : context.run (fun _ _ => fallback context.toScene cause memory) =
          { context with toMemory := memory }.run fun scene => fallback scene cause := rfl
      rw [← outcome]
      exact Context.run_congr same
    · exact .inr ⟨inner, height, memory, failure, final, isRepeated, stops,
        Context.run_of_error same⟩
  · obtain ⟨value, same⟩ := passes unchecked
    exact ⟨value, Context.run_of_ok same⟩

/-! ## A variable that outlives its node -/

namespace Closed

/-- A text has closed and another one is open in its place; a variable still refers to the first. -/
def context : Context :=
  let before := (({ sink := .collecting } : Context).push ⟨.document, []⟩).push ⟨.text "old", []⟩
  (before.pop.push ⟨.text "new", []⟩).declareLocal (.unqualified "v") (before.entryAt 1)

/-- The variable beside a string, compared and combined with it, and beside nothing, added to it. -/
def forest : Forest :=
  let operands := ((Forest.empty.add (.var (.unqualified "v"))).2.add
    (.literal (.string "old"))).2.add (.literal (.computed []))
  (((operands.2.add (.compare .eq ⟨0⟩ ⟨1⟩)).2.add (.logic .and ⟨0⟩ ⟨1⟩)).2.add
    (.arithmetic .add ⟨2⟩ ⟨0⟩)).2

/-- The value of the variable. -/
def value : Sequence := [.node (.entry 1 ⟨1, ⟨.text "old", []⟩⟩)]

theorem holdsClosed_value : context.stack.HoldsClosed value :=
  ⟨.entry 1 ⟨1, ⟨.text "old", []⟩⟩, List.mem_singleton_self _, rfl⟩

/-- The comparison reports the closed node. -/
theorem complains_of_compared :
    ∃ values, (forest.expression ⟨3⟩).obtained forest.library context.toScene 2 context.toMemory =
        .ok values context.toMemory ∧
      (∃ value ∈ values, context.stack.HoldsClosed value) ∧
      context.Complains (forest.evaluate ⟨3⟩ context 2) := by
  have obtained : (forest.expression ⟨3⟩).obtained forest.library context.toScene 2
      context.toMemory = .ok [value, .ofString "old"] context.toMemory := rfl
  have closed : ∃ operand ∈ [value, .ofString "old"], context.stack.HoldsClosed operand :=
    ⟨value, List.mem_cons_self, holdsClosed_value⟩
  refine ⟨_, obtained, closed, ?_⟩
  rcases (forest.evaluate_of_holdsClosed context 2 obtained closed).1 rfl with
    complains | ⟨_, _, _, _, _, repeated, -⟩
  · exact complains
  · cases repeated

/-- The connective takes it for a truth value, and the addition does not come to look at it. -/
theorem passes_unreported :
    (∃ values, (forest.expression ⟨4⟩).obtained forest.library context.toScene 2 context.toMemory =
        .ok values context.toMemory ∧ (∃ value ∈ values, context.stack.HoldsClosed value)) ∧
      forest.evaluate ⟨4⟩ context 2 = (.ok (.ofBoolean true), context) ∧
    (∃ values, (forest.expression ⟨5⟩).obtained forest.library context.toScene 2 context.toMemory =
        .ok values context.toMemory ∧ (∃ value ∈ values, context.stack.HoldsClosed value)) ∧
      forest.evaluate ⟨5⟩ context 2 = (.ok [], context) ∧ context.reported = [] := by
  refine ⟨⟨[value, .ofString "old"], rfl, value, List.mem_cons_self, holdsClosed_value⟩, rfl,
    ⟨[[], value], rfl, value, ?_, holdsClosed_value⟩, rfl, rfl⟩
  exact List.mem_cons_of_mem _ List.mem_cons_self

end Closed

end StreamPath
