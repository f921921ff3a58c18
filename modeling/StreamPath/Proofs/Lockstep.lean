import StreamPath.Expr.Pattern
import StreamPath.Proofs.Renaming
import StreamPath.Proofs.Simulation
import StreamPath.Rule

/-!
# Two evaluations in lockstep

Evaluation touches the memory through a few single steps: it reads and moves the position, it
reports, and it reads variables. It moves the position only between saving it and moving back, so
there are two classes of steps to speak of, those that give the position back and those that may
move it. Here an expression is run in one scene, and in another scene with the same open nodes a
renamed copy of it is run. What relates the single steps of the two runs and survives sequencing
relates the runs as a whole.

* `Sequencing` — a class of pairs of computations, with the steps that give the position back;
* `Sequencing.evaluate` — evaluations belong to it if the filters in them do;
* `Lockstep` — two such classes, one of them with the steps that move the position;
* `Lockstep.evaluate`, `Lockstep.accepts` — evaluations and matches belong to them;
* `Lockstep.firstAccepted` — so does a selection of rules within one forest.
-/

namespace StreamPath

/-- Move the context position if asked to. -/
def Run.moveIf (asked : Bool) (place : Nat) : Run Unit :=
  if asked then Run.setPosition place else pure ()

namespace Expr

/-- The expressions right below an expression. -/
def operands : Expr → List Expr
  | step _ base next => [base, next]
  | filter _ base condition => [base, condition]
  | call _ _ arguments => arguments
  | union left right | arithmetic _ _ left right | logic _ _ left right | compare _ _ left right
  | sequence _ left right | template _ left right => [left, right]
  | negate _ operand => [operand]
  | root | nodeTest _ | attributeTest _ | literal _ _ | list _ | var _ _ | contextItem _
  | parent _ => []

/-- An expression is another one or lies below it. -/
inductive Contains (whole : Expr) : Expr → Prop
  | self : Contains whole whole
  | operand {outer inner : Expr} : Contains whole outer → inner ∈ outer.operands →
      Contains whole inner

theorem Contains.pair {whole outer left right : Expr} (within : whole.Contains outer)
    (both : outer.operands = [left, right]) : whole.Contains left ∧ whole.Contains right :=
  ⟨within.operand (by simp [both]), within.operand (by simp [both])⟩

variable (library : Library) (scene : Scene)

theorem accepts_root (top : Nat) (rank : Bool) :
    root.accepts library scene top rank =
      if top = 1 && (scene.stack.occurrence? 0).any fun outermost =>
          outermost.event.kind = .document then
        Run.moveIf rank 1 >>= fun _ => pure true
      else pure false := by
  unfold accepts Run.moveIf
  cases rank <;> rfl

theorem accepts_nodeTest (test : NodeTest) (depth : Nat) (rank : Bool) :
    (nodeTest test).accepts library scene (depth + 2) rank =
      if (scene.stack.occurrence? (depth + 1)).any fun innermost =>
          test.selects innermost.event then
        Run.moveIf rank (scene.stack.positionOf (depth + 1) test) >>= fun _ => pure true
      else pure false := by
  unfold accepts Run.moveIf
  cases rank <;> rfl

/-- A filter asks its condition at the rank of the node, then keeps that position or moves back. -/
theorem accepts_filter (once : Bool) (base condition : Expr) (top : Nat) (rank : Bool) :
    (filter once base condition).accepts library scene top rank =
      Run.position >>= fun saved =>
        (base.accepts library scene top true >>= fun matched =>
          if matched then
            condition.evaluate library scene top >>= fun value =>
              Run.position >>= fun position => pure (holdsAt value position)
          else pure false) >>= fun accepted =>
        Run.moveIf (!rank) saved >>= fun _ => pure accepted := by
  funext memory
  rw [accepts]
  unfold Run.moveIf
  simp only [Run.bind_apply, Run.position_apply]
  cases base.accepts library scene top true memory with
  | error => rfl
  | ok matched middle =>
    cases matched with
    | false => cases rank <;> rfl
    | true =>
      simp only [if_true, Run.bind_apply]
      cases condition.evaluate library scene top middle with
      | error => rfl
      | ok => cases rank <;> rfl

/-- A filter that is asked to set the position leaves it where its base moves it. -/
theorem accepts_filter_ranked (once : Bool) (base condition : Expr) (top : Nat) :
    (filter once base condition).accepts library scene top true =
      base.accepts library scene top true >>= fun matched =>
        if matched then
          condition.evaluate library scene top >>= fun value =>
            Run.position >>= fun position => pure (holdsAt value position)
        else pure false := by
  rw [accepts_filter]
  funext memory
  rw [Run.bind_apply, Run.position_apply]
  show ((_ >>= fun accepted => pure accepted) : Run Bool) memory = _
  rw [bind_pure]

end Expr

/-- A class of pairs of computations. The first computation of a pair runs in one scene, the second
in another with the same open nodes, over renamed nodes. The class has the single steps of an
evaluation, but for those that move the position, and all sequences of its own. -/
structure Sequencing (first second : Scene) (f : NodeId → NodeId) (known : NodeId → Name → Prop)
    (P : ∀ {α : Type}, Run α → Run α → Prop) : Prop where
  stack : second.stack = first.stack
  pure : ∀ {α : Type} (a : α), P (Pure.pure a : Run α) (Pure.pure a)
  position : P Run.position Run.position
  report : ∀ cause, P (Run.report first cause) (Run.report second cause)
  refuse : ∀ {α : Type} form id role, P (Run.abort first (.unsuitable form id role) : Run α)
    (Run.abort second (.unsuitable form (f id) role))
  read : ∀ id name, known id name →
    P (first.readVariable id name) (second.readVariable (f id) name)
  bind : ∀ {α β : Type} {one two : Run α} {next next' : α → Run β}, P one two →
    (∀ a, P (next a) (next' a)) → P (one >>= next) (two >>= next')

namespace Sequencing

variable {first second : Scene} {f : NodeId → NodeId} {known : NodeId → Name → Prop}
  {P : ∀ {α : Type}, Run α → Run α → Prop} (sequencing : Sequencing first second f known P)

include sequencing

/-! ## Operators -/

theorem entryAt (depth : Nat) : second.entryAt depth = first.entryAt depth := by
  unfold Scene.entryAt
  rw [sequencing.stack]

theorem fallback (cause : Cause) : P (Run.fallback first cause) (Run.fallback second cause) := by
  have reported := sequencing.report cause
  exact sequencing.bind reported fun _ => sequencing.pure []

theorem usable (operand : Operand) (items : Sequence) :
    P (first.usable operand items) (second.usable operand items) := by
  unfold Scene.usable
  rw [sequencing.stack]
  split
  · exact sequencing.bind (sequencing.report _) fun _ => sequencing.pure false
  · exact sequencing.pure true

theorem allUsable (operands : List (Operand × Sequence)) :
    P (first.allUsable operands) (second.allUsable operands) := by
  induction operands with
  | nil => exact sequencing.pure true
  | cons head rest ih =>
    obtain ⟨operand, items⟩ := head
    unfold Scene.allUsable
    refine sequencing.bind (sequencing.usable operand items) fun usable => ?_
    split
    · exact ih
    · exact sequencing.pure false

theorem guarded (operands : List (Operand × Sequence)) {use use' : Run Sequence}
    (holds : P use use') : P (first.using operands use) (second.using operands use') := by
  unfold Scene.using
  refine sequencing.bind (sequencing.allUsable operands) fun usable => ?_
  split
  · exact holds
  · exact sequencing.pure []

theorem unionOf (items : Sequence) : P (first.unionOf items) (second.unionOf items) := by
  unfold Scene.unionOf
  rw [sequencing.stack]
  split
  · exact sequencing.fallback _
  · exact sequencing.pure _

theorem atHeights {next next' : Nat → Run Sequence}
    (holds : ∀ height, P (next height) (next' height))
    (heights : List Nat) : P (atHeights next heights) (atHeights next' heights) := by
  induction heights with
  | nil => exact sequencing.pure []
  | cons height rest ih =>
    unfold StreamPath.atHeights
    refine sequencing.bind (holds height) fun here => ?_
    exact sequencing.bind ih fun more => sequencing.pure _

theorem stepFrom (axis : Axis) {next next' : Nat → Run Sequence}
    (holds : ∀ height, P (next height) (next' height)) (items : Sequence) :
    P (first.stepFrom axis next items) (second.stepFrom axis next' items) := by
  have refuse : ∀ cause,
      P (Run.report first cause >>= fun _ => (Pure.pure none : Run (Option Sequence)))
        (Run.report second cause >>= fun _ => Pure.pure none) := by
    intro cause
    exact sequencing.bind (sequencing.report cause) fun _ => sequencing.pure none
  induction items with
  | nil => exact sequencing.pure _
  | cons item rest ih =>
    cases item with
    | node node =>
      have append : ∀ here : Sequence,
          P (first.stepFrom axis next rest >>= fun more =>
              (Pure.pure (more.map (here ++ ·)) : Run (Option Sequence)))
            (second.stepFrom axis next' rest >>= fun more => Pure.pure (more.map (here ++ ·))) := by
        intro here
        exact sequencing.bind ih fun more => sequencing.pure _
      unfold Scene.stepFrom Scene.heights
      rw [sequencing.stack]
      split
      · cases node.depth? with
        | none => exact sequencing.bind (sequencing.pure []) append
        | some depth => exact sequencing.bind (sequencing.atHeights holds _) append
      · exact refuse _
    | boolean | number | string => exact refuse _

/-! ## Evaluation -/

theorem evaluateAll (library : Library) (exprs : List Expr) (top : Nat)
    (holds : ∀ expr ∈ exprs, P (expr.evaluate library first top)
      ((expr.rename f).evaluate library second top)) :
    P (Expr.evaluateAll library first exprs top)
      (Expr.evaluateAll library second (Expr.renameAll f exprs) top) := by
  induction exprs with
  | nil => exact sequencing.pure []
  | cons expr rest ih =>
    rw [List.forall_mem_cons] at holds
    unfold Expr.renameAll Expr.evaluateAll
    refine sequencing.bind holds.1 fun value => ?_
    exact sequencing.bind (ih holds.2) fun values => sequencing.pure _

/-- Evaluations belong to the class, over known variables, if those filters do that are asked anew
for every item. -/
theorem evaluate (library : Library) {whole : Expr}
    (filters : ∀ base condition, whole.Contains (.filter false base condition) →
      (∀ top, P (base.evaluate library first top) ((base.rename f).evaluate library second top)) →
      (∀ top, P (condition.evaluate library first top)
        ((condition.rename f).evaluate library second top)) →
      ∀ top, P ((Expr.filter false base condition).evaluate library first top)
        (((Expr.filter false base condition).rename f).evaluate library second top))
    (expr : Expr) (within : whole.Contains expr)
    (read : ∀ entry ∈ expr.references, known entry.1 entry.2) (top : Nat) :
    P (expr.evaluate library first top) ((expr.rename f).evaluate library second top) := by
  induction expr using Expr.induct generalizing top with
  | root =>
    rw [Expr.rename, Expr.evaluate, Expr.evaluate, sequencing.entryAt]
    exact sequencing.pure _
  | literal => exact sequencing.pure _
  | nodeTest test =>
    rw [Expr.rename, Expr.evaluate, Expr.evaluate]
    unfold Scene.childEntry
    rw [sequencing.entryAt, sequencing.stack]
    exact sequencing.pure _
  | attributeTest test =>
    rw [Expr.rename, Expr.evaluate, Expr.evaluate]
    unfold Scene.contextAttributes
    rw [sequencing.stack]
    exact sequencing.pure _
  | contextItem id =>
    rw [Expr.rename]
    unfold Expr.evaluate
    split
    · exact sequencing.pure _
    · rw [sequencing.entryAt]
      exact sequencing.pure _
  | parent id =>
    rw [Expr.rename]
    unfold Expr.evaluate
    split
    · exact sequencing.pure _
    · exact sequencing.pure _
    · rw [sequencing.entryAt]
      exact sequencing.pure _
  | list id => exact sequencing.refuse _ id .value
  | step axis base next ihBase ihNext =>
    rw [Expr.references, List.forall_mem_append] at read
    obtain ⟨inBase, inNext⟩ := within.pair rfl
    have found := sequencing.stepFrom axis (ihNext inNext read.2)
    rw [Expr.rename, Expr.evaluate, Expr.evaluate]
    refine sequencing.bind (ihBase inBase read.1 top) fun starts => ?_
    exact sequencing.bind (found starts) fun _ => sequencing.pure _
  | union left right ihLeft ihRight =>
    rw [Expr.references, List.forall_mem_append] at read
    obtain ⟨inLeft, inRight⟩ := within.pair rfl
    rw [Expr.rename, Expr.evaluate, Expr.evaluate]
    refine sequencing.bind (ihLeft inLeft read.1 top) fun a => ?_
    refine sequencing.bind (ihRight inRight read.2 top) fun b => ?_
    exact sequencing.guarded _ (sequencing.unionOf _)
  | filter once base condition ihBase ihCondition =>
    rw [Expr.references, List.forall_mem_append] at read
    obtain ⟨inBase, inCondition⟩ := within.pair rfl
    cases once with
    | true =>
      rw [Expr.rename, Expr.evaluate, Expr.evaluate]
      refine sequencing.bind (ihBase inBase read.1 top) fun items => ?_
      exact sequencing.bind (ihCondition inCondition read.2 top) fun value => sequencing.pure _
    | false =>
      have conditions := ihCondition inCondition read.2
      exact filters base condition within (ihBase inBase read.1) conditions top
  | call id function arguments ih =>
    rw [Expr.references, Expr.referencesOfAll_eq] at read
    have values := sequencing.evaluateAll library arguments top fun argument mem =>
      ih argument mem (within.operand mem)
        (fun entry found => read entry (List.mem_flatMap.mpr ⟨_, mem, found⟩)) top
    rw [Expr.rename, Expr.evaluate, Expr.evaluate]
    refine sequencing.bind values fun values => sequencing.guarded _ ?_
    refine sequencing.bind sequencing.position fun position => ?_
    rw [sequencing.stack]
    split
    · exact sequencing.fallback _
    · split
      · exact sequencing.fallback _
      · exact sequencing.pure _
  | arithmetic id op left right ihLeft ihRight =>
    rw [Expr.references, List.forall_mem_append] at read
    obtain ⟨inLeft, inRight⟩ := within.pair rfl
    rw [Expr.rename, Expr.evaluate, Expr.evaluate]
    refine sequencing.bind (ihLeft inLeft read.1 top) fun a => ?_
    refine sequencing.bind (ihRight inRight read.2 top) fun b => ?_
    split
    · exact sequencing.pure []
    · split
      · exact sequencing.fallback _
      · exact sequencing.guarded _ (sequencing.pure _)
  | negate id operand ih =>
    rw [Expr.references] at read
    have inside := within.operand (List.mem_singleton_self operand)
    rw [Expr.rename, Expr.evaluate, Expr.evaluate]
    refine sequencing.bind (ih inside read top) fun value => ?_
    split
    · exact sequencing.pure []
    · split
      · exact sequencing.fallback _
      · exact sequencing.guarded _ (sequencing.pure _)
  | logic id op left right ihLeft ihRight =>
    rw [Expr.references, List.forall_mem_append] at read
    obtain ⟨inLeft, inRight⟩ := within.pair rfl
    rw [Expr.rename, Expr.evaluate, Expr.evaluate]
    refine sequencing.bind (ihLeft inLeft read.1 top) fun first => ?_
    split
    · exact sequencing.pure _
    · exact sequencing.pure _
    · exact sequencing.bind (ihRight inRight read.2 top) fun second => sequencing.pure _
  | compare id op left right ihLeft ihRight =>
    rw [Expr.references, List.forall_mem_append] at read
    obtain ⟨inLeft, inRight⟩ := within.pair rfl
    rw [Expr.rename, Expr.evaluate, Expr.evaluate]
    refine sequencing.bind (ihLeft inLeft read.1 top) fun a => ?_
    refine sequencing.bind (ihRight inRight read.2 top) fun b => ?_
    exact sequencing.guarded _ (sequencing.pure _)
  | sequence id left right ihLeft ihRight =>
    rw [Expr.references, List.forall_mem_append] at read
    obtain ⟨inLeft, inRight⟩ := within.pair rfl
    rw [Expr.rename, Expr.evaluate, Expr.evaluate]
    refine sequencing.bind (ihLeft inLeft read.1 top) fun a => ?_
    exact sequencing.bind (ihRight inRight read.2 top) fun b => sequencing.pure _
  | template id before part ihBefore ihPart =>
    rw [Expr.references, List.forall_mem_append] at read
    obtain ⟨inBefore, inPart⟩ := within.pair rfl
    rw [Expr.rename, Expr.evaluate, Expr.evaluate]
    refine sequencing.bind (ihBefore inBefore read.1 top) fun text => ?_
    refine sequencing.bind (ihPart inPart read.2 top) fun items => ?_
    exact sequencing.guarded _ (sequencing.pure _)
  | var id name =>
    have known := read (id, name) (List.mem_singleton_self _)
    rw [Expr.rename, Expr.evaluate, Expr.evaluate]
    refine sequencing.bind (sequencing.read id name known) fun found => ?_
    cases found with
    | some value => exact sequencing.pure value
    | none => exact sequencing.fallback _

/-! ## Matching -/

theorem anyBelow {test test' : Nat → Run Bool} {top : Nat}
    (holds : ∀ height < top, P (test height) (test' height)) :
    P (anyBelow test top) (anyBelow test' top) := by
  induction top with
  | zero => exact sequencing.pure false
  | succ height ih =>
    unfold StreamPath.anyBelow
    refine sequencing.bind (holds height (Nat.lt_succ_self height)) fun matched => ?_
    split
    · exact sequencing.pure true
    · exact ih fun lower lt => holds lower (Nat.lt_succ_of_lt lt)

/-- One match after another, if the first one succeeds. -/
theorem andThen {one two rest rest' : Run Bool} (head : P one two) (tail : P rest rest') :
    P (one >>= fun matched => if matched then rest else Pure.pure false)
      (two >>= fun matched => if matched then rest' else Pure.pure false) := by
  refine sequencing.bind head fun matched => ?_
  split
  · exact tail
  · exact sequencing.pure false

end Sequencing

/-- Two classes of pairs of computations, the first within the second. Both have the single steps of
an evaluation and all sequences of their own, but only the second may move the position. What moves
it between saving it and moving back counts to the first. -/
structure Lockstep (first second : Scene) (f : NodeId → NodeId) (known : NodeId → Name → Prop)
    (P Q : ∀ {α : Type}, Run α → Run α → Prop) : Prop
    extends Sequencing first second f known P where
  weaken : ∀ {α : Type} {one two : Run α}, P one two → Q one two
  move : ∀ place, Q (Run.setPosition place) (Run.setPosition place)
  chain : ∀ {α β : Type} {one two : Run α} {next next' : α → Run β}, Q one two →
    (∀ a, Q (next a) (next' a)) → Q (one >>= next) (two >>= next')
  saved : ∀ {α β : Type} {one two : Nat → Run α} {next next' : α → Run β},
    (∀ place, Q (one place) (two place)) → (∀ a, P (next a) (next' a)) →
    P (Run.position >>= fun place =>
        one place >>= fun a => Run.setPosition place >>= fun _ => next a)
      (Run.position >>= fun place =>
        two place >>= fun a => Run.setPosition place >>= fun _ => next' a)

namespace Lockstep

variable {first second : Scene} {f : NodeId → NodeId} {known : NodeId → Name → Prop}
  {P Q : ∀ {α : Type}, Run α → Run α → Prop} (lockstep : Lockstep first second f known P Q)

include lockstep

/-! ## Moves of the position -/

/-- Filtering moves the position from item to item. -/
theorem select {condition condition' : Nat → Run Sequence}
    (holds : ∀ height, P (condition height) (condition' height)) (saved position : Nat)
    (items : Sequence) :
    Q (first.select condition saved position items)
      (second.select condition' saved position items) := by
  induction items generalizing position with
  | nil => exact lockstep.weaken (lockstep.pure _)
  | cons item rest ih =>
    unfold Scene.select Scene.openDepth?
    rw [lockstep.stack]
    split
    · next depth isOpen =>
      refine lockstep.chain (lockstep.move position) fun _ => ?_
      refine lockstep.chain (lockstep.weaken (holds (depth + 1))) fun value => ?_
      exact lockstep.chain (ih (position + 1)) fun more => lockstep.weaken (lockstep.pure _)
    · have refuse := lockstep.bind (lockstep.report (.filterOffStack item.type)) fun _ =>
        lockstep.pure (none : Option Sequence)
      exact lockstep.chain (lockstep.move saved) fun _ => lockstep.weaken refuse

/-- Evaluations run in lockstep and give the position back, over known variables. -/
theorem evaluate (library : Library) (expr : Expr)
    (read : ∀ entry ∈ expr.references, known entry.1 entry.2) (top : Nat) :
    P (expr.evaluate library first top) ((expr.rename f).evaluate library second top) := by
  refine lockstep.toSequencing.evaluate library ?_ expr .self read top
  intro base condition _ ihBase ihCondition top
  rw [Expr.rename, Expr.evaluate, Expr.evaluate]
  refine lockstep.bind (ihBase top) fun items => ?_
  -- only a filter moves the position, and only between saving it and moving back
  have selects := fun place => lockstep.select ihCondition place 1 items
  exact lockstep.saved selects fun kept => lockstep.pure _

/-- The part of a match that may move the position comes first, and what follows only looks. -/
theorem moveThen {one two rest rest' : Run Bool} (head : Q one two) (tail : P rest rest') :
    Q (one >>= fun matched => if matched then rest else Pure.pure false)
      (two >>= fun matched => if matched then rest' else Pure.pure false) := by
  refine lockstep.chain head fun matched => lockstep.weaken ?_
  split
  · exact tail
  · exact lockstep.pure false

/-- The condition of a filter is asked at the position that its base left. -/
theorem asks (library : Library) (condition : Expr)
    (read : ∀ entry ∈ condition.references, known entry.1 entry.2) (top : Nat) :
    P (condition.evaluate library first top >>= fun value =>
        Run.position >>= fun position => Pure.pure (holdsAt value position))
      ((condition.rename f).evaluate library second top >>= fun value =>
        Run.position >>= fun position => Pure.pure (holdsAt value position)) := by
  refine lockstep.bind (lockstep.evaluate library condition read top) fun value => ?_
  exact lockstep.bind lockstep.position fun position => lockstep.pure _

/-- A match gives the position back if it is not asked to move it, and may move it if it is. -/
theorem accepts (library : Library) (expr : Expr)
    (read : ∀ entry ∈ expr.references, known entry.1 entry.2) (top : Nat) :
    P (expr.accepts library first top false) ((expr.rename f).accepts library second top false) ∧
      Q (expr.accepts library first top true)
        ((expr.rename f).accepts library second top true) := by
  have refuse : P (Pure.pure false : Run Bool) (Pure.pure false) ∧
      Q (Pure.pure false : Run Bool) (Pure.pure false) :=
    ⟨lockstep.pure false, lockstep.weaken (lockstep.pure false)⟩
  have moved : ∀ place, P (Run.moveIf false place >>= fun _ => Pure.pure true)
        (Run.moveIf false place >>= fun _ => Pure.pure true) ∧
      Q (Run.moveIf true place >>= fun _ => Pure.pure true)
        (Run.moveIf true place >>= fun _ => Pure.pure true) := by
    intro place
    exact ⟨lockstep.bind (lockstep.pure ()) fun _ => lockstep.pure true,
      lockstep.chain (lockstep.move place) fun _ => lockstep.weaken (lockstep.pure true)⟩
  induction expr using Expr.induct generalizing top with
  | root =>
    rw [Expr.rename]
    simp only [Expr.accepts_root, lockstep.stack]
    split
    · exact moved 1
    · exact refuse
  | step axis base next ihBase ihNext =>
    rw [Expr.references, List.forall_mem_append] at read
    -- the base is asked without rank, whatever the whole match is asked to do
    cases axis with
    | child =>
      cases top with
      | zero => exact refuse
      | succ below =>
        obtain ⟨still, moved⟩ := ihNext read.2 (below + 1)
        have around := (ihBase read.1 below).1
        exact ⟨lockstep.andThen still around, lockstep.moveThen moved around⟩
    | descendant =>
      obtain ⟨still, moved⟩ := ihNext read.2 top
      have around := lockstep.anyBelow fun height (_ : height < top) => (ihBase read.1 height).1
      exact ⟨lockstep.andThen still around, lockstep.moveThen moved around⟩
  | union left right ihLeft ihRight =>
    rw [Expr.references, List.forall_mem_append] at read
    obtain ⟨stillLeft, movedLeft⟩ := ihLeft read.1 top
    obtain ⟨stillRight, movedRight⟩ := ihRight read.2 top
    constructor
    · refine lockstep.bind stillLeft fun matched => ?_
      split
      · exact lockstep.pure true
      · exact stillRight
    · refine lockstep.chain movedLeft fun matched => ?_
      split
      · exact lockstep.weaken (lockstep.pure true)
      · exact movedRight
  | filter once base condition ihBase ihCondition =>
    rw [Expr.references, List.forall_mem_append] at read
    have moved := lockstep.moveThen (ihBase read.1 top).2
      (lockstep.asks library condition read.2 top)
    rw [Expr.rename]
    constructor
    · -- the base sets the position even then, for the condition to read
      rw [Expr.accepts_filter, Expr.accepts_filter]
      exact lockstep.saved (fun _ => moved) fun accepted => lockstep.pure accepted
    · rw [Expr.accepts_filter_ranked, Expr.accepts_filter_ranked]
      exact moved
  | nodeTest test =>
    obtain _ | _ | depth := top
    · exact refuse
    · exact refuse
    · rw [Expr.rename]
      simp only [Expr.accepts_nodeTest, lockstep.stack]
      split
      · exact moved _
      · exact refuse
  | attributeTest test =>
    obtain _ | _ | _ | depth := top
    · exact refuse
    · exact refuse
    · exact refuse
    · rw [Expr.rename]
      unfold Expr.accepts
      rw [lockstep.stack]
      exact ⟨lockstep.pure _, lockstep.weaken (lockstep.pure _)⟩
  | call id | literal id | arithmetic id | negate id | logic id | compare id | sequence id | list id
  | template id | var id | contextItem id | parent id =>
    exact ⟨lockstep.refuse _ id .pattern, lockstep.weaken (lockstep.refuse _ id .pattern)⟩

end Lockstep

/-! ## Selecting a rule -/

/-- Selections among the same rules run in lockstep. Every rule may move the position. -/
theorem Lockstep.firstAccepted {first second : Scene} {known : NodeId → Name → Prop}
    {P Q : ∀ {α : Type}, Run α → Run α → Prop} (lockstep : Lockstep first second id known P Q)
    (forest : Forest) (top saved : Nat) (rules : List Rule)
    (read : ∀ rule ∈ rules, ∀ entry ∈ (forest.expression rule.pattern).references,
      known entry.1 entry.2) :
    Q (RuleTable.firstAccepted forest first top saved rules)
      (RuleTable.firstAccepted forest second top saved rules) := by
  induction rules with
  | nil => exact lockstep.chain (lockstep.move saved) fun _ => lockstep.weaken (lockstep.pure none)
  | cons rule rest ih =>
    rw [List.forall_mem_cons] at read
    have asked := (lockstep.accepts forest.library (forest.expression rule.pattern) read.1 top).2
    rw [Expr.rename_id] at asked
    refine lockstep.chain (lockstep.move saved) fun _ => lockstep.chain asked fun matched => ?_
    split
    · exact lockstep.weaken (lockstep.pure (some rule))
    · exact ih read.2

end StreamPath
