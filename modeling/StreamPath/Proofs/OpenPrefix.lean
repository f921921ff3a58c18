import StreamPath.Proofs.PriorPosition

/-!
# What a match sees of the stack

A pattern is asked of the open nodes up to a height. What is opened and closed above them goes on all
the time and changes the counts of siblings of the innermost of these nodes, but a match without
predicates reads the nodes below the height only, and of the counts only those that the height leaves
one entry below.

* `Ancestors.ReachedAbove` — stacks that are reached without closing any of the nodes below a height;
* `Ancestors.ReachedAbove.agree` — what such a run preserves;
* `Expr.accepts_of_agreeBelow` — a match reads nothing else;
* `Forest.accepts_of_reachedAbove` — a match before and after the run is the same.
-/

namespace StreamPath

namespace Ancestors

/-- A stack is reached from another one by opening and closing nodes, with at least `floor` nodes open
at every time. -/
inductive ReachedAbove (floor : Nat) (start : Ancestors) : Ancestors → Prop
  | start : floor ≤ start.height → ReachedAbove floor start start
  | move {stack : Ancestors} (next : Move) : ReachedAbove floor start stack →
      floor ≤ (stack.move next).height → ReachedAbove floor start (stack.move next)

/-- Two stacks have the same nodes below a height, and all but the innermost of these have counted the
same children. -/
structure AgreeBelow (floor : Nat) (first second : Ancestors) : Prop where
  occurrences : ∀ depth < floor, second.occurrence? depth = first.occurrence? depth
  counts : ∀ depth, depth + 1 < floor → ∀ test : NodeTest,
    second.count depth test.siblingClass = first.count depth test.siblingClass

namespace AgreeBelow

variable {floor : Nat} {first second third : Ancestors}

theorem refl (floor : Nat) (stack : Ancestors) : AgreeBelow floor stack stack :=
  ⟨fun _ _ => rfl, fun _ _ _ => rfl⟩

theorem trans (sooner : AgreeBelow floor first second) (later : AgreeBelow floor second third) :
    AgreeBelow floor first third where
  occurrences := fun depth lt => (later.occurrences depth lt).trans (sooner.occurrences depth lt)
  counts := fun depth lt test => (later.counts depth lt test).trans (sooner.counts depth lt test)

/-- A position is counted one entry below the node, so the same nodes are at the same positions. -/
theorem positionOf (agree : AgreeBelow floor first second) {depth : Nat} (lt : depth < floor)
    (test : NodeTest) : second.positionOf depth test = first.positionOf depth test := by
  cases depth with
  | zero => rfl
  | succ parent => exact agree.counts parent lt test

end AgreeBelow

/-! ## Runs above a height -/

/-- Opening a node changes nothing below the nodes that are open, but for a count of the innermost. -/
theorem agreeBelow_pushOccurrence {floor : Nat} {stack : Ancestors} (above : floor ≤ stack.height)
    (occurrence : Occurrence) : AgreeBelow floor stack (stack.pushOccurrence occurrence) where
  occurrences := by
    intro depth lt
    rw [occurrence?_pushOccurrence, if_neg (by omega)]
  counts := by
    intro depth lt test
    rw [count_pushOccurrence, if_neg (by omega), if_neg (by omega)]

/-- A move that begins and ends above a height changes nothing below it. -/
theorem agreeBelow_move {floor : Nat} {stack : Ancestors} (above : floor ≤ stack.height) (next : Move)
    (still : floor ≤ (stack.move next).height) : AgreeBelow floor stack (stack.move next) := by
  cases next with
  | push event => exact agreeBelow_pushOccurrence above _
  | pushOccurrence occurrence => exact agreeBelow_pushOccurrence above occurrence
  | pop =>
    change floor ≤ stack.pop.height at still
    rw [height_pop] at still
    constructor
    · intro depth lt
      show stack.pop.occurrence? depth = _
      rw [occurrence?_pop, if_pos (by omega)]
    · intro depth lt test
      show stack.pop.count depth _ = _
      rw [count_pop, if_pos (by omega)]

namespace ReachedAbove

variable {floor : Nat} {start stack : Ancestors}

theorem height_le (reached : ReachedAbove floor start stack) : floor ≤ stack.height := by
  cases reached with
  | start above => exact above
  | move next _ above => exact above

/-- A whole run above a height changes nothing below it. -/
theorem agree (reached : ReachedAbove floor start stack) : AgreeBelow floor start stack := by
  induction reached with
  | start => exact .refl floor start
  | move next before above ih => exact ih.trans (agreeBelow_move before.height_le next above)

end ReachedAbove

end Ancestors

/-! ## What a match reads -/

section Reads

open Run

variable (library : Library) (scene : Scene)

/-- A search asks each height below its limit. -/
theorem anyBelow_congr {test other : Nat → Run Bool} {top : Nat}
    (same : ∀ height < top, test height = other height) : anyBelow test top = anyBelow other top := by
  induction top with
  | zero => rfl
  | succ highest ih =>
    unfold anyBelow
    rw [same highest (Nat.lt_succ_self highest),
      ih fun height lt => same height (Nat.lt_succ_of_lt lt)]

/-- A match without predicates is the same computation on stacks that agree below its height. -/
theorem Expr.accepts_of_agreeBelow {floor : Nat} {other : Ancestors}
    (agree : Ancestors.AgreeBelow floor scene.stack other) (expr : Expr) (plain : expr.filters = [])
    {top : Nat} (le : top ≤ floor) (rank : Bool) :
    expr.accepts library { scene with stack := other } top rank =
      expr.accepts library scene top rank := by
  induction expr using Expr.induct generalizing top rank with
  | root =>
    rw [accepts_root, accepts_root]
    by_cases outermost : top = 1
    · rw [agree.occurrences 0 (by omega)]
    · simp [outermost]
  | step axis base next ihBase ihNext =>
    obtain ⟨plainBase, plainNext⟩ := List.append_eq_nil_iff.mp plain
    cases axis with
    | child =>
      cases top with
      | zero => rfl
      | succ below =>
        show (next.accepts library _ (below + 1) rank >>= fun matched =>
          if matched then base.accepts library _ below false else pure false) = _
        rw [ihNext plainNext le, ihBase plainBase (Nat.le_of_succ_le le)]
        rfl
    | descendant =>
      have around : ∀ height < top,
          base.accepts library { scene with stack := other } height false =
            base.accepts library scene height false :=
        fun height lt => ihBase plainBase (Nat.le_trans (Nat.le_of_lt lt) le) false
      unfold accepts
      rw [ihNext plainNext le, anyBelow_congr around]
  | union left right ihLeft ihRight =>
    obtain ⟨plainLeft, plainRight⟩ := List.append_eq_nil_iff.mp plain
    unfold accepts
    rw [ihLeft plainLeft le, ihRight plainRight le]
  | filter once base condition => cases plain
  | nodeTest test =>
    rcases top with _ | _ | depth
    · rfl
    · rfl
    · rw [accepts_nodeTest, accepts_nodeTest]
      show (if (other.occurrence? (depth + 1)).any _ then
        Run.moveIf rank (other.positionOf (depth + 1) test) >>= _ else _) = _
      rw [agree.occurrences _ (by omega), agree.positionOf (by omega)]
  | attributeTest test =>
    rcases top with _ | _ | _ | depth
    · rfl
    · rfl
    · rfl
    · show (pure ((other.occurrence? (depth + 2)).any _) : Run Bool) = _
      rw [agree.occurrences _ (by omega)]
      rfl
  | call | literal | arithmetic | negate | logic | compare | sequence | list | template | var
  | contextItem | parent => rfl

/-! ## Asked again -/

/-- The computation with a fixed outcome, which leaves the position at a fixed place, if anywhere
else than it was. -/
def Run.settle {α : Type} (place? : Option Nat) (outcome : Except Diagnostic α) : Run α :=
  fun memory =>
    match outcome with
    | .ok a => .ok a { memory with position := place?.getD memory.position }
    | .error failure => .error failure { memory with position := place?.getD memory.position }

/-- A computation reads nothing that can change. -/
def Run.Settles {α : Type} (computation : Run α) : Prop :=
  ∃ place? outcome, computation = Run.settle place? outcome

namespace Run.Settles

variable {α β : Type}

theorem pure (a : α) : Settles (pure a : Run α) := ⟨none, .ok a, rfl⟩

theorem abort (scene : Scene) (cause : Cause) : Settles (Run.abort scene cause : Run α) :=
  ⟨none, .error ⟨cause, scene.location⟩, rfl⟩

theorem moveIf (asked : Bool) (place : Nat) : Settles (Run.moveIf asked place) := by
  cases asked with
  | false => exact ⟨none, .ok (), rfl⟩
  | true => exact ⟨some place, .ok (), rfl⟩

/-- The later of two places counts. -/
theorem bind {first : Run α} {next : α → Run β} (head : Settles first)
    (tail : ∀ a, Settles (next a)) : Settles (first >>= next) := by
  obtain ⟨place?, outcome, rfl⟩ := head
  cases outcome with
  | error failure => exact ⟨place?, .error failure, rfl⟩
  | ok a =>
    obtain ⟨later?, last, isLast⟩ := tail a
    refine ⟨later?.or place?, last, ?_⟩
    funext memory
    rw [bind_apply]
    show next a _ = _
    rw [isLast]
    cases last <;> cases later? <;> rfl

theorem ite {first second : Run α} (condition : Prop) [Decidable condition]
    (yes : Settles first) (no : Settles second) : Settles (if condition then first else second) := by
  split
  · exact yes
  · exact no

theorem anyBelow {test : Nat → Run Bool} (holds : ∀ height, Settles (test height)) (top : Nat) :
    Settles (anyBelow test top) := by
  induction top with
  | zero => exact .pure false
  | succ height ih => exact (holds height).bind fun matched => .ite _ (.pure true) ih

end Run.Settles

/-- A match without predicates reads no position and no binding. -/
theorem Expr.settles_accepts (expr : Expr) (plain : expr.filters = []) (top : Nat) (rank : Bool) :
    Settles (expr.accepts library scene top rank) := by
  induction expr using Expr.induct generalizing top rank with
  | root =>
    rw [accepts_root]
    exact .ite _ ((Settles.moveIf rank 1).bind fun _ => .pure true) (.pure false)
  | step axis base next ihBase ihNext =>
    obtain ⟨plainBase, plainNext⟩ := List.append_eq_nil_iff.mp plain
    cases axis with
    | child =>
      cases top with
      | zero => exact .pure false
      | succ below =>
        refine (ihNext plainNext (below + 1) rank).bind fun matched => ?_
        exact .ite _ (ihBase plainBase below false) (.pure false)
    | descendant =>
      refine (ihNext plainNext top rank).bind fun matched => ?_
      exact .ite _ (.anyBelow (fun height => ihBase plainBase height false) top) (.pure false)
  | union left right ihLeft ihRight =>
    obtain ⟨plainLeft, plainRight⟩ := List.append_eq_nil_iff.mp plain
    refine (ihLeft plainLeft top rank).bind fun matched => ?_
    exact .ite _ (.pure true) (ihRight plainRight top rank)
  | filter once base condition => cases plain
  | nodeTest test =>
    rcases top with _ | _ | depth
    · exact .pure false
    · exact .pure false
    · rw [accepts_nodeTest]
      exact .ite _ ((Settles.moveIf rank _).bind fun _ => .pure true) (.pure false)
  | attributeTest test =>
    rcases top with _ | _ | _ | depth
    · exact .pure false
    · exact .pure false
    · exact .pure false
    · exact .pure _
  | call | literal | arithmetic | negate | logic | compare | sequence | list | template | var
  | contextItem | parent => exact .abort scene _

end Reads

/-! ## Before and after a run -/

theorem Context.run_of_settle {α : Type} (context : Context) {computation : Scene → Run α}
    {place? : Option Nat} {outcome : Except Diagnostic α}
    (settled : computation context.toScene = Run.settle place? outcome) :
    context.run computation =
      (outcome, { context with position := place?.getD context.position }) := by
  cases outcome with
  | ok a => exact Context.run_of_ok (by rw [settled]; rfl)
  | error failure => exact Context.run_of_error (by rw [settled]; rfl)

/-- A match without predicates answers the same and leaves the same position before and after the
stack has moved above its height, whether it is asked in both places from the same position or in one
after the other. -/
theorem Forest.accepts_of_reachedAbove (forest : Forest) (id : NodeId) (context : Context)
    (after : Ancestors) (top : Nat) (rank : Bool) (plain : (forest.expression id).filters = [])
    (reached : Ancestors.ReachedAbove top context.stack after) :
    let first := forest.accepts id context top rank
    forest.accepts id { context with stack := after } top rank =
        (first.1, { first.2 with stack := after }) ∧
      forest.accepts id { first.2 with stack := after } top rank =
        (first.1, { first.2 with stack := after }) := by
  have same := Expr.accepts_of_agreeBelow forest.library context.toScene reached.agree
    (forest.expression id) plain (Nat.le_refl top) rank
  obtain ⟨place?, outcome, settled⟩ :=
    Expr.settles_accepts forest.library context.toScene (forest.expression id) plain top rank
  have later := same.trans settled
  -- moving to a place twice is moving to it once
  have twice : place?.getD (place?.getD context.position) = place?.getD context.position := by
    cases place? <;> rfl
  intro first
  have isFirst : first = (outcome, { context with position := place?.getD context.position }) :=
    context.run_of_settle settled
  rw [isFirst]
  constructor
  · exact Context.run_of_settle { context with stack := after } later
  · rw [Forest.accepts, Context.run_of_settle _ later]
    simp only [twice]

/-- Below an element that gains and loses children, the second element of its parent is still matched
at position two. -/
theorem accepts_after_children :
    let forest := [.nodeTest .anyElement, .nodeTest (.element (.unqualified "b")),
      .step .child ⟨0⟩ ⟨1⟩].foldl (fun forest form => (Forest.add forest form).2) Forest.empty
    let start := Ancestors.play [.push ⟨.element (.unqualified "b"), []⟩, .pop,
      .push ⟨.element (.unqualified "b"), []⟩, .push ⟨.element (.unqualified "a"), []⟩,
      .push ⟨.document, []⟩]
    let after := ((start.push ⟨.text "x", []⟩).pop).push ⟨.element (.unqualified "c"), []⟩
    let context : Context := { stack := start, position := 7 }
    (start.count 2 NodeTest.anyNode.siblingClass = 0 ∧
        after.count 2 NodeTest.anyNode.siblingClass = 2) ∧
      (forest.accepts ⟨2⟩ context 3 true).1 = .ok true ∧
      (forest.accepts ⟨2⟩ { context with stack := after } 3 true).1 = .ok true ∧
      (forest.accepts ⟨2⟩ { context with stack := after } 3 true).2.position = 2 := by
  intro forest start after context
  have reached : Ancestors.ReachedAbove 3 start after := by
    refine .move (.push ⟨.element (.unqualified "c"), []⟩) (.move .pop
      (.move (.push ⟨.text "x", []⟩) (.start ?_) ?_) ?_) ?_ <;> decide
  have same := (Forest.accepts_of_reachedAbove forest ⟨2⟩ context after 3 true rfl reached).1
  rw [same]
  exact ⟨⟨rfl, rfl⟩, rfl, rfl, rfl⟩

end StreamPath
