import Mathlib.Tactic.Choose
import StreamPath.Forest.Unfold
import StreamPath.Proofs.Openness
import StreamPath.Proofs.PathStep
import StreamPath.Proofs.SiblingCount

/-!
# Paths from the root

A path from the root can be read in two directions. As an expression it starts at the outermost node
and goes inward from node to node; as a pattern it is asked of one node and goes outward. Both find
the same nodes: those that the path leads to.

* `Expr.LeadsTo` — the depths that a path leads to, said without running it;
* `Expr.evaluate_rooted` — the value of a path is the entries that it leads to;
* `Expr.yields_rooted` — a path matches where it leads to;
* `Forest.mem_evaluate_iff_accepts` — so a path matches the nodes of its value, and no others.
-/

namespace StreamPath

namespace Expr

/-- A path of steps from the root, each with a test on children, or a union of such paths. -/
inductive Rooted : Expr → Prop
  | root : Rooted .root
  | step {axis : Axis} {base : Expr} {test : NodeTest} : Rooted base →
      Rooted (.step axis base (.nodeTest test))
  | union {left right : Expr} : Rooted left → Rooted right → Rooted (.union left right)

/-- A path leads to a depth: every step goes down along its axis to an open node that its test
selects. -/
inductive LeadsTo (stack : Ancestors) : Expr → Nat → Prop
  | root : LeadsTo stack .root 0
  | step {axis : Axis} {base : Expr} {test : NodeTest} {start depth : Nat} {reached : Occurrence} :
      LeadsTo stack base start → axis.Spans start depth →
      stack.occurrence? depth = some reached → test.selects reached.event = true →
      LeadsTo stack (.step axis base (.nodeTest test)) depth
  | left {left right : Expr} {depth : Nat} : LeadsTo stack left depth →
      LeadsTo stack (.union left right) depth
  | right {left right : Expr} {depth : Nat} : LeadsTo stack right depth →
      LeadsTo stack (.union left right) depth

end Expr

/-! ## Entries as values -/

namespace Scene

variable {scene : Scene}

theorem mem_entryAt {item : Item} {depth : Nat} :
    item ∈ scene.entryAt depth ↔
      ∃ reached, scene.stack.occurrence? depth = some reached ∧
        item = .node (.entry depth reached) := by
  unfold entryAt Ancestors.node?
  cases scene.stack.occurrence? depth <;> simp

/-- What a test finds above `depth + 1` open nodes is the next entry, if the test selects it. -/
theorem mem_childEntry {test : NodeTest} {item : Item} {depth : Nat} :
    item ∈ scene.childEntry test (depth + 1) ↔ item ∈ scene.entryAt (depth + 1) ∧
      ∃ reached, scene.stack.occurrence? (depth + 1) = some reached ∧
        test.selects reached.event = true := by
  unfold childEntry
  cases opened : scene.stack.occurrence? (depth + 1) with
  | none => simp [mem_entryAt, opened]
  | some reached =>
    by_cases selects : test.selects reached.event = true
    · simp [selects]
    · simp [selects]

/-- The items of a sequence are references to the entries at some depths. -/
def PointsTo (scene : Scene) (items : Sequence) (wanted : Nat → Prop) : Prop :=
  ∀ item, item ∈ items ↔ ∃ depth, wanted depth ∧ item ∈ scene.entryAt depth

theorem PointsTo.entry {items : Sequence} {wanted : Nat → Prop}
    (points : scene.PointsTo items wanted) {item : Item} (mem : item ∈ items) : ∃ depth, item ∈ scene.entryAt depth := by
  obtain ⟨depth, -, there⟩ := (points item).mp mem
  exact ⟨depth, there⟩

/-! ## Steps -/

theorem atHeights_pure (found : Nat → Sequence) (heights : List Nat) :
    atHeights (fun height => pure (found height)) heights = pure (heights.flatMap found) := by
  induction heights with
  | nil => rfl
  | cons height rest ih => rw [atHeights, pure_bind, ih, pure_bind, List.flatMap_cons]

/-- A step from entries gives what is found from each of them. -/
theorem stepFrom_entries (axis : Axis) (found : Nat → Sequence) (starts : Sequence)
    (entries : ∀ item ∈ starts, ∃ depth, item ∈ scene.entryAt depth) :
    ∃ items, scene.stepFrom axis (fun height => pure (found height)) starts = pure (some items) ∧
      ∀ item, item ∈ items ↔ ∃ start ∈ starts, ∃ depth, start ∈ scene.entryAt depth ∧
        ∃ height ∈ scene.heights axis depth, item ∈ found height := by
  induction starts with
  | nil => exact ⟨[], rfl, by simp⟩
  | cons start rest ih =>
    rw [List.forall_mem_cons] at entries
    obtain ⟨⟨depth, there⟩, others⟩ := entries
    obtain ⟨items, ended, mem⟩ := ih others
    obtain ⟨reached, opened, rfl⟩ := mem_entryAt.mp there
    have live : scene.stack.isLive (.entry depth reached) = true := by
      simp [Ancestors.isLive, opened]
    refine ⟨(scene.heights axis depth).flatMap found ++ items, ?_, fun item => ?_⟩
    · rw [stepFrom, if_pos live]
      show (atHeights _ (scene.heights axis depth) >>= _) = _
      rw [atHeights_pure, pure_bind, ended]
      rfl
    · -- an entry is at its own depth and at no other
      have own : ∀ other, Item.node (.entry depth reached) ∈ scene.entryAt other ↔
          other = depth := by
        intro other
        rw [mem_entryAt]
        constructor
        · rintro ⟨_, _, same⟩
          cases same
          rfl
        · rintro rfl
          exact ⟨reached, opened, rfl⟩
      rw [List.mem_append, List.mem_flatMap, mem]
      simp [own]

/-- Below the height of the stack every depth has an entry. -/
theorem exists_mem_entryAt {depth : Nat} (inside : depth < scene.stack.height) :
    ∃ item, item ∈ scene.entryAt depth := by
  refine ⟨.node (.entry depth scene.stack.entries[depth].occurrence), mem_entryAt.mpr ⟨_, ?_, rfl⟩⟩
  unfold Ancestors.occurrence?
  rw [Array.getElem?_eq_getElem inside]
  rfl

theorem mem_heights {axis : Axis} {start height : Nat} (inside : height ≤ scene.stack.height) :
    height ∈ scene.heights axis start ↔ axis.Spans start height := by
  cases axis with
  | child => simp [heights, Axis.Spans]
  | descendant =>
    simp only [heights, Axis.Spans, List.mem_range'_1]
    omega

/-! ## Unions -/

/-- Where identical nodes are equal, nothing is lost by keeping the first of them. -/
theorem mem_distinct {nodes : List Node}
    (same : ∀ a ∈ nodes, ∀ b ∈ nodes, a.same b = true → a = b) (node : Node) :
    node ∈ distinct nodes ↔ node ∈ nodes := by
  induction nodes with
  | nil => rfl
  | cons head rest ih =>
    have inner := ih fun a memA b memB =>
      same a (List.mem_cons_of_mem head memA) b (List.mem_cons_of_mem head memB)
    rw [distinct, List.mem_cons, List.mem_cons, List.mem_filter, inner]
    constructor
    · rintro (rfl | ⟨mem, -⟩)
      · exact .inl rfl
      · exact .inr mem
    · rintro (rfl | mem)
      · exact .inl rfl
      · by_cases twice : node.same head = true
        · exact .inl (same node (List.mem_cons_of_mem head mem) head List.mem_cons_self twice)
        · exact .inr ⟨mem, by simpa using twice⟩

/-- The union of entries is made up of the same entries, and nothing is reported. -/
theorem using_union_entries (items : Sequence)
    (entries : ∀ item ∈ items, ∃ depth, item ∈ scene.entryAt depth) :
    ∃ merged, scene.using [(.union, items)] (scene.unionOf items) = pure merged ∧
      ∀ item, item ∈ merged ↔ item ∈ items := by
  have live : scene.stack.HoldsLiveNodes items := by
    intro item mem
    obtain ⟨depth, there⟩ := entries item mem
    exact scene.holdsLiveNodes_entryAt depth item there
  have opened : ∀ node ∈ items.nodes, ∃ depth reached,
      scene.stack.occurrence? depth = some reached ∧ node = .entry depth reached := by
    intro node mem
    obtain ⟨depth, there⟩ := entries _ (Sequence.mem_nodes.mp mem)
    obtain ⟨reached, isOpen, same⟩ := mem_entryAt.mp there
    exact ⟨depth, reached, isOpen, Item.node.inj same⟩
  have equal : ∀ a ∈ items.nodes, ∀ b ∈ items.nodes, a.same b = true → a = b := by
    intro a memA b memB same
    obtain ⟨depth, reached, isOpen, rfl⟩ := opened a memA
    obtain ⟨other, found, alsoOpen, rfl⟩ := opened b memB
    simp only [Node.same, Bool.and_eq_true, decide_eq_true_eq] at same
    obtain ⟨rfl, -⟩ := same
    rw [isOpen] at alsoOpen
    cases alsoOpen
    rfl
  refine ⟨_, using_unionOf_of_live live, fun item => ?_⟩
  rw [List.mem_map]
  unfold Ancestors.documentOrder
  simp only [Ranking.mem_arrange, mem_distinct equal, Sequence.mem_nodes]
  constructor
  · rintro ⟨node, mem, rfl⟩
    exact mem
  · intro mem
    obtain ⟨node, rfl, -⟩ := live item mem
    exact ⟨node, mem, rfl⟩

end Scene

/-! ## Evaluating inward -/

namespace Expr

open Run

variable (library : Library) {scene : Scene} {outermost : Occurrence} {near : Memory → Prop}

/-- The value of a path is the entries that it leads to. It depends on nothing but the open nodes,
and nothing is reported. -/
theorem evaluate_rooted {expr : Expr} (rooted : expr.Rooted) {top : Nat} (inView : 1 ≤ top) :
    ∃ items, expr.evaluate library scene top = pure items ∧
      scene.PointsTo items (expr.LeadsTo scene.stack) := by
  induction rooted with
  | root =>
    refine ⟨scene.entryAt 0, ?_, fun item => ?_⟩
    · rw [evaluate, if_neg (by omega)]
    · constructor
      · intro mem
        exact ⟨0, .root, mem⟩
      · rintro ⟨_, ⟨⟩, mem⟩
        exact mem
  | @step axis base test _ ih =>
    obtain ⟨starts, begun, points⟩ := ih
    obtain ⟨items, ended, mem⟩ := Scene.stepFrom_entries axis (scene.childEntry test) starts
      fun item mem => points.entry mem
    refine ⟨items, ?_, fun item => ?_⟩
    · rw [evaluate, begun, pure_bind]
      show (scene.stepFrom axis (fun height => pure (scene.childEntry test height)) starts
        >>= _) = _
      rw [ended]
      rfl
    · rw [mem]
      constructor
      · rintro ⟨start, isStart, depth, there, height, isHeight, found⟩
        obtain ⟨origin, leads, here⟩ := (points start).mp isStart
        -- an entry is found at one depth only
        obtain ⟨reached, -, rfl⟩ := Scene.mem_entryAt.mp there
        obtain ⟨_, -, same⟩ := Scene.mem_entryAt.mp here
        cases same
        have above : ∃ level, height = level + 1 := by
          cases axis with
          | child => exact ⟨depth, List.mem_singleton.mp isHeight⟩
          | descendant =>
            simp only [Scene.heights, List.mem_range'_1] at isHeight
            exact ⟨height - 1, by omega⟩
        obtain ⟨level, rfl⟩ := above
        obtain ⟨entry, next, opened, selects⟩ := Scene.mem_childEntry.mp found
        have inside := Ancestors.lt_height_of_occurrence? opened
        have spans := (Scene.mem_heights (by omega)).mp isHeight
        exact ⟨level + 1, .step leads spans opened selects, entry⟩
      · rintro ⟨depth, leads, entry⟩
        cases leads with
        | @step _ _ _ start _ reached leads spans opened selects =>
          have inside := Ancestors.lt_height_of_occurrence? opened
          have outer := spans.lt
          obtain ⟨below, rfl⟩ : ∃ below, depth = below + 1 := ⟨depth - 1, by omega⟩
          have isOpen : start < scene.stack.height := by omega
          obtain ⟨origin, here⟩ := Scene.exists_mem_entryAt isOpen
          exact ⟨origin, (points origin).mpr ⟨start, leads, here⟩, start, here, below + 1,
            (Scene.mem_heights (by omega)).mpr spans,
            Scene.mem_childEntry.mpr ⟨entry, reached, opened, selects⟩⟩
  | @union left right _ _ ihLeft ihRight =>
    obtain ⟨a, endedLeft, pointsLeft⟩ := ihLeft
    obtain ⟨b, endedRight, pointsRight⟩ := ihRight
    have entries : ∀ item ∈ a ++ b, ∃ depth, item ∈ scene.entryAt depth := by
      intro item mem
      rcases List.mem_append.mp mem with inLeft | inRight
      · exact pointsLeft.entry inLeft
      · exact pointsRight.entry inRight
    obtain ⟨merged, ended, mem⟩ := Scene.using_union_entries (a ++ b) entries
    refine ⟨merged, ?_, fun item => ?_⟩
    · rw [evaluate, endedLeft, pure_bind, endedRight, pure_bind, ended]
    · rw [mem, List.mem_append, pointsLeft item, pointsRight item]
      constructor
      · rintro (⟨depth, leads, entry⟩ | ⟨depth, leads, entry⟩)
        · exact ⟨depth, .left leads, entry⟩
        · exact ⟨depth, .right leads, entry⟩
      · rintro ⟨depth, leads, entry⟩
        cases leads with
        | left leads => exact .inl ⟨depth, leads, entry⟩
        | right leads => exact .inr ⟨depth, leads, entry⟩

/-! ## Matching outward -/

/-- A test on children is satisfied by a node that it selects, the outermost node apart. -/
theorem yields_nodeTest (near : Memory → Prop) (scene : Scene) (test : NodeTest) (height : Nat) :
    ∃ matched, Yields near ((nodeTest test).accepts library scene height false) matched ∧
      (matched = true ↔ ∃ depth reached, height = depth + 2 ∧
        scene.stack.occurrence? (depth + 1) = some reached ∧
          test.selects reached.event = true) := by
  match height with
  | 0 | 1 => exact ⟨false, Yields.pure false, by simp⟩
  | depth + 2 =>
    have looks : (nodeTest test).accepts library scene (depth + 2) false =
        pure ((scene.stack.occurrence? (depth + 1)).any fun reached =>
          test.selects reached.event) := by
      rw [accepts_nodeTest]
      cases (scene.stack.occurrence? (depth + 1)).any fun reached =>
        test.selects reached.event <;> rfl
    rw [looks]
    refine ⟨_, Yields.pure _, ?_⟩
    rw [Option.any_eq_true]
    constructor
    · rintro ⟨reached, opened, selects⟩
      exact ⟨depth, reached, rfl, opened, selects⟩
    · rintro ⟨_, reached, same, opened, selects⟩
      cases same
      exact ⟨reached, opened, selects⟩

/-- A path matches exactly where it leads to, below a document. The match depends on nothing but the
open nodes. -/
theorem yields_rooted (near : Memory → Prop) (opened : scene.stack.occurrence? 0 = some outermost)
    (document : outermost.event.kind = .document) {expr : Expr} (rooted : expr.Rooted)
    (height : Nat) :
    ∃ matched, Yields near (expr.accepts library scene height false) matched ∧
      (matched = true ↔ ∃ depth, height = depth + 1 ∧ expr.LeadsTo scene.stack depth) := by
  induction rooted generalizing height with
  | root =>
    have looks : root.accepts library scene height false = pure (decide (height = 1)) := by
      rw [accepts_root, opened]
      by_cases one : height = 1
      · simp [one, document, Run.moveIf]
      · simp [one]
    rw [looks]
    refine ⟨_, Yields.pure _, ?_⟩
    rw [decide_eq_true_iff]
    constructor
    · rintro rfl
      exact ⟨0, rfl, .root⟩
    · rintro ⟨_, rfl, ⟨⟩⟩
      rfl
  | @step axis base test _ ih =>
    obtain ⟨last, asked, iffLast⟩ := yields_nodeTest library near scene test height
    -- the part of the path before the last step, wherever the axis leads back to
    choose around askedAround iffAround using ih
    obtain ⟨matched, answered, iff⟩ :=
      yields_step library scene asked fun start _ => askedAround start
    refine ⟨matched, answered, ?_⟩
    rw [iff, iffLast]
    constructor
    · rintro ⟨⟨depth, reached, rfl, isOpen, selects⟩, start, spans, holds⟩
      obtain ⟨origin, rfl, leads⟩ := (iffAround start).mp holds
      exact ⟨depth + 1, rfl, .step leads (Axis.spans_succ.mp spans) isOpen selects⟩
    · rintro ⟨depth, rfl, leads⟩
      cases leads with
      | @step _ _ _ start _ reached leads spans isOpen selects =>
        obtain ⟨below, rfl⟩ : ∃ below, depth = below + 1 := ⟨depth - 1, by have := spans.lt; omega⟩
        exact ⟨⟨below, reached, rfl, isOpen, selects⟩, start + 1, Axis.spans_succ.mpr spans,
          (iffAround _).mpr ⟨start, rfl, leads⟩⟩
  | @union left right _ _ ihLeft ihRight =>
    obtain ⟨first, askedLeft, iffLeft⟩ := ihLeft height
    obtain ⟨second, askedRight, iffRight⟩ := ihRight height
    refine ⟨first || second, ?_, ?_⟩
    · refine askedLeft.bind ?_
      cases first with
      | true => exact Yields.pure true
      | false => exact askedRight
    · rw [Bool.or_eq_true, iffLeft, iffRight]
      constructor
      · rintro (⟨depth, here, leads⟩ | ⟨depth, here, leads⟩)
        · exact ⟨depth, here, .left leads⟩
        · exact ⟨depth, here, .right leads⟩
      · rintro ⟨depth, here, leads⟩
        cases leads with
        | left leads => exact .inl ⟨depth, here, leads⟩
        | right leads => exact .inr ⟨depth, here, leads⟩

end Expr

/-! ## Both directions -/

/-- Below a document, a path from the root is evaluated without a report or any other change of the
context, and it matches exactly the open nodes that its value refers to. -/
theorem Forest.mem_evaluate_iff_accepts (forest : Forest) (id : NodeId)
    (rooted : (forest.expression id).Rooted) (context : Context) (outermost : Occurrence)
    (opened : context.stack.occurrence? 0 = some outermost)
    (document : outermost.event.kind = .document) (top : Nat) (inView : 1 ≤ top) :
    ∃ items, forest.evaluate id context top = (.ok items, context) ∧
      ∀ height, 1 ≤ height → height ≤ context.stack.height →
        ∃ node matched, context.stack.node? (height - 1) = some node ∧
          forest.accepts id context height false = (.ok matched, context) ∧
          (matched = true ↔ .node node ∈ items) := by
  have value : ∃ items,
      (forest.expression id).evaluate forest.library context.toScene top = pure items ∧
        context.toScene.PointsTo items ((forest.expression id).LeadsTo context.stack) :=
    Expr.evaluate_rooted forest.library rooted inView
  obtain ⟨items, ended, points⟩ := value
  refine ⟨items, ?_, fun height positive inside => ?_⟩
  · have evaluated : (forest.expression id).evaluate forest.library context.toScene top
        context.toMemory = .ok items context.toMemory := by
      rw [ended]
      rfl
    exact Context.run_of_ok evaluated
  · obtain ⟨depth, rfl⟩ : ∃ depth, height = depth + 1 := ⟨height - 1, by omega⟩
    obtain ⟨matched, asked, iff⟩ := Expr.yields_rooted forest.library (· = context.toMemory) opened
      document rooted (depth + 1)
    obtain ⟨final, ended, rfl⟩ := asked context.toMemory rfl
    have inner : depth < context.toScene.stack.height := inside
    obtain ⟨item, there⟩ := Scene.exists_mem_entryAt inner
    obtain ⟨reached, isOpen, rfl⟩ := Scene.mem_entryAt.mp there
    refine ⟨.entry depth reached, matched, ?_, ?_, ?_⟩
    · show (context.stack.occurrence? depth).map _ = _
      rw [isOpen]
      rfl
    · exact Context.run_of_ok ended
    · rw [iff, points]
      constructor
      · rintro ⟨_, same, leads⟩
        cases same
        exact ⟨depth, leads, there⟩
      · rintro ⟨other, leads, entry⟩
        obtain ⟨_, -, same⟩ := Scene.mem_entryAt.mp entry
        cases same
        exact ⟨depth, rfl, leads⟩

/-- In a document with an element in an element, the inner one is in the value of a path that leads
to all elements below the outer one, because the path matches it. -/
theorem mem_value_of_inner_element :
    let forest := ((((((Forest.empty.add .root).2.add
      (.nodeTest (.element (.unqualified "a")))).2.add
      (.step .child ⟨0⟩ ⟨1⟩)).2.add (.nodeTest .anyElement)).2.add
      (.step .descendant ⟨2⟩ ⟨3⟩)).2.add (.union ⟨4⟩ ⟨2⟩)).2
    let stack := ((Ancestors.empty.push ⟨.document, []⟩).push
      ⟨.element (.unqualified "a"), []⟩).push ⟨.element (.unqualified "b"), []⟩
    let context : Context := { stack, position := 4 }
    (forest.expression ⟨5⟩).Rooted ∧ (forest.accepts ⟨5⟩ context 3 false).1 = .ok true ∧
      ∃ items node, forest.evaluate ⟨5⟩ context 1 = (.ok items, context) ∧
        context.stack.node? 2 = some node ∧ .node node ∈ items := by
  intro forest stack context
  have rooted : (forest.expression ⟨5⟩).Rooted := .union (.step (.step .root)) (.step .root)
  have accepted : (forest.accepts ⟨5⟩ context 3 false).1 = .ok true := rfl
  obtain ⟨items, ended, agree⟩ := Forest.mem_evaluate_iff_accepts forest ⟨5⟩ rooted context
    ⟨0, ⟨.document, []⟩⟩ rfl rfl 1 (by decide)
  obtain ⟨node, matched, there, asked, iff⟩ := agree 3 (by decide) (by decide)
  rw [asked] at accepted
  cases accepted
  exact ⟨rooted, rfl, items, node, ended, there, iff.mp rfl⟩

end StreamPath
