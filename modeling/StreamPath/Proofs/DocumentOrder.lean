import Mathlib.Data.List.Forall2
import Mathlib.Data.List.Sort
import Mathlib.Data.Prod.Lex
import StreamPath.Proofs.Openness
import StreamPath.Proofs.Quiet

/-!
# Unions in document order

A union sorts the nodes of both operands by their places in the document. Two live nodes are at one
place only if they are the same, so the sorted nodes are strictly ascending, and they depend on
nothing but which nodes there are: neither on their order in the operands nor on how often they occur
there, nor on how several unions are grouped.

* `Ancestors.Placed` — the place of a live node;
* `Ancestors.Placed.same_iff` — a place is that of one node only;
* `Ancestors.InOrder` — some nodes, each once and in document order;
* `Ancestors.InOrder.same_nodes` — there is but one way to put nodes in order;
* `Forest.union_laws` — the laws of unions.
-/

namespace StreamPath

open Run

/-! ## Places in the document -/

namespace Ancestors

/-- The innermost depth at which an occurrence is open. -/
structure Innermost (stack : Ancestors) (occurrence : Occurrence) (depth : Nat) : Prop where
  isOpen : (stack.occurrence? depth).any occurrence.same = true
  highest : ∀ higher, depth < higher → (stack.occurrence? higher).any occurrence.same = false

/-- The place of a live node: the depth of an entry, or of the innermost entry that owns an attribute,
and behind the entry itself its attributes in their order. -/
inductive Placed (stack : Ancestors) : Node → Nat × Nat → Prop
  | entry {depth : Nat} {occurrence : Occurrence} :
      (stack.occurrence? depth).any occurrence.same = true →
      Placed stack (.entry depth occurrence) (depth, 0)
  | attr {owner : Occurrence} {index depth : Nat} : stack.Innermost owner depth →
      Placed stack (.attr owner index) (depth, index + 1)

/-- One node is before another one: at a lower depth, or at the same depth and in front of it. -/
def ComesBefore (stack : Ancestors) (a b : Node) : Prop :=
  ∃ first second, stack.Placed a first ∧ stack.Placed b second ∧
    (first.1 < second.1 ∨ first.1 = second.1 ∧ first.2 < second.2)

/-- Some nodes in document order, each of them once, and of the given ones no more and no less. -/
structure InOrder (stack : Ancestors) (given nodes : List Node) : Prop where
  ascending : nodes.Pairwise stack.ComesBefore
  once : nodes.Pairwise fun a b => a.same b = false
  sound : ∀ node ∈ nodes, node ∈ given
  complete : ∀ node ∈ given, ∃ other ∈ nodes, other.same node = true

variable {stack : Ancestors}

/-- What is open at a depth is one occurrence. -/
theorem same_of_any {depth : Nat} {a b : Occurrence}
    (first : (stack.occurrence? depth).any a.same = true)
    (second : (stack.occurrence? depth).any b.same = true) : a.same b = true := by
  obtain ⟨found, there, isA⟩ := (Option.any_eq_true _ _).mp first
  obtain ⟨other, alsoThere, isB⟩ := (Option.any_eq_true _ _).mp second
  cases there.symm.trans alsoThere
  rw [Occurrence.same_comm] at isB
  exact Occurrence.same_trans isA isB

theorem any_of_same {a b : Occurrence} (same : a.same b = true) (depth : Nat) :
    (stack.occurrence? depth).any a.same = (stack.occurrence? depth).any b.same := by
  have serial : a.serial = b.serial := by simpa [Occurrence.same] using same
  have tests : a.same = b.same := by
    funext other
    simp [Occurrence.same, serial]
  rw [tests]

theorem Innermost.depth_eq {a b : Occurrence} {depth other : Nat} (first : stack.Innermost a depth)
    (second : stack.Innermost b other) (same : a.same b = true) : depth = other := by
  have notAbove : ∀ {a b depth other}, stack.Innermost a depth → stack.Innermost b other →
      a.same b = true → ¬other < depth := by
    intro a b depth other first second same lt
    have closed := second.highest depth lt
    rw [← any_of_same same depth, first.isOpen] at closed
    cases closed
  have lower := notAbove first second same
  have higher := notAbove second first (by rw [Occurrence.same_comm]; exact same)
  omega

/-- A place is that of one node only. -/
theorem Placed.same_iff {a b : Node} {place other : Nat × Nat} (first : stack.Placed a place)
    (second : stack.Placed b other) : a.same b = true ↔ place = other := by
  cases first with
  | entry isOpen =>
    cases second with
    | entry alsoOpen =>
      simp only [Node.same, Bool.and_eq_true, decide_eq_true_eq, Prod.mk.injEq, and_true]
      constructor
      · exact And.left
      · rintro rfl
        exact ⟨rfl, same_of_any isOpen alsoOpen⟩
    | attr innermost => simp [Node.same]
  | attr innermost =>
    cases second with
    | entry isOpen => simp [Node.same]
    | attr alsoInnermost =>
      simp only [Node.same, Bool.and_eq_true, decide_eq_true_eq, Prod.mk.injEq,
        Nat.add_right_cancel_iff]
      constructor
      · rintro ⟨sameIndex, sameOwner⟩
        exact ⟨innermost.depth_eq alsoInnermost sameOwner, sameIndex⟩
      · rintro ⟨rfl, sameIndex⟩
        exact ⟨sameIndex, same_of_any innermost.isOpen alsoInnermost.isOpen⟩

theorem Placed.unique {node : Node} {place other : Nat × Nat} (first : stack.Placed node place)
    (second : stack.Placed node other) : place = other :=
  (first.same_iff second).mp node.same_self

/-- The search for the innermost depth ends with the first one it meets. -/
theorem innermost_of_depthBelow {occurrence : Occurrence} {limit depth : Nat}
    (found : stack.depthBelow occurrence limit = some depth) :
    ∀ higher, depth < higher → higher < limit →
      (stack.occurrence? higher).any occurrence.same = false := by
  induction limit with
  | zero => exact fun higher _ lt => absurd lt (Nat.not_lt_zero higher)
  | succ last ih =>
    unfold depthBelow at found
    split at found
    · next there =>
      cases found
      intro higher lt below
      omega
    · next elsewhere =>
      intro higher lt below
      rcases Nat.lt_succ_iff_lt_or_eq.mp below with below | rfl
      · exact ih found higher lt below
      · simpa using elsewhere

theorem innermost_of_depthOf? {occurrence : Occurrence} {depth : Nat}
    (found : stack.depthOf? occurrence = some depth) : stack.Innermost occurrence depth where
  isOpen := exists_of_depthBelow found
  highest := by
    intro higher lt
    by_cases below : higher < stack.height
    · exact innermost_of_depthBelow found higher lt below
    · cases there : stack.occurrence? higher with
      | none => rfl
      | some other => exact absurd (lt_height_of_occurrence? there) below

/-- A live node has its place in the document. -/
theorem placed_orderKey {node : Node} (live : stack.isLive node = true) :
    stack.Placed node (stack.orderKey node) := by
  cases node with
  | entry depth occurrence => exact .entry live
  | attr owner index =>
    obtain ⟨depth, found⟩ := Option.isSome_iff_exists.mp live
    show stack.Placed _ ((stack.depthOf? owner).getD 0, index + 1)
    rw [found]
    exact .attr (innermost_of_depthOf? found)

/-! ## Sorting -/

/-- Sorting compares places: by depth, then within it. -/
theorem precedes_iff {a b : Node} :
    stack.precedes a b = true ↔ toLex (stack.orderKey a) < toLex (stack.orderKey b) := by
  rw [Prod.Lex.toLex_lt_toLex]
  unfold precedes
  simp

theorem comesBefore_iff {a b : Node} (liveA : stack.isLive a = true) (liveB : stack.isLive b = true) :
    stack.ComesBefore a b ↔ toLex (stack.orderKey a) < toLex (stack.orderKey b) := by
  rw [Prod.Lex.toLex_lt_toLex]
  constructor
  · rintro ⟨first, second, placedA, placedB, lt⟩
    rwa [(placed_orderKey liveA).unique placedA, (placed_orderKey liveB).unique placedB]
  · intro lt
    exact ⟨_, _, placed_orderKey liveA, placed_orderKey liveB, lt⟩

theorem orderKey_eq_iff {a b : Node} (liveA : stack.isLive a = true) (liveB : stack.isLive b = true) :
    stack.orderKey a = stack.orderKey b ↔ a.same b = true :=
  ((placed_orderKey liveA).same_iff (placed_orderKey liveB)).symm

end Ancestors

theorem Node.same_trans {a b c : Node} (first : a.same b = true) (second : b.same c = true) :
    a.same c = true := by
  cases a <;> cases b <;> cases c <;> simp_all [Node.same, Occurrence.same]

/-- Of identical nodes only the first one is kept. -/
theorem pairwise_distinct (nodes : List Node) :
    (distinct nodes).Pairwise fun a b => a.same b = false := by
  induction nodes with
  | nil => exact .nil
  | cons node rest ih =>
    refine List.pairwise_cons.mpr ⟨fun other mem => ?_, ih.filter _⟩
    have differs := (List.mem_filter.mp mem).2
    rw [Node.same_comm]
    simpa using differs

/-- Every node is kept in one of its copies. -/
theorem exists_mem_distinct {nodes : List Node} {node : Node} (mem : node ∈ nodes) :
    ∃ other ∈ distinct nodes, other.same node = true := by
  induction nodes with
  | nil => cases mem
  | cons head rest ih =>
    by_cases isHead : head.same node = true
    · exact ⟨head, List.mem_cons_self, isHead⟩
    · obtain ⟨other, kept, same⟩ : ∃ other ∈ distinct rest, other.same node = true := by
        rcases List.mem_cons.mp mem with rfl | later
        · exact absurd node.same_self isHead
        · exact ih later
      refine ⟨other, List.mem_cons_of_mem _ (List.mem_filter.mpr ⟨kept, ?_⟩), same⟩
      by_cases again : other.same head = true
      · rw [Node.same_comm] at again
        exact absurd (Node.same_trans again same) isHead
      · simpa using again

namespace Ancestors

variable {stack : Ancestors}

/-- Sorting puts live nodes in order. -/
theorem inOrder_documentOrder {nodes : List Node}
    (live : ∀ node ∈ nodes, stack.isLive node = true) :
    stack.InOrder nodes (stack.documentOrder nodes) := by
  have sound : ∀ node ∈ stack.documentOrder nodes, node ∈ nodes :=
    fun _ mem => Scene.mem_of_mem_documentOrder mem
  have once : (stack.documentOrder nodes).Pairwise fun a b => a.same b = false := by
    refine (pairwise_distinct nodes).perm (Ranking.arrange_perm _ _).symm ?_
    intro a b differ
    rw [Node.same_comm]
    exact differ
  have sorted : (stack.documentOrder nodes).Pairwise fun a b => stack.precedes b a = false := by
    refine Ranking.pairwise_arrange stack.precedes ?_ ?_ _
    · intro a b lt
      rw [← Bool.not_eq_true, precedes_iff]
      exact (precedes_iff.mp lt).not_gt
    · intro a b c
      simp only [← Bool.not_eq_true, precedes_iff, not_lt]
      exact le_trans
  refine ⟨?_, once, sound, ?_⟩
  · refine (sorted.and once).imp_of_mem fun {a b} memA memB both => ?_
    have liveA := live a (sound a memA)
    have liveB := live b (sound b memB)
    rw [comesBefore_iff liveA liveB]
    refine lt_of_le_of_ne ?_ fun equal => ?_
    · rw [← not_lt, ← precedes_iff, Bool.not_eq_true]
      exact both.1
    · rw [(orderKey_eq_iff liveA liveB).mp (toLex.injective equal)] at both
      cases both.2
  · intro node mem
    obtain ⟨other, kept, same⟩ := exists_mem_distinct mem
    exact ⟨other, (Ranking.mem_arrange _).mpr kept, same⟩

/-- Live nodes at the same places are the same, one by one. -/
theorem same_of_places {nodes more : List Node} (live : ∀ node ∈ nodes, stack.isLive node = true)
    (alsoLive : ∀ node ∈ more, stack.isLive node = true)
    (places : nodes.map (fun node => toLex (stack.orderKey node)) =
      more.map fun node => toLex (stack.orderKey node)) :
    Sequence.same (nodes.map .node) (more.map .node) = true := by
  induction nodes generalizing more with
  | nil =>
    rw [List.map_eq_nil_iff.mp places.symm]
    rfl
  | cons node rest ih =>
    obtain ⟨other, others, rfl, place, placesRest⟩ := List.map_eq_cons_iff.mp places.symm
    obtain ⟨isLive, restLive⟩ := List.forall_mem_cons.mp live
    obtain ⟨otherLive, othersLive⟩ := List.forall_mem_cons.mp alsoLive
    have same := (orderKey_eq_iff isLive otherLive).mp (toLex.injective place.symm)
    have tail := ih restLive othersLive placesRest.symm
    simp only [List.map_cons, Sequence.same, Item.same, same, tail, Bool.and_self]

namespace InOrder

variable {given other nodes more result : List Node}

/-- Which nodes are given matters, but not in what order or how often. -/
theorem of_given (inOrder : stack.InOrder given nodes) (fewer : ∀ node ∈ given, node ∈ other)
    (more : ∀ node ∈ other, ∃ copy ∈ given, copy.same node = true) : stack.InOrder other nodes where
  ascending := inOrder.ascending
  once := inOrder.once
  sound := fun node mem => fewer node (inOrder.sound node mem)
  complete := by
    intro node mem
    obtain ⟨copy, isGiven, same⟩ := more node mem
    obtain ⟨kept, isKept, alike⟩ := inOrder.complete copy isGiven
    exact ⟨kept, isKept, Node.same_trans alike same⟩

/-- Nodes that were put in order before can be put in order again among others. -/
theorem append_left (inner : stack.InOrder given nodes)
    (outer : stack.InOrder (nodes ++ more) result) : stack.InOrder (given ++ more) result := by
  refine outer.of_given ?_ ?_
  · intro node mem
    rcases List.mem_append.mp mem with first | second
    · exact List.mem_append_left _ (inner.sound node first)
    · exact List.mem_append_right _ second
  · intro node mem
    rcases List.mem_append.mp mem with first | second
    · obtain ⟨kept, isKept, same⟩ := inner.complete node first
      exact ⟨kept, List.mem_append_left _ isKept, same⟩
    · exact ⟨node, List.mem_append_right _ second, node.same_self⟩

theorem swap (inOrder : stack.InOrder (given ++ more) nodes) :
    stack.InOrder (more ++ given) nodes := by
  have members : ∀ node, node ∈ given ++ more ↔ node ∈ more ++ given :=
    fun node => by rw [List.mem_append, List.mem_append, or_comm]
  exact inOrder.of_given (fun node => (members node).mp)
    fun node mem => ⟨node, (members node).mpr mem, node.same_self⟩

/-- The places of nodes in order are strictly ascending. -/
theorem pairwise_orderKey (inOrder : stack.InOrder given nodes)
    (live : ∀ node ∈ given, stack.isLive node = true) :
    (nodes.map fun node => toLex (stack.orderKey node)).Pairwise (· < ·) := by
  rw [List.pairwise_map]
  refine inOrder.ascending.imp_of_mem fun {a b} memA memB before => ?_
  exact (comesBefore_iff (live a (inOrder.sound a memA)) (live b (inOrder.sound b memB))).mp before

/-- There is but one way to put live nodes in order. -/
theorem same_nodes (first : stack.InOrder given nodes) (second : stack.InOrder given more)
    (live : ∀ node ∈ given, stack.isLive node = true) :
    Sequence.same (nodes.map .node) (more.map .node) = true := by
  have places : ∀ {one two : List Node}, stack.InOrder given one → stack.InOrder given two →
      ∀ place, place ∈ one.map (fun node => toLex (stack.orderKey node)) →
        place ∈ two.map (fun node => toLex (stack.orderKey node)) := by
    intro one two inOne inTwo place mem
    obtain ⟨node, kept, rfl⟩ := List.mem_map.mp mem
    have isGiven := inOne.sound node kept
    obtain ⟨copy, alsoKept, same⟩ := inTwo.complete node isGiven
    have equal :=
      (orderKey_eq_iff (live copy (inTwo.sound copy alsoKept)) (live node isGiven)).mpr same
    exact List.mem_map.mpr ⟨copy, alsoKept, congrArg toLex equal⟩
  have equal := (first.pairwise_orderKey live).eq_of_mem_iff (second.pairwise_orderKey live)
    fun place => ⟨places first second place, places second first place⟩
  exact same_of_places (fun node mem => live node (first.sound node mem))
    (fun node mem => live node (second.sound node mem)) equal

end InOrder

end Ancestors

/-! ## Unions of expressions -/

namespace Forest

variable {forest : Forest} {context : Context}

theorem expression_of_union (founded : forest.WellFounded) {id left right : NodeId}
    (found : forest.form? id = some (.union left right)) :
    forest.expression id = .union (forest.expression left) (forest.expression right) :=
  expression_eq_assemble founded found

/-- Between its operands, a union reports nothing if they do not. -/
theorem evaluate_union_of_gives (founded : forest.WellFounded) {id left right : NodeId}
    (found : forest.form? id = some (.union left right)) {top : Nat} {a b : Sequence}
    (givesLeft : forest.Gives context top left a) (givesRight : forest.Gives context top right b) :
    ∃ memory, Memory.Calm forest context memory ∧
      (forest.expression id).evaluate forest.library context.toScene top context.toMemory =
        context.toScene.using [(.union, a ++ b)] (context.toScene.unionOf (a ++ b)) memory := by
  obtain ⟨middle, endedLeft, calm⟩ := gives_iff_yields.mp givesLeft _ (.refl forest context)
  obtain ⟨final, endedRight, calm⟩ := gives_iff_yields.mp givesRight _ calm
  refine ⟨final, calm, ?_⟩
  rw [expression_of_union founded found, Expr.evaluate, bind_apply, endedLeft]
  simp only [bind_apply, endedRight]

/-- A union of live nodes gives these nodes in order. -/
theorem gives_union (founded : forest.WellFounded) {id left right : NodeId}
    (found : forest.form? id = some (.union left right)) {top : Nat} {a b : Sequence}
    (givesLeft : forest.Gives context top left a) (givesRight : forest.Gives context top right b)
    (liveLeft : context.stack.HoldsLiveNodes a) (liveRight : context.stack.HoldsLiveNodes b) :
    ∃ nodes, forest.Gives context top id (nodes.map .node) ∧
      context.stack.InOrder (a.nodes ++ b.nodes) nodes := by
  have live := liveLeft.append liveRight
  obtain ⟨memory, calm, evaluated⟩ := evaluate_union_of_gives founded found givesLeft givesRight
  rw [Scene.using_unionOf_of_live live] at evaluated
  refine ⟨_, ⟨_, Context.run_of_ok evaluated, calm.reported⟩, ?_⟩
  rw [← Sequence.nodes_append]
  exact Ancestors.inOrder_documentOrder live.allOpen

/-- An expression reports a type error and nothing else. Its value is empty if the sink accepts the
report; the run ends with the answer of the sink if not. -/
def ReportsTypeError (forest : Forest) (context : Context) (top : Nat) (id : NodeId) : Prop :=
  ∃ (cause : Cause) (after : Context), cause.code = .typeMismatch ∧
    (context.sink.respond ⟨cause, context.location⟩ = .ok () ∧
        forest.evaluate id context top = (.ok [], after) ∧
        after.reported = context.reported ++ [⟨cause, context.location⟩] ∨
      ∃ refused, context.sink.respond ⟨cause, context.location⟩ = .error refused ∧
        forest.evaluate id context top = (.error refused, after) ∧
        after.reported = context.reported)

/-- A union of anything but live nodes reports a type error. -/
theorem reportsTypeError_union (founded : forest.WellFounded) {id left right : NodeId}
    (found : forest.form? id = some (.union left right)) {top : Nat} {a b : Sequence}
    (givesLeft : forest.Gives context top left a) (givesRight : forest.Gives context top right b)
    (other : ¬context.stack.HoldsLiveNodes (a ++ b)) :
    forest.ReportsTypeError context top id := by
  obtain ⟨memory, calm, evaluated⟩ := evaluate_union_of_gives founded found givesLeft givesRight
  obtain ⟨cause, isType, recoverable, refused⟩ := Scene.using_unionOf_of_not_live other
  rw [refused, fallback, bind_apply, report_apply] at evaluated
  cases answer : context.sink.respond ⟨cause, context.location⟩ with
  | ok =>
    have judged : context.toScene.judge cause = .ok ⟨cause, context.location⟩ := by
      simp [Scene.judge, recoverable, answer]
    rw [judged] at evaluated
    refine ⟨cause, _, isType, .inl ⟨answer, Context.run_of_ok evaluated, ?_⟩⟩
    show memory.reported ++ _ = _
    rw [calm.reported]
  | error failure =>
    have judged : context.toScene.judge cause = .error failure := by
      simp [Scene.judge, recoverable, answer]
    rw [judged] at evaluated
    exact ⟨cause, _, isType,
      .inr ⟨failure, answer, Context.run_of_error evaluated, calm.reported⟩⟩

/-- Two expressions give equal values, and nothing is reported. -/
def GiveEqual (forest : Forest) (context : Context) (top : Nat) (first second : NodeId) : Prop :=
  ∃ a b, forest.Gives context top first a ∧ forest.Gives context top second b ∧ a.same b = true

/-- What is known of the unions of three expressions from the values that they have on their own. -/
structure UnionLaws (forest : Forest) (context : Context) (top : Nat) (a b c : NodeId)
    (valueA valueB valueC : Sequence) : Prop where
  /-- A union gives the nodes of both operands, each once and in document order. -/
  inOrder : ∀ ab, forest.form? ab = some (.union a b) → context.stack.HoldsLiveNodes valueA →
    context.stack.HoldsLiveNodes valueB → ∃ nodes, forest.Gives context top ab (nodes.map .node) ∧
      context.stack.InOrder (valueA.nodes ++ valueB.nodes) nodes
  /-- The operands can change places. -/
  comm : ∀ ab ba, forest.form? ab = some (.union a b) → forest.form? ba = some (.union b a) →
    context.stack.HoldsLiveNodes valueA → context.stack.HoldsLiveNodes valueB →
    forest.GiveEqual context top ab ba
  /-- Two unions in a row can be grouped either way. -/
  assoc : ∀ ab left bc right, forest.form? ab = some (.union a b) →
    forest.form? left = some (.union ab c) → forest.form? bc = some (.union b c) →
    forest.form? right = some (.union a bc) → context.stack.HoldsLiveNodes valueA →
    context.stack.HoldsLiveNodes valueB → context.stack.HoldsLiveNodes valueC →
    forest.GiveEqual context top left right
  /-- The union of an expression with itself gives its nodes, each once and in document order. -/
  idem : ∀ aa, forest.form? aa = some (.union a a) → context.stack.HoldsLiveNodes valueA →
    ∃ nodes, forest.Gives context top aa (nodes.map .node) ∧
      context.stack.InOrder valueA.nodes nodes
  /-- Operands with anything but live nodes are refused. -/
  refused : ∀ ab, forest.form? ab = some (.union a b) →
    ¬context.stack.HoldsLiveNodes (valueA ++ valueB) → forest.ReportsTypeError context top ab

/-- Where expressions have values without a report, the laws of unions hold of them. -/
theorem union_laws (founded : forest.WellFounded) (context : Context) (top : Nat) {a b c : NodeId}
    {valueA valueB valueC : Sequence} (givesA : forest.Gives context top a valueA)
    (givesB : forest.Gives context top b valueB) (givesC : forest.Gives context top c valueC) :
    forest.UnionLaws context top a b c valueA valueB valueC where
  inOrder := fun ab isAB liveA liveB => gives_union founded isAB givesA givesB liveA liveB
  comm := by
    intro ab ba isAB isBA liveA liveB
    obtain ⟨one, gives, inOrder⟩ := gives_union founded isAB givesA givesB liveA liveB
    obtain ⟨two, alsoGives, swapped⟩ := gives_union founded isBA givesB givesA liveB liveA
    refine ⟨_, _, gives, alsoGives, inOrder.same_nodes swapped.swap ?_⟩
    exact List.forall_mem_append.mpr ⟨liveA.allOpen, liveB.allOpen⟩
  assoc := by
    intro ab left bc right isAB isLeft isBC isRight liveA liveB liveC
    -- the inner union gives live nodes, so the outer one puts them in order among the others
    have liveOf : ∀ {given nodes}, context.stack.InOrder given nodes →
        (∀ node ∈ given, context.stack.isLive node = true) →
        context.stack.HoldsLiveNodes (nodes.map .node) :=
      fun inOrder live => .map_node fun node mem => live node (inOrder.sound node mem)
    obtain ⟨nodesAB, givesAB, inAB⟩ := gives_union founded isAB givesA givesB liveA liveB
    have liveAB := liveOf inAB (List.forall_mem_append.mpr ⟨liveA.allOpen, liveB.allOpen⟩)
    obtain ⟨one, givesLeft, inLeft⟩ := gives_union founded isLeft givesAB givesC liveAB liveC
    obtain ⟨nodesBC, givesBC, inBC⟩ := gives_union founded isBC givesB givesC liveB liveC
    have liveBC := liveOf inBC (List.forall_mem_append.mpr ⟨liveB.allOpen, liveC.allOpen⟩)
    obtain ⟨two, givesRight, inRight⟩ := gives_union founded isRight givesA givesBC liveA liveBC
    rw [Sequence.nodes_map_node] at inLeft inRight
    have grouped := inAB.append_left inLeft
    have regrouped := (inBC.append_left inRight.swap).swap
    rw [← List.append_assoc] at regrouped
    refine ⟨_, _, givesLeft, givesRight, grouped.same_nodes regrouped ?_⟩
    exact List.forall_mem_append.mpr
      ⟨List.forall_mem_append.mpr ⟨liveA.allOpen, liveB.allOpen⟩, liveC.allOpen⟩
  idem := by
    intro aa isAA liveA
    obtain ⟨nodes, gives, inOrder⟩ := gives_union founded isAA givesA givesA liveA liveA
    refine ⟨nodes, gives, inOrder.of_given ?_ ?_⟩
    · exact fun node mem => (List.mem_append.mp mem).elim id id
    · exact fun node mem => ⟨node, List.mem_append_left _ mem, node.same_self⟩
  refused := fun ab isAB other => reportsTypeError_union founded isAB givesA givesB other

/-- The attributes of an element, the element itself and its child: the element comes before its
attributes, and the three can be put together in any way. -/
theorem union_around_attributes :
    let forest := [.attributeTest .any, .contextItem, .nodeTest .anyElement, .union ⟨0⟩ ⟨1⟩,
      .union ⟨3⟩ ⟨2⟩, .union ⟨1⟩ ⟨2⟩, .union ⟨0⟩ ⟨5⟩].foldl
        (fun forest form => (Forest.add forest form).2) Forest.empty
    let attributes := [⟨.unqualified "x", "1"⟩, ⟨.unqualified "y", "2"⟩]
    let stack := ((Ancestors.empty.push ⟨.document, []⟩).push
      ⟨.element (.unqualified "a"), attributes⟩).push ⟨.element (.unqualified "b"), []⟩
    let context : Context := { stack }
    let owner : Occurrence := ⟨1, ⟨.element (.unqualified "a"), attributes⟩⟩
    let given := [Node.attr owner 0, .attr owner 1]
    context.stack.HoldsLiveNodes (given.map .node) ∧
      forest.UnionLaws context 2 ⟨0⟩ ⟨1⟩ ⟨2⟩ (given.map .node) (context.entryAt 1)
        (context.entryAt 2) ∧
      (∃ nodes, forest.Gives context 2 ⟨3⟩ (nodes.map .node) ∧
        context.stack.InOrder (given ++ [.entry 1 owner]) nodes) ∧
      context.stack.ComesBefore (.entry 1 owner) (.attr owner 0) ∧
      forest.GiveEqual context 2 ⟨4⟩ ⟨6⟩ := by
  intro forest attributes stack context owner given
  have founded : forest.WellFounded := by
    refine Forest.wellFounded_add (Forest.wellFounded_add (Forest.wellFounded_add
      (Forest.wellFounded_add (Forest.wellFounded_add (Forest.wellFounded_add
        (Forest.wellFounded_add Forest.wellFounded_empty ?_) ?_) ?_) ?_) ?_) ?_) ?_ <;> decide
  have liveGiven : context.stack.HoldsLiveNodes (given.map .node) := .map_node (by decide)
  have liveEntry : ∀ depth, context.stack.HoldsLiveNodes (context.entryAt depth) :=
    Scene.holdsLiveNodes_entryAt context.toScene
  have laws : forest.UnionLaws context 2 ⟨0⟩ ⟨1⟩ ⟨2⟩ (given.map .node) (context.entryAt 1)
      (context.entryAt 2) :=
    union_laws founded context 2 ⟨context, rfl, rfl⟩ ⟨context, rfl, rfl⟩ ⟨context, rfl, rfl⟩
  have before : context.stack.ComesBefore (.entry 1 owner) (.attr owner 0) := by
    rw [Ancestors.comesBefore_iff (by decide) (by decide)]
    decide
  exact ⟨liveGiven, laws, laws.inOrder ⟨3⟩ rfl liveGiven (liveEntry 1), before,
    laws.assoc ⟨3⟩ ⟨4⟩ ⟨5⟩ ⟨6⟩ rfl rfl rfl rfl liveGiven (liveEntry 1) (liveEntry 2)⟩

end Forest

end StreamPath
