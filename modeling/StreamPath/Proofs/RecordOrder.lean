import StreamPath.Proofs.Activations
import StreamPath.Proofs.NestedCopies
import StreamPath.Proofs.Specialization

/-!
# The order of a record does not matter

A record lists copies in some order, and relinking and carrying over what is remembered go through
it. Both change what they read on the way: a relinked copy can be the parent of another one, and a
copy can be copied in turn. Relinking a copy changes nothing that the relinking of another one reads;
what is carried over was read before; and no two nodes have one copy. So it is of no consequence in
which order a record lists what it holds: not for the table, not for what is remembered, and not for
what can be seen of a run afterwards.

* `Forest.Filled` — how records come about;
* `CopyRecord.Reordered` — a record that lists the same in another order;
* `GroupTable.relink_of_reordered`, `Context.same_inheritScopes` — what both make of the table and of
  the remembered scopes;
* `Operation.observe_of_same` — a run does not show in which order scopes are remembered;
* `Forest.Filled.order_irrelevant` — nor in which order a record lists what it holds.
-/

namespace StreamPath

open Run

/-! ## How records come about -/

namespace Forest

/-- A forest and the record of a copy operation on it. The record is empty at first; then trees of the
forest and groups of any tables are copied, and groups are recorded to be copied to given ones, in any
order. The forest may be worked on in between, so long as it loses no node. -/
inductive Filled : CopyState → Prop
  | start {forest : Forest} : forest.WellFounded → Filled (forest, {})
  | grow {state : CopyState} {later : Forest} : Filled state → later.WellFounded →
      state.1.size ≤ later.size → Filled (later, state.2)
  | copyTree {state : CopyState} {id : NodeId} : Filled state → id.index < state.1.size →
      Filled (state.1.deepCopy state.2 id).2
  | copyGroup {state : CopyState} (table : GroupTable) (id : GroupId) : Filled state →
      Filled (state.1, (table.copyGroup state.2 id).2.2)
  | recordGroup {state : CopyState} (id copy : GroupId) : Filled state →
      Filled (state.1, state.2.recordGroup id copy)

/-- All copied nodes have different copies, and no node or group is on record twice. -/
structure CopyState.OneToOne (state : CopyState) : Prop extends CopyState.Sound state where
  injective : ∀ id other copy, state.2.node? id = some copy → state.2.node? other = some copy →
    id = other
  nodes : state.2.nodes.keys.Nodup
  groups : state.2.groups.keys.Nodup

namespace CopyState

variable {asked : NodeId → Prop} {start final : CopyState}

/-- A new copy is behind all others. -/
theorem Step.oneToOne (step : Step asked start final) (oneToOne : start.OneToOne) :
    final.OneToOne := by
  have sound := step.sound oneToOne.toSound
  cases step with
  | @copy forest copies id _ _ _ _ _ =>
    have fresh : ∀ other, copies.node? other ≠ some ⟨forest.size⟩ := fun other earlier =>
      Nat.lt_irrefl _ (oneToOne.inside other _ earlier)
    exact ⟨sound, fun _ _ _ => Table.injective_insert oneToOne.injective fresh,
      Table.nodup_keys_insert _ _ _ oneToOne.nodes, oneToOne.groups⟩

theorem Steps.oneToOne (steps : Steps asked start final) (oneToOne : start.OneToOne) :
    final.OneToOne := by
  induction steps with
  | refl => exact oneToOne
  | tail _ step ih => exact step.oneToOne ih

end CopyState

/-- A record gets at most one entry for the group that is copied, and none for a node. -/
theorem CopyState.OneToOne.copyGroup {state : CopyState} (oneToOne : state.OneToOne)
    (table : GroupTable) (id : GroupId) :
    CopyState.OneToOne (state.1, (table.copyGroup state.2 id).2.2) := by
  cases known : state.2.group? id with
  | some copy =>
    rw [GroupTable.copyGroup_of_known table known]
    exact oneToOne
  | none =>
    rw [GroupTable.copyGroup_of_unknown table known]
    exact ⟨⟨oneToOne.founded, oneToOne.inside⟩, oneToOne.injective, oneToOne.nodes,
      Table.nodup_keys_insert _ _ _ oneToOne.groups⟩

theorem Filled.oneToOne {state : CopyState} (filled : Filled state) : state.OneToOne := by
  induction filled with
  | start founded => exact ⟨⟨founded, nofun⟩, nofun, List.nodup_nil, List.nodup_nil⟩
  | grow _ founded size ih =>
    have inside := fun id copy found => Nat.lt_of_lt_of_le (ih.inside id copy found) size
    exact ⟨⟨founded, inside⟩, ih.injective, ih.nodes, ih.groups⟩
  | copyTree _ inside ih => exact (steps_deepCopy ih.toSound inside).1.oneToOne ih
  | copyGroup table id _ ih => exact ih.copyGroup table id
  | recordGroup id copy _ ih =>
    exact ⟨⟨ih.founded, ih.inside⟩, ih.injective, ih.nodes, Table.nodup_keys_insert _ _ _ ih.groups⟩

end Forest

/-! ## Reordered records -/

/-- A record lists what another one lists, in any order. -/
structure CopyRecord.Reordered (copies other : CopyRecord) : Prop where
  nodes : other.nodes.entries.Perm copies.nodes.entries
  groups : other.groups.entries.Perm copies.groups.entries

namespace CopyRecord.Reordered

variable {copies other : CopyRecord} (reordered : copies.Reordered other)

include reordered

theorem node? (nodup : copies.nodes.keys.Nodup) : other.node? = copies.node? :=
  funext fun id => Table.find?_of_perm nodup reordered.nodes id

theorem group? (nodup : copies.groups.keys.Nodup) : other.group? = copies.group? :=
  funext fun id => Table.find?_of_perm nodup reordered.groups id

theorem mapGroup (nodup : copies.groups.keys.Nodup) : other.mapGroup = copies.mapGroup := by
  funext id
  rw [CopyRecord.mapGroup, reordered.group? nodup, CopyRecord.mapGroup]

theorem nodup_nodes (nodup : copies.nodes.keys.Nodup) : other.nodes.keys.Nodup :=
  (reordered.nodes.map Prod.fst).nodup_iff.mpr nodup

end CopyRecord.Reordered

/-! ## Relinking -/

/-- Relinking comes to the same table in whatever order the copies are listed, also where several
groups have one copy, which is then relinked several times. -/
theorem GroupTable.relink_of_reordered {copies other : CopyRecord} (nodup : copies.groups.keys.Nodup)
    (reordered : copies.Reordered other) (table : GroupTable) :
    table.relink other = table.relink copies := by
  have same : ∀ (reached : GroupTable) (copy : GroupId),
      reached.relinkCopy other copy = reached.relinkCopy copies copy := by
    intro reached copy
    rw [relinkCopy, reordered.group? nodup, relinkCopy]
  unfold relink
  simp only [same]
  exact foldl_relinkCopy_perm copies reordered.groups table

/-! ## Remembered scopes -/

/-- Two memories have all in common and remember the same group for every node, but may list the
nodes in different orders. -/
structure Memory.Same (m n : Memory) : Prop where
  rest : n = { m with scopes := n.scopes }
  scopes : ∀ id, n.scopes.find? id = m.scopes.find? id

/-- Two contexts that differ at most in the order in which they list the remembered scopes. -/
structure Context.Same (one two : Context) : Prop where
  scene : two.toScene = one.toScene
  memory : one.toMemory.Same two.toMemory

/-- What is remembered comes to the same in whatever order it is carried over. -/
theorem Context.same_inheritScopes {state : Forest.CopyState} (oneToOne : state.OneToOne)
    {other : CopyRecord} (reordered : state.2.Reordered other) (context : Context) :
    (context.inheritScopes state.2).Same (context.inheritScopes other) := by
  refine ⟨rfl, rfl, fun id => ?_⟩
  -- what a copy gets depends on its only original, and no other node gets anything
  have nodes := reordered.node? oneToOne.nodes
  have nodup := reordered.nodup_nodes oneToOne.nodes
  by_cases isCopy : ∃ original, state.2.node? original = some id
  · obtain ⟨original, found⟩ := isCopy
    have injective := oneToOne.injective
    rw [find?_inheritScopes oneToOne.nodes injective found]
    rw [← nodes] at found injective
    rw [find?_inheritScopes nodup injective found, reordered.mapGroup oneToOne.groups]
  · have isOriginal := not_exists.mp isCopy
    rw [find?_inheritScopes_of_original oneToOne.nodes isOriginal]
    rw [← nodes] at isOriginal
    exact find?_inheritScopes_of_original nodup isOriginal

/-! ## What can be seen of the order -/

/-- The order of the remembered scopes has no part in an evaluation. -/
theorem Memory.simulation_same (scene : Scene) :
    Simulation scene (fun _ _ => True) Memory.Same where
  position := fun m n same => by rw [same.rest]
  move := fun m n place same => ⟨by rw [same.rest], same.scopes⟩
  note := fun m n cause diagnostic _ same => ⟨by rw [same.rest], same.scopes⟩
  read := by
    intro id name _ m n same
    rw [Scene.readVariable_apply, Scene.readVariable_apply, same.scopes id]
    cases scene.locals.find? name with
    | some value => exact ⟨rfl, same⟩
    | none =>
      cases m.scopes.find? id with
      | some group => exact ⟨rfl, same⟩
      | none =>
        cases scene.findScope name with
        | none => exact ⟨rfl, same⟩
        | some scope =>
          cases scope with
          | rule => exact ⟨rfl, same⟩
          | group group =>
            refine ⟨rfl, by rw [same.rest], fun other => ?_⟩
            rw [Table.find?_insert, Table.find?_insert, same.scopes other]

namespace Context.Same

variable {one two : Context} (same : one.Same two)

include same

theorem forgetScopes : two.forgetScopes = one.forgetScopes := by
  obtain ⟨scene, memory⟩ := two
  obtain ⟨rfl, rest, -⟩ := same
  unfold Context.forgetScopes
  rw [show memory = _ from rest]

/-- Two contexts whose scenes are changed alike still remember the same. -/
theorem withScene (change : Scene → Scene) :
    Context.Same { one with toScene := change one.toScene }
      { two with toScene := change two.toScene } :=
  ⟨congrArg change same.scene, same.memory⟩

/-- So do two contexts with the same further report. -/
theorem note (diagnostic : Diagnostic) :
    Context.Same { one with reported := one.reported ++ [diagnostic] }
      { two with reported := two.reported ++ [diagnostic] } :=
  ⟨same.scene, by rw [same.memory.rest], same.memory.scopes⟩

/-- A computation in which the order has no part comes to the same in both contexts. -/
theorem run {α : Type} (computation : Scene → Run α)
    (agree : Agree Memory.Same (computation one.toScene) (computation one.toScene)) :
    (two.run computation).1 = (one.run computation).1 ∧
      (one.run computation).2.Same (two.run computation).2 := by
  have agree' : Agree Memory.Same (computation one.toScene) (computation two.toScene) := by
    rw [same.scene]
    exact agree
  rcases Related.run agree' same.memory with
    ⟨value, m, n, first, second, kept⟩ | ⟨failure, _, m, n, first, second, rfl, kept⟩
  all_goals
    rw [first, second]
    exact ⟨rfl, same.scene, kept⟩

end Context.Same

namespace Operation

variable {forest : Forest} {one two : Context}

/-- A selection of rules comes to the same in both contexts. -/
theorem bestAmong_of_same (rules : RuleTable) (visible : Rule → Bool) (forest : Forest) (top : Nat)
    (same : one.Same two) :
    (rules.bestAmong visible forest two top).1 = (rules.bestAmong visible forest one top).1 ∧
      (rules.bestAmong visible forest one top).2.Same (rules.bestAmong visible forest two top).2 := by
  have agree := (Memory.simulation_same one.toScene).lockstep.firstAccepted forest top one.position
    (rules.rules.filter visible) fun _ _ _ _ => trivial
  unfold RuleTable.bestAmong
  rw [show two.position = one.position by rw [same.memory.rest]]
  exact same.run (fun scene =>
    RuleTable.firstAccepted forest scene top one.position (rules.rules.filter visible)) agree

/-- An assignment goes by the scene, and what it reports is noted in both contexts. -/
theorem assign_of_same (name : Name) (value : Sequence) (same : one.Same two) :
    ((assign name value).perform forest two).1 = ((assign name value).perform forest one).1 ∧
      ((assign name value).perform forest one).2.Same
        ((assign name value).perform forest two).2 := by
  rw [perform_assign, perform_assign]
  have search : two.findScope name = one.findScope name := by rw [same.scene]
  cases found : one.findScope name with
  | none =>
    have sink : two.sink = one.sink := by rw [same.scene]
    have location : two.location = one.location := by rw [same.scene]
    rw [Context.attempt_assign_of_none value found,
      Context.attempt_assign_of_none value (search.trans found), sink, location]
    cases one.sink.respond ⟨.undeclaredVariable name, one.location⟩ with
    | ok => exact ⟨rfl, same.note _⟩
    | error refused => exact ⟨rfl, same⟩
  | some scope =>
    cases scope with
    | rule =>
      rw [Context.attempt_assign_of_rule value found,
        Context.attempt_assign_of_rule value (search.trans found)]
      exact ⟨rfl, same.withScene fun scene =>
        { scene with locals := scene.locals.insert name value }⟩
    | group group =>
      rw [Context.attempt_assign_of_group value found,
        Context.attempt_assign_of_group value (search.trans found)]
      exact ⟨rfl, same.withScene fun scene =>
        { scene with
          activations := Context.updateFrame group (fun bindings => bindings.insert name value)
            scene.activations }⟩

/-- One operation has the same answer in both contexts, and they still differ at most in the order. -/
theorem perform_of_same (operation : Operation) (same : one.Same two) :
    (operation.perform forest two).1 = (operation.perform forest one).1 ∧
      (operation.perform forest one).2.Same (operation.perform forest two).2 := by
  have simulation := Memory.simulation_same one.toScene
  obtain ⟨scene, memory⟩ := two
  obtain rfl : scene = one.toScene := same.scene
  cases operation with
  | evaluate node top =>
    have ran := same.run (fun scene => (forest.expression node).evaluate forest.library scene top)
      (Expr.agree_evaluate simulation _ _ (fun _ _ => trivial) top)
    exact ⟨congrArg Answer.value ran.1, ran.2⟩
  | accepts node top rank =>
    have ran := same.run (fun scene =>
      (forest.expression node).accepts forest.library scene top rank)
      (Expr.agree_accepts simulation _ _ (fun _ _ => trivial) top rank)
    exact ⟨congrArg Answer.matched ran.1, ran.2⟩
  | best rules top =>
    have ran := bestAmong_of_same rules (fun _ => true) forest top same
    exact ⟨congrArg Answer.rule ran.1, ran.2⟩
  | bestVisible rules viewpoint top =>
    have ran := bestAmong_of_same rules
      (fun rule => RuleTable.isVisible one.groups viewpoint rule.group) forest top same
    exact ⟨congrArg Answer.rule ran.1, ran.2⟩
  | assign name value => exact assign_of_same name value same
  | push event =>
    exact ⟨rfl, same.withScene fun scene => { scene with stack := scene.stack.push event }⟩
  | pushOccurrence occurrence =>
    exact ⟨rfl, same.withScene fun scene =>
      { scene with stack := scene.stack.pushOccurrence occurrence }⟩
  | pop => exact ⟨rfl, same.withScene fun scene => { scene with stack := scene.stack.pop }⟩
  | setPosition position =>
    exact ⟨rfl, same.scene, simulation.move _ _ position same.memory⟩
  | declareLocal name value =>
    exact ⟨rfl, same.withScene fun scene =>
      { scene with locals := scene.locals.insert name value }⟩
  | replaceLocals locals => exact ⟨rfl, same.withScene fun scene => { scene with locals }⟩
  | clearLocals => exact ⟨rfl, same.withScene fun scene => { scene with locals := .empty }⟩

/-- What can be seen of any number of operations does not depend on the order in which scopes are
remembered. -/
theorem observe_of_same (forest : Forest) (operations : List Operation) (same : one.Same two) :
    observe (perform forest) operations two = observe (perform forest) operations one := by
  induction operations generalizing one two with
  | nil => rfl
  | cons operation rest ih =>
    obtain ⟨answer, after⟩ := operation.perform_of_same same
    rw [observe_cons, observe_cons, answer, after.forgetScopes, ih after]

end Operation

/-! ## Records in another order -/

namespace Forest

/-- A record is filled by copying trees of one forest, copying groups and recording groups, in any
order; copies are copied in turn, and several groups may have one copy. In whatever order it lists
what it holds, relinking makes the same of every table, and carrying over what is remembered leaves
every context with the same scopes. So any operations performed afterwards, evaluations, matches and
selections among them, have the same answers and leave the same context apart from its scopes. -/
theorem Filled.order_irrelevant {state : CopyState} (filled : Filled state) {other : CopyRecord}
    (reordered : state.2.Reordered other) :
    (∀ table : GroupTable, table.relink other = table.relink state.2) ∧
    (∀ context : Context, (context.inheritScopes state.2).Same (context.inheritScopes other)) ∧
    ∀ (forest : Forest) (operations : List Operation) (context : Context),
      Operation.observe (Operation.perform forest) operations (context.inheritScopes other) =
        Operation.observe (Operation.perform forest) operations
          (context.inheritScopes state.2) := by
  have oneToOne := filled.oneToOne
  have inherited := fun context : Context => context.same_inheritScopes oneToOne reordered
  exact ⟨fun table => table.relink_of_reordered oneToOne.groups reordered, inherited,
    fun forest operations context =>
      Operation.observe_of_same forest operations (inherited context)⟩

/-- A reference is copied and its copy too, and so is a group; the second copy of the group is then
recorded to be copied to the copy of another group. Listed backwards, this copy is relinked twice
all the same, and the second copy of the reference gets what was remembered for the first copy before
that got something new. -/
theorem order_irrelevant_copied_copies :
    let first := (Forest.empty.add (.var (.unqualified "x"))).2.deepCopy {} ⟨0⟩
    let second := first.2.1.deepCopy first.2.2 ⟨1⟩
    let declared := ((GroupTable.initial.add ⟨0⟩ (some "outer")).2.add ⟨1⟩ (some "inner")).2
    let copied := declared.copyGroups second.2.2 [⟨1⟩, ⟨3⟩, ⟨2⟩]
    let copies := copied.2.recordGroup ⟨4⟩ ⟨5⟩
    let backwards : CopyRecord := ⟨⟨copies.nodes.entries.reverse⟩, ⟨copies.groups.entries.reverse⟩⟩
    let context : Context :=
      { groups := copied.1.relink backwards
        scopes := (Table.empty.insert ⟨0⟩ ⟨1⟩).insert ⟨1⟩ ⟨2⟩ }
    Filled (second.2.1, copies) ∧ copies.Reordered backwards ∧ backwards ≠ copies ∧
      (copied.1.relink backwards).lineage ⟨5⟩ = [⟨5⟩, ⟨4⟩, ⟨0⟩] ∧
      (context.inheritScopes backwards).scopes.find? ⟨1⟩ = some ⟨3⟩ ∧
      (context.inheritScopes backwards).scopes.find? ⟨2⟩ = some ⟨5⟩ := by
  intro first second declared copied copies backwards context
  have founded : (Forest.empty.add (.var (.unqualified "x"))).2.WellFounded :=
    wellFounded_add wellFounded_empty nofun
  have trees : Filled second.2 :=
    .copyTree (.copyTree (.start founded) (by decide)) (by decide)
  have filled : Filled (second.2.1, copies) :=
    ((((trees.copyGroup declared ⟨1⟩).copyGroup _ ⟨3⟩).copyGroup _ ⟨2⟩).recordGroup ⟨4⟩ ⟨5⟩)
  have reordered : copies.Reordered backwards :=
    ⟨copies.nodes.entries.reverse_perm, copies.groups.entries.reverse_perm⟩
  obtain ⟨relinked, inherited, -⟩ := filled.order_irrelevant reordered
  have scopes := (inherited context).memory.scopes
  refine ⟨filled, reordered, by decide, ?_, (scopes ⟨1⟩).trans rfl, (scopes ⟨2⟩).trans rfl⟩
  rw [relinked]
  decide +kernel

end Forest

end StreamPath
