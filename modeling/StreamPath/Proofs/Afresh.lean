import StreamPath.Proofs.Scoping
import StreamPath.Rule

/-!
# Looking variables up afresh

So long as no group is entered or left, remembering where a variable was found cannot be noticed. An
evaluation that looks every variable up afresh is one in a scene where nothing is left to remember:
every variable is at hand there, with the value that the search leads to in the scene itself. Both
evaluations keep in step, and so do whole runs of operations that stay in the groups they are in.

* `Scene.resolved` — a scene with every variable at hand;
* `Memory.Coherent` — what is remembered is what the search would find;
* `Operation` — what a run can do without entering or leaving a group;
* `Operation.perform_afresh` — one operation with and without remembering;
* `Operation.observe_afresh` — all that can be seen of a run is the same with and without.
-/

namespace StreamPath

open Run

/-! ## Every variable at hand -/

namespace Scene

/-- The value of a variable, looked up now. -/
def valueOf? (scene : Scene) (name : Name) : Option Sequence :=
  match scene.findScope name with
  | some .rule => scene.locals.find? name
  | some (.group group) => scene.boundIn? group name
  | none => none

/-- The names that are bound anywhere. -/
def boundNames (scene : Scene) : List Name :=
  scene.locals.keys ++ scene.activations.flatMap fun activation => activation.bindings.keys

/-- The same scene with every variable that the search finds at hand, so that no group is needed. -/
def resolved (scene : Scene) : Scene :=
  { scene with
    current := none
    locals := Table.ofList (scene.boundNames.filterMap fun name =>
      (scene.valueOf? name).map fun value => (name, value)) }

variable {scene : Scene} {name : Name}

/-- A value that the search finds belongs to a bound name. -/
theorem mem_boundNames {value : Sequence} (found : scene.valueOf? name = some value) :
    name ∈ scene.boundNames := by
  have isKey : ∀ {bindings : Bindings}, bindings.find? name = some value →
      name ∈ bindings.keys := by
    intro bindings bound
    rw [← Table.contains_iff_mem_keys, Table.contains, bound]
    rfl
  unfold boundNames
  rw [List.mem_append, List.mem_flatMap]
  unfold valueOf? at found
  split at found
  · exact .inl (isKey found)
  · next group _ =>
    obtain ⟨bindings, isFrame, bound⟩ := Option.bind_eq_some_iff.mp found
    obtain ⟨activation, isNewest, rfl⟩ := Option.map_eq_some_iff.mp isFrame
    exact .inr ⟨activation, List.mem_of_find?_eq_some isNewest, isKey bound⟩
  · cases found

/-- At hand are exactly the values that the search finds. -/
theorem find?_locals_resolved : scene.resolved.locals.find? name = scene.valueOf? name := by
  have entries : ∀ pair ∈ scene.boundNames.filterMap (fun name =>
      (scene.valueOf? name).map fun value => (name, value)),
        scene.valueOf? pair.1 = some pair.2 := by
    intro pair mem
    obtain ⟨other, -, made⟩ := List.mem_filterMap.mp mem
    obtain ⟨value, found, rfl⟩ := Option.map_eq_some_iff.mp made
    exact found
  unfold resolved Table.ofList
  cases found : scene.valueOf? name with
  | some value =>
    apply Table.find?_insertAll_of_mem
    · rw [List.mem_map]
      refine ⟨(name, value), ?_, rfl⟩
      exact List.mem_filterMap.mpr ⟨name, mem_boundNames found, by rw [found]; rfl⟩
    · rintro pair mem rfl
      have same := entries pair mem
      rw [found] at same
      cases same
      rfl
  | none =>
    rw [Table.find?_insertAll_of_not_mem]
    · rfl
    · intro mem
      obtain ⟨pair, isEntry, rfl⟩ := List.mem_map.mp mem
      rw [entries pair isEntry] at found
      cases found

/-- Where every variable is at hand, a reading gives what the search finds and remembers nothing. -/
theorem readVariable_resolved (id : NodeId) {memory : Memory}
    (unseen : memory.scopes.find? id = none) :
    scene.resolved.readVariable id name memory = .ok (scene.valueOf? name) memory := by
  rw [readVariable_apply, find?_locals_resolved]
  cases found : scene.valueOf? name with
  | some value => rfl
  | none =>
    have nowhere : scene.resolved.findScope name = none := by
      unfold findScope Table.contains
      rw [find?_locals_resolved, found]
      rfl
    rw [unseen, nowhere]

/-- What a reading comes to, when it goes to the group that the search finds. -/
theorem valueOf?_eq :
    scene.valueOf? name = (scene.locals.find? name).or
      ((scene.foundGroup? name).bind fun group => scene.boundIn? group name) := by
  unfold valueOf? foundGroup?
  cases found : scene.findScope name with
  | none =>
    have unbound : scene.locals.find? name = none := by
      by_contra bound
      unfold findScope Table.contains at found
      rw [if_pos (Option.isSome_iff_ne_none.mpr bound)] at found
      cases found
    rw [unbound]
    rfl
  | some scope =>
    cases scope with
    | rule => simp
    | group group =>
      rw [(findScope_eq_group_iff.mp found).1]
      rfl

/-- Where the search leads depends on the line of groups and on which names their newest activations
bind. -/
theorem Designates.congr {other : Scene} {group : GroupId}
    (designates : scene.Designates name group)
    (current : other.current = scene.current) (groups : other.groups = scene.groups)
    (binds : ∀ group, (other.boundIn? group name).isSome = (scene.boundIn? group name).isSome) :
    other.Designates name group := by
  obtain ⟨start, nearer, further, isCurrent, line, bound, none⟩ := designates
  refine ⟨start, nearer, further, by rw [current, isCurrent], by rw [groups, line], ?_, ?_⟩
  · rw [← Option.isSome_iff_exists, binds, Option.isSome_iff_exists]
    exact bound
  · intro nearerGroup mem
    rw [← Option.not_isSome_iff_eq_none, binds, Option.not_isSome_iff_eq_none]
    exact none nearerGroup mem

end Scene

/-! ## Evaluations in step -/

/-- Every remembered scope of a known variable is the group that the search leads to. -/
def Memory.Coherent (scene : Scene) (known : NodeId → Name → Prop) (memory : Memory) : Prop :=
  ∀ id name group, known id name → memory.scopes.find? id = some group → scene.Designates name group

/-- Two memories that differ in that the second remembers nothing; what the first remembers is
coherent. -/
structure Memory.Forgets (scene : Scene) (known : NodeId → Name → Prop) (m n : Memory) : Prop where
  position : m.position = n.position
  reported : m.reported = n.reported
  coherent : m.Coherent scene known
  unseen : n.scopes = .empty

section Resolved

variable (scene : Scene) {known : NodeId → Name → Prop}

/-- A coherent memory is read as if nothing were remembered. -/
theorem Memory.Coherent.consulted {scene : Scene} {memory : Memory}
    (coherent : memory.Coherent scene known) {id : NodeId} {name : Name} (named : known id name)
    (unbound : scene.locals.find? name = none) :
    scene.consulted memory id name = scene.foundGroup? name := by
  unfold Scene.consulted
  cases remembered : memory.scopes.find? id with
  | none => rfl
  | some group =>
    have designates := coherent id name group named remembered
    rw [Scene.foundGroup?_eq_some.mpr (Scene.findScope_eq_group_iff.mpr ⟨unbound, designates⟩)]
    rfl

/-- A scope that is remembered where the search finds it keeps a memory coherent. -/
theorem Memory.Coherent.remember
    (unique : ∀ id name other, known id name → known id other → name = other) {scene : Scene}
    {memory : Memory} (coherent : memory.Coherent scene known) {id : NodeId} {name : Name}
    {group : GroupId} (named : known id name) (found : scene.foundGroup? name = some group) :
    Memory.Coherent scene known { memory with scopes := memory.scopes.insert id group } := by
  intro other otherName otherGroup otherNamed remembered
  by_cases same : id = other
  · subst same
    rw [Table.find?_insert_self] at remembered
    cases remembered
    cases unique id name otherName named otherNamed
    exact (Scene.findScope_eq_group_iff.mp (Scene.foundGroup?_eq_some.mp found)).2
  · rw [Table.find?_insert_of_ne _ _ same] at remembered
    exact coherent other otherName otherGroup otherNamed remembered

/-- Evaluations keep in step with those where every variable is at hand. -/
theorem correspondence_resolved
    (unique : ∀ id name other, known id name → known id other → name = other) :
    Correspondence scene scene.resolved id known Eq (Memory.Forgets scene known) where
  stack := rfl
  location := rfl
  sink := rfl
  same := fun _ => rfl
  refuse := fun _ _ _ => rfl
  position := fun m n forgets => forgets.position
  move := fun m n place forgets => ⟨rfl, forgets.reported, forgets.coherent, forgets.unseen⟩
  note := by
    intro m n cause diagnostic _ forgets
    have reported := congrArg (· ++ [diagnostic]) forgets.reported
    exact ⟨forgets.position, reported, forgets.coherent, forgets.unseen⟩
  read := by
    intro node name named m n forgets
    obtain ⟨final, ended, step⟩ := scene.readVariable_eq node name m
    have unseen : n.scopes.find? node = none := by rw [forgets.unseen, Table.find?_empty]
    rw [id_eq, ended, Scene.readVariable_resolved node unseen]
    constructor
    · rw [Scene.valueOf?_eq]
      cases bound : scene.locals.find? name with
      | some value => rfl
      | none => rw [forgets.coherent.consulted named bound]
    · rcases step with rfl | ⟨group, -, -, found, rfl⟩
      · exact forgets
      · exact ⟨forgets.position, forgets.reported, forgets.coherent.remember unique named found,
          forgets.unseen⟩

end Resolved

/-! ## Runs without remembering -/

/-- The same context with every variable at hand and no scope remembered. -/
def Context.atHand (context : Context) : Context :=
  { toScene := context.resolved, toMemory := { context.toMemory with scopes := .empty } }

/-- Run a computation with every variable at hand, and keep the answer, the position and the
reports. No scope is looked at, and none is remembered. -/
def Context.runAfresh {α : Type} (context : Context) (computation : Scene → Run α) :
    Except Diagnostic α × Context :=
  let (answer, after) := context.atHand.run computation
  (answer, { context with position := after.position, reported := after.reported })

/-- Every scope that a context remembers for a variable of the forest is the group that the search
leads to. -/
def Forest.Coherent (forest : Forest) (context : Context) : Prop :=
  Memory.Coherent context.toScene forest.Refers context.toMemory

/-- Two runs come to the same answer and the same context, but that the second remembers nothing,
and what the first remembers is coherent. -/
structure SameApart {α : Type} (forest : Forest) (one two : α × Context) : Prop where
  answer : two.1 = one.1
  context : two.2 = one.2.forgetScopes
  coherent : forest.Coherent one.2

/-- Computations that keep in step come to the same when they are run. -/
theorem Context.run_afresh {α : Type} {forest : Forest} {context : Context}
    (computation : Scene → Run α) (coherent : forest.Coherent context)
    (tracks : Track Eq (Memory.Forgets context.toScene forest.Refers)
      (computation context.toScene) (computation context.atHand.toScene)) :
    SameApart forest (context.run computation) (context.forgetScopes.runAfresh computation) := by
  have start : Memory.Forgets context.toScene forest.Refers context.toMemory
      context.atHand.toMemory := ⟨rfl, rfl, coherent, rfl⟩
  have afresh : context.forgetScopes.runAfresh computation =
      ((context.atHand.run computation).1, { context with
        position := (context.atHand.run computation).2.position
        scopes := .empty
        reported := (context.atHand.run computation).2.reported }) := rfl
  rw [afresh]
  rcases Related.run tracks start with
    ⟨value, m, n, first, second, forgets⟩ | ⟨failure, _, m, n, first, second, rfl, forgets⟩
  all_goals
    rw [first, second]
    refine ⟨rfl, ?_, forgets.coherent⟩
    simp only [← forgets.position, ← forgets.reported]
    rfl

/-! ## Operations -/

/-- What a run can do without entering or leaving a group. -/
inductive Operation
  | evaluate (node : NodeId) (top : Nat)
  | accepts (node : NodeId) (top : Nat) (rank : Bool)
  | best (rules : RuleTable) (top : Nat)
  | bestVisible (rules : RuleTable) (viewpoint : GroupId) (top : Nat)
  | push (event : Event)
  | pushOccurrence (occurrence : Occurrence)
  | pop
  | setPosition (position : Nat)
  | declareLocal (name : Name) (value : Sequence)
  | replaceLocals (locals : Bindings)
  | clearLocals
  | assign (name : Name) (value : Sequence)

/-- What an operation answers, if anything. -/
inductive Answer
  | value (result : Except Diagnostic Sequence)
  | matched (result : Except Diagnostic Bool)
  | rule (result : Except Diagnostic (Option Rule))
  | done (result : Except Diagnostic Unit)

theorem SameApart.map {α : Type} {forest : Forest} {one two : α × Context}
    (same : SameApart forest one two) (answer : α → Answer) :
    SameApart forest (one.map answer id) (two.map answer id) :=
  ⟨congrArg answer same.answer, same.context, same.coherent⟩

namespace Operation

variable (forest : Forest)

/-- Perform an operation. A failed assignment leaves the context as it is. -/
def perform : Operation → Context → Answer × Context
  | evaluate node top, context => (forest.evaluate node context top).map .value id
  | accepts node top rank, context => (forest.accepts node context top rank).map .matched id
  | best rules top, context => (rules.best forest context top).map .rule id
  | bestVisible rules viewpoint top, context =>
    (rules.bestVisible viewpoint forest context top).map .rule id
  | push event, context => (.done (.ok ()), context.push event)
  | pushOccurrence occurrence, context => (.done (.ok ()), context.pushOccurrence occurrence)
  | pop, context => (.done (.ok ()), context.pop)
  | setPosition position, context => (.done (.ok ()), { context with position })
  | declareLocal name value, context => (.done (.ok ()), context.declareLocal name value)
  | replaceLocals locals, context => (.done (.ok ()), { context with locals })
  | clearLocals, context => (.done (.ok ()), { context with locals := .empty })
  | assign name value, context =>
    match context.assign name value with
    | .ok after => (.done (.ok ()), after)
    | .error failure => (.done (.error failure), context)

/-- Perform an operation with every variable looked up afresh. -/
def performAfresh : Operation → Context → Answer × Context
  | evaluate node top, context =>
    (context.runAfresh fun scene =>
      (forest.expression node).evaluate forest.library scene top).map .value id
  | accepts node top rank, context =>
    (context.runAfresh fun scene =>
      (forest.expression node).accepts forest.library scene top rank).map .matched id
  | best rules top, context =>
    (context.runAfresh fun scene =>
      RuleTable.firstAccepted forest scene top context.position rules.rules).map .rule id
  | bestVisible rules viewpoint top, context =>
    (context.runAfresh fun scene =>
      RuleTable.firstAccepted forest scene top context.position (rules.rules.filter fun rule =>
        RuleTable.isVisible context.groups viewpoint rule.group)).map .rule id
  | operation, context => operation.perform forest context

/-- What can be seen of operations performed one after the other: each answer, and the context after
it apart from the remembered scopes. -/
def observe (act : Operation → Context → Answer × Context) :
    List Operation → Context → List (Answer × Context)
  | [], _ => []
  | operation :: rest, context =>
    let (answer, after) := act operation context
    (answer, after.forgetScopes) :: observe act rest after

/-- The context after operations performed one after the other. -/
def follow (act : Operation → Context → Answer × Context) (operations : List Operation)
    (context : Context) : Context :=
  operations.foldl (fun reached operation => (act operation reached).2) context

section Sequences

variable (act : Operation → Context → Answer × Context) (operation : Operation)
  (rest : List Operation) (context : Context)

theorem observe_cons : observe act (operation :: rest) context =
    ((act operation context).1, (act operation context).2.forgetScopes) ::
      observe act rest (act operation context).2 := rfl

theorem follow_cons : follow act (operation :: rest) context =
    follow act rest (act operation context).2 := rfl

end Sequences

/-! ## One operation -/

variable {forest}

/-- What changes neither the remembered scopes nor which variables the groups bind keeps a context
coherent. -/
theorem coherent_of_binds {context after : Context} (coherent : forest.Coherent context)
    (scopes : after.scopes = context.scopes) (current : after.current = context.current)
    (groups : after.groups = context.groups)
    (binds : ∀ group name, (after.boundIn? group name).isSome =
      (context.boundIn? group name).isSome) :
    forest.Coherent after := by
  intro id name group refers remembered
  rw [scopes] at remembered
  exact (coherent id name group refers remembered).congr current groups
    fun group => binds group name

/-- A change of the newest activation of a group changes the bindings of that group and of no
other. -/
theorem find?_updateFrame (group other : GroupId) (change : Bindings → Bindings)
    (activations : List Activation) :
    ((Context.updateFrame group change activations).find? fun activation =>
        activation.group = other).map Activation.bindings =
      ((activations.find? fun activation => activation.group = other).map Activation.bindings).map
        (if other = group then change else id) := by
  induction activations with
  | nil => rfl
  | cons activation rest ih =>
    unfold Context.updateFrame
    by_cases own : activation.group = group
    · by_cases same : group = other
      · simp [own, same]
      · simp [own, same, Ne.symm same]
    · by_cases asked : activation.group = other
      · have differs : other ≠ group := by
          rintro rfl
          exact own asked
        simp [asked, differs]
      · simp [own, asked, ih]

/-- Binding a variable anew where it is bound changes nothing about which variables are bound. -/
theorem isSome_boundIn?_rebind {before after : Scene} {group : GroupId} {name : Name}
    {value : Sequence}
    (rebound : after.activations = Context.updateFrame group
      (fun bindings => bindings.insert name value) before.activations)
    (bound : (before.boundIn? group name).isSome) (other : GroupId) (otherName : Name) :
    (after.boundIn? other otherName).isSome = (before.boundIn? other otherName).isSome := by
  have frames : after.frame? other = (before.frame? other).map
      (if other = group then fun bindings => bindings.insert name value else id) := by
    unfold Scene.frame?
    rw [rebound]
    exact find?_updateFrame group other _ before.activations
  unfold Scene.boundIn? at bound ⊢
  rw [frames]
  cases isFrame : before.frame? other with
  | none => rfl
  | some bindings =>
    by_cases own : other = group
    · subst own
      rw [isFrame] at bound
      by_cases same : name = otherName
      · subst same
        simpa using bound.symm
      · simp [Table.find?_insert_of_ne _ _ same]
    · simp [own]

/-- A selection keeps in step with one where every variable is at hand. -/
theorem track_firstAccepted (forest : Forest) (scene : Scene) (top saved : Nat)
    (rules : List Rule) :
    Track Eq (Memory.Forgets scene forest.Refers)
      (RuleTable.firstAccepted forest scene top saved rules)
      (RuleTable.firstAccepted forest scene.resolved top saved rules) := by
  have lockstep := (correspondence_resolved scene forest.refers_unique).lockstep
  exact lockstep.firstAccepted forest top saved rules fun rule _ =>
    forest.refers_of_mem_references rule.pattern

/-- An assignment does the same whatever is remembered, and it keeps a context coherent. -/
theorem sameApart_assign (name : Name) (value : Sequence) {context : Context}
    (coherent : forest.Coherent context) :
    SameApart forest ((assign name value).perform forest context)
      ((assign name value).perform forest context.forgetScopes) := by
  have search : context.forgetScopes.findScope name = context.findScope name := rfl
  have performed : ∀ reached : Context, (assign name value).perform forest reached =
      match reached.assign name value with
      | .ok after => (.done (.ok ()), after)
      | .error failure => (.done (.error failure), reached) := fun _ => rfl
  rw [performed, performed]
  unfold Context.assign
  rw [search]
  cases found : context.findScope name with
  | none =>
    have judge : context.forgetScopes.judge (.undeclaredVariable name) =
      context.judge (.undeclaredVariable name) := rfl
    unfold Context.report
    simp only [judge]
    cases context.judge (.undeclaredVariable name) with
    | ok diagnostic => exact ⟨rfl, rfl, coherent⟩
    | error refused => exact ⟨rfl, rfl, coherent⟩
  | some scope =>
    cases scope with
    | rule => exact ⟨rfl, rfl, coherent_of_binds coherent rfl rfl rfl fun _ _ => rfl⟩
    | group group =>
      obtain ⟨-, _, _, _, _, _, bound, -⟩ := Scene.findScope_eq_group_iff.mp found
      refine ⟨rfl, rfl, coherent_of_binds coherent rfl rfl rfl ?_⟩
      exact isSome_boundIn?_rebind rfl (Option.isSome_iff_exists.mpr bound)

/-- One operation from a coherent context comes to the same with and without remembering, and leaves
a coherent context. -/
theorem perform_afresh (operation : Operation) {context : Context}
    (coherent : forest.Coherent context) :
    SameApart forest (operation.perform forest context)
      (operation.performAfresh forest context.forgetScopes) := by
  have lockstep := (correspondence_resolved context.toScene forest.refers_unique).lockstep
  cases operation with
  | evaluate node top =>
    have tracks := lockstep.evaluate forest.library (forest.expression node)
      (forest.refers_of_mem_references node) top
    rw [Expr.rename_id] at tracks
    have same := Context.run_afresh (fun scene =>
      (forest.expression node).evaluate forest.library scene top) coherent tracks
    exact same.map .value
  | accepts node top rank =>
    obtain ⟨still, moved⟩ := lockstep.accepts forest.library (forest.expression node)
      (forest.refers_of_mem_references node) top
    rw [Expr.rename_id] at still moved
    have tracks : Track Eq (Memory.Forgets context.toScene forest.Refers)
        ((forest.expression node).accepts forest.library context.toScene top rank)
        ((forest.expression node).accepts forest.library context.resolved top rank) := by
      cases rank with
      | false => exact still
      | true => exact moved
    have same := Context.run_afresh (fun scene =>
      (forest.expression node).accepts forest.library scene top rank) coherent tracks
    exact same.map .matched
  | best rules top =>
    have every : rules.best forest context top = context.run fun scene =>
        RuleTable.firstAccepted forest scene top context.position rules.rules := by
      unfold RuleTable.best RuleTable.bestAmong
      rw [List.filter_true]
    have same := Context.run_afresh (fun scene =>
      RuleTable.firstAccepted forest scene top context.position rules.rules) coherent
      (track_firstAccepted forest context.toScene top context.position rules.rules)
    rw [← every] at same
    exact same.map .rule
  | bestVisible rules viewpoint top =>
    have tracks := track_firstAccepted forest context.toScene top context.position
      (rules.rules.filter fun rule => RuleTable.isVisible context.groups viewpoint rule.group)
    have same := Context.run_afresh (fun scene => RuleTable.firstAccepted forest scene top
      context.position (rules.rules.filter fun rule =>
        RuleTable.isVisible context.groups viewpoint rule.group)) coherent tracks
    exact same.map .rule
  | assign name value => exact sameApart_assign name value coherent
  | push | pushOccurrence | pop | setPosition | declareLocal | replaceLocals | clearLocals =>
    exact ⟨rfl, rfl, coherent_of_binds coherent rfl rfl rfl fun _ _ => rfl⟩

/-! ## Any number of operations -/

/-- From a coherent context, all that can be seen of any operations that enter and leave no group is
the same when every variable is looked up afresh and nothing is remembered. The context is coherent
again at the end. -/
theorem observe_afresh (forest : Forest) (operations : List Operation) (context : Context)
    (coherent : forest.Coherent context) :
    observe (performAfresh forest) operations context.forgetScopes =
        observe (perform forest) operations context ∧
      follow (performAfresh forest) operations context.forgetScopes =
        (follow (perform forest) operations context).forgetScopes ∧
      forest.Coherent (follow (perform forest) operations context) := by
  induction operations generalizing context with
  | nil => exact ⟨rfl, rfl, coherent⟩
  | cons operation rest ih =>
    have step := operation.perform_afresh coherent
    obtain ⟨seen, reached, final⟩ := ih (operation.perform forest context).2 step.coherent
    refine ⟨?_, ?_, final⟩
    · rw [observe_cons, observe_cons, step.answer, step.context, seen]
      rfl
    · rw [follow_cons, follow_cons, step.context, reached]

/-- A reference whose group is remembered follows the rule when it binds the variable too, and the
group again with a new value, just as it does when it is looked up every time. -/
theorem observe_assigned :
    let context : Context := { Shadowing.declared with scopes := Table.empty.insert ⟨0⟩ ⟨1⟩ }
    let operations := [declareLocal Shadowing.name (.ofString "local"), evaluate ⟨0⟩ 0, clearLocals,
      assign Shadowing.name (.ofString "new"), evaluate ⟨0⟩ 0]
    Shadowing.forest.Coherent context ∧
      (observe (performAfresh Shadowing.forest) operations context.forgetScopes).map Prod.fst =
        [.done (.ok ()), .value (.ok (.ofString "local")), .done (.ok ()), .done (.ok ()),
          .value (.ok (.ofString "new"))] ∧
      Shadowing.forest.Coherent (follow (perform Shadowing.forest) operations context) := by
  intro context operations
  have coherent : Shadowing.forest.Coherent context := by
    intro id name group refers remembered
    obtain ⟨rfl, rfl⟩ := Table.eq_of_find?_insert_empty remembered
    cases Shadowing.forest.refers_unique ⟨0⟩ Shadowing.name name rfl refers
    have found : context.findScope Shadowing.name = some (.group ⟨1⟩) := rfl
    exact (Scene.findScope_eq_group_iff.mp found).2
  obtain ⟨seen, -, final⟩ := observe_afresh Shadowing.forest operations context coherent
  refine ⟨coherent, ?_, final⟩
  rw [seen]
  rfl

end Operation

end StreamPath
