import Mathlib.Logic.Relation
import StreamPath.Proofs.Lineage
import StreamPath.Proofs.Recall

/-!
# Variables along a run

A run enters and leaves groups, binds variables and evaluates expressions. Seen from one moment of it,
a variable belongs to the first group, from the current one outward, whose newest activation binds it.
A reference looks for that group when it is first read and not bound by the rule; from then on it
keeps to this group, whatever is entered, left or declared later.

* `Scene.Designates` — the group in which a variable is found by the lexical search;
* `Step`, `Steps` — what a run can do to a context;
* `exists_first_reading` — a remembered scope was found by the lexical search at an earlier moment;
* `Forest.evaluate_reference` — the value of a reference after any run;
* `reading_off_the_line` — a remembered scope can differ from the one that would be found now.
-/

namespace StreamPath

open Run

/-! ## The lexical search -/

namespace Scene

/-- A group is the first one, from the current group outward, whose newest activation binds a
variable. -/
def Designates (scene : Scene) (name : Name) (group : GroupId) : Prop :=
  ∃ current nearer further, scene.current = some current ∧
    scene.groups.lineage current = nearer ++ group :: further ∧
    (∃ value, scene.boundIn? group name = some value) ∧
    ∀ other ∈ nearer, scene.boundIn? other name = none

variable {scene : Scene} {name : Name} {group : GroupId}

theorem any_contains_iff (scene : Scene) (name : Name) (group : GroupId) :
    ((scene.frame? group).any fun bindings => bindings.contains name) =
      (scene.boundIn? group name).isSome := by
  unfold boundIn? Table.contains
  cases scene.frame? group <;> rfl

/-- The search finds exactly the designated group, unless the rule binds the variable. -/
theorem findScope_eq_group_iff :
    scene.findScope name = some (.group group) ↔
      scene.locals.find? name = none ∧ scene.Designates name group := by
  have isLocal : scene.locals.contains name = (scene.locals.find? name).isSome := rfl
  unfold findScope
  simp only [isLocal, any_contains_iff]
  cases scene.locals.find? name with
  | some value => simp
  | none =>
    rw [if_neg (by simp)]
    constructor
    · intro found
      obtain ⟨current, isCurrent, found⟩ := Option.bind_eq_some_iff.mp found
      obtain ⟨first, found, same⟩ := Option.map_eq_some_iff.mp found
      cases same
      obtain ⟨binds, nearer, further, line, none⟩ := List.find?_eq_some_iff_append.mp found
      refine ⟨rfl, current, nearer, further, isCurrent, line, Option.isSome_iff_exists.mp binds, ?_⟩
      intro other mem
      simpa using none other mem
    · rintro ⟨-, current, nearer, further, isCurrent, line, binds, none⟩
      have found : (scene.groups.lineage current).find? (fun group =>
          (scene.boundIn? group name).isSome) = some group := by
        refine List.find?_eq_some_iff_append.mpr
          ⟨Option.isSome_iff_exists.mpr binds, nearer, further, line, fun other mem => ?_⟩
        rw [none other mem]
        rfl
      rw [isCurrent, Option.bind_some, found]
      rfl

/-- The search stays on the line of static ancestors. -/
theorem Designates.ancestor {current : GroupId} (designates : scene.Designates name group)
    (isCurrent : scene.current = some current) : scene.groups.Ancestor current group := by
  obtain ⟨start, nearer, further, started, line, -, -⟩ := designates
  rw [isCurrent] at started
  cases started
  rw [← GroupTable.mem_lineage_iff, line]
  simp

end Scene

/-! ## Runs -/

/-- What a run can do to a context in one step. Groups are entered and left, at the end of a body
together with what the body left active; variables are bound; expressions are evaluated and matched,
whether that ends well or not; nodes open and close in between. -/
inductive Step (forest : Forest) : Context → Context → Prop
  | enter (context : Context) (group : GroupId) : Step forest context (context.enter group)
  | exit {context after : Context} {group : GroupId} : context.exit group = .ok after →
      Step forest context after
  | finish {α : Type} (context : Context) (count : Nat) (group : GroupId)
      (result : Except Diagnostic α) : Step forest context (context.finishGroup count group result).2
  | setCurrent (context : Context) (current : Option GroupId) :
      Step forest context { context with current }
  | declare {context after : Context} {group : GroupId} {name : Name} {value : Sequence} :
      context.declare group name value = .ok after → Step forest context after
  | declareLocal (context : Context) (name : Name) (value : Sequence) :
      Step forest context (context.declareLocal name value)
  | assign {context after : Context} {name : Name} {value : Sequence} :
      context.assign name value = .ok after → Step forest context after
  | evaluate (context : Context) (id : NodeId) (top : Nat) :
      Step forest context (forest.evaluate id context top).2
  | accepts (context : Context) (id : NodeId) (top : Nat) (rank : Bool) :
      Step forest context (forest.accepts id context top rank).2
  | stack (context : Context) (stack : Ancestors) : Step forest context { context with stack }

/-- What a run can do to a context in any number of steps. -/
abbrev Steps (forest : Forest) : Context → Context → Prop := Relation.ReflTransGen (Step forest)

/-- A body that makes steps, run inside a new activation of a group, makes steps with it. -/
theorem steps_withGroup {forest : Forest} {α : Type} (context : Context) (group : GroupId)
    (body : Context → Except Diagnostic α × Context)
    (steps : ∀ start, Steps forest start (body start).2) :
    Steps forest context (context.withGroup (m := Id) group body).2 :=
  ((Relation.ReflTransGen.single (Step.enter context group)).trans (steps _)).tail
    (Step.finish _ _ group _)

/-- A reference is read for the first time: nothing is remembered for it, the rule does not bind its
variable, and the search finds it in a group. -/
structure FirstReading (forest : Forest) (context : Context) (id : NodeId) (group : GroupId) :
    Prop where
  unseen : context.scopes.find? id = none
  found : ∃ name, forest.Refers id name ∧ context.locals.find? name = none ∧
    context.Designates name group

namespace Context

variable {context after : Context} {group : GroupId}

/-- Leaving a group concerns the activations and the current group, and nothing else. -/
theorem exit_frame (left : context.exit group = .ok after) :
    ∃ activations current, after = { context with activations, current } := by
  unfold exit at left
  split at left
  · cases left
  · split at left
    · cases left
      exact ⟨_, _, rfl⟩
    · cases left

theorem unwind_frame (context : Context) (count : Nat) :
    ∃ activations current, (context.unwind count).2 = { context with activations, current } := by
  unfold unwind
  simp only
  split
  · exact ⟨context.activations, context.current, rfl⟩
  · exact ⟨_, _, rfl⟩

/-- So does the end of a body that ran in a group. -/
theorem finishGroup_frame {α : Type} (context : Context) (count : Nat) (group : GroupId)
    (result : Except Diagnostic α) : ∃ activations current,
      (context.finishGroup count group result).2 = { context with activations, current } := by
  obtain ⟨activations, current, unwound⟩ := unwind_frame context (count + 1)
  unfold finishGroup
  cases left : (context.unwind (count + 1)).2.exit group with
  | ok final =>
    obtain ⟨older, previous, exited⟩ := exit_frame left
    rw [unwound] at exited
    refine ⟨older, previous, ?_⟩
    cases result with
    | error failure => simp only [left, exited]
    | ok value => cases leftover : (context.unwind (count + 1)).1 <;> simp only [left, leftover, exited]
  | error fault =>
    refine ⟨activations, current, ?_⟩
    rw [← unwound]
    cases result <;> simp only [left]

end Context

section Runs

variable {forest : Forest}

/-- What a computation in a context keeps to the end, it keeps of the memory. -/
theorem Context.keeps_run {α : Type} {P : Memory → Prop} {context : Context}
    {computation : Scene → Run α} (keeps : Keeps P (computation context.toScene))
    (holds : P context.toMemory) : P (context.run computation).2.toMemory := by
  have kept := keeps context.toMemory holds
  cases ended : computation context.toScene context.toMemory with
  | ok value memory =>
    rw [Context.run_of_ok ended]
    rw [ended] at kept
    exact kept
  | error failure memory =>
    rw [Context.run_of_error ended]
    rw [ended] at kept
    exact kept

/-- One step keeps every remembered scope, and remembers another one only by a first reading. -/
theorem Step.scopes {before after : Context} (step : Step forest before after) (id : NodeId) :
    after.scopes.find? id = before.scopes.find? id ∨
      ∃ group, FirstReading forest before id group ∧ after.scopes.find? id = some group := by
  have grown : ∀ memory : Memory,
      Memory.Grown before.toScene forest.Refers before.toMemory memory →
      memory.scopes.find? id = before.scopes.find? id ∨
        ∃ group, FirstReading forest before id group ∧ memory.scopes.find? id = some group := by
    intro memory grown
    rcases grown id with same | ⟨unseen, name, group, refers, unbound, found, remembered⟩
    · exact .inl same
    · rw [Scene.foundGroup?_eq_some, Scene.findScope_eq_group_iff] at found
      exact .inr ⟨group, ⟨unseen, name, refers, unbound, found.2⟩, remembered⟩
  -- only evaluations and matches remember scopes; everything else has no access to them
  cases step with
  | enter | setCurrent | declareLocal | stack => exact .inl rfl
  | exit left =>
    obtain ⟨_, _, rfl⟩ := Context.exit_frame left
    exact .inl rfl
  | finish _ count group result =>
    obtain ⟨_, _, finished⟩ := before.finishGroup_frame count group result
    rw [finished]
    exact .inl rfl
  | declare bound =>
    unfold Context.declare at bound
    split at bound <;> cases bound
    exact .inl rfl
  | assign bound =>
    unfold Context.assign at bound
    split at bound
    · cases bound
      exact .inl rfl
    · cases bound
      exact .inl rfl
    · unfold Context.report at bound
      split at bound <;> cases bound
      exact .inl rfl
  | evaluate _ inner top =>
    exact grown _ (Context.keeps_run (forest.keeps_evaluate_grown _ inner top _) (.refl _))
  | accepts _ inner top rank =>
    exact grown _ (Context.keeps_run (forest.keeps_accepts_grown _ inner top rank _) (.refl _))

/-- A remembered scope comes from the first reading of its node, at an earlier moment of the run. -/
theorem exists_first_reading {start context : Context} (fresh : start.scopes = .empty)
    (steps : Steps forest start context) {id : NodeId} {group : GroupId}
    (remembered : context.scopes.find? id = some group) :
    ∃ earlier, Steps forest start earlier ∧ Steps forest earlier context ∧
      FirstReading forest earlier id group := by
  induction steps with
  | refl =>
    rw [fresh] at remembered
    cases remembered
  | @tail before after steps step ih =>
    -- the last step is the first reading, or the scope was remembered before it
    rcases step.scopes id with same | ⟨found, reading, now⟩
    · obtain ⟨earlier, first, last, reading⟩ := ih (by rw [← same, remembered])
      exact ⟨earlier, first, last.tail step, reading⟩
    · rw [now] at remembered
      cases remembered
      exact ⟨before, steps, .single step, reading⟩

end Runs

/-! ## Reading a reference -/

/-- What becomes of a reading that finds nothing: the variable is reported as undeclared, and the
value is empty if the run goes on. -/
def Context.undeclared (context : Context) (name : Name) : Except Diagnostic Sequence × Context :=
  context.run fun scene => Run.fallback scene (.undeclaredVariable name)

namespace Forest

variable {forest : Forest} {context : Context} {id : NodeId} {name : Name}

/-- A reference is evaluated by reading its variable. -/
theorem evaluate_of_refers (refers : forest.Refers id name) (top : Nat) :
    forest.evaluate id context top = context.run fun scene =>
      scene.readVariable id name >>= fun found =>
        match found with
        | some value => pure value
        | none => Run.fallback scene (.undeclaredVariable name) := by
  unfold evaluate
  rw [expression_of_form? refers]
  rfl

/-- A reading that finds a value gives it and leaves the memory that the reading left. -/
theorem evaluate_of_read_some (refers : forest.Refers id name) (top : Nat) {value : Sequence}
    {memory : Memory} (read : context.readVariable id name context.toMemory = .ok (some value) memory) :
    forest.evaluate id context top = (.ok value, { context with toMemory := memory }) := by
  rw [evaluate_of_refers refers]
  apply Context.run_of_ok
  rw [bind_apply, read]
  rfl

/-- A reading that finds nothing and remembers nothing is reported. -/
theorem evaluate_of_read_none (refers : forest.Refers id name) (top : Nat)
    (read : context.readVariable id name context.toMemory = .ok none context.toMemory) :
    forest.evaluate id context top = context.undeclared name := by
  rw [evaluate_of_refers refers]
  apply Context.run_congr
  rw [bind_apply, read]

/-- After any run, a reference has the value that the rule binds, if it binds the variable. If not,
the first reading of the reference goes where the lexical search leads: to the first group on the
line of ancestors of the current group whose newest activation binds the variable, or to no group,
which is reported. A reference that was read before goes to the newest activation of the group that
the lexical search led to at its first reading, an earlier moment of the run, and what is not bound
there any more is reported. -/
theorem evaluate_reference (forest : Forest) (start context : Context)
    (fresh : start.scopes = .empty) (steps : Steps forest start context) (id : NodeId) (name : Name)
    (refers : forest.Refers id name) (top : Nat) :
    (∀ group, context.findScope name = some (.group group) ↔
      context.locals.find? name = none ∧ context.Designates name group) ∧
    (∀ current group, context.current = some current → context.Designates name group →
      context.groups.Ancestor current group) ∧
    (∀ value, context.locals.find? name = some value →
      forest.evaluate id context top = (.ok value, context)) ∧
    (context.locals.find? name = none → context.scopes.find? id = none →
      (∀ group, context.Designates name group → ∃ value,
        context.boundIn? group name = some value ∧
        forest.evaluate id context top =
          (.ok value, { context with scopes := context.scopes.insert id group })) ∧
      ((∀ group, ¬context.Designates name group) →
        forest.evaluate id context top = context.undeclared name)) ∧
    (∀ group, context.locals.find? name = none → context.scopes.find? id = some group →
      (∃ earlier, Steps forest start earlier ∧ Steps forest earlier context ∧
        earlier.scopes.find? id = none ∧ earlier.locals.find? name = none ∧
        earlier.Designates name group) ∧
      (∀ value, context.boundIn? group name = some value →
        forest.evaluate id context top = (.ok value, context)) ∧
      (context.boundIn? group name = none →
        forest.evaluate id context top = context.undeclared name)) := by
  have scopeOf : ∀ group, context.findScope name = some (.group group) ↔
      context.locals.find? name = none ∧ context.Designates name group :=
    fun group => Scene.findScope_eq_group_iff
  refine ⟨scopeOf, fun current group isCurrent designates => designates.ancestor isCurrent,
    fun value bound => ?_, fun unbound unseen => ⟨fun group designates => ?_, fun nowhere => ?_⟩,
    fun group unbound remembered => ⟨?_, fun value bound => ?_, fun lost => ?_⟩⟩
  · apply evaluate_of_read_some refers top
    rw [Scene.readVariable_apply, bound]
  · have designated := designates
    obtain ⟨_, _, _, _, _, ⟨value, bound⟩, -⟩ := designates
    refine ⟨value, bound, ?_⟩
    apply evaluate_of_read_some refers top
    rw [Scene.readVariable_apply, unbound, unseen, (scopeOf group).mpr ⟨unbound, designated⟩]
    exact congrArg (fun found => EStateM.Result.ok found _) bound
  · apply evaluate_of_read_none refers top
    rw [Scene.readVariable_apply, unbound, unseen]
    cases found : context.findScope name with
    | none => rfl
    | some scope =>
      cases scope with
      | rule => rfl
      | group group => exact absurd ((scopeOf group).mp found).2 (nowhere group)
  · obtain ⟨earlier, first, last, reading⟩ := exists_first_reading fresh steps remembered
    obtain ⟨other, otherRefers, unbound, designates⟩ := reading.found
    cases forest.refers_unique id name other refers otherRefers
    exact ⟨earlier, first, last, reading.unseen, unbound, designates⟩
  · apply evaluate_of_read_some refers top
    rw [Scene.readVariable_apply, unbound, remembered]
    exact congrArg (fun found => EStateM.Result.ok found _) bound
  · apply evaluate_of_read_none refers top
    rw [Scene.readVariable_apply, unbound, remembered]
    exact congrArg (fun found => EStateM.Result.ok found _) lost

end Forest

/-! ## A shadowed variable -/

namespace Shadowing

/-- A variable that two nested groups declare. -/
def name : Name := .unqualified "x"

/-- One reference to the variable. -/
def forest : Forest := (Forest.empty.add (.var name)).2

/-- A group, a group nested in it, and a group beside them. -/
def groups : GroupTable :=
  (((GroupTable.initial.add ⟨0⟩ (some "outer")).2.add ⟨1⟩ (some "inner")).2.add ⟨0⟩
    (some "beside")).2

def start : Context := { groups }

/-- The outer group is active and declares the variable. -/
def declared : Context :=
  { start with
    current := some ⟨1⟩
    activations := [⟨⟨1⟩, none, Table.empty.insert name (.ofString "outer")⟩] }

/-- The reference was read there; then the inner group was entered and declared the variable too. -/
def shadowed : Context :=
  { declared with
    current := some ⟨2⟩
    activations := ⟨⟨2⟩, some ⟨1⟩, Table.empty.insert name (.ofString "inner")⟩ ::
      declared.activations
    scopes := Table.empty.insert ⟨0⟩ ⟨1⟩ }

theorem steps_shadowed : Steps forest start shadowed := by
  have read : (forest.evaluate ⟨0⟩ declared 0).2 =
      { declared with scopes := Table.empty.insert ⟨0⟩ ⟨1⟩ } := rfl
  have first : Step forest (start.enter ⟨1⟩) declared :=
    @Step.declare forest _ _ ⟨1⟩ name (.ofString "outer") rfl
  have last : Step forest ((forest.evaluate ⟨0⟩ declared 0).2.enter ⟨2⟩) shadowed := by
    rw [read]
    exact @Step.declare forest _ _ ⟨2⟩ name (.ofString "inner") rfl
  exact (((((Relation.ReflTransGen.refl).tail (.enter start ⟨1⟩)).tail first).tail
    (.evaluate declared ⟨0⟩ 0)).tail (.enter _ ⟨2⟩)).tail last

/-- The search leads to the inner group, but the reference still reads the outer one; and it does so
from a group beside them, from where the search leads nowhere. -/
theorem reading_off_the_line :
    Steps forest start shadowed ∧ forest.Refers ⟨0⟩ name ∧
      shadowed.locals.find? name = none ∧ shadowed.Designates name ⟨2⟩ ∧
      shadowed.boundIn? ⟨2⟩ name = some (.ofString "inner") ∧
      (forest.evaluate ⟨0⟩ shadowed 0).1 = .ok (.ofString "outer") ∧
    Steps forest start (shadowed.enter ⟨3⟩) ∧
      (shadowed.enter ⟨3⟩).findScope name = none ∧
      ¬(shadowed.enter ⟨3⟩).groups.Ancestor ⟨3⟩ ⟨1⟩ ∧
      (forest.evaluate ⟨0⟩ (shadowed.enter ⟨3⟩) 0).1 = .ok (.ofString "outer") := by
  have designates : shadowed.findScope name = some (.group ⟨2⟩) := rfl
  refine ⟨steps_shadowed, rfl, rfl, (Scene.findScope_eq_group_iff.mp designates).2, rfl, rfl,
    steps_shadowed.tail (.enter _ _), rfl, ?_, rfl⟩
  rw [← GroupTable.mem_lineage_iff]
  decide

/-- The outer group is the one that the search led to when the reference was first read. -/
theorem reading_of_shadowed :
    shadowed.scopes.find? ⟨0⟩ = some ⟨1⟩ ∧
      (∃ earlier, Steps forest start earlier ∧ Steps forest earlier shadowed ∧
        earlier.scopes.find? ⟨0⟩ = none ∧ earlier.locals.find? name = none ∧
        earlier.Designates name ⟨1⟩) ∧
      forest.evaluate ⟨0⟩ shadowed 0 = (.ok (.ofString "outer"), shadowed) := by
  have reading := (forest.evaluate_reference start shadowed rfl steps_shadowed ⟨0⟩ name rfl
    0).2.2.2.2 ⟨1⟩ rfl rfl
  exact ⟨rfl, reading.1, reading.2.1 (.ofString "outer") rfl⟩

end Shadowing

end StreamPath
