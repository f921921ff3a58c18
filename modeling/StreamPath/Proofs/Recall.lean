import StreamPath.Proofs.Evaluation
import StreamPath.Proofs.Relocation

/-!
# Remembered scopes

The first reading of a variable that no rule binds fixes the group in which its node is looked up
from then on. Within one scene this changes nothing that can be seen: the group that is remembered is
the one that would be found anyway.

* `Scene.consulted` — the group that a reading goes to, remembered or found;
* `Forest.keeps_evaluate_grown`, `Forest.keeps_accepts_grown` — remembered scopes stay, and those
  that are added are the ones that would be found;
* `Forest.agree_accepts_alike` — memories that consult the same groups from the same position match
  alike.
-/

namespace StreamPath

open Run

namespace Scene

/-- The group in which a variable is bound as seen from the current group, if no rule binds it. -/
def foundGroup? (scene : Scene) (name : Name) : Option GroupId :=
  match scene.findScope name with
  | some (.group group) => some group
  | _ => none

/-- The group that a reading of a variable goes to: the one remembered for its node, or else the one
that is found now. -/
def consulted (scene : Scene) (memory : Memory) (id : NodeId) (name : Name) : Option GroupId :=
  (memory.scopes.find? id).or (scene.foundGroup? name)

/-- What a variable is bound to in the newest activation of a group. -/
def boundIn? (scene : Scene) (group : GroupId) (name : Name) : Option Sequence :=
  (scene.frame? group).bind fun bindings => bindings.find? name

theorem foundGroup?_eq_some {scene : Scene} {name : Name} {group : GroupId} :
    scene.foundGroup? name = some group ↔ scene.findScope name = some (.group group) := by
  unfold foundGroup?
  cases scene.findScope name with
  | none => simp
  | some scope => cases scope <;> simp

/-- A reading goes to the bindings of the rule, or else to the consulted group, which is remembered
if it was not before. -/
theorem readVariable_eq (scene : Scene) (id : NodeId) (name : Name) (memory : Memory) :
    ∃ final, scene.readVariable id name memory =
        .ok ((scene.locals.find? name).or
          ((scene.consulted memory id name).bind fun group => scene.boundIn? group name)) final ∧
      (final = memory ∨ ∃ group, memory.scopes.find? id = none ∧
        scene.locals.find? name = none ∧ scene.foundGroup? name = some group ∧
        final = { memory with scopes := memory.scopes.insert id group }) := by
  rw [readVariable_apply]
  cases unbound : scene.locals.find? name with
  | some value => exact ⟨memory, rfl, .inl rfl⟩
  | none =>
    cases unseen : memory.scopes.find? id with
    | some group => exact ⟨memory, by simp [consulted, unseen, boundIn?], .inl rfl⟩
    | none =>
      cases found : scene.findScope name with
      | none =>
        exact ⟨memory, by simp [consulted, unseen, foundGroup?, found], .inl rfl⟩
      | some scope =>
        cases scope with
        | rule => exact ⟨memory, by simp [consulted, unseen, foundGroup?, found], .inl rfl⟩
        | group group =>
          refine ⟨_, ?_, .inr ⟨group, rfl, rfl, foundGroup?_eq_some.mpr found, rfl⟩⟩
          simp [consulted, unseen, foundGroup?, found, boundIn?]

end Scene

/-! ## Growth of the memory -/

/-- Every scope remembered at first is still remembered, and every other one is that of a known
variable which no rule binds, in the group where it is found. -/
def Memory.Grown (scene : Scene) (known : NodeId → Name → Prop) (start memory : Memory) : Prop :=
  ∀ id, memory.scopes.find? id = start.scopes.find? id ∨
    start.scopes.find? id = none ∧ ∃ name group, known id name ∧ scene.locals.find? name = none ∧
      scene.foundGroup? name = some group ∧ memory.scopes.find? id = some group

/-- Two memories hold the same position, and readings of known variables go to the same groups. -/
structure Memory.Alike (scene : Scene) (known : NodeId → Name → Prop) (m n : Memory) : Prop where
  position : m.position = n.position
  consulted : ∀ id name, known id name → scene.consulted m id name = scene.consulted n id name

namespace Memory

variable {scene : Scene} {known : NodeId → Name → Prop}

theorem Grown.refl (memory : Memory) : Grown scene known memory memory := fun _ => .inl rfl

theorem Grown.remember {start memory : Memory} {id : NodeId} {name : Name} {group : GroupId}
    (grown : Grown scene known start memory) (named : known id name)
    (unseen : memory.scopes.find? id = none) (unbound : scene.locals.find? name = none)
    (found : scene.foundGroup? name = some group) :
    Grown scene known start { memory with scopes := memory.scopes.insert id group } := by
  intro other
  by_cases same : id = other
  · subst same
    have fresh : start.scopes.find? id = none := by
      rcases grown id with kept | ⟨fresh, _⟩
      · rw [← kept, unseen]
      · exact fresh
    exact .inr ⟨fresh, name, group, named, unbound, found, Table.find?_insert_self ..⟩
  · simp only [Table.find?_insert_of_ne _ _ same]
    exact grown other

/-- Growth does not change where a reading goes. -/
theorem Grown.consulted {start memory : Memory} (grown : Grown scene known start memory)
    (unique : ∀ id name other, known id name → known id other → name = other) {id : NodeId}
    {name : Name} (named : known id name) :
    scene.consulted memory id name = scene.consulted start id name := by
  rcases grown id with kept | ⟨fresh, other, group, otherNamed, -, found, remembered⟩
  · rw [Scene.consulted, Scene.consulted, kept]
  · cases unique id name other named otherNamed
    rw [Scene.consulted, Scene.consulted, fresh, remembered, found]
    rfl

/-- Growth is an invariant of evaluation. -/
theorem simulation_grown (start : Memory) :
    Simulation scene known fun m n => m = n ∧ Grown scene known start m where
  position := fun m n related => by rw [related.1]
  move := fun m n place related => ⟨by rw [related.1], related.2⟩
  note := fun m n cause diagnostic _ related => ⟨by rw [related.1], related.2⟩
  read := by
    intro id name named m n ⟨eq, grown⟩
    subst eq
    obtain ⟨final, ended, step⟩ := scene.readVariable_eq id name m
    rw [ended]
    refine ⟨rfl, rfl, ?_⟩
    rcases step with rfl | ⟨group, unseen, unbound, found, rfl⟩
    · exact grown
    · exact grown.remember named unseen unbound found

/-- Being alike is kept by evaluation. -/
theorem simulation_alike
    (unique : ∀ id name other, known id name → known id other → name = other) :
    Simulation scene known (Alike scene known) where
  position := fun m n related => related.position
  move := fun m n place related => ⟨rfl, related.consulted⟩
  note := fun m n cause diagnostic _ related => ⟨related.position, related.consulted⟩
  read := by
    intro id name named m n related
    obtain ⟨m', endedM, stepM⟩ := scene.readVariable_eq id name m
    obtain ⟨n', endedN, stepN⟩ := scene.readVariable_eq id name n
    have grows : ∀ {start final : Memory}, (final = start ∨ ∃ group,
        start.scopes.find? id = none ∧ scene.locals.find? name = none ∧
        scene.foundGroup? name = some group ∧
        final = { start with scopes := start.scopes.insert id group }) →
        final.position = start.position ∧ Grown scene known start final := by
      rintro start final (rfl | ⟨group, unseen, unbound, found, rfl⟩)
      · exact ⟨rfl, Grown.refl _⟩
      · exact ⟨rfl, (Grown.refl start).remember named unseen unbound found⟩
    rw [endedM, endedN, related.consulted id name named]
    refine ⟨rfl, ?_, fun other otherName otherNamed => ?_⟩
    · rw [(grows stepM).1, (grows stepN).1, related.position]
    · rw [(grows stepM).2.consulted unique otherNamed, (grows stepN).2.consulted unique otherNamed]
      exact related.consulted other otherName otherNamed

end Memory

/-! ## Variables of a forest -/

namespace Forest

/-- A node of the forest is a reference to a variable. -/
def Refers (forest : Forest) (id : NodeId) (name : Name) : Prop :=
  forest.form? id = some (.var name)

theorem refers_unique (forest : Forest) (id : NodeId) (name other : Name)
    (first : forest.Refers id name) (second : forest.Refers id other) : name = other := by
  have same := first.symm.trans second
  simpa using same

/-- What holds of a reference for its own node, and for a node if it holds for a part of it, holds
for every node of all the references in its expression. -/
theorem references_induction (forest : Forest) {P : NodeId → NodeId × Name → Prop}
    (own : ∀ id name, forest.Refers id name → P id (id, name))
    (part : ∀ id form inner entry, forest.form? id = some form → inner ∈ forest.parts form →
      P inner entry → P id entry) (id : NodeId) :
    ∀ entry ∈ (forest.expression id).references, P id entry := by
  obtain ⟨index⟩ := id
  -- on the place of the node: an operand that comes later stands for no value
  induction index using Nat.strongRecOn with
  | ind index ih =>
    cases found : forest.form? ⟨index⟩ with
    | none =>
      rw [expression_of_missing found]
      exact fun entry mem => by cases mem
    | some form =>
      rw [expression_of_form? found]
      refine references_assemble forest _ _ form (fun inner isPart => ?_) fun name isVar => ?_
      · by_cases earlier : inner.index < index
        · simp only [if_pos earlier]
          intro entry mem
          exact part _ form inner entry found isPart (ih inner.index earlier entry mem)
        · simp only [if_neg earlier]
          exact fun entry mem => by cases mem
      · apply own
        rw [Refers, found, isVar]

/-- Every variable in the expression of a node is a reference of the forest. -/
theorem refers_of_mem_references (forest : Forest) (id : NodeId) :
    ∀ entry ∈ (forest.expression id).references, forest.Refers entry.1 entry.2 :=
  forest.references_induction (P := fun _ entry => forest.Refers entry.1 entry.2)
    (fun _ _ refers => refers) (fun _ _ _ _ _ _ holds => holds) id

variable (forest : Forest) (scene : Scene) (id : NodeId) (top : Nat)

/-- Evaluating a node only adds scopes, each where its variable is found. -/
theorem keeps_evaluate_grown (start : Memory) :
    Keeps (Memory.Grown scene forest.Refers start)
      ((forest.expression id).evaluate forest.library scene top) :=
  Keeps.of_agree (Expr.agree_evaluate (Memory.simulation_grown start) forest.library _
    (forest.refers_of_mem_references id) top)

/-- Matching a node only adds scopes, each where its variable is found. -/
theorem keeps_accepts_grown (rank : Bool) (start : Memory) :
    Keeps (Memory.Grown scene forest.Refers start)
      ((forest.expression id).accepts forest.library scene top rank) :=
  Keeps.of_agree (Expr.agree_accepts (Memory.simulation_grown start) forest.library _
    (forest.refers_of_mem_references id) top rank)

/-- Matching a node gives the same answer, and the same position afterwards, from memories that are
alike. -/
theorem agree_accepts_alike (rank : Bool) :
    Agree (Memory.Alike scene forest.Refers)
      ((forest.expression id).accepts forest.library scene top rank)
      ((forest.expression id).accepts forest.library scene top rank) :=
  Expr.agree_accepts (Memory.simulation_alike forest.refers_unique) forest.library _
    (forest.refers_of_mem_references id) top rank

end Forest

end StreamPath
