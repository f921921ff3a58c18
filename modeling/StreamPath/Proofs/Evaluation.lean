import StreamPath.Proofs.Lockstep

/-!
# What evaluation and matching do to memory

What holds of the single steps of an evaluation and survives sequencing holds of every expression
and every pattern. It can be a property of one run, a relation that two runs of one expression keep,
or one that the runs of an expression and of a renamed copy in another scene keep.

* `Routine` — a class of computations that give the position back;
* `Discipline` — two classes of computations, one for those that may move the position;
* `Correspondence` — a relation between runs in two scenes, kept by the single steps;
* `Expr.agree_evaluate`, `Expr.agree_accepts` — a relation kept by the single steps is kept by whole
  evaluations and matches, which then also give the same results;
* `Expr.restores_evaluate`, `Expr.restores_accepts` — a run that ends well gives the position back,
  unless a match was asked to move it.
-/

namespace StreamPath

/-- What reading a variable does to the memory, case by case. -/
theorem Scene.readVariable_apply (scene : Scene) (id : NodeId) (name : Name) (memory : Memory) :
    scene.readVariable id name memory =
      match scene.locals.find? name with
      | some value => .ok (some value) memory
      | none =>
        match memory.scopes.find? id with
        | some group => .ok ((scene.frame? group).bind fun bindings => bindings.find? name) memory
        | none =>
          match scene.findScope name with
          | some (.group group) =>
            .ok ((scene.frame? group).bind fun bindings => bindings.find? name)
              { memory with scopes := memory.scopes.insert id group }
          | some .rule | none => .ok none memory := by
  unfold Scene.readVariable
  cases scene.locals.find? name with
  | some value => rfl
  | none =>
    show (match memory.scopes.find? id with
      | some group => _
      | none => _ : Run (Option Sequence)) memory = _
    cases memory.scopes.find? id with
    | some group => rfl
    | none =>
      cases scene.findScope name with
      | none => rfl
      | some scope => cases scope <;> rfl

/-! ## Properties of one run -/

/-- A class of computations that has the single steps of an evaluation, but for those that move the
position, and all sequences of its own. -/
structure Routine (scene : Scene) (known : NodeId → Name → Prop) (P : ∀ {α : Type}, Run α → Prop) :
    Prop where
  pure : ∀ {α : Type} (a : α), P (Pure.pure a : Run α)
  position : P Run.position
  report : ∀ cause, P (Run.report scene cause)
  abort : ∀ {α : Type} cause, P (Run.abort scene cause : Run α)
  read : ∀ id name, known id name → P (scene.readVariable id name)
  bind : ∀ {α β : Type} {first : Run α} {next : α → Run β}, P first → (∀ a, P (next a)) →
    P (first >>= next)

/-- A property of one run relates the run to itself. -/
theorem Routine.sequencing {scene : Scene} {known : NodeId → Name → Prop}
    {P : ∀ {α : Type}, Run α → Prop} (routine : Routine scene known P) :
    Sequencing scene scene id known fun one two => one = two ∧ P one where
  stack := rfl
  pure := fun a => ⟨rfl, routine.pure a⟩
  position := ⟨rfl, routine.position⟩
  report := fun cause => ⟨rfl, routine.report cause⟩
  refuse := fun form id role => ⟨rfl, routine.abort _⟩
  read := fun id name named => ⟨rfl, routine.read id name named⟩
  bind := by
    rintro α β one _ next next' ⟨rfl, head⟩ tail
    cases funext fun a => (tail a).1
    exact ⟨rfl, routine.bind head fun a => (tail a).2⟩

/-- Evaluations belong to the class, over known variables, if those filters do that are asked anew
for every item. -/
theorem Routine.evaluate {scene : Scene} {known : NodeId → Name → Prop}
    {P : ∀ {α : Type}, Run α → Prop} (routine : Routine scene known P) (library : Library)
    {whole : Expr}
    (filters : ∀ base condition, whole.Contains (.filter false base condition) →
      (∀ top, P (base.evaluate library scene top)) →
      (∀ top, P (condition.evaluate library scene top)) →
      ∀ top, P ((Expr.filter false base condition).evaluate library scene top))
    (expr : Expr) (within : whole.Contains expr)
    (read : ∀ entry ∈ expr.references, known entry.1 entry.2) (top : Nat) :
    P (expr.evaluate library scene top) := by
  refine (routine.sequencing.evaluate library ?_ expr within read top).2
  intro base condition inside ihBase ihCondition top
  rw [Expr.rename_id]
  exact ⟨rfl, filters base condition inside (fun height => (ihBase height).2)
    (fun height => (ihCondition height).2) top⟩

/-- Two classes of computations, the first within the second. Both have the single steps of an
evaluation and all sequences of their own, but only the second may move the position. What moves it
between saving it and moving back counts to the first. -/
structure Discipline (scene : Scene) (known : NodeId → Name → Prop)
    (P Q : ∀ {α : Type}, Run α → Prop) : Prop extends Routine scene known P where
  weaken : ∀ {α : Type} {computation : Run α}, P computation → Q computation
  move : ∀ place, Q (Run.setPosition place)
  chain : ∀ {α β : Type} {first : Run α} {next : α → Run β}, Q first → (∀ a, Q (next a)) →
    Q (first >>= next)
  saved : ∀ {α β : Type} {first : Nat → Run α} {next : α → Run β}, (∀ place, Q (first place)) →
    (∀ a, P (next a)) → P (Run.position >>= fun place =>
      first place >>= fun a => Run.setPosition place >>= fun _ => next a)

namespace Discipline

variable {scene : Scene} {known : NodeId → Name → Prop} {P Q : ∀ {α : Type}, Run α → Prop}
  (discipline : Discipline scene known P Q)

include discipline

theorem lockstep : Lockstep scene scene id known (fun one two => one = two ∧ P one)
    (fun one two => one = two ∧ Q one) where
  toSequencing := discipline.sequencing
  weaken := by
    rintro α one _ ⟨rfl, holds⟩
    exact ⟨rfl, discipline.weaken holds⟩
  move := fun place => ⟨rfl, discipline.move place⟩
  chain := by
    rintro α β one _ next next' ⟨rfl, head⟩ tail
    cases funext fun a => (tail a).1
    exact ⟨rfl, discipline.chain head fun a => (tail a).2⟩
  saved := by
    intro α β one two next next' head tail
    cases funext fun place => (head place).1
    cases funext fun a => (tail a).1
    exact ⟨rfl, discipline.saved (fun place => (head place).2) fun a => (tail a).2⟩

/-- Evaluation gives the position back, over known variables. -/
theorem evaluate (library : Library) (expr : Expr)
    (read : ∀ entry ∈ expr.references, known entry.1 entry.2) (top : Nat) :
    P (expr.evaluate library scene top) :=
  (discipline.lockstep.evaluate library expr read top).2

theorem anyBelow {test : Nat → Run Bool} (holds : ∀ height, P (test height)) (top : Nat) :
    P (anyBelow test top) :=
  (discipline.lockstep.anyBelow fun height (_ : height < top) => ⟨rfl, holds height⟩).2

/-- One match after another, if the first one succeeds. -/
theorem andThen {first rest : Run Bool} (one : P first) (two : P rest) :
    P (first >>= fun matched => if matched then rest else Pure.pure false) :=
  (discipline.lockstep.andThen ⟨rfl, one⟩ ⟨rfl, two⟩).2

/-- The condition of a filter is asked at the position that its base left. -/
theorem asks (library : Library) (condition : Expr)
    (read : ∀ entry ∈ condition.references, known entry.1 entry.2) (top : Nat) :
    P (condition.evaluate library scene top >>= fun value =>
      Run.position >>= fun position => Pure.pure (holdsAt value position)) :=
  (discipline.lockstep.asks library condition read top).2

/-- A match gives the position back if it is not asked to move it, and may move it if it is. -/
theorem accepts (library : Library) (expr : Expr)
    (read : ∀ entry ∈ expr.references, known entry.1 entry.2) (top : Nat) :
    P (expr.accepts library scene top false) ∧ Q (expr.accepts library scene top true) := by
  obtain ⟨still, moved⟩ := discipline.lockstep.accepts library expr read top
  exact ⟨still.2, moved.2⟩

/-- Attributes have no rank: a match that is asked to move the position to that of an attribute
leaves it where it is. -/
theorem accepts_attr (library : Library) (expr : Expr)
    (read : ∀ entry ∈ expr.references, known entry.1 entry.2) (depth : Nat)
    (attr : ∀ innermost, scene.stack.occurrence? (depth + 1) = some innermost →
      innermost.event.kind = .attr) :
    P (expr.accepts library scene (depth + 2) true) := by
  have refuse : P (Pure.pure false : Run Bool) := discipline.pure false
  induction expr using Expr.induct with
  | root =>
    rw [Expr.accepts_root, if_neg (by simp)]
    exact refuse
  | step axis base next ihBase ihNext =>
    rw [Expr.references, List.forall_mem_append] at read
    have around := fun height => (discipline.accepts library base read.1 height).1
    cases axis with
    | child => exact discipline.andThen (ihNext read.2) (around (depth + 1))
    | descendant => exact discipline.andThen (ihNext read.2) (discipline.anyBelow around _)
  | union left right ihLeft ihRight =>
    rw [Expr.references, List.forall_mem_append] at read
    refine discipline.bind (ihLeft read.1) fun matched => ?_
    split
    · exact discipline.pure true
    · exact ihRight read.2
  | filter once base condition ihBase ihCondition =>
    rw [Expr.references, List.forall_mem_append] at read
    rw [Expr.accepts_filter_ranked]
    exact discipline.andThen (ihBase read.1) (discipline.asks library condition read.2 _)
  | nodeTest test =>
    rw [Expr.accepts_nodeTest]
    split
    · next selected =>
      obtain ⟨innermost, there, selects⟩ := Option.any_eq_true _ _ |>.mp selected
      rw [test.not_selects_of_attr (attr innermost there)] at selects
      cases selects
    · exact refuse
  | attributeTest test =>
    cases depth with
    | zero => exact refuse
    | succ depth => exact discipline.pure _
  | call | literal | arithmetic | negate | logic | compare | sequence | list | template | var
  | contextItem | parent => exact discipline.abort _

end Discipline

/-! ## Relations between two runs -/

namespace Scene

/-- What becomes of a cause depends on the location and the sink. -/
theorem judge_congr {first second : Scene} (location : second.location = first.location)
    (respond : second.sink.respond = first.sink.respond) (cause : Cause) :
    second.judge cause = first.judge cause := by
  unfold judge
  rw [location, respond]

end Scene

/-- Two computations give the same value or end the run with corresponding faults, and memories that
were related are related afterwards. -/
def Run.Track {α : Type} (fault : Diagnostic → Diagnostic → Prop) (R : Memory → Memory → Prop)
    (first second : Run α) : Prop :=
  Related R (fun _ => R) (fun d e m n => fault d e ∧ R m n) first second

/-- A relation between the memories of two runs that every single step keeps, so long as the
variables read are known ones. The second run is in a scene with the same open nodes and the same
sink, over renamed nodes, so its faults may name other nodes. -/
structure Correspondence (first second : Scene) (f : NodeId → NodeId) (known : NodeId → Name → Prop)
    (fault : Diagnostic → Diagnostic → Prop) (R : Memory → Memory → Prop) : Prop where
  stack : second.stack = first.stack
  location : second.location = first.location
  sink : second.sink = first.sink
  same : ∀ diagnostic, fault diagnostic diagnostic
  refuse : ∀ form id role, fault ⟨.unsuitable form id role, first.location⟩
    ⟨.unsuitable form (f id) role, first.location⟩
  position : ∀ m n, R m n → m.position = n.position
  move : ∀ m n place, R m n → R { m with position := place } { n with position := place }
  note : ∀ m n cause diagnostic, first.judge cause = .ok diagnostic → R m n →
    R { m with reported := m.reported ++ [diagnostic] }
      { n with reported := n.reported ++ [diagnostic] }
  read : ∀ id name, known id name →
    Run.Track fault R (first.readVariable id name) (second.readVariable (f id) name)

section Correspondence

open Run

/-- Runs that correspond may move the position, since both move it alike. -/
theorem Correspondence.lockstep {first second : Scene} {f : NodeId → NodeId}
    {known : NodeId → Name → Prop} {fault : Diagnostic → Diagnostic → Prop}
    {R : Memory → Memory → Prop} (corresponds : Correspondence first second f known fault R) :
    Lockstep first second f known (Track fault R) (Track fault R) where
  stack := corresponds.stack
  pure := fun a => Related.pure a fun _ _ related => related
  position := fun m n related => ⟨corresponds.position m n related, related⟩
  report := by
    intro cause m n related
    rw [report_apply, report_apply, Scene.judge_congr corresponds.location
      (congrArg Sink.respond corresponds.sink)]
    cases judged : first.judge cause with
    | ok diagnostic => exact ⟨rfl, corresponds.note m n cause diagnostic judged related⟩
    | error refused => exact ⟨corresponds.same refused, related⟩
  refuse := by
    intro α form id role m n related
    unfold Run.abort
    rw [corresponds.location]
    exact ⟨corresponds.refuse form id role, related⟩
  read := corresponds.read
  bind := Related.bind
  weaken := id
  move := fun place m n related => ⟨rfl, corresponds.move m n place related⟩
  chain := Related.bind
  saved := by
    intro α β one two next next' tracks rest
    have positions : Track fault R Run.position Run.position :=
      fun m n related => ⟨corresponds.position m n related, related⟩
    have moves : ∀ place, Track fault R (setPosition place) (setPosition place) :=
      fun place m n related => ⟨rfl, corresponds.move m n place related⟩
    refine Related.bind positions fun place => Related.bind (tracks place) fun a => ?_
    exact Related.bind (moves place) fun _ => rest a

end Correspondence

/-! ## Relations between two runs of one expression -/

/-- A relation on memories that every single step of an evaluation keeps, so long as the variables
read are known ones. -/
structure Simulation (scene : Scene) (known : NodeId → Name → Prop)
    (R : Memory → Memory → Prop) : Prop where
  position : ∀ m n, R m n → m.position = n.position
  move : ∀ m n place, R m n → R { m with position := place } { n with position := place }
  note : ∀ m n cause diagnostic, scene.judge cause = .ok diagnostic → R m n →
    R { m with reported := m.reported ++ [diagnostic] }
      { n with reported := n.reported ++ [diagnostic] }
  read : ∀ id name, known id name →
    Run.Agree R (scene.readVariable id name) (scene.readVariable id name)

section Simulation

open Run

variable {scene : Scene} {known : NodeId → Name → Prop} {R : Memory → Memory → Prop}
  (simulation : Simulation scene known R)

include simulation

/-- A simulation is a correspondence within one scene, where every node keeps its name. -/
theorem Simulation.correspondence : Correspondence scene scene id known Eq R where
  stack := rfl
  location := rfl
  sink := rfl
  same := fun _ => rfl
  refuse := fun _ _ _ => rfl
  position := simulation.position
  move := simulation.move
  note := simulation.note
  read := simulation.read

theorem Simulation.lockstep : Lockstep scene scene id known (Agree R) (Agree R) :=
  simulation.correspondence.lockstep

/-- What every single step keeps is kept by the evaluation of every expression over known variables,
and the result depends on nothing else. -/
theorem Expr.agree_evaluate (library : Library) (expr : Expr)
    (read : ∀ entry ∈ expr.references, known entry.1 entry.2) (top : Nat) :
    Agree R (expr.evaluate library scene top) (expr.evaluate library scene top) := by
  have agree := simulation.lockstep.evaluate library expr read top
  rwa [rename_id] at agree

/-- What every single step keeps is kept by the match of every pattern over known variables, and the
answer depends on nothing else. -/
theorem Expr.agree_accepts (library : Library) (expr : Expr)
    (read : ∀ entry ∈ expr.references, known entry.1 entry.2) (top : Nat) (rank : Bool) :
    Agree R (expr.accepts library scene top rank) (expr.accepts library scene top rank) := by
  obtain ⟨still, moved⟩ := simulation.lockstep.accepts library expr read top
  rw [rename_id] at still moved
  cases rank with
  | false => exact still
  | true => exact moved

end Simulation

/-! ## The position afterwards -/

/-- The computations that give the position back, among all. -/
theorem discipline_restores (scene : Scene) :
    Discipline scene (fun _ _ => True) Run.Restores fun _ => True where
  pure := Run.Restores.pure
  position := by
    intro memory place final ended
    cases ended
    rfl
  report := Run.Restores.report scene
  abort := Run.Restores.abort scene
  read := by
    intro id name _ memory value final ended
    rw [Scene.readVariable_apply] at ended
    revert ended
    split
    · rintro ⟨⟩; rfl
    · split
      · rintro ⟨⟩; rfl
      · split <;> rintro ⟨⟩ <;> rfl
  bind := Run.Restores.bind
  weaken := fun _ => trivial
  move := fun _ => trivial
  chain := fun _ _ => trivial
  saved := fun _ rest => Run.Restores.saved rest

namespace Expr

variable (library : Library) (scene : Scene) (expr : Expr)

/-- An evaluation that ends well gives the position back, whatever filters moved it. -/
theorem restores_evaluate (top : Nat) : Run.Restores (expr.evaluate library scene top) :=
  (discipline_restores scene).evaluate library expr (fun _ _ => trivial) top

/-- A match that is not asked to move the position gives it back if it ends well. -/
theorem restores_accepts (top : Nat) : Run.Restores (expr.accepts library scene top false) :=
  ((discipline_restores scene).accepts library expr (fun _ _ => trivial) top).1

/-- So does every match of an attribute. -/
theorem restores_accepts_attr (depth : Nat)
    (attr : ∀ innermost, scene.stack.occurrence? (depth + 1) = some innermost →
      innermost.event.kind = .attr) :
    Run.Restores (expr.accepts library scene (depth + 2) true) :=
  (discipline_restores scene).accepts_attr library expr (fun _ _ => trivial) depth attr

end Expr

end StreamPath
