import StreamPath.Proofs.Afresh
import StreamPath.Proofs.SiblingCount

/-!
# Activations along a run

A run enters groups and leaves them, and binds variables in the newest activations of groups. What
it does about the activations is told by a list of acts, so that one can say which activation was
entered when, and what was bound in it since. A run that leaves none of the oldest activations finds
them again at the end as they were, but for what it bound in them.

* `Operation.outcome` — what an operation changes, if anything;
* `Change` — one step of a run, with its act; operations that fail are steps too;
* `Stays` — a run that leaves none of the oldest activations;
* `Stays.oldest` — what such a run makes of them;
* `Stays.entered` — every entry of the trail was made at some moment of the run, and the run has not
  left its activation since;
* `Stays.framesOf_below` — below an activation, the others of its group keep their bindings.
-/

namespace StreamPath

/-! ## The trail -/

/-- The group of an activation and the group that was current before it was entered. -/
def Activation.entry (activation : Activation) : GroupId × Option GroupId :=
  (activation.group, activation.previous)

/-- The groups that are active, newest first, each with the group that was current before it was
entered. -/
def Scene.trail (scene : Scene) : List (GroupId × Option GroupId) :=
  scene.activations.map Activation.entry

/-- The activations at the bottom, the newest of them first. -/
def Scene.oldest (scene : Scene) (count : Nat) : List Activation :=
  scene.activations.drop (scene.activations.length - count)

/-- How many activations lie below the newest one of a group. -/
def placeOf? (group : GroupId) : List Activation → Option Nat
  | [] => none
  | activation :: older =>
    if activation.group = group then some older.length else placeOf? group older

/-- The bindings of the activations of a group, newest first. -/
def framesOf (group : GroupId) (activations : List Activation) : List Bindings :=
  (activations.filter fun activation => activation.group = group).map Activation.bindings

theorem length_trail (scene : Scene) : scene.trail.length = scene.activations.length :=
  List.length_map _

theorem trail_of_nil {scene : Scene} (none : scene.activations = []) : scene.trail = [] := by
  rw [Scene.trail, none, List.map_nil]

theorem trail_of_cons {scene : Scene} {newest : Activation} {older : List Activation}
    (split : scene.activations = newest :: older) :
    scene.trail = newest.entry :: older.map Activation.entry := by
  rw [Scene.trail, split, List.map_cons]

theorem framesOf_cons (group : GroupId) (newest : Activation) (older : List Activation) :
    framesOf group (newest :: older) =
      if newest.group = group then newest.bindings :: framesOf group older
      else framesOf group older := by
  unfold framesOf
  by_cases own : newest.group = group <;> simp [own]

/-- A change of the newest activation of a group shows in the newest frame of the group alone. -/
theorem framesOf_updateFrame (group other : GroupId) (change : Bindings → Bindings)
    (activations : List Activation) :
    framesOf other (Context.updateFrame group change activations) =
      if other = group then (framesOf other activations).modifyHead change
      else framesOf other activations := by
  induction activations with
  | nil => simp [Context.updateFrame, framesOf]
  | cons activation older ih =>
    unfold Context.updateFrame
    by_cases own : activation.group = group
    · rw [if_pos own, framesOf_cons, framesOf_cons, own]
      by_cases same : other = group
      · subst same
        simp
      · simp [same, Ne.symm same]
    · rw [if_neg own, framesOf_cons, framesOf_cons, ih]
      by_cases same : other = group
      · subst same
        simp [own]
      · simp [same]

theorem trail_updateFrame (group : GroupId) (change : Bindings → Bindings)
    (activations : List Activation) :
    (Context.updateFrame group change activations).map Activation.entry =
      activations.map Activation.entry := by
  induction activations with
  | nil => rfl
  | cons activation older ih =>
    unfold Context.updateFrame
    split
    · rfl
    · rw [List.map_cons, List.map_cons, ih]

/-! ## Acts -/

/-- What a step of a run does about the activations. -/
inductive Act
  | enter (group : GroupId)
  | exit (group : GroupId)
  /-- The end of a body in a group that was entered above `count` activations. -/
  | finish (count : Nat) (group : GroupId)
  | setCurrent (current : Option GroupId)
  /-- A variable is bound in the newest activation of a group, if it is active; that activation has
  `place?` others below it. -/
  | bind (group : GroupId) (place? : Option Nat) (name : Name) (value : Sequence)
  /-- Nothing. -/
  | other

/-- What an act makes of the bindings of the activation at a place. -/
def Act.boundAt (place : Nat) (bindings : Bindings) : Act → Bindings
  | bind _ place? name value => if place? = some place then bindings.insert name value else bindings
  | _ => bindings

/-- What acts make of the bindings of the activation at a place. -/
def boundAt (place : Nat) (acts : List Act) (bindings : Bindings) : Bindings :=
  acts.foldl (fun reached act => act.boundAt place reached) bindings

/-- Activations, newest first, with what acts have bound in each of them. -/
def rebind (acts : List Act) : List Activation → List Activation
  | [] => []
  | activation :: older =>
    { activation with bindings := boundAt older.length acts activation.bindings } ::
      rebind acts older

section Rebind

variable (acts more : List Act) (activations : List Activation)

@[simp] theorem length_rebind : (rebind acts activations).length = activations.length := by
  induction activations with
  | nil => rfl
  | cons activation older ih => rw [rebind, List.length_cons, List.length_cons, ih]

theorem rebind_nil : rebind [] activations = activations := by
  induction activations with
  | nil => rfl
  | cons activation older ih => rw [rebind, ih]; rfl

theorem rebind_append :
    rebind (acts ++ more) activations = rebind more (rebind acts activations) := by
  induction activations with
  | nil => rfl
  | cons activation older ih =>
    rw [rebind, rebind, rebind, length_rebind, ih]
    simp [boundAt]

theorem drop_rebind (count : Nat) :
    (rebind acts activations).drop count = rebind acts (activations.drop count) := by
  induction activations generalizing count with
  | nil => cases count <;> rfl
  | cons activation older ih =>
    cases count with
    | zero => rfl
    | succ count => exact ih count

/-- Acts bind variables and leave it at that. -/
theorem trail_rebind :
    (rebind acts activations).map Activation.entry = activations.map Activation.entry := by
  induction activations with
  | nil => rfl
  | cons activation older ih =>
    rw [rebind, List.map_cons, List.map_cons, ih]
    rfl

variable {activations}

/-- An act that binds at none of the places of some activations leaves them as they are. -/
theorem rebind_of_unbound {act : Act}
    (unbound : ∀ place < activations.length, ∀ bindings, act.boundAt place bindings = bindings) :
    rebind [act] activations = activations := by
  induction activations with
  | nil => rfl
  | cons activation older ih =>
    have here : boundAt older.length [act] activation.bindings = activation.bindings :=
      unbound older.length (Nat.lt_succ_self _) activation.bindings
    rw [rebind, here, ih fun place lt => unbound place (Nat.lt_succ_of_lt lt)]

end Rebind

theorem placeOf?_lt {group : GroupId} {activations : List Activation} {place : Nat}
    (found : placeOf? group activations = some place) : place < activations.length := by
  induction activations with
  | nil => cases found
  | cons activation older ih =>
    unfold placeOf? at found
    split at found
    · cases found
      exact Nat.lt_succ_self _
    · exact Nat.lt_succ_of_lt (ih found)

/-- To bind a variable in the newest activation of a group is to bind it at the place of that
activation. -/
theorem updateFrame_eq_rebind (group : GroupId) (name : Name) (value : Sequence)
    (activations : List Activation) :
    Context.updateFrame group (fun bindings => bindings.insert name value) activations =
      rebind [.bind group (placeOf? group activations) name value] activations := by
  induction activations with
  | nil => rfl
  | cons activation older ih =>
    unfold Context.updateFrame placeOf?
    by_cases own : activation.group = group
    · rw [if_pos own, if_pos own, rebind]
      have below : rebind [.bind group (some older.length) name value] older = older := by
        refine rebind_of_unbound fun place lt bindings => if_neg ?_
        rintro ⟨⟩
        exact Nat.lt_irrefl _ lt
      rw [below]
      simp [boundAt, Act.boundAt]
    · rw [if_neg own, if_neg own, rebind, ih]
      have above : boundAt older.length [.bind group (placeOf? group older) name value]
          activation.bindings = activation.bindings :=
        if_neg fun found => Nat.lt_irrefl _ (placeOf?_lt found)
      rw [above]

/-! ## Leaving -/

namespace Context

variable {context after : Context} {group : GroupId}

/-- Leaving takes the newest activation, if it is one of the group, and goes back to the group that
was current before it. -/
theorem exit_eq_ok_iff :
    context.exit group = .ok after ↔ ∃ newest older, context.activations = newest :: older ∧
      newest.group = group ∧
      after = { context with activations := older, current := newest.previous } := by
  unfold exit
  cases context.activations with
  | nil => simp
  | cons newest older =>
    by_cases own : newest.group = group
    · simp [own, eq_comm]
    · simp [own]

/-- Go on from what an operation that can fail comes to. If it fails, the run goes on from where it
was. -/
def attempt (context : Context) : Except Diagnostic Context → Except Diagnostic Unit × Context
  | .ok after => (.ok (), after)
  | .error failure => (.error failure, context)

/-- Where none are taken from the top, none are missing. -/
theorem drop_eq_self_of_getLast?_take {activations : List Activation} {surplus : Nat}
    (none : (activations.take surplus).getLast? = none) :
    activations.drop surplus = activations := by
  rw [List.getLast?_eq_none_iff, List.take_eq_nil_iff] at none
  rcases none with none | none <;> simp [none]

theorem activations_unwind (context : Context) (count : Nat) :
    (context.unwind count).2.activations =
      context.activations.drop (context.activations.length - count) := by
  unfold unwind
  simp only
  split
  · next none => exact (drop_eq_self_of_getLast?_take none).symm
  · rfl

/-- Activations that are left are the newest ones. -/
theorem activations_exit_suffix (left : context.exit group = .ok after) :
    after.activations <:+ context.activations := by
  obtain ⟨newest, older, split, -, rfl⟩ := exit_eq_ok_iff.mp left
  rw [split]
  exact List.suffix_cons newest older

theorem snd_finishGroup {α : Type} (context : Context) (count : Nat) (group : GroupId)
    (result : Except Diagnostic α) :
    (context.finishGroup count group result).2 =
      let unwound := (context.unwind (count + 1)).2
      (unwound.attempt (unwound.exit group)).2 := by
  unfold finishGroup
  simp only
  cases (context.unwind (count + 1)).2.exit group with
  | error fault => cases result <;> rfl
  | ok final =>
    cases result with
    | error failure => rfl
    | ok value => cases (context.unwind (count + 1)).1 <;> rfl

theorem activations_finishGroup_suffix {α : Type} (context : Context) (count : Nat)
    (group : GroupId) (result : Except Diagnostic α) :
    (context.finishGroup count group result).2.activations <:+ context.activations := by
  have unwound : (context.unwind (count + 1)).2.activations <:+ context.activations := by
    rw [activations_unwind]
    exact List.drop_suffix _ _
  rw [snd_finishGroup]
  simp only
  cases left : (context.unwind (count + 1)).2.exit group with
  | error fault => exact unwound
  | ok final => exact (activations_exit_suffix left).trans unwound

end Context

/-! ## What an operation comes to -/

namespace Context

variable {context : Context} {group : GroupId} {name : Name} (value : Sequence)

theorem attempt_assign_of_rule (found : context.findScope name = some .rule) :
    context.attempt (context.assign name value) =
      (.ok (), { context with locals := context.locals.insert name value }) := by
  unfold assign
  rw [found]
  rfl

theorem attempt_assign_of_group (found : context.findScope name = some (.group group)) :
    context.attempt (context.assign name value) =
      (.ok (), { context with
        activations := updateFrame group (fun bindings => bindings.insert name value)
          context.activations }) := by
  unfold assign
  rw [found]
  rfl

/-- An assignment to a variable that is bound nowhere is reported, and what the sink answers is all
that comes of it. -/
theorem attempt_assign_of_none (found : context.findScope name = none) :
    let undeclared : Diagnostic := ⟨.undeclaredVariable name, context.location⟩
    context.attempt (context.assign name value) =
      match context.sink.respond undeclared with
      | .ok () => (.ok (), { context with reported := context.reported ++ [undeclared] })
      | .error refused => (.error refused, context) := by
  intro undeclared
  have judged : context.judge (.undeclaredVariable name) =
      match context.sink.respond undeclared with
      | .ok () => .ok undeclared
      | .error refused => .error refused := rfl
  unfold assign report
  simp only [found, judged]
  cases context.sink.respond undeclared <;> rfl

/-- An assignment concerns bindings and what is reported, and nothing else. -/
theorem attempt_assign_frame (context : Context) (name : Name) (value : Sequence) :
    let after := (context.attempt (context.assign name value)).2
    after = { context with
      locals := after.locals
      activations := after.activations
      reported := after.reported } := by
  intro after
  cases found : context.findScope name with
  | none =>
    have assigned : (_, after) = _ := attempt_assign_of_none value found
    revert assigned
    cases context.sink.respond ⟨.undeclaredVariable name, context.location⟩ <;>
      · intro assigned
        rw [(Prod.mk.inj assigned).2]
  | some scope =>
    cases scope with
    | rule =>
      have assigned : (_, after) = _ := attempt_assign_of_rule value found
      rw [(Prod.mk.inj assigned).2]
    | group group =>
      have assigned : (_, after) = _ := attempt_assign_of_group value found
      rw [(Prod.mk.inj assigned).2]

/-- A computation leaves all that it reads as it is. -/
theorem toScene_run {α : Type} (context : Context) (computation : Scene → Run α) :
    (context.run computation).2.toScene = context.toScene := by
  cases ended : computation context.toScene context.toMemory with
  | ok value memory => rw [run_of_ok ended]
  | error failure memory => rw [run_of_error ended]

end Context

/-- Among operations, an assignment is tried: if it fails, the run goes on from where it was. -/
theorem Operation.perform_assign (forest : Forest) (context : Context) (name : Name)
    (value : Sequence) : (assign name value).perform forest context =
      (context.attempt (context.assign name value)).map .done id := by
  unfold perform
  simp only
  cases context.assign name value <;> rfl

/-- An operation leaves the scene as it is, moves the stack, replaces the bindings of the rule, or is
an assignment. -/
theorem Operation.outcome (operation : Operation) (forest : Forest) (context : Context) :
    let after := (operation.perform forest context).2
    after.toScene = context.toScene ∨
      (∃ next : Move, after = { context with stack := context.stack.move next }) ∨
      (∃ locals, after = { context with locals }) ∨
      ∃ name value, after = (context.attempt (context.assign name value)).2 := by
  intro after
  cases operation with
  | evaluate node top =>
    exact .inl (context.toScene_run fun scene =>
      (forest.expression node).evaluate forest.library scene top)
  | accepts node top rank =>
    exact .inl (context.toScene_run fun scene =>
      (forest.expression node).accepts forest.library scene top rank)
  | best rules top =>
    exact .inl (context.toScene_run fun scene =>
      RuleTable.firstAccepted forest scene top context.position (rules.rules.filter fun _ => true))
  | bestVisible rules viewpoint top =>
    exact .inl (context.toScene_run fun scene =>
      RuleTable.firstAccepted forest scene top context.position
        (rules.rules.filter fun rule => RuleTable.isVisible context.groups viewpoint rule.group))
  | setPosition position => exact .inl rfl
  | push event => exact .inr (.inl ⟨.push event, rfl⟩)
  | pushOccurrence occurrence => exact .inr (.inl ⟨.pushOccurrence occurrence, rfl⟩)
  | pop => exact .inr (.inl ⟨.pop, rfl⟩)
  | declareLocal name value => exact .inr (.inr (.inl ⟨context.locals.insert name value, rfl⟩))
  | replaceLocals locals => exact .inr (.inr (.inl ⟨locals, rfl⟩))
  | clearLocals => exact .inr (.inr (.inl ⟨.empty, rfl⟩))
  | assign name value =>
    have tried := perform_assign forest context name value
    exact .inr (.inr (.inr ⟨name, value, congrArg Prod.snd tried⟩))

/-! ## Steps -/

/-- One step of a run, with its act. Operations that can fail are tried; bodies that run in a group
enter it, make steps of their own and finish; any other operation leaves the activations and the
current group as they are. -/
inductive Change : Context → Act → Context → Prop
  | enter (context : Context) (group : GroupId) :
      Change context (.enter group) (context.enter group)
  | exit (context : Context) (group : GroupId) :
      Change context (.exit group) (context.attempt (context.exit group)).2
  | finish {α : Type} (context : Context) (count : Nat) (group : GroupId)
      (result : Except Diagnostic α) :
      Change context (.finish count group) (context.finishGroup count group result).2
  | setCurrent (context : Context) (current : Option GroupId) :
      Change context (.setCurrent current) { context with current }
  | declare (context : Context) (group : GroupId) (name : Name) (value : Sequence) :
      Change context (.bind group (placeOf? group context.activations) name value)
        (context.attempt (context.declare group name value)).2
  | assign {context : Context} {group : GroupId} {name : Name} (value : Sequence) :
      context.findScope name = some (.group group) →
      Change context (.bind group (placeOf? group context.activations) name value)
        (context.attempt (context.assign name value)).2
  | other {context after : Context} : after.activations = context.activations →
      after.current = context.current → Change context .other after

section Change

variable {before after : Context} {act : Act}

/-- What a run can do without entering or leaving a group is such a step. -/
theorem change_perform (forest : Forest) (operation : Operation) (context : Context) :
    ∃ act, Change context act (operation.perform forest context).2 := by
  rcases operation.outcome forest context with
    same | ⟨next, moved⟩ | ⟨locals, replaced⟩ | ⟨name, value, assigned⟩
  · exact ⟨.other, .other (congrArg Scene.activations same) (congrArg Scene.current same)⟩
  · rw [moved]
    exact ⟨.other, .other rfl rfl⟩
  · rw [replaced]
    exact ⟨.other, .other rfl rfl⟩
  · rw [assigned]
    cases found : context.findScope name with
    | none =>
      refine ⟨.other, ?_⟩
      rw [Context.attempt_assign_of_none value found]
      cases context.sink.respond ⟨.undeclaredVariable name, context.location⟩ <;>
        exact .other rfl rfl
    | some scope =>
      cases scope with
      | rule =>
        rw [Context.attempt_assign_of_rule value found]
        exact ⟨.other, .other rfl rfl⟩
      | group group => exact ⟨_, .assign value found⟩

/-- A declaration binds the variable if the group is active, and does nothing if it is not. -/
theorem Context.activations_declare (context : Context) (group : GroupId) (name : Name)
    (value : Sequence) :
    (context.attempt (context.declare group name value)).2.activations =
      updateFrame group (fun bindings => bindings.insert name value) context.activations := by
  unfold declare
  cases frame : context.frame? group with
  | some bindings => rfl
  | none =>
    have inactive : ∀ activations : List Activation,
        activations.find? (fun activation => activation.group = group) = none →
        updateFrame group (fun bindings => bindings.insert name value) activations =
          activations := by
      intro activations
      induction activations with
      | nil => exact fun _ => rfl
      | cons activation older ih =>
        intro absent
        rw [List.find?_cons] at absent
        split at absent
        · cases absent
        · next differs =>
          rw [updateFrame, if_neg (by simpa using differs), ih absent]
    exact (inactive _ (Option.map_eq_none_iff.mp frame)).symm

theorem Context.activations_assign {context : Context} {group : GroupId} {name : Name}
    (value : Sequence) (found : context.findScope name = some (.group group)) :
    (context.attempt (context.assign name value)).2.activations =
      updateFrame group (fun bindings => bindings.insert name value) context.activations := by
  rw [attempt_assign_of_group value found]

/-- What a step does to the activations: it puts a new one on top, takes some from the top, or binds
a variable. -/
theorem Change.activations (change : Change before act after) :
    (∃ group, act = .enter group ∧ after = before.enter group) ∨
      (after.activations <:+ before.activations ∧
        ∀ place bindings, act.boundAt place bindings = bindings) ∨
      ∃ group name value, act = .bind group (placeOf? group before.activations) name value ∧
        after.activations =
          Context.updateFrame group (fun bindings => bindings.insert name value)
            before.activations := by
  cases change with
  | enter _ group => exact .inl ⟨group, rfl, rfl⟩
  | exit _ group =>
    refine .inr (.inl ⟨?_, fun _ _ => rfl⟩)
    cases left : before.exit group with
    | ok final => exact Context.activations_exit_suffix left
    | error failure => exact List.suffix_refl _
  | finish _ count group result =>
    exact .inr (.inl ⟨before.activations_finishGroup_suffix count group result, fun _ _ => rfl⟩)
  | setCurrent => exact .inr (.inl ⟨List.suffix_refl _, fun _ _ => rfl⟩)
  | declare _ group name value =>
    exact .inr (.inr ⟨group, name, value, rfl, before.activations_declare group name value⟩)
  | assign value found =>
    exact .inr (.inr ⟨_, _, value, rfl, Context.activations_assign value found⟩)
  | other same =>
    rw [same]
    exact .inr (.inl ⟨List.suffix_refl _, fun _ _ => rfl⟩)

/-- A step puts an entry on the trail or takes some from it. -/
theorem Change.trail (change : Change before act after) :
    (∃ group, act = .enter group ∧ after = before.enter group) ∨ after.trail <:+ before.trail := by
  rcases change.activations with entered | ⟨left, -⟩ | ⟨group, name, value, -, bound⟩
  · exact .inl entered
  · exact .inr (left.map _)
  · right
    unfold Scene.trail
    rw [bound, trail_updateFrame]

theorem oldest_of_suffix {shorter longer : List Activation} (suffix : shorter <:+ longer)
    {count : Nat} (le : count ≤ shorter.length) :
    shorter.drop (shorter.length - count) = longer.drop (longer.length - count) := by
  obtain ⟨newer, rfl⟩ := suffix
  have beyond : (newer ++ shorter).length - count = newer.length + (shorter.length - count) := by
    rw [List.length_append]
    omega
  rw [beyond, List.drop_append]
  simp

/-- What a step makes of the oldest activations, if it leaves none of them. -/
theorem Change.oldest (change : Change before act after) {floor : Nat}
    (enough : floor ≤ before.activations.length) (left : floor ≤ after.activations.length) :
    after.oldest floor = rebind [act] (before.oldest floor) := by
  rcases change.activations with ⟨group, rfl, rfl⟩ | ⟨suffix, unbound⟩ |
    ⟨group, name, value, rfl, bound⟩
  · rw [rebind_of_unbound fun _ _ _ => rfl]
    exact (oldest_of_suffix (List.suffix_cons _ _) enough).symm
  · rw [rebind_of_unbound fun place _ bindings => unbound place bindings]
    exact oldest_of_suffix suffix left
  · unfold Scene.oldest
    rw [bound, updateFrame_eq_rebind, length_rebind, drop_rebind]

/-- Below an activation that a step does not leave, the activations of its group keep their
bindings. -/
theorem Change.framesOf_below (change : Change before act after) {newer older : List Activation}
    {newest : Activation} (split : before.activations = newer ++ newest :: older)
    (left : older.length < after.activations.length) :
    ∃ newer' newest' older', after.activations = newer' ++ newest' :: older' ∧
      older'.length = older.length ∧ newest'.group = newest.group ∧
      framesOf newest.group older' = framesOf newest.group older := by
  rcases change.activations with ⟨group, -, rfl⟩ | ⟨suffix, -⟩ | ⟨group, name, value, -, bound⟩
  · refine ⟨{ group, previous := before.current } :: newer, newest, older, ?_, rfl, rfl, rfl⟩
    show _ :: before.activations = _
    rw [split]
    rfl
  · have kept := List.suffix_iff_eq_drop.mp suffix
    have few : before.activations.length - after.activations.length ≤ newer.length := by
      rw [split, List.length_append, List.length_cons]
      omega
    rw [split, List.drop_append_of_le_length (by rwa [split] at few)] at kept
    exact ⟨_, newest, older, kept, rfl, rfl, rfl⟩
  · rw [bound, split]
    clear bound split left
    induction newer with
    | nil =>
      rw [List.nil_append, Context.updateFrame]
      split
      · exact ⟨[], _, older, rfl, rfl, rfl, rfl⟩
      · next other =>
        refine ⟨[], newest, _, rfl, ?_, rfl, ?_⟩
        · rw [updateFrame_eq_rebind, length_rebind]
        · rw [framesOf_updateFrame, if_neg other]
    | cons activation rest ih =>
      obtain ⟨newer', newest', older', same, kept⟩ := ih
      rw [List.cons_append, Context.updateFrame]
      split
      · exact ⟨_ :: rest, newest, older, rfl, rfl, rfl, rfl⟩
      · rw [same]
        exact ⟨activation :: newer', newest', older', rfl, kept⟩

end Change

/-! ## Runs -/

/-- A run from one context to another, told by its acts, in which there are never fewer activations
than the floor. Since only the newest activation can be left, the oldest ones up to the floor are
never left. -/
inductive Stays (floor : Nat) (start : Context) : List Act → Context → Prop
  | rest : Stays floor start [] start
  | step {acts : List Act} {act : Act} {before after : Context} : Stays floor start acts before →
      Change before act after → floor ≤ after.activations.length →
      Stays floor start (acts ++ [act]) after

namespace Stays

variable {floor : Nat} {start context : Context} {acts : List Act}

theorem le_length (run : Stays floor start acts context)
    (enough : floor ≤ start.activations.length) : floor ≤ context.activations.length := by
  cases run with
  | rest => exact enough
  | step _ _ le => exact le

theorem trans {middle : Context} {more : List Act} (first : Stays floor start acts middle)
    (second : Stays floor middle more context) : Stays floor start (acts ++ more) context := by
  induction second with
  | rest => simpa using first
  | step _ change enough ih =>
    rw [← List.append_assoc]
    exact ih.step change enough

/-- The oldest activations are found again, with what the run bound in them. -/
theorem oldest (run : Stays floor start acts context)
    (enough : floor ≤ start.activations.length) :
    context.oldest floor = rebind acts (start.oldest floor) := by
  induction run with
  | rest => rw [rebind_nil]
  | step run change left ih =>
    rw [change.oldest (run.le_length enough) left, ih, rebind_append]

/-- A run that stays above the activation with which it began finds it again, with what it bound in
it, above those that were there before. -/
theorem oldest_enter {group : GroupId}
    (run : Stays (start.activations.length + 1) (start.enter group) acts context) :
    context.oldest (start.activations.length + 1) =
      ⟨group, start.current, boundAt start.activations.length acts .empty⟩ ::
        rebind acts start.activations := by
  have whole : (start.enter group).oldest (start.activations.length + 1) =
      ⟨group, start.current, .empty⟩ :: start.activations := by
    simp [Scene.oldest, Context.enter]
  rw [run.oldest (Nat.le_refl _), whole, rebind]

/-- A run that does not leave an activation keeps the bindings of all those of its group below it.
-/
theorem framesOf_below {newest : Activation} {older : List Activation}
    (begun : start.activations = newest :: older)
    (run : Stays (older.length + 1) start acts context) :
    ∃ newer' newest' older', context.activations = newer' ++ newest' :: older' ∧
      older'.length = older.length ∧ newest'.group = newest.group ∧
      framesOf newest.group older' = framesOf newest.group older := by
  induction run with
  | rest => exact ⟨[], newest, older, begun, rfl, rfl, rfl⟩
  | step _ change left ih =>
    obtain ⟨_, _, _, split, length, group, frames⟩ := ih
    obtain ⟨newer', newest', older', split', length', group', frames'⟩ :=
      change.framesOf_below split (by omega)
    rw [group] at frames'
    exact ⟨newer', newest', older', split', length'.trans length, group'.trans group,
      frames'.trans frames⟩

/-- Where a run begins without activations, every entry of its trail was made at some moment of it:
what is below it on the trail was the trail at that moment, it keeps the group that was current
then, and the run has not left it since. -/
theorem entered (bare : start.activations = []) (run : Stays 0 start acts context)
    {newer older : List (GroupId × Option GroupId)} {group : GroupId}
    {previous : Option GroupId} (split : context.trail = newer ++ (group, previous) :: older) :
    ∃ moment earlier since, acts = earlier ++ .enter group :: since ∧
      Stays 0 start earlier moment ∧
      Stays (older.length + 1) (moment.enter group) since context ∧
      moment.trail = older ∧ moment.current = previous := by
  induction run generalizing newer with
  | rest =>
    unfold Scene.trail at split
    rw [bare] at split
    cases newer <;> cases split
  | @step acts act before after run change _ ih =>
    have later : ∀ {newer'}, before.trail = newer' ++ (group, previous) :: older →
        ∃ moment earlier since, acts ++ [act] = earlier ++ .enter group :: since ∧
          Stays 0 start earlier moment ∧
          Stays (older.length + 1) (moment.enter group) since after ∧
          moment.trail = older ∧ moment.current = previous := by
      intro newer' there
      obtain ⟨moment, earlier, since, rfl, first, last, trail, current⟩ := ih there
      refine ⟨moment, earlier, since ++ [act], by simp, first, last.step change ?_, trail, current⟩
      rw [← length_trail, split, List.length_append, List.length_cons]
      omega
    rcases change.trail with ⟨entered, rfl, rfl⟩ | ⟨left, same⟩
    · -- the entry is the new one, or it was there before
      cases newer with
      | nil =>
        obtain ⟨⟨rfl, rfl⟩, rfl⟩ : (entered = group ∧ before.current = previous) ∧
            before.trail = older := by
          have parts := List.cons.inj split
          exact ⟨Prod.mk.inj parts.1, parts.2⟩
        exact ⟨before, acts, [], rfl, run, .rest, rfl, rfl⟩
      | cons entry rest => exact later (List.cons.inj split).2
    · have there : before.trail = (left ++ newer) ++ (group, previous) :: older := by
        rw [← same, split, List.append_assoc]
      exact later there

/-- A context at the start of a run has been reached from one without activations, by entering the
initial group if there is one. -/
theorem of_start (groups : GroupTable) (sink : Sink) (location : Location)
    (initialGroup : Option GroupId) :
    Stays 0 { groups, sink, location } (initialGroup.map Act.enter).toList
      (Context.start groups sink location initialGroup) := by
  cases initialGroup with
  | none => exact .rest
  | some group => exact Stays.rest.step (.enter _ group) (Nat.zero_le _)

/-- A body that runs in a group makes a run together with entering the group and finishing it. -/
theorem withGroup {α : Type} {group : GroupId} {body : Context → Except Diagnostic α × Context}
    (enough : floor ≤ start.activations.length)
    (run : Stays floor (start.enter group) acts (body (start.enter group)).2)
    (left : floor ≤ (start.withGroup (m := Id) group body).2.activations.length) :
    Stays floor start (.enter group :: acts ++ [.finish start.activations.length group])
      (start.withGroup (m := Id) group body).2 := by
  have first : Stays floor start [.enter group] (start.enter group) :=
    Stays.rest.step (.enter start group) (Nat.le_succ_of_le enough)
  exact (first.trans run).step (.finish _ _ group _) left

end Stays

end StreamPath
