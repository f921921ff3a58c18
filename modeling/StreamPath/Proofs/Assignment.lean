import StreamPath.Proofs.Ledger

/-!
# Assignments

An assignment looks a variable up as a reading does, and binds it anew where the search leads: in the
rule, or in the newest activation of a group. One binding gets another value; the variables that are
bound anywhere stay the same, so every search leads where it led before, and a reading finds the new
value.

* `Bindings.Rebound` — bindings that differ in one value;
* `Scene.findScope_congr` — what a search depends on;
* `Forest.evaluate_of_valueOf?` — a reference without a remembered scope has the value that is found;
* `Context.assign_rebinds` — what an assignment changes and what it leaves as it is.
-/

namespace StreamPath

/-- The second bindings give a variable that the first ones bind another value, and are the same
otherwise. -/
structure Bindings.Rebound (name : Name) (value : Sequence) (before after : Bindings) : Prop where
  bound : before.contains name = true
  value : after.find? name = some value
  others : ∀ other, other ≠ name → after.find? other = before.find? other
  keys : after.keys = before.keys

theorem Bindings.rebound_insert {bindings : Bindings} {name : Name} (value : Sequence)
    (bound : bindings.contains name = true) :
    Bindings.Rebound name value bindings (bindings.insert name value) where
  bound := bound
  value := Table.find?_insert_self bindings name value
  others := fun _ differs => Table.find?_insert_of_ne bindings value (Ne.symm differs)
  keys := by
    rw [Table.keys_insert, if_pos]
    exact (Table.contains_iff_mem_keys bindings name).mp bound

namespace Scene

variable {scene : Scene} {name : Name}

/-- The search stops at the rule if the rule binds the variable. -/
theorem findScope_eq_rule_iff :
    scene.findScope name = some .rule ↔ scene.locals.contains name = true := by
  unfold findScope
  cases bound : scene.locals.contains name with
  | true => simp
  | false =>
    rw [if_neg (by simp)]
    constructor
    · intro found
      obtain ⟨start, -, found⟩ := Option.bind_eq_some_iff.mp found
      obtain ⟨group, -, same⟩ := Option.map_eq_some_iff.mp found
      cases same
    · intro absurd
      cases absurd

/-- Where a search leads depends on the line of the current group and on which names are bound in the
rule and in the newest activation of each group. -/
theorem findScope_congr {other : Scene} (current : other.current = scene.current)
    (groups : other.groups = scene.groups)
    (locals : other.locals.contains name = scene.locals.contains name)
    (binds : ∀ group, (other.boundIn? group name).isSome = (scene.boundIn? group name).isSome) :
    other.findScope name = scene.findScope name := by
  unfold findScope
  simp only [current, groups, locals, any_contains_iff, binds]

end Scene

/-- A reference for which no scope is remembered has the value that the search leads to. -/
theorem Forest.evaluate_of_valueOf? {forest : Forest} {context : Context} {id : NodeId}
    {name : Name} {value : Sequence} (refers : forest.Refers id name)
    (unseen : context.scopes.find? id = none) (found : context.valueOf? name = some value)
    (top : Nat) : (forest.evaluate id context top).1 = .ok value := by
  obtain ⟨final, read, -⟩ := context.readVariable_eq id name context.toMemory
  have consulted : context.consulted context.toMemory id name = context.foundGroup? name := by
    unfold Scene.consulted
    rw [unseen]
    rfl
  rw [consulted, ← Scene.valueOf?_eq, found] at read
  rw [evaluate_of_read_some refers top read]

namespace Context

variable {context : Context} {name : Name} {group : GroupId} (value : Sequence)

/-- A group to which the search leads has a newest frame that binds the variable. -/
theorem exists_frame (found : context.findScope name = some (.group group)) :
    ∃ newest older, framesOf group context.activations = newest :: older ∧
      newest.contains name = true := by
  obtain ⟨-, _, _, _, _, _, ⟨former, bound⟩, -⟩ := Scene.findScope_eq_group_iff.mp found
  obtain ⟨newest, isFrame, isBound⟩ := Option.bind_eq_some_iff.mp bound
  rw [frame?_eq_head?] at isFrame
  obtain ⟨older, frames⟩ := List.head?_eq_some_iff.mp isFrame
  refine ⟨newest, older, frames, ?_⟩
  rw [Table.contains, isBound]
  rfl

/-- An assignment to a variable that is found in a group changes the newest frame of this group, and
no other frame. -/
theorem rebound_of_group (found : context.findScope name = some (.group group)) :
    let after := (context.attempt (context.assign name value)).2
    (∃ newest rebound older, framesOf group context.activations = newest :: older ∧
      framesOf group after.activations = rebound :: older ∧
      Bindings.Rebound name value newest rebound) ∧
    ∀ other, other ≠ group →
      framesOf other after.activations = framesOf other context.activations := by
  intro after
  have assigned : after.activations =
      updateFrame group (fun bindings => bindings.insert name value) context.activations :=
    activations_assign value found
  obtain ⟨newest, older, frames, bound⟩ := exists_frame found
  rw [assigned]
  constructor
  · refine ⟨newest, newest.insert name value, older, frames, ?_,
      Bindings.rebound_insert value bound⟩
    rw [framesOf_updateFrame, if_pos rfl, frames]
    rfl
  · intro other differs
    rw [framesOf_updateFrame, if_neg differs]

/-- After an assignment every search leads where it led before. -/
theorem findScope_attempt_assign (context : Context) (name : Name) (value : Sequence)
    (other : Name) :
    (context.attempt (context.assign name value)).2.findScope other = context.findScope other := by
  cases found : context.findScope name with
  | none =>
    rw [attempt_assign_of_none value found]
    cases context.sink.respond ⟨.undeclaredVariable name, context.location⟩ <;> rfl
  | some scope =>
    cases scope with
    | rule =>
      rw [attempt_assign_of_rule value found]
      have bound := Scene.findScope_eq_rule_iff.mp found
      refine Scene.findScope_congr rfl rfl ?_ fun _ => rfl
      show (context.locals.insert name value).contains other = _
      rw [Table.contains_insert]
      by_cases same : name = other
      · subst same
        simp [bound]
      · simp [same]
    | group group =>
      rw [attempt_assign_of_group value found]
      obtain ⟨-, _, _, _, _, _, bound, -⟩ := Scene.findScope_eq_group_iff.mp found
      refine Scene.findScope_congr rfl rfl rfl fun asked => ?_
      exact Operation.isSome_boundIn?_rebind rfl (Option.isSome_iff_exists.mpr bound) asked other

/-- After an assignment to a variable that is bound somewhere, a reading finds the new value. -/
theorem valueOf?_attempt_assign {scope : Scope} (found : context.findScope name = some scope) :
    (context.attempt (context.assign name value)).2.valueOf? name = some value := by
  unfold Scene.valueOf?
  rw [findScope_attempt_assign, found]
  cases scope with
  | rule =>
    rw [attempt_assign_of_rule value found]
    exact Table.find?_insert_self _ _ _
  | group group =>
    obtain ⟨newest, older, frames, -⟩ := exists_frame found
    show Scene.boundIn? _ group name = _
    unfold Scene.boundIn?
    rw [frame?_eq_head?, attempt_assign_of_group value found, framesOf_updateFrame, if_pos rfl,
      frames]
    exact Table.find?_insert_self _ _ _

/-- An assignment to a variable that the rule binds changes the binding of the rule alone. One to a
variable that is found in a group changes its binding in the newest frame of this group, and leaves
the older frames of the group, the frames of all other groups and the trail as they are. One to a
variable that is found nowhere changes nothing, and the variable is reported once as undeclared: the
sink lets the run go on, with the report on record, or ends it. In every case all searches lead where
they led before; and a reference to the variable without a remembered scope has the new value, unless
the variable was found nowhere. -/
theorem assign_rebinds (context : Context) (name : Name) (value : Sequence) :
    let done := context.attempt (context.assign name value)
    (context.findScope name = some .rule →
      done.1 = .ok () ∧ done.2 = { context with locals := done.2.locals } ∧
      Bindings.Rebound name value context.locals done.2.locals) ∧
    (∀ group, context.findScope name = some (.group group) →
      done.1 = .ok () ∧ done.2 = { context with activations := done.2.activations } ∧
      done.2.trail = context.trail ∧
      (∃ newest rebound older, framesOf group context.activations = newest :: older ∧
        framesOf group done.2.activations = rebound :: older ∧
        Bindings.Rebound name value newest rebound) ∧
      ∀ other, other ≠ group →
        framesOf other done.2.activations = framesOf other context.activations) ∧
    (context.findScope name = none →
      let undeclared : Diagnostic := ⟨.undeclaredVariable name, context.location⟩
      undeclared.cause.code.text = "err:XPST0008" ∧
      done = match context.sink.respond undeclared with
        | .ok () => (.ok (), { context with reported := context.reported ++ [undeclared] })
        | .error refused => (.error refused, context)) ∧
    (∀ other, done.2.findScope other = context.findScope other) ∧
    ∀ scope, context.findScope name = some scope →
      ∀ (forest : Forest) (id : NodeId), forest.Refers id name →
        context.scopes.find? id = none → ∀ top, (forest.evaluate id done.2 top).1 = .ok value := by
  intro done
  refine ⟨fun found => ?_, fun group found => ?_, fun found => ⟨rfl, attempt_assign_of_none value found⟩,
    findScope_attempt_assign context name value, fun scope found forest id refers unseen top => ?_⟩
  · have assigned : done = _ := attempt_assign_of_rule value found
    rw [assigned]
    exact ⟨rfl, rfl, Bindings.rebound_insert value (Scene.findScope_eq_rule_iff.mp found)⟩
  · have frames := rebound_of_group value found
    have assigned : done = _ := attempt_assign_of_group value found
    refine ⟨by rw [assigned], by rw [assigned], ?_, frames⟩
    rw [assigned]
    exact trail_updateFrame _ _ _
  · refine Forest.evaluate_of_valueOf? refers ?_ (valueOf?_attempt_assign value found) top
    rw [attempt_assign_frame]
    exact unseen

end Context

namespace Reentry

open Shadowing

/-- Where a group is active twice and a group beside it is active too, all with the same variable, an
assignment reaches the newer activation of the group alone, and a reference reads the new value. -/
theorem assign_inside :
    let context := { inside with
      activations := ⟨⟨3⟩, some ⟨2⟩, Table.empty.insert name (.ofString "beside")⟩ ::
        inside.activations }
    let done := context.attempt (context.assign name (.ofString "new"))
    (∃ newest, framesOf ⟨1⟩ done.2.activations =
        [newest, Table.empty.insert name (.ofString "outer")] ∧
      newest.find? name = some (.ofString "new")) ∧
    framesOf ⟨3⟩ done.2.activations = [Table.empty.insert name (.ofString "beside")] ∧
    done.2.findScope name = some (.group ⟨1⟩) ∧
    (forest.evaluate ⟨0⟩ done.2 0).1 = .ok (.ofString "new") := by
  intro context done
  obtain ⟨-, inGroup, -, searches, reads⟩ := context.assign_rebinds name (.ofString "new")
  have found : context.findScope name = some (.group ⟨1⟩) := rfl
  obtain ⟨-, -, -, ⟨_, rebound, _, before, after, changed⟩, others⟩ := inGroup ⟨1⟩ found
  cases before
  exact ⟨⟨rebound, after, changed.value⟩, others ⟨3⟩ (by decide), (searches name).trans found,
    reads _ found forest ⟨0⟩ rfl rfl 0⟩

end Reentry

end StreamPath
