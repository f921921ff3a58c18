import StreamPath.Proofs.Reach
import StreamPath.Proofs.Scoping

/-!
# What a run leaves behind

Evaluating, matching and selecting read a context and hardly change it. What they read stays as it
is, whether they end well or not. The memory keeps every scope that it remembered, and gains scopes
only for references below the nodes that were run, each of them where the search leads from the
current group. The position comes back to where it was, whatever filters did with it in between,
unless a match was asked to move it or the run failed.

* `Untouched` — what is left of a context after some nodes were run in it;
* `AskedUntil` — the rules whose patterns a selection runs;
* `Forest.untouched_runs` — it is left by every evaluation, match and selection.
-/

namespace StreamPath

open Run

namespace Forest

variable {forest : Forest}

/-! ## References -/

/-- Every reference in the expression of a node is below the node. -/
theorem below_of_mem_references (forest : Forest) (id : NodeId) :
    ∀ entry ∈ (forest.expression id).references, forest.Below id entry.1 :=
  forest.references_induction (P := fun id entry => forest.Below id entry.1)
    (fun _ _ _ => .refl) (fun _ _ _ _ found isPart below =>
      (below_of_mem_parts found isPart).trans below) id

/-- Some node refers to a variable and is below one of the nodes that are run. -/
def RefersBelow (forest : Forest) (asked : NodeId → Prop) (id : NodeId) (name : Name) : Prop :=
  forest.Refers id name ∧ ∃ node, asked node ∧ forest.Below node id

theorem refersBelow_of_mem_references {asked : NodeId → Prop} {node : NodeId} (isAsked : asked node) :
    ∀ entry ∈ (forest.expression node).references, forest.RefersBelow asked entry.1 entry.2 := by
  intro entry mem
  exact ⟨forest.refers_of_mem_references node entry mem, node, isAsked,
    forest.below_of_mem_references node entry mem⟩

end Forest

/-! ## What is left of a context -/

/-- All that is read of a context is as before: the open nodes with their counts, the groups and
their bindings, the activations, the current group, the location. Every remembered scope is still
remembered. A scope is remembered in addition only for a reference below the nodes that were run, and
it is where the search finds its variable. -/
structure Untouched (forest : Forest) (asked : NodeId → Prop) (context after : Context) : Prop where
  scene : after.toScene = context.toScene
  kept : ∀ id group, context.scopes.find? id = some group → after.scopes.find? id = some group
  gained : ∀ id group, context.scopes.find? id = none → after.scopes.find? id = some group →
    ∃ name, forest.RefersBelow asked id name ∧ context.findScope name = some (.group group)

section Runs

variable (forest : Forest) (context : Context) (top : Nat)

/-- What a run that only adds scopes leaves of a context. -/
theorem Context.untouched_run {α : Type} {asked : NodeId → Prop} (computation : Scene → Run α)
    (agree : Agree (fun m n => m = n ∧
        Memory.Grown context.toScene (forest.RefersBelow asked) context.toMemory m)
      (computation context.toScene) (computation context.toScene)) :
    Untouched forest asked context (context.run computation).2 := by
  have grown := Context.keeps_run (Keeps.of_agree agree) (Memory.Grown.refl context.toMemory)
  refine ⟨?_, fun id group remembered => ?_, fun id group unseen remembered => ?_⟩
  · cases ended : computation context.toScene context.toMemory with
    | ok value memory => rw [run_of_ok ended]
    | error failure memory => rw [run_of_error ended]
  · rcases grown id with same | ⟨unseen, -⟩
    · rw [same, remembered]
    · rw [remembered] at unseen
      cases unseen
  · rcases grown id with same | ⟨-, name, found, refers, -, isFound, now⟩
    · rw [same, unseen] at remembered
      cases remembered
    · rw [now] at remembered
      cases remembered
      exact ⟨name, refers, Scene.foundGroup?_eq_some.mp isFound⟩

theorem Forest.untouched_evaluate (node : NodeId) :
    Untouched forest (· = node) context (forest.evaluate node context top).2 := by
  refine context.untouched_run forest _ ?_
  apply Expr.agree_evaluate (Memory.simulation_grown context.toMemory)
  exact forest.refersBelow_of_mem_references rfl

theorem Forest.untouched_accepts (node : NodeId) (rank : Bool) :
    Untouched forest (· = node) context (forest.accepts node context top rank).2 := by
  refine context.untouched_run forest _ ?_
  apply Expr.agree_accepts (Memory.simulation_grown context.toMemory)
  exact forest.refersBelow_of_mem_references rfl

end Runs

/-! ## Selections -/

/-- A selection asks candidates in their order, and none after the one that it chooses. -/
structure AskedUntil (candidates asked : List Rule) (answer : Except Diagnostic (Option Rule)) :
    Prop where
  inOrder : asked <+: candidates
  chosen : ∀ rule, answer = .ok (some rule) → asked.getLast? = some rule

namespace RuleTable

variable (forest : Forest) (context : Context) (top : Nat)

/-- A selection comes to the same if it is made among the rules that it asks. -/
theorem exists_asked (scene : Scene) (saved : Nat) (rules : List Rule) (memory : Memory) :
    ∃ asked, asked <+: rules ∧ firstAccepted forest scene top saved asked memory =
        firstAccepted forest scene top saved rules memory ∧
      ∀ rule final, firstAccepted forest scene top saved rules memory = .ok (some rule) final →
        asked.getLast? = some rule := by
  induction rules generalizing memory with
  | nil => exact ⟨[], List.prefix_refl [], rfl, nofun⟩
  | cons rule rest ih =>
    have only : [rule] <+: rule :: rest := ⟨rest, rfl⟩
    simp only [firstAccepted, bind_apply, setPosition_apply]
    cases answered : (forest.expression rule.pattern).accepts forest.library scene top true
        { memory with position := saved } with
    | error failure final =>
      refine ⟨[rule], only, ?_, nofun⟩
      rw [firstAccepted, bind_apply, setPosition_apply]
      simp only [bind_apply, answered]
    | ok matched final =>
      cases matched with
      | true =>
        refine ⟨[rule], only, ?_, ?_⟩
        · rw [firstAccepted, bind_apply, setPosition_apply]
          simp only [bind_apply, answered, if_true]
        · rintro _ _ ⟨⟩
          rfl
      | false =>
        obtain ⟨asked, inOrder, same, chosen⟩ := ih final
        refine ⟨rule :: asked, List.cons_prefix_cons.mpr ⟨rfl, inOrder⟩, ?_, ?_⟩
        · rw [firstAccepted, bind_apply, setPosition_apply]
          simpa only [bind_apply, answered, Bool.false_eq_true, if_false] using same
        · intro other last ended
          rw [List.getLast?_cons, chosen other last ended]
          rfl

/-- The nodes that a selection runs are the patterns of the rules that it asks. -/
theorem untouched_bestAmong (rules : RuleTable) (visible : Rule → Bool) :
    ∃ asked, AskedUntil (rules.rules.filter visible) asked
        (rules.bestAmong visible forest context top).1 ∧
      Untouched forest (fun node => ∃ rule ∈ asked, rule.pattern = node) context
        (rules.bestAmong visible forest context top).2 := by
  obtain ⟨asked, inOrder, same, chosen⟩ := exists_asked forest top context.toScene
    context.position (rules.rules.filter visible) context.toMemory
  have run : rules.bestAmong visible forest context top = context.run fun scene =>
      firstAccepted forest scene top context.position asked :=
    Context.run_congr same.symm
  refine ⟨asked, ⟨inOrder, ?_⟩, ?_⟩
  · intro rule answered
    obtain ⟨final, ended⟩ := Context.exists_of_run_ok answered
    exact chosen rule final ended
  · rw [run]
    refine context.untouched_run forest _ ?_
    apply (Memory.simulation_grown context.toMemory).lockstep.firstAccepted
    intro rule mem
    exact forest.refersBelow_of_mem_references ⟨rule, mem, rfl⟩

end RuleTable

/-- Evaluations, matches and selections leave a context untouched, whether they end well or not. One
that ends well also gives the position back, unless it is a match that was asked to move it or a
selection. -/
theorem Forest.untouched_runs (forest : Forest) (context : Context) (top : Nat) :
    (∀ node, Untouched forest (· = node) context (forest.evaluate node context top).2 ∧
      ∀ value, (forest.evaluate node context top).1 = .ok value →
        (forest.evaluate node context top).2.position = context.position) ∧
    (∀ node, (∀ rank,
        Untouched forest (· = node) context (forest.accepts node context top rank).2) ∧
      ∀ answer, (forest.accepts node context top false).1 = .ok answer →
        (forest.accepts node context top false).2.position = context.position) ∧
    ∀ rules : RuleTable,
      (∃ asked, AskedUntil rules.rules asked (rules.best forest context top).1 ∧
        Untouched forest (fun node => ∃ rule ∈ asked, rule.pattern = node) context
          (rules.best forest context top).2) ∧
      ∀ viewpoint, ∃ asked,
        AskedUntil (rules.rules.filter fun rule =>
            RuleTable.isVisible context.groups viewpoint rule.group) asked
          (rules.bestVisible viewpoint forest context top).1 ∧
        Untouched forest (fun node => ∃ rule ∈ asked, rule.pattern = node) context
          (rules.bestVisible viewpoint forest context top).2 := by
  refine ⟨?_, ?_, ?_⟩
  · intro node
    refine ⟨forest.untouched_evaluate context top node, ?_⟩
    intro value ended
    obtain ⟨memory, ended⟩ := Context.exists_of_run_ok ended
    have restored := Expr.restores_evaluate forest.library context.toScene
      (forest.expression node) top context.toMemory value memory ended
    rw [evaluate, Context.run_of_ok ended]
    exact restored
  · intro node
    refine ⟨forest.untouched_accepts context top node, ?_⟩
    intro answer ended
    obtain ⟨memory, ended⟩ := Context.exists_of_run_ok ended
    have restored := Expr.restores_accepts forest.library context.toScene
      (forest.expression node) top context.toMemory answer memory ended
    rw [accepts, Context.run_of_ok ended]
    exact restored
  · intro rules
    constructor
    · have best := rules.untouched_bestAmong forest context top fun _ => true
      rwa [List.filter_true] at best
    · intro viewpoint
      exact rules.untouched_bestAmong forest context top _

/-- A match asks a filter at the second place, where its condition reads a variable of the group, and
comes back from there. The scope of the variable is remembered. -/
theorem Forest.untouched_filter :
    let forest := ((Shadowing.forest.add (.nodeTest .anyNode)).2.add (.filter ⟨1⟩ ⟨0⟩)).2
    let stack := (((Ancestors.empty.push ⟨.document, []⟩).push ⟨.text "a", []⟩).pop).push
      ⟨.text "b", []⟩
    let context : Context := { Shadowing.declared with stack, position := 7 }
    (forest.accepts ⟨2⟩ context 2 true).2.position = 2 ∧
      (forest.accepts ⟨2⟩ context 2 false).1 = .ok true ∧
      (forest.accepts ⟨2⟩ context 2 false).2.position = 7 ∧
      (forest.accepts ⟨2⟩ context 2 false).2.scopes.find? ⟨0⟩ = some ⟨1⟩ ∧
      ∃ name, forest.RefersBelow (· = ⟨2⟩) ⟨0⟩ name ∧
        context.findScope name = some (.group ⟨1⟩) := by
  intro forest stack context
  have runs := forest.untouched_runs context 2
  have matched : (forest.accepts ⟨2⟩ context 2 false).1 = .ok true := rfl
  have remembered : (forest.accepts ⟨2⟩ context 2 false).2.scopes.find? ⟨0⟩ = some ⟨1⟩ := rfl
  obtain ⟨untouched, restored⟩ := runs.2.1 ⟨2⟩
  exact ⟨rfl, matched, restored true matched, remembered,
    (untouched false).gained ⟨0⟩ ⟨1⟩ rfl remembered⟩

end StreamPath
