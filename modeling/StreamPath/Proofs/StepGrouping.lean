import Mathlib.Data.List.Forall2
import StreamPath.Proofs.Quiet

/-!
# Grouping the steps of a path

Two steps in a row can be grouped in two ways. One of them collects all the nodes that the first step
finds and goes through them, the other one takes both steps from each start in turn. What is found
below a node depends on its depth only, so so long as nothing is reported both find the same items in
the same order.

* `Scene.Walks` — what a step finds, start by start and height by height;
* `Forest.gives_step_iff` — a step without a report is such a walk;
* `Scene.walks_walks_iff` — one walk after another is a walk of walks;
* `Forest.gives_step_assoc` — the steps of a path can be grouped either way.
-/

namespace StreamPath

open Run

/-! ## Walks -/

/-- Going through a sequence of live nodes, a step finds what is given at each of its heights in turn.
It finds nothing below attributes. -/
inductive Scene.Walks (scene : Scene) (axis : Axis) (gives : Nat → Sequence → Prop) :
    Sequence → Sequence → Prop
  | nil : Walks scene axis gives [] []
  | entry {depth : Nat} {occurrence : Occurrence} {rest more : Sequence} {parts : List Sequence} :
      scene.stack.isLive (.entry depth occurrence) = true →
      List.Forall₂ gives (scene.heights axis depth) parts → Walks scene axis gives rest more →
      Walks scene axis gives (.node (.entry depth occurrence) :: rest) (parts.flatten ++ more)
  | attr {owner : Occurrence} {index : Nat} {rest more : Sequence} :
      scene.stack.isLive (.attr owner index) = true → Walks scene axis gives rest more →
      Walks scene axis gives (.node (.attr owner index) :: rest) more

namespace Scene

variable {scene : Scene} {axis first second : Axis} {gives : Nat → Sequence → Prop}

/-- A walk goes through the parts of a sequence one after the other. -/
theorem walks_append_iff {starts others found : Sequence} :
    scene.Walks axis gives (starts ++ others) found ↔
      ∃ here more, scene.Walks axis gives starts here ∧ scene.Walks axis gives others more ∧
        found = here ++ more := by
  induction starts generalizing found with
  | nil =>
    constructor
    · intro walks
      exact ⟨[], found, .nil, walks, rfl⟩
    · rintro ⟨_, more, ⟨⟩, walks, rfl⟩
      exact walks
  | cons item rest ih =>
    constructor
    · intro walks
      cases walks with
      | entry live parts walks =>
        obtain ⟨here, more, before, after, rfl⟩ := ih.mp walks
        exact ⟨_, more, .entry live parts before, after, (List.append_assoc _ _ _).symm⟩
      | attr live walks =>
        obtain ⟨here, more, before, after, rfl⟩ := ih.mp walks
        exact ⟨here, more, .attr live before, after, rfl⟩
    · rintro ⟨here, more, before, after, rfl⟩
      cases before with
      | entry live parts before =>
        rw [List.append_assoc]
        exact .entry live parts (ih.mpr ⟨_, more, before, after, rfl⟩)
      | attr live before => exact .attr live (ih.mpr ⟨here, more, before, after, rfl⟩)

variable {last : Nat → Sequence → Prop}

/-- Walking through all that is given at some heights is walking from each height in turn. -/
theorem forall₂_walks_iff {heights : List Nat} {found : Sequence} :
    (∃ parts, List.Forall₂ gives heights parts ∧ scene.Walks second last parts.flatten found) ↔
      ∃ walked, List.Forall₂
          (fun height here => ∃ middle, gives height middle ∧ scene.Walks second last middle here)
          heights walked ∧
        found = walked.flatten := by
  induction heights generalizing found with
  | nil =>
    constructor
    · rintro ⟨_, ⟨⟩, ⟨⟩⟩
      exact ⟨[], .nil, rfl⟩
    · rintro ⟨_, ⟨⟩, rfl⟩
      exact ⟨[], .nil, .nil⟩
  | cons height rest ih =>
    constructor
    · rintro ⟨_, each, walks⟩
      obtain ⟨part, parts, given, givenRest, rfl⟩ := List.forall₂_cons_left_iff.mp each
      obtain ⟨here, more, before, after, rfl⟩ := walks_append_iff.mp walks
      obtain ⟨walked, walkedRest, rfl⟩ := ih.mp ⟨parts, givenRest, after⟩
      exact ⟨here :: walked, .cons ⟨part, given, before⟩ walkedRest, rfl⟩
    · rintro ⟨_, each, rfl⟩
      obtain ⟨here, walked, ⟨part, given, before⟩, walkedRest, rfl⟩ :=
        List.forall₂_cons_left_iff.mp each
      obtain ⟨parts, givenRest, after⟩ := ih.mpr ⟨walked, walkedRest, rfl⟩
      exact ⟨part :: parts, .cons given givenRest,
        walks_append_iff.mpr ⟨here, _, before, after, rfl⟩⟩

/-- One walk after another finds what a walk finds that takes both from each start in turn. -/
theorem walks_walks_iff {starts found : Sequence} :
    (∃ middle, scene.Walks first gives starts middle ∧ scene.Walks second last middle found) ↔
      scene.Walks first
        (fun height here => ∃ middle, gives height middle ∧ scene.Walks second last middle here)
        starts found := by
  induction starts generalizing found with
  | nil =>
    constructor
    · rintro ⟨_, ⟨⟩, ⟨⟩⟩
      exact .nil
    · rintro ⟨⟩
      exact ⟨[], .nil, .nil⟩
  | cons item rest ih =>
    constructor
    · rintro ⟨middle, walks, later⟩
      cases walks with
      | entry live parts walks =>
        obtain ⟨here, more, before, after, rfl⟩ := walks_append_iff.mp later
        obtain ⟨walked, each, rfl⟩ := forall₂_walks_iff.mp ⟨_, parts, before⟩
        exact .entry live each (ih.mp ⟨_, walks, after⟩)
      | attr live walks => exact .attr live (ih.mp ⟨middle, walks, later⟩)
    · intro walks
      cases walks with
      | entry live each walks =>
        obtain ⟨parts, given, before⟩ := forall₂_walks_iff.mpr ⟨_, each, rfl⟩
        obtain ⟨middle, walksRest, after⟩ := ih.mpr walks
        exact ⟨parts.flatten ++ middle, .entry live given walksRest,
          walks_append_iff.mpr ⟨_, _, before, after, rfl⟩⟩
      | attr live walks =>
        obtain ⟨middle, walksRest, after⟩ := ih.mpr walks
        exact ⟨middle, .attr live walksRest, after⟩

end Scene

/-! ## Steps without a report -/

section Steps

variable {forest : Forest} {context : Context} {next : Nat → Run Sequence}
  (repeatable : ∀ height, Repeatable forest context (next height))

include repeatable

theorem Run.Repeatable.atHeights (heights : List Nat) :
    Repeatable forest context (atHeights next heights) := by
  induction heights with
  | nil => exact .pure []
  | cons height rest ih => exact (repeatable height).bind fun here => ih.bind fun more => .pure _

/-- What is given at several heights is given part by part. -/
theorem Run.yields_atHeights_iff {heights : List Nat} {found : Sequence} :
    Yields (Memory.Calm forest context) (atHeights next heights) found ↔
      ∃ parts, List.Forall₂ (fun height => Yields (Memory.Calm forest context) (next height))
        heights parts ∧ found = parts.flatten := by
  induction heights generalizing found with
  | nil =>
    refine yields_pure_iff.trans ?_
    constructor
    · rintro rfl
      exact ⟨[], .nil, rfl⟩
    · rintro ⟨_, ⟨⟩, rfl⟩
      rfl
  | cons height rest ih =>
    refine (yields_both_iff (repeatable height) (.atHeights repeatable rest)).trans ?_
    constructor
    · rintro ⟨here, more, given, givenRest, rfl⟩
      obtain ⟨parts, each, rfl⟩ := ih.mp givenRest
      exact ⟨here :: parts, .cons given each, rfl⟩
    · rintro ⟨_, each, rfl⟩
      obtain ⟨here, parts, given, givenRest, rfl⟩ := List.forall₂_cons_left_iff.mp each
      exact ⟨here, _, given, ih.mpr ⟨parts, givenRest, rfl⟩, rfl⟩

theorem Run.Repeatable.stepFrom (axis : Axis) (starts : Sequence) :
    Repeatable forest context (context.toScene.stepFrom axis next starts) := by
  have refuse : ∀ cause, Repeatable forest context
      (Run.report context.toScene cause >>= fun _ => (Pure.pure none : Run (Option Sequence))) :=
    fun cause => (Repeatable.report cause).bind fun _ => .pure none
  induction starts with
  | nil => exact .pure _
  | cons item rest ih =>
    cases item with
    | node node =>
      have append : ∀ here : Sequence, Repeatable forest context
          (context.toScene.stepFrom axis next rest >>= fun more =>
            Pure.pure (more.map (here ++ ·))) := fun here => ih.bind fun more => .pure _
      unfold Scene.stepFrom
      split
      · cases node.depth? with
        | none => exact (Repeatable.pure []).bind append
        | some depth => exact (Repeatable.atHeights repeatable _).bind append
      · exact refuse _
    | boolean | number | string => exact refuse _

/-- A step gives something without a report exactly if it is found on a walk. -/
theorem Run.yields_stepFrom_iff {axis : Axis} {starts : Sequence} {found? : Option Sequence} :
    Yields (Memory.Calm forest context) (context.toScene.stepFrom axis next starts) found? ↔
      ∃ found, found? = some found ∧ context.toScene.Walks axis
        (fun height => Yields (Memory.Calm forest context) (next height)) starts found := by
  induction starts generalizing found? with
  | nil =>
    refine yields_pure_iff.trans ?_
    constructor
    · rintro rfl
      exact ⟨[], rfl, .nil⟩
    · rintro ⟨_, rfl, ⟨⟩⟩
      rfl
  | cons item rest ih =>
    have others := Repeatable.stepFrom repeatable axis rest
    have refused : ∀ cause, ¬Yields (Memory.Calm forest context)
        (report context.toScene cause >>= fun _ => pure none) found? :=
      fun cause => not_yields_report fun _ => .pure none
    cases item with
    | boolean | number | string =>
      constructor
      · exact fun yields => absurd yields (refused _)
      · rintro ⟨_, _, ⟨⟩⟩
    | node node =>
      unfold Scene.stepFrom
      by_cases live : context.stack.isLive node = true
      · rw [if_pos live]
        cases node with
        | entry depth occurrence =>
          refine (yields_both_iff (.atHeights repeatable _) others).trans ?_
          constructor
          · rintro ⟨part, more?, given, stepped, rfl⟩
            obtain ⟨more, rfl, walks⟩ := ih.mp stepped
            obtain ⟨parts, each, rfl⟩ := (yields_atHeights_iff repeatable).mp given
            exact ⟨_, rfl, .entry live each walks⟩
          · rintro ⟨_, rfl, walks⟩
            cases walks with
            | entry _ each walks =>
              exact ⟨_, _, (yields_atHeights_iff repeatable).mpr ⟨_, each, rfl⟩,
                ih.mpr ⟨_, rfl, walks⟩, rfl⟩
        | attr owner index =>
          refine (yields_both_iff (.pure []) others).trans ?_
          constructor
          · rintro ⟨part, more?, given, stepped, rfl⟩
            obtain ⟨more, rfl, walks⟩ := ih.mp stepped
            cases yields_pure_iff.mp given
            exact ⟨more, rfl, .attr live walks⟩
          · rintro ⟨_, rfl, walks⟩
            cases walks with
            | attr _ walks => exact ⟨[], _, .pure [], ih.mpr ⟨_, rfl, walks⟩, rfl⟩
      · rw [if_neg live]
        constructor
        · exact fun yields => absurd yields (refused _)
        · rintro ⟨_, rfl, walks⟩
          cases walks with
          | entry isLive => exact absurd isLive live
          | attr isLive => exact absurd isLive live

end Steps

namespace Forest

variable {forest : Forest} {context : Context}

/-- A step without a report finds what is on a walk from a value of its base, where its last part is
asked at each height. -/
theorem gives_step_iff (founded : forest.WellFounded) {id base next : NodeId} {axis : Axis}
    (found : forest.form? id = some (.step axis base next)) {top : Nat} {value : Sequence} :
    forest.Gives context top id value ↔ ∃ starts, forest.Gives context top base starts ∧
      context.toScene.Walks axis (fun height => forest.Gives context height next) starts value := by
  have repeatable := fun height => forest.repeatable_evaluate context next height
  have steps := fun starts => Repeatable.stepFrom repeatable axis starts
  have gives : (fun height => forest.Gives context height next) = fun height =>
      Yields (Memory.Calm forest context)
        ((forest.expression next).evaluate forest.library context.toScene height) :=
    funext fun _ => funext fun _ => propext gives_iff_yields
  rw [gives_iff_yields, expression_of_step founded found, gives]
  simp only [gives_iff_yields]
  refine (yields_bind_iff (forest.repeatable_evaluate context base top) fun starts =>
    (steps starts).bind fun found? => .pure _).trans ?_
  constructor
  · rintro ⟨starts, given, later⟩
    obtain ⟨found?, stepped, isValue⟩ := (yields_bind_iff (steps starts) fun _ => .pure _).mp later
    obtain ⟨more, rfl, walks⟩ := (yields_stepFrom_iff repeatable).mp stepped
    cases yields_pure_iff.mp isValue
    exact ⟨starts, given, walks⟩
  · rintro ⟨starts, given, walks⟩
    have stepped := (yields_stepFrom_iff repeatable).mpr ⟨value, rfl, walks⟩
    exact ⟨starts, given, stepped.bind (.pure _)⟩

/-- Two steps in a row give the same items in the same order, whether the first two operands are
grouped or the last two, if either grouping gives anything without a report. -/
theorem gives_step_assoc (founded : forest.WellFounded) (context : Context) (top : Nat)
    {first second : Axis} {a b c ab bc left right : NodeId}
    (isAB : forest.form? ab = some (.step first a b))
    (isLeft : forest.form? left = some (.step second ab c))
    (isBC : forest.form? bc = some (.step second b c))
    (isRight : forest.form? right = some (.step first a bc)) (value : Sequence) :
    forest.Gives context top left value ↔ forest.Gives context top right value := by
  have inner : (fun height => forest.Gives context height bc) = fun height here =>
      ∃ middle, forest.Gives context height b middle ∧ context.toScene.Walks second
        (fun height => forest.Gives context height c) middle here := by
    funext height here
    exact propext (gives_step_iff founded isBC)
  rw [gives_step_iff founded isLeft, gives_step_iff founded isRight, inner]
  constructor
  · rintro ⟨middle, given, walks⟩
    obtain ⟨starts, givenA, walksB⟩ := (gives_step_iff founded isAB).mp given
    exact ⟨starts, givenA, Scene.walks_walks_iff.mp ⟨middle, walksB, walks⟩⟩
  · rintro ⟨starts, givenA, walks⟩
    obtain ⟨middle, walksB, walksC⟩ := Scene.walks_walks_iff.mpr walks
    exact ⟨middle, (gives_step_iff founded isAB).mpr ⟨starts, givenA, walksB⟩, walksC⟩

/-- The elements below the elements below the document, each as often as there are elements around it:
found with either grouping. -/
theorem gives_elements_below_elements :
    let forest := [.root, .nodeTest .anyElement, .nodeTest .anyNode, .step .descendant ⟨0⟩ ⟨1⟩,
      .step .descendant ⟨3⟩ ⟨2⟩, .step .descendant ⟨1⟩ ⟨2⟩, .step .descendant ⟨0⟩ ⟨5⟩].foldl
        (fun forest form => (Forest.add forest form).2) Forest.empty
    let stack := (((Ancestors.empty.push ⟨.document, []⟩).push
      ⟨.element (.unqualified "a"), []⟩).push
      ⟨.element (.unqualified "b"), []⟩).push ⟨.element (.unqualified "c"), []⟩
    let context : Context := { stack }
    let value := context.entryAt 2 ++ context.entryAt 3 ++ context.entryAt 3
    forest.WellFounded ∧ forest.Gives context 4 ⟨4⟩ value ∧ forest.Gives context 4 ⟨6⟩ value ∧
      value.length = 3 := by
  intro forest stack context value
  have founded : forest.WellFounded := by
    refine Forest.wellFounded_add (Forest.wellFounded_add (Forest.wellFounded_add
      (Forest.wellFounded_add (Forest.wellFounded_add (Forest.wellFounded_add
        (Forest.wellFounded_add Forest.wellFounded_empty ?_) ?_) ?_) ?_) ?_) ?_) ?_ <;> decide
  have left : forest.Gives context 4 ⟨4⟩ value := ⟨context, rfl, rfl⟩
  have isAB : forest.form? ⟨3⟩ = some (.step .descendant ⟨0⟩ ⟨1⟩) := rfl
  have isBC : forest.form? ⟨5⟩ = some (.step .descendant ⟨1⟩ ⟨2⟩) := rfl
  have alike : forest.Gives context 4 ⟨4⟩ value ↔ forest.Gives context 4 ⟨6⟩ value :=
    gives_step_assoc founded context 4 isAB rfl isBC rfl value
  exact ⟨founded, left, alike.mp left, rfl⟩

end Forest

end StreamPath
