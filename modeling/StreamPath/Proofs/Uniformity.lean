import Mathlib.Data.List.Find
import StreamPath.Proofs.Compilation
import StreamPath.Proofs.OpenValues

/-!
# Constants are the same everywhere

What is computed for a constant expression depends on the place of the instruction and on the sink, to
which faults are reported, and on nothing else that a run can see or change, unless a value with a
node in it is stored in the expression: whether the node is still open shows. Then at least scenes
where the same stored nodes are open agree.

* `Scene.Alike` — scenes that faults and certain nodes cannot tell apart;
* `Uniform` — a computation that has one outcome on all such scenes;
* `Expr.Constant.uniform` — constant expressions are such computations;
* `Forest.evaluate_constant` — so the flag of a node keeps what it promises.
-/

namespace StreamPath

open Run

/-- All nodes of a value are among certain ones. -/
def Sequence.Over (good : Node → Prop) (items : Sequence) : Prop := ∀ node ∈ items.nodes, good node

theorem Sequence.Over.append {good : Node → Prop} {items more : Sequence} (first : items.Over good)
    (second : more.Over good) : Sequence.Over good (items ++ more) := by
  unfold Sequence.Over
  rw [Sequence.nodes_append, List.forall_mem_append]
  exact ⟨first, second⟩

/-! ## Uniform computations -/

/-- Faults become the same on two scenes, and of certain nodes the same ones are open. -/
structure Scene.Alike (good : Node → Prop) (reference scene : Scene) : Prop where
  location : scene.location = reference.location
  respond : scene.sink.respond = reference.sink.respond
  live : ∀ node, good node → scene.stack.isLive node = reference.stack.isLive node

/-- How a run ends that comes to an outcome with some further reports and changes nothing else. -/
def Memory.ended {α : Type} (memory : Memory) (reports : List Diagnostic) :
    Except Diagnostic α → EStateM.Result Diagnostic Memory α
  | .ok a => .ok a { memory with reported := memory.reported ++ reports }
  | .error failure => .error failure { memory with reported := memory.reported ++ reports }

/-- On all scenes that are like a given one, at every height and from every memory, a computation
comes to the same outcome with the same reports. A value that comes out has a property. -/
def Uniform {α : Type} (reference : Scene) (good : Node → Prop) (holds : α → Prop)
    (computation : Scene → Nat → Run α) : Prop :=
  ∃ (outcome : Except Diagnostic α) (reports : List Diagnostic),
    (∀ a, outcome = .ok a → holds a) ∧
      ∀ scene, reference.Alike good scene → ∀ top memory,
        computation scene top memory = memory.ended reports outcome

namespace Uniform

variable {α β : Type} {reference : Scene} {good : Node → Prop} {holds : α → Prop}
  {holds' : β → Prop}

/-- Only scenes that are like the given one matter. -/
theorem congr {first second : Scene → Nat → Run α}
    (same : ∀ scene, reference.Alike good scene → ∀ top, first scene top = second scene top)
    (uniform : Uniform reference good holds second) : Uniform reference good holds first := by
  obtain ⟨outcome, reports, isGood, ends⟩ := uniform
  refine ⟨outcome, reports, isGood, fun scene alike top memory => ?_⟩
  rw [same scene alike, ends scene alike]

theorem pure {a : α} (isGood : holds a) :
    Uniform reference good holds fun _ _ => (Pure.pure a : Run α) := by
  refine ⟨.ok a, [], fun b same => by cases same; exact isGood, fun _ _ _ memory => ?_⟩
  rw [Memory.ended, List.append_nil]
  rfl

theorem bind {first : Scene → Nat → Run α} {next : α → Scene → Nat → Run β}
    (head : Uniform reference good holds first)
    (tail : ∀ a, holds a → Uniform reference good holds' (next a)) :
    Uniform reference good holds' fun scene top => first scene top >>= fun a => next a scene top := by
  obtain ⟨outcome, reports, isGood, ends⟩ := head
  cases outcome with
  | error failure =>
    refine ⟨.error failure, reports, nofun, fun scene alike top memory => ?_⟩
    show (first scene top >>= fun a => next a scene top) memory = _
    rw [bind_apply, ends scene alike]
    rfl
  | ok a =>
    obtain ⟨last, more, isGood', ends'⟩ := tail a (isGood a rfl)
    refine ⟨last, reports ++ more, isGood', fun scene alike top memory => ?_⟩
    show (first scene top >>= fun a => next a scene top) memory = _
    rw [bind_apply, ends scene alike]
    refine (ends' scene alike top _).trans ?_
    cases last <;> simp only [Memory.ended, List.append_assoc]

theorem ite {first second : Scene → Nat → Run α} (condition : Prop) [Decidable condition]
    (yes : Uniform reference good holds first) (no : Uniform reference good holds second) :
    Uniform reference good holds fun scene top =>
      if condition then first scene top else second scene top := by
  by_cases isTrue : condition
  · simpa only [if_pos isTrue] using yes
  · simpa only [if_neg isTrue] using no

theorem report (cause : Cause) :
    Uniform reference good (fun _ => True) fun scene _ => Run.report scene cause := by
  have judged : ∀ scene : Scene, reference.Alike good scene →
      scene.judge cause = reference.judge cause := fun scene alike =>
    Scene.judge_congr alike.location alike.respond cause
  cases verdict : reference.judge cause with
  | ok diagnostic =>
    refine ⟨.ok (), [diagnostic], fun _ _ => trivial, fun scene alike _ memory => ?_⟩
    show Run.report scene cause memory = _
    rw [report_apply, judged scene alike, verdict]
    rfl
  | error refused =>
    refine ⟨.error refused, [], nofun, fun scene alike _ memory => ?_⟩
    show Run.report scene cause memory = _
    rw [report_apply, judged scene alike, verdict, Memory.ended, List.append_nil]

theorem abort (cause : Cause) :
    Uniform reference good holds fun scene _ => (Run.abort scene cause : Run α) := by
  refine ⟨.error ⟨cause, reference.location⟩, [], nofun, fun scene alike _ memory => ?_⟩
  rw [Memory.ended, List.append_nil, ← alike.location]
  rfl

/-! ### Values -/

theorem none :
    Uniform reference good (Sequence.Over good) fun _ _ => (Pure.pure [] : Run Sequence) :=
  pure nofun

theorem fallback (cause : Cause) :
    Uniform reference good (Sequence.Over good) fun scene _ => Run.fallback scene cause :=
  (report cause).bind fun _ _ => none

/-- Whether operands over certain nodes are usable is the same on all scenes where the same of these
are open. -/
theorem usable (operand : Operand) {items : Sequence} (inside : items.Over good) :
    Uniform reference good (fun _ => True) fun scene _ => scene.usable operand items := by
  have asks : ∀ scene, reference.Alike good scene → items.nodes.find? (!scene.stack.isLive ·) =
      items.nodes.find? (!reference.stack.isLive ·) := fun scene alike =>
    List.find?_congr fun node mem => by rw [alike.live node (inside node mem)]
  cases found : items.nodes.find? (!reference.stack.isLive ·) with
  | none =>
    refine congr (fun scene alike _ => ?_) (pure (a := true) trivial)
    rw [Scene.usable, asks scene alike, found]
  | some closed =>
    refine congr (fun scene alike _ => ?_)
      ((report (.closedOperand operand closed.kind)).bind fun _ _ => pure (a := false) trivial)
    rw [Scene.usable, asks scene alike, found]

theorem guarded {operands : List (Operand × Sequence)}
    (inside : ∀ entry ∈ operands, entry.2.Over good)
    {use : Scene → Nat → Run Sequence} (uniform : Uniform reference good (Sequence.Over good) use) :
    Uniform reference good (Sequence.Over good) fun scene top =>
      scene.using operands (use scene top) := by
  have all : Uniform reference good (fun _ => True) fun scene _ => scene.allUsable operands := by
    induction operands with
    | nil => exact pure trivial
    | cons entry rest ih =>
      rw [List.forall_mem_cons] at inside
      exact (usable entry.1 inside.1).bind fun isUsable _ =>
        ite (isUsable = true) (ih inside.2) (pure trivial)
  exact all.bind fun answer _ => ite (answer = true) uniform none

end Uniform

/-! ## Constant expressions -/

namespace Expr

variable {library : Library} {reference : Scene} {good : Node → Prop}

theorem uniform_evaluateAll (exprs : List Expr)
    (uniform : ∀ expr ∈ exprs, Uniform reference good (Sequence.Over good) fun scene top =>
      expr.evaluate library scene top) :
    Uniform reference good
      (fun values => values.length = exprs.length ∧ ∀ value ∈ values, Sequence.Over good value)
      fun scene top => evaluateAll library scene exprs top := by
  induction exprs with
  | nil => exact Uniform.pure ⟨rfl, nofun⟩
  | cons expr rest ih =>
    rw [List.forall_mem_cons] at uniform
    refine uniform.1.bind fun value inside => (ih uniform.2).bind fun values all => Uniform.pure ?_
    rw [List.length_cons, List.length_cons, all.1]
    exact ⟨rfl, List.forall_mem_cons.mpr ⟨inside, all.2⟩⟩

/-- A pure call is computed from its arguments, and gives no nodes but theirs. -/
theorem uniform_apply (depends : library.DependsOnArguments) (given : library.ReturnsGiven)
    (function : Name) {values : List Sequence}
    (isPure : library.isPure function values.length = true)
    (inside : ∀ value ∈ values, Sequence.Over good value) :
    Uniform reference good (Sequence.Over good) fun scene top => Run.position >>= fun position =>
      match library.resolve function values.length with
      | .error cause => Run.fallback scene cause
      | .ok overload =>
        match overload.body ⟨scene.stack, position, top⟩ values with
        | .error cause => Run.fallback scene cause
        | .ok value => pure value := by
  unfold Library.isPure at isPure
  cases resolved : library.resolve function values.length with
  | error cause =>
    rw [resolved] at isPure
    cases isPure
  | ok overload =>
    rw [resolved] at isPure
    have isPure := of_decide_eq_true isPure
    have same := depends function values.length overload resolved isPure values rfl
    let elsewhere : CallSite := ⟨reference.stack, 1, 0⟩
    cases result : overload.body elsewhere values with
    | error cause =>
      refine Uniform.congr (fun scene _ top => ?_) (Uniform.fallback cause)
      simp only [same _ elsewhere, result]
      rfl
    | ok value =>
      have isOver : value.Over good := by
        intro node mem
        obtain ⟨argument, isArgument, inner⟩ :=
          given function values.length overload resolved isPure values rfl elsewhere value result node
            mem
        exact inside argument isArgument node inner
      refine Uniform.congr (fun scene _ top => ?_) (Uniform.pure isOver)
      simp only [same _ elsewhere, result]
      rfl

/-- A constant expression has one outcome on all scenes where faults become the same, and where the
same of the nodes are open that are stored in it. -/
theorem Constant.uniform (depends : library.DependsOnArguments) (given : library.ReturnsGiven)
    {whole expr : Expr} (constant : expr.Constant library) (within : whole.Contains expr)
    (stored : ∀ id value, whole.Contains (.literal id value) → value.value.Over good) :
    Uniform reference good (Sequence.Over good) fun scene top => expr.evaluate library scene top := by
  induction constant with
  | literal id value => exact Uniform.pure (stored id value within)
  | call isPure _ ih =>
    refine (uniform_evaluateAll _ fun argument mem => ih argument mem (within.operand mem)).bind
      fun values all => Uniform.guarded ?_ ?_
    · intro entry mem
      obtain ⟨value, isValue, rfl⟩ := List.mem_map.mp mem
      exact all.2 value isValue
    · exact uniform_apply depends given _ (by rw [all.1]; exact isPure) all.2
  | arithmetic _ _ ihLeft ihRight =>
    obtain ⟨left, right⟩ := within.pair rfl
    exact (ihLeft left).bind fun a overA => (ihRight right).bind fun b overB =>
      Uniform.ite _ Uniform.none (Uniform.ite _ (Uniform.fallback _)
        (Uniform.guarded (List.forall_mem_cons.mpr ⟨overA, List.forall_mem_singleton.mpr overB⟩)
          (Uniform.pure nofun)))
  | negate _ ih =>
    exact (ih (within.operand List.mem_cons_self)).bind fun value inside =>
      Uniform.ite _ Uniform.none (Uniform.ite _ (Uniform.fallback _)
        (Uniform.guarded (List.forall_mem_singleton.mpr inside) (Uniform.pure nofun)))
  | @logic _ op _ _ _ _ ihLeft ihRight =>
    obtain ⟨left, right⟩ := within.pair rfl
    refine (ihLeft left).bind fun first _ => ?_
    have second : Uniform reference good (Sequence.Over good) _ := (ihRight right).bind
      fun second _ => Uniform.pure (a := Sequence.ofBoolean second.toBoolean) nofun
    -- the second operand matters only if the first leaves the answer open
    cases op <;> cases first.toBoolean
    · exact Uniform.pure nofun
    · exact second
    · exact second
    · exact Uniform.pure nofun
  | compare _ _ ihLeft ihRight =>
    obtain ⟨left, right⟩ := within.pair rfl
    exact (ihLeft left).bind fun a overA => (ihRight right).bind fun b overB =>
      Uniform.guarded (List.forall_mem_cons.mpr ⟨overA, List.forall_mem_singleton.mpr overB⟩)
        (Uniform.pure nofun)
  | sequence _ _ ihLeft ihRight =>
    obtain ⟨left, right⟩ := within.pair rfl
    exact (ihLeft left).bind fun a overA => (ihRight right).bind fun b overB =>
      Uniform.pure (overA.append overB)
  | list id => exact Uniform.abort _
  | template _ _ ihBefore ihPart =>
    obtain ⟨left, right⟩ := within.pair rfl
    exact (ihBefore left).bind fun text overText => (ihPart right).bind fun items overItems =>
      Uniform.guarded (List.forall_mem_cons.mpr ⟨overText, List.forall_mem_singleton.mpr overItems⟩)
        (Uniform.pure nofun)

end Expr

/-! ## Flagged nodes -/

/-- What a uniform computation does in a context: it comes to its outcome, and only reports. -/
theorem Memory.run_of_ended {α : Type} {context : Context} {computation : Scene → Run α}
    {outcome : Except Diagnostic α} {reports : List Diagnostic}
    (ends : computation context.toScene context.toMemory = context.toMemory.ended reports outcome) :
    context.run computation =
      (outcome, { context with reported := context.reported ++ reports }) := by
  cases outcome with
  | ok a => exact Context.run_of_ok ends
  | error failure => exact Context.run_of_error ends

namespace Forest

/-- In a compiled forest, what is flagged as constant has one outcome on all scenes where faults become
the same, and where the same of the nodes are open that are stored in it. -/
theorem Compiled.uniform_constant {library : Library} (depends : library.DependsOnArguments)
    (given : library.ReturnsGiven) {forest : Forest} {records : List CopyRecord}
    (compiled : Compiled library forest records) {id : NodeId}
    (constant : forest.isConstant id = true) (reference : Scene) {good : Node → Prop}
    (stored : ∀ inner value, (forest.expression id).Contains (.literal inner value) →
      value.value.Over good) :
    Uniform reference good (Sequence.Over good) fun scene top =>
      (forest.expression id).evaluate forest.library scene top := by
  have intact := compiled.intact depends
  have isConstant := constant_expression intact.flagged id constant
  rw [intact.library] at isConstant
  rw [intact.library]
  exact isConstant.uniform depends given .self stored

/-- A node that is flagged as constant, with no node stored in a value below it, evaluates alike in
any two contexts with the same location and the same answer to faults, with any numbers of open nodes
in view: to the same value or failure, with the same reports. Nothing else about the context
changes. -/
theorem evaluate_constant (library : Library) (depends : library.DependsOnArguments)
    (given : library.ReturnsGiven) (forest : Forest) (records : List CopyRecord)
    (compiled : Compiled library forest records) (id : NodeId)
    (constant : forest.isConstant id = true)
    (plain : ∀ inner value, forest.Below id inner →
      forest.form? inner = some (.literal (.computed value)) → value.nodes = [])
    (first second : Context) (location : second.location = first.location)
    (respond : second.sink.respond = first.sink.respond) (one two : Nat) :
    ∃ outcome reports,
      forest.evaluate id first one =
        (outcome, { first with reported := first.reported ++ reports }) ∧
      forest.evaluate id second two =
        (outcome, { second with reported := second.reported ++ reports }) := by
  have stored : ∀ inner value, (forest.expression id).Contains (.literal inner value) →
      value.value.Over fun _ => False := by
    intro inner value within
    rcases form?_of_contains_literal within with ⟨node, below, found⟩ | rfl
    · cases value with
      | number | string => exact nofun
      | computed items =>
        intro other mem
        rw [show (Literal.computed items).value.nodes = [] from plain node items below found] at mem
        cases mem
    · exact nofun
  obtain ⟨outcome, reports, -, ends⟩ :=
    compiled.uniform_constant depends given constant first.toScene stored
  refine ⟨outcome, reports, Memory.run_of_ended ?_, Memory.run_of_ended ?_⟩
  · exact ends first.toScene ⟨rfl, rfl, nofun⟩ one first.toMemory
  · exact ends second.toScene ⟨location, respond, nofun⟩ two second.toMemory

/-- The accessor of a name is constant when it is given an argument. A truth value has no name, and the
complaint about it is the same before the document and at its third node. -/
theorem evaluate_constant_accessor :
    let forest := ((empty.add (.literal (.computed (.ofBoolean true)))).2.add
      (.call (.unqualified "name") (some ⟨0⟩))).2
    let start : Context := { sink := .lenient }
    let later : Context := { start.push ⟨.document, []⟩ with position := 3 }
    Compiled .core forest [] ∧ forest.isConstant ⟨1⟩ = true ∧
      ∃ outcome reports,
        forest.evaluate ⟨1⟩ start 0 = (outcome, { start with reported := reports }) ∧
        forest.evaluate ⟨1⟩ later 1 = (outcome, { later with reported := reports }) := by
  intro forest start later
  have compiled : Compiled .core forest [] := by
    refine .add (.add (.start {}) ?_) ?_
    · exact nofun
    · decide
  have plain : ∀ inner value, forest.Below ⟨1⟩ inner →
      forest.form? inner = some (.literal (.computed value)) → value.nodes = [] := by
    rintro ⟨index⟩ value - found
    match index with
    | 0 =>
      cases found
      rfl
    | 1 | index + 2 => cases found
  exact ⟨compiled, rfl, evaluate_constant .core Library.core_dependsOnArguments
    Library.core_returnsGiven forest [] compiled ⟨1⟩ rfl plain start later rfl rfl 0 1⟩

end Forest

end StreamPath
