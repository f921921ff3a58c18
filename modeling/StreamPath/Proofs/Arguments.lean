import StreamPath.Proofs.Constancy
import StreamPath.Proofs.Openness
import StreamPath.Proofs.Recall

/-!
# The arguments of a call

The arguments of a call are chained, and the chain begins with the first of them. So they are read as
they were given, unless the first one is a chain itself: it is then taken for the beginning of a longer
chain, and the call has its arguments instead of it. In any other place a chain is an argument like
others, which ends the run when it is evaluated.

* `Forest.spread` — the arguments that a call reads;
* `Forest.evaluateEach` — evaluating nodes one after the other;
* `Forest.Calls` — how a call of some arguments goes on;
* `Forest.spread_addCall` — what is stored and what is evaluated.
-/

namespace StreamPath

open Run

/-- A sequence of computations is run one after the other. -/
theorem Context.run_bind {α β : Type} (context : Context) (first : Scene → Run α)
    (next : Scene → α → Run β) :
    (context.run fun scene => first scene >>= next scene) =
      match context.run first with
      | (.ok a, after) => after.run fun scene => next scene a
      | (.error failure, after) => (.error failure, after) := by
  have both := bind_apply (first context.toScene) (next context.toScene) context.toMemory
  cases begun : first context.toScene context.toMemory with
  | error failure memory =>
    rw [begun] at both
    rw [run_of_error begun]
    exact run_of_error both
  | ok a memory =>
    rw [begun] at both
    rw [run_of_ok begun]
    let after : Context := { context with toMemory := memory }
    show context.run _ = after.run fun scene => next scene a
    cases ended : next context.toScene a memory with
    | error failure final =>
      have later : after.run (fun scene => next scene a) = _ := run_of_error ended
      exact (run_of_error (both.trans ended)).trans later.symm
    | ok b final =>
      have later : after.run (fun scene => next scene a) = _ := run_of_ok ended
      exact (run_of_ok (both.trans ended)).trans later.symm

namespace Forest

/-- A node chains arguments. -/
def IsChain (forest : Forest) (id : NodeId) : Prop :=
  ∃ left last, forest.form? id = some (.list left last)

/-- The arguments that a call reads: the first one given stands for all that are chained below it. -/
def spread (forest : Forest) (given : List NodeId) : List NodeId :=
  forest.arguments given.head? ++ given.tail

/-- The values of nodes, evaluated one after the other, each from where the one before has left the
context. -/
def evaluateEach (forest : Forest) (top : Nat) :
    List NodeId → Context → Except Diagnostic (List Sequence) × Context
  | [], context => (.ok [], context)
  | id :: rest, context =>
    match forest.evaluate id context top with
    | (.error failure, after) => (.error failure, after)
    | (.ok value, after) =>
      match forest.evaluateEach top rest after with
      | (.error failure, final) => (.error failure, final)
      | (.ok values, final) => (.ok (value :: values), final)

/-! ## Chains -/

section Chains

variable {base forest : Forest}

theorem arguments_of_not_isChain {id : NodeId} (single : ¬forest.IsChain id) :
    forest.arguments (some id) = [id] := by
  have alone : ∀ steps, forest.chained steps id = [id] := by
    intro steps
    cases steps with
    | zero => rfl
    | succ steps =>
      rw [chained]
      split
      · next left last found => exact absurd ⟨left, last, found⟩ single
      · rfl
  exact alone _

theorem arguments_ne_nil (id : NodeId) : forest.arguments (some id) ≠ [] := by
  have some : ∀ steps, forest.chained steps id ≠ [] := by
    intro steps
    cases steps with
    | zero => exact List.cons_ne_nil _ _
    | succ steps =>
      rw [chained]
      split
      · exact List.append_ne_nil_of_right_ne_nil _ (List.cons_ne_nil _ _)
      · exact List.cons_ne_nil _ _
  exact some _

/-- What a call reads is what was given, unless the first argument is a chain. -/
theorem spread_eq_self_iff (founded : forest.WellFounded) {given : List NodeId} :
    forest.spread given = given ↔ ∀ first ∈ given.head?, ¬forest.IsChain first := by
  cases given with
  | nil => exact iff_of_true rfl nofun
  | cons first rest =>
    constructor
    · rintro same _ ⟨⟩ ⟨left, last, found⟩
      have longer : forest.spread (first :: rest) =
          forest.arguments (some left) ++ [last] ++ rest :=
        congrArg (· ++ rest) (arguments_of_list founded found)
      have count := congrArg List.length (longer.symm.trans same)
      have some : 0 < (forest.arguments (some left)).length :=
        List.length_pos_iff.mpr (arguments_ne_nil left)
      simp only [List.length_append, List.length_cons, List.length_nil] at count
      omega
    · intro single
      have alone := arguments_of_not_isChain (single first rfl)
      exact congrArg (· ++ rest) alone

/-- All arguments that are read are there if those that are given are. -/
theorem lt_size_of_mem_spread (founded : forest.WellFounded) {given : List NodeId}
    (there : ∀ id ∈ given, id.index < forest.size) :
    ∀ id ∈ forest.spread given, id.index < forest.size := by
  cases given with
  | nil => exact nofun
  | cons first rest =>
    obtain ⟨inside, others⟩ := List.forall_mem_cons.mp there
    intro id mem
    rcases List.mem_append.mp mem with chained | later
    · have below := (((Extends.refl forest).relocates founded).chained inside (Nat.le_refl _)
        (Nat.le_refl _)).2 id chained
      exact below.1
    · exact others id later

/-- In a forest that has grown, a node chains these arguments. -/
structure ChainsOnto (base : Forest) (grown : NodeId × Forest) (arguments : List NodeId) : Prop
    extends base.Builds grown where
  arguments : grown.2.arguments (some grown.1) = arguments

/-- One more argument comes last. -/
theorem ChainsOnto.append {chain argument : NodeId} {arguments : List NodeId}
    (chains : base.ChainsOnto (chain, forest) arguments) (there : argument.index < base.size) :
    base.ChainsOnto (forest.add (.list chain argument)) (arguments ++ [argument]) := by
  have inside : ∀ operand ∈ [chain, argument], operand.index < forest.size :=
    List.forall_mem_cons.mpr ⟨chains.inside,
      List.forall_mem_singleton.mpr (Nat.lt_of_lt_of_le there chains.extension.size)⟩
  have builds : base.Builds (forest.add (.list chain argument)) :=
    builds_add chains.extension chains.founded inside
  refine ⟨builds, ?_⟩
  have found : (forest.add (.list chain argument)).2.form? ⟨forest.size⟩ =
      some (.list chain argument) := by
    rw [add, form?_append, if_pos rfl]
  have still : (forest.add (.list chain argument)).2.arguments (some chain) = arguments :=
    ((Extends.append forest _).arguments chains.founded chains.inside).trans chains.arguments
  exact (arguments_of_list builds.founded found).trans (congrArg (· ++ [argument]) still)

/-- Further arguments come in order. -/
theorem ChainsOnto.addChain {chain : NodeId} {arguments rest : List NodeId}
    (chains : base.ChainsOnto (chain, forest) arguments)
    (there : ∀ argument ∈ rest, argument.index < base.size) :
    base.ChainsOnto (forest.addChain chain rest) (arguments ++ rest) := by
  induction rest generalizing forest chain arguments with
  | nil =>
    rw [List.append_nil]
    exact chains
  | cons argument rest ih =>
    obtain ⟨first, others⟩ := List.forall_mem_cons.mp there
    rw [List.append_cons]
    exact ih (chains.append first) others

/-- In a forest that has grown, a node is a call of these arguments. -/
structure HoldsCall (base : Forest) (grown : NodeId × Forest) (function : Name)
    (arguments : List NodeId) : Prop extends base.Builds grown where
  stored : ∃ chain, grown.2.form? grown.1 = some (.call function chain) ∧
    grown.2.arguments chain = arguments
  expression : grown.2.expression grown.1 = .call grown.1 function (arguments.map base.expression)

/-- A call that is added has the arguments that are chained. -/
theorem holdsCall_add (founded : base.WellFounded) (extension : Extends base forest)
    (founded' : forest.WellFounded) {arguments : List NodeId}
    (inside : ∀ argument ∈ arguments, argument.index < base.size) {chain : Option NodeId}
    (there : ∀ id ∈ chain.toList, id.index < forest.size)
    (chained : forest.arguments chain = arguments) (function : Name) :
    base.HoldsCall (forest.add (.call function chain)) function arguments := by
  have operands : ∀ id ∈ (Form.call function chain).operands, id.index < forest.size := by
    intro id mem
    exact there id (by simpa [Form.operands, Form.left?, Form.right?] using mem)
  have still : (forest.add (.call function chain)).2.arguments chain = arguments := by
    cases chain with
    | none => exact chained
    | some id =>
      have isThere := there id (List.mem_singleton_self id)
      exact ((Extends.append forest _).arguments founded' isThere).trans chained
  have found : (forest.add (.call function chain)).2.form? ⟨forest.size⟩ =
      some (.call function chain) := by
    rw [add, form?_append, if_pos rfl]
  refine ⟨builds_add extension founded' operands, ⟨chain, found, still⟩, ?_⟩
  refine (expression_append founded' operands).trans ?_
  have same : arguments.map forest.expression = arguments.map base.expression :=
    List.map_congr_left fun argument mem => extension.expression founded (inside argument mem)
  rw [← same, ← still]
  rfl

/-- A call reads the arguments that it is given, with those that are chained below the first. -/
theorem holdsCall_addCall (founded : base.WellFounded) (function : Name) {given : List NodeId}
    (there : ∀ argument ∈ given, argument.index < base.size) :
    base.HoldsCall (base.addCall function given) function (base.spread given) := by
  have inside := lt_size_of_mem_spread founded there
  cases given with
  | nil =>
    have nothing : ∀ id ∈ (none : Option NodeId).toList, id.index < base.size :=
      fun _ mem => absurd mem List.not_mem_nil
    exact holdsCall_add founded (.refl base) founded inside nothing rfl function
  | cons first rest =>
    obtain ⟨isThere, others⟩ := List.forall_mem_cons.mp there
    have begun : base.ChainsOnto (first, base) (base.arguments (some first)) :=
      ⟨⟨.refl base, founded, isThere⟩, rfl⟩
    have chains := begun.addChain others
    have isLast : ∀ id ∈ (some (base.addChain first rest).1).toList,
        id.index < (base.addChain first rest).2.size := List.forall_mem_singleton.mpr chains.inside
    exact holdsCall_add founded chains.extension chains.founded inside isLast chains.arguments function

end Chains

/-! ## Evaluating arguments -/

section Evaluation

variable {forest : Forest} {context reached : Context} {top : Nat}

/-- Nodes are evaluated one after the other as a list of expressions is. -/
theorem evaluateEach_eq_run (ids : List NodeId) :
    forest.evaluateEach top ids context = context.run fun scene =>
      Expr.evaluateAll forest.library scene (ids.map forest.expression) top := by
  induction ids generalizing context with
  | nil => rfl
  | cons id rest ih =>
    rw [evaluateEach]
    unfold evaluate
    rw [List.map_cons]
    unfold Expr.evaluateAll
    rw [Context.run_bind]
    cases context.run fun scene => (forest.expression id).evaluate forest.library scene top with
    | mk result after =>
      cases result with
      | error failure => rfl
      | ok value =>
        simp only [ih]
        rw [Context.run_bind]
        cases after.run fun scene =>
            Expr.evaluateAll forest.library scene (rest.map forest.expression) top with
        | mk others final => cases others <;> rfl

/-- There is a value for each node. -/
theorem length_of_evaluateEach {ids : List NodeId} {values : List Sequence}
    (ended : forest.evaluateEach top ids context = (.ok values, reached)) :
    values.length = ids.length := by
  rw [evaluateEach_eq_run] at ended
  obtain ⟨memory, ended⟩ := Context.exists_of_run_ok (congrArg Prod.fst ended)
  rw [Expr.length_of_evaluateAll _ _ _ _ ended, List.length_map]

/-- What comes after nodes that have values is evaluated from where they have left the context. -/
theorem evaluateEach_append {before rest : List NodeId} {values : List Sequence}
    {failure : Diagnostic} {final : Context}
    (first : forest.evaluateEach top before context = (.ok values, reached))
    (others : forest.evaluateEach top rest reached = (.error failure, final)) :
    forest.evaluateEach top (before ++ rest) context = (.error failure, final) := by
  induction before generalizing context values with
  | nil =>
    cases first
    exact others
  | cons id before ih =>
    rw [evaluateEach] at first
    rw [List.cons_append, evaluateEach]
    cases evaluated : forest.evaluate id context top with
    | mk result after =>
      rw [evaluated] at first
      cases result with
      | error failure => cases first
      | ok value =>
        simp only at first ⊢
        cases more : forest.evaluateEach top before after with
        | mk result middle =>
          rw [more] at first
          cases result with
          | error failure => cases first
          | ok values =>
            cases first
            rw [ih more]

/-- A chain that is evaluated ends the run. -/
theorem evaluate_of_isChain {chain : NodeId} (isChain : forest.IsChain chain) :
    forest.evaluate chain context top =
      (.error ⟨.unsuitable "argument list" chain .value, context.location⟩, context) := by
  obtain ⟨left, last, found⟩ := isChain
  have expression : forest.expression chain = .list chain := expression_of_form? found
  unfold evaluate
  rw [expression]
  rfl

end Evaluation

/-! ## Calls -/

/-- How a call of a function with some arguments goes on in a context: the arguments are evaluated from
left to right, the function is looked up by their number, and it gets their values in that order. -/
structure Calls (forest : Forest) (function : Name) (arguments : List NodeId) (context : Context)
    (top : Nat) (outcome : Except Diagnostic Sequence × Context) : Prop where
  /-- The first argument that fails ends the call. -/
  failed : ∀ failure reached, forest.evaluateEach top arguments context = (.error failure, reached) →
    outcome = (.error failure, reached)
  /-- A chain does, if the arguments before it have values. -/
  chained : ∀ before chain later values reached, arguments = before ++ chain :: later →
    forest.IsChain chain → forest.evaluateEach top before context = (.ok values, reached) →
    outcome = (.error ⟨.unsuitable "argument list" chain .value, reached.location⟩, reached)
  /-- A value with a closed node is reported. -/
  closed : ∀ values reached, forest.evaluateEach top arguments context = (.ok values, reached) →
    (∃ value ∈ values, reached.stack.HoldsClosed value) →
    ∃ kind, outcome =
      reached.run fun scene => fallback scene (.closedOperand (.argument function) kind)
  /-- So is a function that does not take so many arguments. -/
  unresolved : ∀ values reached cause,
    forest.evaluateEach top arguments context = (.ok values, reached) →
    (∀ value ∈ values, reached.stack.AllOpen value) →
    forest.library.resolve function arguments.length = .error cause →
    outcome = reached.run fun scene => fallback scene cause
  /-- A function that does is applied to the values. -/
  applied : ∀ values reached overload,
    forest.evaluateEach top arguments context = (.ok values, reached) →
    (∀ value ∈ values, reached.stack.AllOpen value) →
    forest.library.resolve function arguments.length = .ok overload →
    outcome = match overload.body ⟨reached.stack, reached.position, top⟩ values with
      | .ok value => (.ok value, reached)
      | .error cause => reached.run fun scene => fallback scene cause

section Calls

variable {base : Forest} {grown : NodeId × Forest} {function : Name} {arguments : List NodeId}

/-- What is made of the values of the arguments. -/
def called (library : Library) (function : Name) (top : Nat) (values : List Sequence)
    (scene : Scene) : Run Sequence :=
  scene.using (values.map fun value => (.argument function, value)) do
    let position ← Run.position
    match library.resolve function values.length with
    | .error cause => Run.fallback scene cause
    | .ok overload =>
      match overload.body ⟨scene.stack, position, top⟩ values with
      | .error cause => Run.fallback scene cause
      | .ok value => return value

/-- A call evaluates its arguments and then makes something of their values. -/
theorem HoldsCall.evaluate (holds : base.HoldsCall grown function arguments) (context : Context)
    (top : Nat) :
    grown.2.evaluate grown.1 context top =
      match base.evaluateEach top arguments context with
      | (.ok values, reached) => reached.run (called base.library function top values)
      | (.error failure, reached) => (.error failure, reached) := by
  let first (scene : Scene) : Run (List Sequence) :=
    Expr.evaluateAll base.library scene (arguments.map base.expression) top
  let next (scene : Scene) (values : List Sequence) : Run Sequence :=
    called base.library function top values scene
  have split : grown.2.evaluate grown.1 context top =
      context.run fun scene => first scene >>= next scene := by
    rw [Forest.evaluate, holds.expression, holds.extension.library]
    rfl
  have each : base.evaluateEach top arguments context = context.run first :=
    evaluateEach_eq_run arguments
  rw [split, Context.run_bind, each]
  cases context.run first with
  | mk result reached => cases result <;> rfl

/-- A closed node among the values is reported instead. -/
theorem run_called_of_closed {library : Library} {values : List Sequence} {reached : Context}
    {top : Nat} (closed : ∃ value ∈ values, reached.stack.HoldsClosed value) :
    ∃ kind, reached.run (called library function top values) =
      reached.run fun scene => fallback scene (.closedOperand (.argument function) kind) := by
  have among : ∃ operand ∈ values.map fun value => (Operand.argument function, value),
      reached.stack.HoldsClosed operand.2 := by
    obtain ⟨value, mem, isClosed⟩ := closed
    exact ⟨_, List.mem_map_of_mem mem, isClosed⟩
  obtain ⟨operand, mem, kind, refused⟩ := Scene.using_of_holdsClosed among _
  obtain ⟨value, -, rfl⟩ := List.mem_map.mp mem
  exact ⟨kind, Context.run_congr (congrFun refused reached.toMemory)⟩

/-- Open values are given to the function that takes so many. -/
theorem run_called_of_open {library : Library} {values : List Sequence} {reached : Context}
    {top : Nat} (areOpen : ∀ value ∈ values, reached.stack.AllOpen value) :
    reached.run (called library function top values) =
      match library.resolve function values.length with
      | .error cause => reached.run fun scene => fallback scene cause
      | .ok overload =>
        match overload.body ⟨reached.stack, reached.position, top⟩ values with
        | .ok value => (.ok value, reached)
        | .error cause => reached.run fun scene => fallback scene cause := by
  have usable : ∀ operand ∈ values.map fun value => (Operand.argument function, value),
      reached.stack.AllOpen operand.2 := by
    intro operand mem
    obtain ⟨value, there, rfl⟩ := List.mem_map.mp mem
    exact areOpen value there
  have same : called library function top values reached.toScene reached.toMemory =
      (match library.resolve function values.length with
        | .error cause => Run.fallback reached.toScene cause
        | .ok overload =>
          match overload.body ⟨reached.stack, reached.position, top⟩ values with
          | .error cause => Run.fallback reached.toScene cause
          | .ok value => pure value) reached.toMemory := by
    unfold called
    rw [Scene.using_of_allOpen usable, bind_apply, position_apply]
  cases resolved : library.resolve function values.length with
  | error cause =>
    rw [resolved] at same
    exact Context.run_congr same
  | ok overload =>
    simp only [resolved] at same ⊢
    cases result : overload.body ⟨reached.stack, reached.position, top⟩ values with
    | error cause =>
      rw [result] at same
      exact Context.run_congr same
    | ok value =>
      rw [result] at same
      exact Context.run_of_ok same

/-- A node that is a call in a grown forest goes on as a call. -/
theorem HoldsCall.calls (holds : base.HoldsCall grown function arguments) (context : Context)
    (top : Nat) :
    base.Calls function arguments context top (grown.2.evaluate grown.1 context top) where
  failed failure reached ended := by
    rw [holds.evaluate, ended]
  chained before chain later values reached split isChain ended := by
    have stops : base.evaluateEach top (chain :: later) reached =
        (.error ⟨.unsuitable "argument list" chain .value, reached.location⟩, reached) := by
      rw [evaluateEach, evaluate_of_isChain isChain]
    rw [holds.evaluate, split, evaluateEach_append ended stops]
  closed values reached ended closed := by
    rw [holds.evaluate, ended]
    exact run_called_of_closed closed
  unresolved values reached cause ended areOpen unresolved := by
    rw [← length_of_evaluateEach ended] at unresolved
    rw [holds.evaluate, ended]
    simp only [run_called_of_open areOpen, unresolved]
  applied values reached overload ended areOpen resolved := by
    rw [← length_of_evaluateEach ended] at resolved
    rw [holds.evaluate, ended]
    simp only [run_called_of_open areOpen, resolved]

/-- A call reads back the arguments that it is given, unless the first of them is a chain, which stands
for all that it chains. Evaluated in any context, it goes on as a call of those it reads. -/
theorem spread_addCall (founded : base.WellFounded) (function : Name) {given : List NodeId}
    (there : ∀ argument ∈ given, argument.index < base.size) :
    (∃ chain, (base.addCall function given).2.form? (base.addCall function given).1 =
        some (.call function chain) ∧
      (base.addCall function given).2.arguments chain = base.spread given) ∧
    (base.spread given = given ↔ ∀ first ∈ given.head?, ¬base.IsChain first) ∧
    ∀ context top, base.Calls function (base.spread given) context top
      ((base.addCall function given).2.evaluate (base.addCall function given).1 context top) := by
  have holds := holdsCall_addCall founded function there
  exact ⟨holds.stored, spread_eq_self_iff founded, holds.calls⟩

end Calls

end Forest

/-! ## A chain as an argument -/

namespace Chain

/-- Two strings and a chain of them. -/
def forest : Forest :=
  ((Forest.empty.add (.literal (.string "a"))).2.add (.literal (.string "b"))).2.add
    (.list ⟨0⟩ ⟨1⟩) |>.2

def function : Name := .unqualified "concat"

/-- Behind a string, the chain is an argument that ends the run. -/
theorem evaluate_chain_last :
    let grown := forest.addCall function [⟨0⟩, ⟨2⟩]
    (∃ chain, grown.2.form? grown.1 = some (.call function chain) ∧
      grown.2.arguments chain = [⟨0⟩, ⟨2⟩]) ∧
    grown.2.evaluate grown.1 {} 0 = (.error ⟨.unsuitable "argument list" ⟨2⟩ .value, {}⟩, {}) := by
  intro grown
  have founded : forest.WellFounded := by
    refine Forest.wellFounded_add (Forest.wellFounded_add (Forest.wellFounded_add
      Forest.wellFounded_empty ?_) ?_) ?_ <;> decide
  have inside : ∀ argument ∈ [(⟨0⟩ : NodeId), ⟨2⟩], argument.index < forest.size := by decide
  obtain ⟨stored, faithful, calls⟩ := Forest.spread_addCall founded function inside
  have single : forest.spread [⟨0⟩, ⟨2⟩] = [⟨0⟩, ⟨2⟩] := by
    refine faithful.mpr ?_
    rintro _ ⟨⟩ ⟨left, last, found⟩
    cases found
  rw [single] at stored calls
  exact ⟨stored, (calls {} 0).chained [⟨0⟩] ⟨2⟩ [] _ _ rfl ⟨⟨0⟩, ⟨1⟩, rfl⟩ rfl⟩

/-- As the first argument, it is taken apart. -/
theorem evaluate_chain_first :
    let grown := forest.addCall function [⟨2⟩]
    forest.IsChain ⟨2⟩ ∧ (forest.evaluate ⟨2⟩ {} 0).1 =
        .error ⟨.unsuitable "argument list" ⟨2⟩ .value, {}⟩ ∧
      (∃ chain, grown.2.form? grown.1 = some (.call function chain) ∧
        grown.2.arguments chain = [⟨0⟩, ⟨1⟩]) ∧
      (grown.2.evaluate grown.1 {} 0).1 = .ok (.ofString "ab") :=
  ⟨⟨⟨0⟩, ⟨1⟩, rfl⟩, rfl, ⟨some ⟨2⟩, rfl, rfl⟩, rfl⟩

end Chain

end StreamPath
