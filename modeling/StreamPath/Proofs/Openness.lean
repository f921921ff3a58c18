import StreamPath.Proofs.Liveness
import StreamPath.Proofs.Lockstep

/-!
# Evaluation among open nodes

Evaluating makes references only to nodes that it finds open, and passes on those that it is given.
So if everything it is given is open, then so is everything it gives, and the checks for closed nodes
find nothing to report.

* `Ancestors.AllOpen`, `Ancestors.HoldsLiveNodes` — no node among the items is closed, and none is
  anything but a node;
* `Run.Clean` — a computation has only good values and reports no closed node;
* `Run.Clean.run` — what that comes to when it runs in a context;
* `Overload.PassesOpen` — a function gives open nodes for open nodes;
* `Expr.clean_evaluate` — every evaluation is clean if what it is given is open.
-/

namespace StreamPath

open Run

/-! ## Open items -/

namespace Ancestors

/-- Every node among the items is open. -/
def AllOpen (stack : Ancestors) (items : Sequence) : Prop :=
  ∀ node ∈ items.nodes, stack.isLive node = true

variable {stack : Ancestors} {items more : Sequence}

theorem allOpen_iff : stack.AllOpen items ↔ ¬stack.HoldsClosed items := by
  simp only [AllOpen, HoldsClosed, not_exists, not_and, Bool.not_eq_false]

@[simp] theorem allOpen_nil : stack.AllOpen [] := nofun

theorem allOpen_append :
    stack.AllOpen (items ++ more) ↔ stack.AllOpen items ∧ stack.AllOpen more := by
  rw [allOpen_iff, holdsClosed_append, not_or, allOpen_iff, allOpen_iff]

/-- A node counts only if it is one of the items. -/
theorem AllOpen.of_subset (isOpen : stack.AllOpen items) (subset : more ⊆ items) :
    stack.AllOpen more := by
  intro node mem
  exact isOpen node (Sequence.mem_nodes.mpr (subset (Sequence.mem_nodes.mp mem)))

theorem AllOpen.isLive (isOpen : stack.AllOpen items) {node : Node} (there : .node node ∈ items) :
    stack.isLive node = true :=
  isOpen node (Sequence.mem_nodes.mpr there)

theorem allOpen_map_node {nodes : List Node} (isOpen : ∀ node ∈ nodes, stack.isLive node = true) :
    stack.AllOpen (nodes.map .node) := by
  unfold AllOpen
  rw [Sequence.nodes_map_node]
  exact isOpen

/-- Items that are no nodes cannot be closed. -/
theorem allOpen_of_noNode (noNode : ∀ item ∈ items, item.node? = none) : stack.AllOpen items := by
  intro node mem
  cases noNode _ (Sequence.mem_nodes.mp mem)

@[simp] theorem allOpen_ofNumber (value : Float) : stack.AllOpen (.ofNumber value) := nofun

@[simp] theorem allOpen_ofString (value : String) : stack.AllOpen (.ofString value) := nofun

@[simp] theorem allOpen_ofBoolean (value : Bool) : stack.AllOpen (.ofBoolean value) := nofun

/-- All items are nodes, and all of these are open. -/
def HoldsLiveNodes (stack : Ancestors) (items : Sequence) : Prop :=
  ∀ item ∈ items, ∃ node, item = .node node ∧ stack.isLive node = true

namespace HoldsLiveNodes

theorem append (first : stack.HoldsLiveNodes items) (second : stack.HoldsLiveNodes more) :
    stack.HoldsLiveNodes (items ++ more) :=
  List.forall_mem_append.mpr ⟨first, second⟩

theorem allOpen (holds : stack.HoldsLiveNodes items) : stack.AllOpen items := by
  intro node mem
  obtain ⟨other, isNode, live⟩ := holds _ (Sequence.mem_nodes.mp mem)
  cases isNode
  exact live

theorem map_node {nodes : List Node} (live : ∀ node ∈ nodes, stack.isLive node = true) :
    stack.HoldsLiveNodes (nodes.map .node) := by
  intro item mem
  obtain ⟨node, isNode, rfl⟩ := List.mem_map.mp mem
  exact ⟨node, rfl, live node isNode⟩

end HoldsLiveNodes

end Ancestors

/-! ## Clean computations -/

/-- Whether a cause is a node that has closed. -/
def Cause.concernsClosed : Cause → Bool
  | closedOperand _ _ | closedStep _ => true
  | _ => false

namespace Run

variable {α β : Type} (scene : Scene)

/-- Some diagnostics were accepted in addition, none of them about a closed node. -/
def ReportsOpen (before after : Memory) : Prop :=
  ∃ more, after.reported = before.reported ++ more ∧
    ∀ diagnostic ∈ more, diagnostic.cause.concernsClosed = false

/-- A diagnostic ends the run, and what it is about is not a closed node. -/
def EndsOpen (failure : Diagnostic) : Prop :=
  ∃ cause : Cause, cause.concernsClosed = false ∧ scene.judge cause = .error failure

/-- From every memory, a computation has a good value if it has any, and whatever it reports is not
about closed nodes. -/
def Clean (good : α → Prop) (computation : Run α) : Prop :=
  ∀ memory, match computation memory with
    | .ok value after => good value ∧ ReportsOpen memory after
    | .error failure after => EndsOpen scene failure ∧ ReportsOpen memory after

variable {scene} {good : α → Prop} {fine : β → Prop}

/-- Nothing was reported. -/
theorem ReportsOpen.of_eq {before after : Memory} (same : after.reported = before.reported) :
    ReportsOpen before after :=
  ⟨[], same.trans (List.append_nil _).symm, List.forall_mem_nil _⟩

theorem ReportsOpen.refl (memory : Memory) : ReportsOpen memory memory := .of_eq rfl

theorem ReportsOpen.trans {first second third : Memory} (one : ReportsOpen first second)
    (two : ReportsOpen second third) : ReportsOpen first third := by
  obtain ⟨more, now, isOpen⟩ := one
  obtain ⟨later, then', stillOpen⟩ := two
  refine ⟨more ++ later, by rw [then', now, List.append_assoc], ?_⟩
  exact List.forall_mem_append.mpr ⟨isOpen, stillOpen⟩

namespace Clean

theorem pure {a : α} (holds : good a) : Clean scene good (pure a) :=
  fun memory => ⟨holds, .refl memory⟩

theorem bind {first : Run α} {next : α → Run β} (head : Clean scene good first)
    (tail : ∀ a, good a → Clean scene fine (next a)) : Clean scene fine (first >>= next) := by
  intro memory
  have one := head memory
  rw [bind_apply]
  cases ended : first memory with
  | error failure middle =>
    rw [ended] at one
    exact one
  | ok a middle =>
    rw [ended] at one
    have two := tail a one.1 middle
    show match next a middle with
      | .ok value after => _
      | .error failure after => _
    cases done : next a middle <;> rw [done] at two <;> exact ⟨two.1, one.2.trans two.2⟩

/-- To report something else than a closed node is clean. -/
theorem report {cause : Cause} (isOpen : cause.concernsClosed = false) :
    Clean scene (fun _ => True) (report scene cause) := by
  intro memory
  rw [report_apply]
  cases judged : scene.judge cause with
  | error failure => exact ⟨⟨cause, isOpen, judged⟩, .refl memory⟩
  | ok diagnostic =>
    refine ⟨trivial, [diagnostic], rfl, ?_⟩
    obtain ⟨rfl, -⟩ := Scene.eq_of_judge_eq_ok judged
    rw [List.forall_mem_singleton]
    exact isOpen

/-- A fatal cause is never a closed node. -/
theorem abort {cause : Cause} (fatal : cause.isFatal = true) :
    Clean scene good (abort scene cause : Run α) := by
  have isOpen : cause.concernsClosed = false := by
    cases cause <;> first | rfl | cases fatal
  exact fun memory => ⟨⟨cause, isOpen, scene.judge_of_isFatal fatal⟩, .refl memory⟩

theorem position : Clean scene (fun _ => True) position := fun memory => ⟨trivial, .refl memory⟩

theorem setPosition (place : Nat) : Clean scene (fun _ => True) (setPosition place) :=
  fun _ => ⟨trivial, .of_eq rfl⟩

theorem get : Clean scene (fun _ => True) (MonadState.get : Run Memory) :=
  fun memory => ⟨trivial, .refl memory⟩

theorem remember (id : NodeId) (group : GroupId) :
    Clean scene (fun _ => True)
      (modify fun memory => { memory with scopes := memory.scopes.insert id group } : Run Unit) :=
  fun _ => ⟨trivial, .of_eq rfl⟩

end Clean

/-- What a clean computation comes to in a context. -/
theorem Clean.run {context : Context} (computation : Scene → Run α)
    (clean : Clean context.toScene good (computation context.toScene)) :
    (∀ value, (context.run computation).1 = .ok value → good value) ∧
    (∀ failure, (context.run computation).1 = .error failure → EndsOpen context.toScene failure) ∧
    ReportsOpen context.toMemory (context.run computation).2.toMemory := by
  have whole := clean context.toMemory
  cases ended : computation context.toScene context.toMemory with
  | ok value memory =>
    rw [ended] at whole
    rw [Context.run_of_ok ended]
    refine ⟨fun other same => ?_, fun failure same => ?_, whole.2⟩
    · cases same
      exact whole.1
    · cases same
  | error failure memory =>
    rw [ended] at whole
    rw [Context.run_of_error ended]
    refine ⟨fun value same => ?_, fun other same => ?_, whole.2⟩
    · cases same
    · cases same
      exact whole.1

end Run

/-! ## Operators -/

namespace Scene

variable {scene : Scene} {good : Sequence → Prop}

/-- A report with a fallback is clean if the fallback is good. -/
theorem clean_fallback {cause : Cause} (isOpen : cause.concernsClosed = false) :
    Clean scene scene.stack.AllOpen (fallback scene cause) :=
  (Clean.report isOpen).bind fun _ _ => .pure Ancestors.allOpen_nil

/-- Open operands are used without a report. -/
theorem using_of_allOpen {operands : List (Operand × Sequence)}
    (isOpen : ∀ operand ∈ operands, scene.stack.AllOpen operand.2) (use : Run Sequence) :
    scene.using operands use = use := by
  have usable : scene.allUsable operands = pure true := by
    induction operands with
    | nil => rfl
    | cons head rest ih =>
      obtain ⟨first, others⟩ := List.forall_mem_cons.mp isOpen
      rw [allUsable, usable_of_not_holdsClosed head.1 (Ancestors.allOpen_iff.mp first), pure_bind,
        if_pos rfl]
      exact ih others
  rw [Scene.using, usable, pure_bind, if_pos rfl]

/-- An entry just taken is open. -/
theorem holdsLiveNodes_entryAt (scene : Scene) (depth : Nat) :
    scene.stack.HoldsLiveNodes (scene.entryAt depth) := by
  intro item mem
  unfold entryAt at mem
  obtain ⟨node, taken, rfl⟩ := Option.map_eq_some_iff.mp (Option.mem_toList.mp mem)
  exact ⟨node, rfl, Ancestors.isLive_of_node? taken⟩

theorem allOpen_entryAt (depth : Nat) : scene.stack.AllOpen (scene.entryAt depth) :=
  (scene.holdsLiveNodes_entryAt depth).allOpen

theorem allOpen_childEntry (test : NodeTest) (top : Nat) :
    scene.stack.AllOpen (scene.childEntry test top) := by
  unfold childEntry
  split
  · exact allOpen_entryAt top
  · exact Ancestors.allOpen_nil

theorem allOpen_contextAttributes (test : AttributeTest) (top : Nat) :
    scene.stack.AllOpen (scene.contextAttributes test top) := by
  cases top with
  | zero => exact Ancestors.allOpen_nil
  | succ depth =>
    simp only [contextAttributes]
    split
    · next owner there =>
      split
      · intro node mem
        obtain ⟨item, there', isNode⟩ := List.mem_filterMap.mp mem
        obtain ⟨index, -, made⟩ := List.mem_filterMap.mp there'
        split at made
        · split at made
          · cases made
            cases isNode
            -- the owner of the attribute is the open node that lists it
            exact Ancestors.isLive_attr_iff.mpr ⟨depth, by rw [there]; exact owner.same_self⟩
          · cases made
        · cases made
      · exact Ancestors.allOpen_nil
    · exact Ancestors.allOpen_nil

/-- Each node of a union is one of the given nodes. -/
theorem mem_of_mem_documentOrder {stack : Ancestors} {nodes : List Node} {node : Node}
    (mem : node ∈ stack.documentOrder nodes) : node ∈ nodes := by
  have ofDistinct : ∀ nodes : List Node, node ∈ distinct nodes → node ∈ nodes := by
    intro nodes
    induction nodes with
    | nil => exact id
    | cons head rest ih =>
      intro mem
      rcases List.mem_cons.mp mem with rfl | later
      · exact List.mem_cons_self
      · exact List.mem_cons_of_mem _ (ih (List.mem_filter.mp later).1)
  exact ofDistinct nodes ((Ranking.mem_arrange _).mp mem)

/-- Open nodes are put in document order. -/
theorem using_unionOf_of_live {items : Sequence}
    (live : scene.stack.HoldsLiveNodes items) :
    scene.using [(.union, items)] (scene.unionOf items) =
      pure ((scene.stack.documentOrder items.nodes).map .node) := by
  rw [using_of_allOpen (by simpa using live.allOpen)]
  have allNodes : items.find? (fun item => item.node?.isNone) = none := by
    rw [List.find?_eq_none]
    intro item mem
    obtain ⟨node, rfl, -⟩ := live item mem
    simp [Item.node?]
  unfold unionOf
  rw [allNodes]

/-- A union of anything else is a type error. -/
theorem using_unionOf_of_not_live {items : Sequence}
    (other : ¬scene.stack.HoldsLiveNodes items) :
    ∃ cause : Cause, cause.code = .typeMismatch ∧ cause.isFatal = false ∧
      scene.using [(.union, items)] (scene.unionOf items) = fallback scene cause := by
  by_cases closed : scene.stack.HoldsClosed items
  · have inOperands : ∃ operand ∈ [(Operand.union, items)], scene.stack.HoldsClosed operand.2 :=
      ⟨_, List.mem_singleton_self _, closed⟩
    obtain ⟨operand, -, kind, refused⟩ := using_of_holdsClosed inOperands (scene.unionOf items)
    exact ⟨_, rfl, rfl, refused⟩
  · have isOpen := Ancestors.allOpen_iff.mpr closed
    rw [using_of_allOpen (by simpa using isOpen)]
    -- the items that are nodes are live, so one of them is no node
    cases found : items.find? fun item => item.node?.isNone with
    | some item =>
      refine ⟨.unionOfItem item.type, rfl, rfl, ?_⟩
      unfold unionOf
      rw [found]
    | none =>
      refine absurd (fun item mem => ?_) other
      cases isNode : item.node? with
      | none => exact absurd (by simp [isNode]) (List.find?_eq_none.mp found item mem)
      | some node =>
        cases item <;> cases isNode
        exact ⟨node, rfl, isOpen node (Sequence.mem_nodes.mpr mem)⟩

theorem clean_unionOf {items : Sequence} (isOpen : scene.stack.AllOpen items) :
    Clean scene scene.stack.AllOpen (scene.unionOf items) := by
  unfold unionOf
  split
  · exact clean_fallback rfl
  · exact .pure (Ancestors.allOpen_map_node fun node mem =>
      isOpen node (mem_of_mem_documentOrder mem))

theorem clean_atHeights {next : Nat → Run Sequence}
    (holds : ∀ height, Clean scene scene.stack.AllOpen (next height)) (heights : List Nat) :
    Clean scene scene.stack.AllOpen (atHeights next heights) := by
  induction heights with
  | nil => exact .pure Ancestors.allOpen_nil
  | cons height rest ih =>
    refine (holds height).bind fun here hereOpen => ih.bind fun more moreOpen => ?_
    exact .pure (Ancestors.allOpen_append.mpr ⟨hereOpen, moreOpen⟩)

/-- From open items a step finds open nodes. The check of each item succeeds if it is a node. -/
theorem clean_stepFrom (axis : Axis) {next : Nat → Run Sequence}
    (holds : ∀ height, Clean scene scene.stack.AllOpen (next height)) {items : Sequence}
    (isOpen : scene.stack.AllOpen items) :
    Clean scene (fun found? => ∀ found ∈ found?, scene.stack.AllOpen found)
      (scene.stepFrom axis next items) := by
  have refused : ∀ {type}, Clean scene
      (fun found? : Option Sequence => ∀ found ∈ found?, scene.stack.AllOpen found)
      (Run.report scene (.stepFromItem type) >>= fun _ => pure none) :=
    (Clean.report rfl).bind fun _ _ => .pure nofun
  induction items with
  | nil => exact .pure fun found eq => by cases eq; exact Ancestors.allOpen_nil
  | cons item rest ih =>
    have others := ih (isOpen.of_subset (List.subset_cons_self item rest))
    cases item with
    | node node =>
      unfold stepFrom
      rw [if_pos (isOpen.isLive List.mem_cons_self)]
      have append : ∀ here : Sequence, scene.stack.AllOpen here →
          Clean scene (fun found? => ∀ found ∈ found?, scene.stack.AllOpen found)
            (scene.stepFrom axis next rest >>= fun more => pure (more.map (here ++ ·))) := by
        intro here hereOpen
        refine others.bind fun more moreOpen => .pure fun found eq => ?_
        obtain ⟨later, isMore, rfl⟩ := Option.map_eq_some_iff.mp eq
        exact Ancestors.allOpen_append.mpr ⟨hereOpen, moreOpen later isMore⟩
      cases node.depth? with
      | none => exact (Clean.pure Ancestors.allOpen_nil).bind append
      | some depth => exact (clean_atHeights holds _).bind append
    | boolean | number | string => exact refused

theorem selected_subset (value : Sequence) (position : Nat) (items : Sequence) :
    selected value position items ⊆ items := by
  induction items generalizing position with
  | nil => exact List.Subset.refl _
  | cons item rest ih =>
    unfold selected
    split
    · exact List.cons_subset_cons item (ih (position + 1))
    · exact List.subset_cons_of_subset item (ih (position + 1))

/-- A filter keeps some of its items. Those that it cannot move to are open all the same. -/
theorem clean_select {condition : Nat → Run Sequence}
    (holds : ∀ height, Clean scene scene.stack.AllOpen (condition height)) (saved position : Nat)
    (items : Sequence) :
    Clean scene (fun kept? => ∀ kept ∈ kept?, kept ⊆ items)
      (scene.select condition saved position items) := by
  induction items generalizing position with
  | nil => exact .pure fun kept eq => by cases eq; exact List.Subset.refl _
  | cons item rest ih =>
    unfold select
    split
    · refine (Clean.setPosition position).bind fun _ _ => ?_
      refine (holds _).bind fun value _ => (ih (position + 1)).bind fun more keeps => .pure ?_
      intro kept eq
      obtain ⟨later, isMore, rfl⟩ := Option.map_eq_some_iff.mp eq
      split
      · exact List.cons_subset_cons item (keeps later isMore)
      · exact List.subset_cons_of_subset item (keeps later isMore)
    · refine (Clean.setPosition saved).bind fun _ _ => ?_
      exact (Clean.report rfl).bind fun _ _ => .pure nofun

end Scene

/-! ## Functions -/

/-- For arguments without closed nodes, a function gives no closed node, and if it fails, then not
because of one. -/
def Overload.PassesOpen (overload : Overload) : Prop :=
  ∀ (site : CallSite) (arguments : List Sequence),
    (∀ argument ∈ arguments, site.stack.AllOpen argument) →
      match overload.body site arguments with
      | .ok value => site.stack.AllOpen value
      | .error cause => cause.concernsClosed = false

/-- Every function that a library resolves a name to passes open nodes on. -/
def Library.PassesOpen (library : Library) : Prop :=
  ∀ name arity overload, library.resolve name arity = .ok overload → overload.PassesOpen

/-- A name that cannot be resolved is not about nodes. -/
theorem Library.concernsClosed_of_resolve {library : Library} {name : Name} {arity : Nat}
    {cause : Cause} (failed : library.resolve name arity = .error cause) :
    cause.concernsClosed = false := by
  unfold resolve at failed
  split at failed
  · cases failed
    rfl
  · split at failed
    · cases failed
    · cases failed
      rfl

/-! ## Variables -/

namespace Scene

/-- Every node in the value of a variable is open, whether the rule binds it or the newest activation
of a group. -/
structure BindsOpen (scene : Scene) : Prop where
  locals : ∀ name value, scene.locals.find? name = some value → scene.stack.AllOpen value
  frames : ∀ group bindings, scene.frame? group = some bindings →
    ∀ name value, bindings.find? name = some value → scene.stack.AllOpen value

theorem BindsOpen.clean_readVariable {scene : Scene} (binds : scene.BindsOpen) (id : NodeId)
    (name : Name) :
    Clean scene (fun value? => ∀ value ∈ value?, scene.stack.AllOpen value)
      (scene.readVariable id name) := by
  have inFrame : ∀ group, ∀ value ∈ (scene.frame? group).bind fun bindings => bindings.find? name,
      scene.stack.AllOpen value := by
    intro group value found
    obtain ⟨bindings, isFrame, found⟩ := Option.bind_eq_some_iff.mp found
    exact binds.frames group bindings isFrame name value found
  unfold readVariable
  cases isLocal : scene.locals.find? name with
  | some value =>
    refine .pure fun found eq => ?_
    cases eq
    exact binds.locals name value isLocal
  | none =>
    refine Clean.get.bind fun memory _ => ?_
    cases memory.scopes.find? id with
    | some group => exact .pure (inFrame group)
    | none =>
      cases scene.findScope name with
      | none => exact .pure nofun
      | some scope =>
        cases scope with
        | rule => exact .pure nofun
        | group group => exact (Clean.remember id group).bind fun _ _ => .pure (inFrame group)

end Scene

/-! ## Expressions -/

namespace Expr

variable {library : Library} {scene : Scene} {whole : Expr}

theorem clean_evaluateAll {exprs : List Expr} {top : Nat}
    (holds : ∀ expr ∈ exprs, Clean scene scene.stack.AllOpen (expr.evaluate library scene top)) :
    Clean scene (fun values => ∀ value ∈ values, scene.stack.AllOpen value)
      (evaluateAll library scene exprs top) := by
  induction exprs with
  | nil => exact .pure nofun
  | cons expr rest ih =>
    obtain ⟨first, others⟩ := List.forall_mem_cons.mp holds
    exact first.bind fun value isOpen => (ih others).bind fun values areOpen =>
      .pure (List.forall_mem_cons.mpr ⟨isOpen, areOpen⟩)

/-- A call whose arguments are open is clean, whatever becomes of it. -/
theorem clean_call (passes : library.PassesOpen) {values : List Sequence}
    (areOpen : ∀ value ∈ values, scene.stack.AllOpen value) (function : Name) (top : Nat) :
    Clean scene scene.stack.AllOpen
      (scene.using (values.map fun value => (.argument function, value)) do
        let position ← Run.position
        match library.resolve function values.length with
        | .error cause => Run.fallback scene cause
        | .ok overload =>
          match overload.body ⟨scene.stack, position, top⟩ values with
          | .error cause => Run.fallback scene cause
          | .ok value => return value) := by
  have usable : ∀ operand ∈ values.map fun value => (Operand.argument function, value),
      scene.stack.AllOpen operand.2 := by
    intro operand mem
    obtain ⟨value, there, rfl⟩ := List.mem_map.mp mem
    exact areOpen value there
  rw [Scene.using_of_allOpen usable]
  refine Clean.position.bind fun position _ => ?_
  cases resolved : library.resolve function values.length with
  | error cause => exact Scene.clean_fallback (Library.concernsClosed_of_resolve resolved)
  | ok overload =>
    have passed := passes _ _ overload resolved ⟨scene.stack, position, top⟩ values areOpen
    show Clean scene scene.stack.AllOpen
      (match overload.body ⟨scene.stack, position, top⟩ values with
        | .error cause => Run.fallback scene cause
        | .ok value => pure value)
    cases result : overload.body ⟨scene.stack, position, top⟩ values with
    | error cause =>
      rw [result] at passed
      exact Scene.clean_fallback passed
    | ok value =>
      rw [result] at passed
      exact .pure passed

/-- If variables, literals and functions give no closed node, then no expression does, and no closed
node is ever reported. -/
theorem clean_evaluate (passes : library.PassesOpen) (binds : scene.BindsOpen)
    (literals : ∀ id value, whole.Contains (.literal id value) → scene.stack.AllOpen value.value)
    (expr : Expr) (within : whole.Contains expr) (top : Nat) :
    Clean scene scene.stack.AllOpen (expr.evaluate library scene top) := by
  induction expr using Expr.induct generalizing top with
  | root =>
    rw [evaluate]
    split
    · exact .pure Ancestors.allOpen_nil
    · exact .pure (Scene.allOpen_entryAt 0)
  | contextItem id =>
    cases top with
    | zero => exact .pure Ancestors.allOpen_nil
    | succ depth => exact .pure (Scene.allOpen_entryAt depth)
  | parent id =>
    rcases top with _ | _ | depth
    · exact .pure Ancestors.allOpen_nil
    · exact .pure Ancestors.allOpen_nil
    · exact .pure (Scene.allOpen_entryAt depth)
  | nodeTest test => exact .pure (Scene.allOpen_childEntry test top)
  | attributeTest test => exact .pure (Scene.allOpen_contextAttributes test top)
  | step axis base next baseClean nextClean =>
    obtain ⟨inBase, inNext⟩ := within.pair rfl
    rw [evaluate]
    refine (baseClean inBase top).bind fun starts areOpen => ?_
    refine (Scene.clean_stepFrom axis (nextClean inNext) areOpen).bind fun found? found => ?_
    cases found? with
    | none => exact .pure Ancestors.allOpen_nil
    | some found' => exact .pure (found found' rfl)
  | union left right leftClean rightClean =>
    obtain ⟨inLeft, inRight⟩ := within.pair rfl
    rw [evaluate]
    refine (leftClean inLeft top).bind fun a aOpen => ?_
    refine (rightClean inRight top).bind fun b bOpen => ?_
    have both := Ancestors.allOpen_append.mpr ⟨aOpen, bOpen⟩
    rw [Scene.using_of_allOpen (List.forall_mem_singleton.mpr both)]
    exact Scene.clean_unionOf both
  | filter once base condition baseClean conditionClean =>
    obtain ⟨inBase, inCondition⟩ := within.pair rfl
    cases once with
    | true =>
      rw [evaluate]
      refine (baseClean inBase top).bind fun items areOpen => ?_
      refine (conditionClean inCondition top).bind fun value _ => ?_
      exact .pure (areOpen.of_subset (Scene.selected_subset value 1 items))
    | false =>
      rw [evaluate]
      refine (baseClean inBase top).bind fun items areOpen => ?_
      refine Clean.position.bind fun saved _ => ?_
      refine (Scene.clean_select (conditionClean inCondition) saved 1 items).bind
        fun kept? keeps => ?_
      refine (Clean.setPosition saved).bind fun _ _ => ?_
      cases kept? with
      | none => exact .pure Ancestors.allOpen_nil
      | some kept => exact .pure (areOpen.of_subset (keeps kept rfl))
  | call id function arguments clean =>
    rw [evaluate]
    refine (clean_evaluateAll fun argument mem =>
      clean argument mem (within.operand mem) top).bind fun values areOpen => ?_
    exact clean_call passes areOpen function top
  | literal id value => exact .pure (literals id value within)
  | arithmetic id op left right leftClean rightClean =>
    obtain ⟨inLeft, inRight⟩ := within.pair rfl
    rw [evaluate]
    refine (leftClean inLeft top).bind fun a aOpen => ?_
    refine (rightClean inRight top).bind fun b bOpen => ?_
    split
    · exact .pure Ancestors.allOpen_nil
    split
    · exact Scene.clean_fallback rfl
    · rw [Scene.using_of_allOpen (by simp [aOpen, bOpen])]
      exact .pure (Ancestors.allOpen_ofNumber _)
  | negate id operand clean =>
    rw [evaluate]
    refine (clean (within.operand List.mem_cons_self) top).bind fun value isOpen => ?_
    split
    · exact .pure Ancestors.allOpen_nil
    split
    · exact Scene.clean_fallback rfl
    · rw [Scene.using_of_allOpen (List.forall_mem_singleton.mpr isOpen)]
      exact .pure (Ancestors.allOpen_ofNumber _)
  | logic id op left right leftClean rightClean =>
    obtain ⟨inLeft, inRight⟩ := within.pair rfl
    rw [evaluate]
    refine (leftClean inLeft top).bind fun first _ => ?_
    have decided : Clean scene scene.stack.AllOpen (do
        let second ← right.evaluate library scene top
        return .ofBoolean second.toBoolean) :=
      (rightClean inRight top).bind fun _ _ => .pure (Ancestors.allOpen_ofBoolean _)
    cases op <;> cases first.toBoolean
    · exact .pure (Ancestors.allOpen_ofBoolean _)
    · exact decided
    · exact decided
    · exact .pure (Ancestors.allOpen_ofBoolean _)
  | compare id op left right leftClean rightClean =>
    obtain ⟨inLeft, inRight⟩ := within.pair rfl
    rw [evaluate]
    refine (leftClean inLeft top).bind fun a aOpen => ?_
    refine (rightClean inRight top).bind fun b bOpen => ?_
    rw [Scene.using_of_allOpen (by simp [aOpen, bOpen])]
    exact .pure (Ancestors.allOpen_ofBoolean _)
  | sequence id left right leftClean rightClean =>
    obtain ⟨inLeft, inRight⟩ := within.pair rfl
    rw [evaluate]
    refine (leftClean inLeft top).bind fun a aOpen => ?_
    refine (rightClean inRight top).bind fun b bOpen => ?_
    exact .pure (Ancestors.allOpen_append.mpr ⟨aOpen, bOpen⟩)
  | list id => exact .abort rfl
  | template id before part beforeClean partClean =>
    obtain ⟨inBefore, inPart⟩ := within.pair rfl
    rw [evaluate]
    refine (beforeClean inBefore top).bind fun text textOpen => ?_
    refine (partClean inPart top).bind fun items itemsOpen => ?_
    rw [Scene.using_of_allOpen (by simp [textOpen, itemsOpen])]
    exact .pure (Ancestors.allOpen_ofString _)
  | var id name =>
    rw [evaluate]
    refine (binds.clean_readVariable id name).bind fun value? isOpen => ?_
    cases value? with
    | none => exact Scene.clean_fallback rfl
    | some value => exact .pure (isOpen value rfl)

end Expr

end StreamPath
