import Mathlib.Tactic.Choose
import StreamPath.Proofs.Quiet
import StreamPath.Proofs.Uniformity

/-!
# Numbers as conditions

A number as the condition of a filter is short for a comparison of the position with it. The two
are computed in different ways. The filter itself compares a number with the place of an item, and
if the number is constant, it is computed once, before any item is looked at. The comparison is
computed at every item, since it reads the position, and it does so after the number has been
computed. So a constant number must be the same at every item, and computing any number must leave
the position as it was.

* `Forest.Abbreviates` — two filters that differ in this way;
* `Expr.positionTest` — the comparison, and what it evaluates to;
* `Expr.accepts_numbered` — the two filters match alike;
* `kept`, `Scene.yields_select` — which items a filter keeps;
* `Forest.evaluate_of_gives_constant` — a constant has its value everywhere;
* `Forest.numeric_filter` — the two filters stand for the same patterns and the same values.
-/

namespace StreamPath

open Run

/-- One filter has a number for a condition, and the other, on the same base, compares that number
with the position. -/
def Forest.Abbreviates (forest : Forest) (short long base condition : NodeId) : Prop :=
  forest.form? short = some (.filter base condition) ∧ ∃ test call,
    forest.form? long = some (.filter base test) ∧
    forest.form? test = some (.compare .eq condition call) ∧
    forest.form? call = some (.call (.unqualified "position") none)

/-! ## Asking for the position -/

namespace Expr

/-- The comparison of the position with a number. -/
def positionTest (condition : Expr) (id caller : NodeId) : Expr :=
  .compare id .eq condition (.call caller (.unqualified "position") [])

variable {scene : Scene} {condition : Expr} {top : Nat} {number : Float}

/-- The core function reads the position and changes nothing. -/
theorem evaluate_position (scene : Scene) (id : NodeId) (top : Nat) (memory : Memory) :
    (call id (.unqualified "position") []).evaluate .core scene top memory =
      .ok (.ofNumber (Float.ofNat memory.position)) memory := by
  rw [evaluate]
  rfl

/-- The comparison is with the position that evaluating the number leaves. -/
theorem evaluate_positionTest (id caller : NodeId) {memory final : Memory}
    (ended : condition.evaluate .core scene top memory = .ok (.ofNumber number) final) :
    (condition.positionTest id caller).evaluate .core scene top memory =
      .ok (.ofBoolean (number == Float.ofNat final.position)) final := by
  rw [positionTest, evaluate]
  refine bind_eq_ok.mpr ⟨_, final, ended, ?_⟩
  refine bind_eq_ok.mpr ⟨_, final, evaluate_position scene caller top final, ?_⟩
  show EStateM.Result.ok (Sequence.ofBoolean (Comparison.eq.sequences _ _)) final = _
  rw [Comparison.sequences_ofNumber]
  rfl

/-- A filter by a number and one that compares the number with the position match alike, from every
memory from which the condition has a number wherever the base matches. -/
theorem accepts_numbered {base : Expr} (once : Bool) (id caller : NodeId) (rank : Bool)
    (memory : Memory)
    (numbers : ∀ middle, base.accepts .core scene top true memory = .ok true middle →
      ∃ number final, condition.evaluate .core scene top middle = .ok (.ofNumber number) final) :
    (filter once base condition).accepts .core scene top rank memory =
      (filter false base (condition.positionTest id caller)).accepts .core scene top rank
        memory := by
  rw [accepts_filter, accepts_filter]
  simp only [bind_apply, position_apply]
  cases asked : base.accepts .core scene top true memory with
  | error failure middle => rfl
  | ok matched middle =>
    cases matched with
    | false => rfl
    | true =>
      obtain ⟨number, final, ended⟩ := numbers middle asked
      simp only [if_true, bind_apply, ended, evaluate_positionTest id caller ended]
      rfl

end Expr

/-! ## What a filter keeps -/

/-- The items of which something holds, each asked with its place; places are counted from a given
one. -/
def kept (holds : Item × Nat → Bool) (position : Nat) (items : Sequence) : Sequence :=
  ((items.zipIdx position).filter holds).map Prod.fst

theorem kept_cons (holds : Item × Nat → Bool) (position : Nat) (item : Item) (rest : Sequence) :
    kept holds position (item :: rest) =
      if holds (item, position) then item :: kept holds (position + 1) rest
      else kept holds (position + 1) rest := by
  unfold kept
  rw [List.zipIdx_cons, List.filter_cons]
  split <;> rfl

/-- With one value for all items, what is selected are the items at whose places it holds. -/
theorem selected_eq_kept (value : Sequence) (position : Nat) (items : Sequence) :
    selected value position items = kept (fun entry => holdsAt value entry.2) position items := by
  induction items generalizing position with
  | nil => rfl
  | cons item rest ih => rw [selected, kept_cons, ih]

/-- A memory that is calm but for the position, which may have been moved anywhere. -/
def Memory.Roving (forest : Forest) (context : Context) (memory : Memory) : Prop :=
  Memory.Calm forest { context with position := memory.position } memory

section Filters

variable {forest : Forest} {context : Context}

theorem Memory.Roving.moved {memory : Memory} (roving : Roving forest context memory)
    (place : Nat) :
    Calm forest { context with position := place } { memory with position := place } :=
  ⟨⟨rfl, roving.grown⟩, roving.reported⟩

theorem Memory.Calm.roving {place : Nat} {memory : Memory}
    (calm : Calm forest { context with position := place } memory) : Roving forest context memory :=
  ⟨⟨rfl, calm.grown⟩, calm.reported⟩

/-- If all items are open entries and the condition has a value at each of them, then the filter
goes through to the end and keeps the items where the value holds. -/
theorem Scene.yields_select {condition : Nat → Run Sequence} {holds : Item × Nat → Bool}
    (saved position : Nat) (items : Sequence)
    (answers : ∀ entry ∈ items.zipIdx position, ∃ depth value,
      context.openDepth? entry.1 = some depth ∧ holdsAt value entry.2 = holds entry ∧
      Yields (Memory.Calm forest { context with position := entry.2 }) (condition (depth + 1))
        value) :
    Yields (Memory.Roving forest context) (context.toScene.select condition saved position items)
      (some (kept holds position items)) := by
  induction items generalizing position with
  | nil => exact .pure _
  | cons item rest ih =>
    rw [List.zipIdx_cons, List.forall_mem_cons] at answers
    obtain ⟨⟨depth, value, isOpen, same, asked⟩, others⟩ := answers
    intro memory roving
    -- wherever the position was left, it is moved here before the condition is asked
    obtain ⟨middle, ended, calm⟩ := asked _ (roving.moved position)
    obtain ⟨final, last, roving⟩ := ih (position + 1) others middle calm.roving
    refine ⟨final, ?_, roving⟩
    rw [Scene.select, isOpen]
    refine bind_eq_ok.mpr ⟨(), { memory with position }, rfl, ?_⟩
    refine bind_eq_ok.mpr ⟨value, middle, ended, ?_⟩
    refine bind_eq_ok.mpr ⟨_, final, last, ?_⟩
    rw [kept_cons, ← same]
    rfl

/-- So a filter that asks its condition of every item keeps these items, and moves the position
back. -/
theorem Expr.yields_filter_each {library : Library} {base condition : Expr} {top : Nat}
    {items : Sequence} {holds : Item × Nat → Bool}
    (given : Yields (Memory.Calm forest context) (base.evaluate library context.toScene top) items)
    (answers : ∀ entry ∈ items.zipIdx 1, ∃ depth value,
      context.openDepth? entry.1 = some depth ∧ holdsAt value entry.2 = holds entry ∧
      Yields (Memory.Calm forest { context with position := entry.2 })
        (condition.evaluate library context.toScene (depth + 1)) value) :
    Yields (Memory.Calm forest context)
      ((filter false base condition).evaluate library context.toScene top)
      (kept holds 1 items) := by
  intro memory calm
  obtain ⟨middle, ended, calm⟩ := given memory calm
  have selects : Yields (Memory.Roving forest context) _ _ :=
    Scene.yields_select middle.position 1 items answers
  obtain ⟨final, last, roving⟩ := selects middle calm.roving
  refine ⟨{ final with position := middle.position }, ?_, ?_⟩
  · rw [evaluate]
    refine bind_eq_ok.mpr ⟨items, middle, ended, ?_⟩
    refine bind_eq_ok.mpr ⟨middle.position, middle, rfl, ?_⟩
    exact bind_eq_ok.mpr ⟨_, final, last, rfl⟩
  · exact ⟨⟨calm.position, roving.grown⟩, roving.reported⟩

end Filters

/-! ## The two filters -/

/-- Where a condition has a number, comparing the position with it has a truth value. -/
theorem Run.Yields.positionTest {forest : Forest} {context : Context} {condition : Expr}
    {height : Nat} {number : Float}
    (yields : Yields (Memory.Calm forest context)
      (condition.evaluate .core context.toScene height) (.ofNumber number)) (id caller : NodeId) :
    Yields (Memory.Calm forest context)
      ((condition.positionTest id caller).evaluate .core context.toScene height)
      (.ofBoolean (number == Float.ofNat context.position)) := by
  intro memory calm
  obtain ⟨final, ended, calm⟩ := yields memory calm
  refine ⟨final, ?_, calm⟩
  rw [Expr.evaluate_positionTest id caller ended, calm.position]

namespace Forest

variable {forest : Forest} {records : List CopyRecord}

/-- A constant that has a value without a report has it at every height and from every memory. -/
theorem evaluate_of_gives_constant {library : Library} (depends : library.DependsOnArguments)
    (given : library.ReturnsGiven) (compiled : Compiled library forest records) {id : NodeId}
    (constant : forest.isConstant id = true) {context : Context} {top : Nat} {value : Sequence}
    (gives : forest.Gives context top id value) (height : Nat) (memory : Memory) :
    (forest.expression id).evaluate forest.library context.toScene height memory =
      .ok value memory := by
  have anything : ∀ inner value, (forest.expression id).Contains (.literal inner value) →
      value.value.Over fun _ => True := fun _ _ _ _ _ => trivial
  obtain ⟨outcome, reports, -, ends⟩ :=
    compiled.uniform_constant depends given constant context.toScene anything
  have always := ends context.toScene ⟨rfl, rfl, fun _ _ => rfl⟩
  have ended : forest.evaluate id context top =
      (outcome, { context with reported := context.reported ++ reports }) :=
    Memory.run_of_ended (always top context.toMemory)
  obtain ⟨after, evaluated, same⟩ := gives
  cases ended.symm.trans evaluated
  obtain rfl : reports = [] := List.append_right_eq_self.mp same
  refine (always height memory).trans ?_
  rw [Memory.ended, List.append_nil]

/-- The expressions of the two filters. The comparison reads the position, so it is not constant. -/
theorem Abbreviates.expressions {short long base condition : NodeId}
    (abbreviates : forest.Abbreviates short long base condition)
    (intact : Intact .core forest records) :
    let first := forest.expression base
    let second := forest.expression condition
    forest.expression short = .filter (forest.isConstant condition) first second ∧
      ∃ test call, forest.expression long =
        .filter false first (second.positionTest test call) := by
  obtain ⟨isShort, test, call, isLong, isTest, isCall⟩ := abbreviates
  have contextual : forest.isConstant test = false := by
    rw [Bool.eq_false_iff]
    intro constant
    have inferred := intact.flagged test _ isTest constant
    rw [infersConstant, Bool.and_eq_true, List.all_eq_true] at inferred
    have called := intact.flagged call _ isCall
      (inferred.2 call (List.mem_cons_of_mem _ List.mem_cons_self))
    rw [infersConstant, Bool.and_eq_true, isContextFree, intact.library] at called
    have isPure : Library.core.isPure (.unqualified "position") 0 = true := called.1
    exact absurd isPure (by decide)
  refine ⟨expression_eq_assemble intact.founded isShort, test, call, ?_⟩
  rw [expression_eq_assemble intact.founded isLong, assemble, contextual,
    expression_eq_assemble intact.founded isTest, assemble,
    expression_eq_assemble intact.founded isCall]
  rfl

/-- Wherever a filter asks its condition, which is once if that is constant and at each item with
its place if not, the condition has a number without a report. -/
structure Counts (forest : Forest) (context : Context) (top : Nat) (condition : NodeId)
    (items : Sequence) : Prop where
  once : forest.isConstant condition = true →
    ∃ number, forest.Gives context top condition (.ofNumber number)
  each : forest.isConstant condition = false → ∀ entry ∈ items.zipIdx 1, ∀ depth,
    context.openDepth? entry.1 = some depth → ∃ number,
      forest.Gives { context with position := entry.2 } (depth + 1) condition (.ofNumber number)

/-- There is a number for each item with its place, the same for all of them if it is computed once,
that the condition has at the item. The filter keeps the items where this is the place. -/
theorem Counts.exists_numbers (compiled : Compiled .core forest records)
    {short base condition : NodeId} {context : Context} {top : Nat} {items : Sequence}
    (isShort : forest.expression short =
      .filter (forest.isConstant condition) (forest.expression base) (forest.expression condition))
    (given : forest.Gives context top base items)
    (live : ∀ item ∈ items, (context.openDepth? item).isSome = true)
    (counts : forest.Counts context top condition items) :
    ∃ number : Item × Nat → Float,
      (∀ entry ∈ items.zipIdx 1, ∃ depth, context.openDepth? entry.1 = some depth ∧
        Yields (Memory.Calm forest { context with position := entry.2 })
          ((forest.expression condition).evaluate forest.library context.toScene (depth + 1))
          (.ofNumber (number entry))) ∧
      forest.Gives context top short
        (kept (fun entry => number entry == Float.ofNat entry.2) 1 items) := by
  have openAt : ∀ entry ∈ items.zipIdx 1, ∃ depth, context.openDepth? entry.1 = some depth :=
    fun entry mem => Option.isSome_iff_exists.mp (live entry.1 (List.fst_mem_of_mem_zipIdx mem))
  cases constant : forest.isConstant condition with
  | true =>
    obtain ⟨number, gives⟩ := counts.once constant
    -- what it has once it has at every item
    have always := evaluate_of_gives_constant Library.core_dependsOnArguments
      Library.core_returnsGiven compiled constant gives
    refine ⟨fun _ => number, fun entry mem => ?_, gives_iff_yields.mpr ?_⟩
    · obtain ⟨depth, isOpen⟩ := openAt entry mem
      exact ⟨depth, isOpen, fun memory calm => ⟨memory, always (depth + 1) memory, calm⟩⟩
    · rw [isShort, constant, Expr.evaluate]
      refine (gives_iff_yields.mp given).bind ((gives_iff_yields.mp gives).bind ?_)
      rw [selected_eq_kept]
      exact .pure _
  | false =>
    have each : ∀ entry ∈ items.zipIdx 1, ∃ depth number,
        context.openDepth? entry.1 = some depth ∧
        forest.Gives { context with position := entry.2 } (depth + 1) condition
          (.ofNumber number) := by
      intro entry mem
      obtain ⟨depth, isOpen⟩ := openAt entry mem
      obtain ⟨number, gives⟩ := counts.each constant entry mem depth isOpen
      exact ⟨depth, number, isOpen, gives⟩
    choose! depth number isOpen gives using each
    have asked : ∀ entry ∈ items.zipIdx 1,
        Yields (Memory.Calm forest { context with position := entry.2 })
        ((forest.expression condition).evaluate forest.library context.toScene (depth entry + 1))
        (.ofNumber (number entry)) := fun entry mem => gives_iff_yields.mp (gives entry mem)
    refine ⟨number, fun entry mem => ⟨depth entry, isOpen entry mem, asked entry mem⟩, ?_⟩
    rw [gives_iff_yields, isShort, constant]
    exact Expr.yields_filter_each (gives_iff_yields.mp given) fun entry mem =>
      ⟨depth entry, _, isOpen entry mem, rfl, asked entry mem⟩

/-- With the core library, a filter by a number is short for one that compares the position with it:
if the condition has one number without a report wherever the base matches, then both match alike;
and if the base has a value of open entries without a report, and the condition a number wherever it
is asked, then both have the same value. -/
theorem numeric_filter (forest : Forest) (records : List CopyRecord)
    (compiled : Compiled .core forest records) {short long base condition : NodeId}
    (abbreviates : forest.Abbreviates short long base condition) (context : Context) (top : Nat) :
    ((∀ after, forest.accepts base context top true = (.ok true, after) →
        ∃ number, forest.Gives after top condition (.ofNumber number)) →
      ∀ rank, forest.accepts short context top rank = forest.accepts long context top rank) ∧
    ∀ items, forest.Gives context top base items →
      (∀ item ∈ items, (context.openDepth? item).isSome = true) →
      forest.Counts context top condition items →
      ∃ value, forest.Gives context top short value ∧ forest.Gives context top long value := by
  have intact := compiled.intact Library.core_dependsOnArguments
  obtain ⟨isShort, test, call, isLong⟩ := abbreviates.expressions intact
  constructor
  · intro numbers rank
    refine Context.run_congr ?_
    rw [isShort, isLong, intact.library]
    refine Expr.accepts_numbered _ test call rank _ fun middle matched => ?_
    rw [← intact.library] at matched
    obtain ⟨number, after, evaluated, -⟩ := numbers _ (Context.run_of_ok matched)
    obtain ⟨final, ended⟩ := Context.exists_of_run_ok (congrArg Prod.fst evaluated)
    rw [intact.library] at ended
    exact ⟨number, final, ended⟩
  · intro items given live counts
    obtain ⟨number, answers, gives⟩ := counts.exists_numbers compiled isShort given live
    refine ⟨_, gives, gives_iff_yields.mpr ?_⟩
    rw [isLong]
    refine Expr.yields_filter_each (gives_iff_yields.mp given) fun entry mem => ?_
    obtain ⟨depth, isOpen, asked⟩ := answers entry mem
    rw [intact.library] at asked ⊢
    exact ⟨depth, _, isOpen, rfl, asked.positionTest test call⟩

/-- `//*[1]` and `//*[level()]`, with two elements open: the number is constant in the first, and in
the second one it is that of each item. -/
theorem numeric_filter_one_and_level :
    let forest := [.root, .nodeTest .anyElement, .step .descendant ⟨0⟩ ⟨1⟩, .literal (.number 1),
      .filter ⟨2⟩ ⟨3⟩, .call (.unqualified "position") none, .compare .eq ⟨3⟩ ⟨5⟩, .filter ⟨2⟩ ⟨6⟩,
      .call (.unqualified "level") none, .filter ⟨2⟩ ⟨8⟩, .compare .eq ⟨8⟩ ⟨5⟩,
      .filter ⟨2⟩ ⟨10⟩].foldl (fun forest form => (Forest.add forest form).2) Forest.empty
    let stack := ((Ancestors.empty.push ⟨.document, []⟩).push
      ⟨.element (.unqualified "a"), []⟩).push ⟨.element (.unqualified "b"), []⟩
    let context : Context := { stack }
    forest.isConstant ⟨3⟩ = true ∧ forest.isConstant ⟨8⟩ = false ∧
      (∀ rank, forest.accepts ⟨4⟩ context 3 rank = forest.accepts ⟨7⟩ context 3 rank) ∧
      (∀ rank, forest.accepts ⟨9⟩ context 3 rank = forest.accepts ⟨11⟩ context 3 rank) ∧
      (∃ value, forest.Gives context 3 ⟨4⟩ value ∧ forest.Gives context 3 ⟨7⟩ value) ∧
      ∃ value, forest.Gives context 3 ⟨9⟩ value ∧ forest.Gives context 3 ⟨11⟩ value := by
  intro forest stack context
  have compiled : Compiled .core forest [] := by
    refine .add (.add (.add (.add (.add (.add (.add (.add (.add (.add (.add (.add (.start {})
      ?_) ?_) ?_) ?_) ?_) ?_) ?_) ?_) ?_) ?_) ?_) ?_ <;> decide
  let items : Sequence := context.entryAt 1 ++ context.entryAt 2
  have given : forest.Gives context 3 ⟨2⟩ items := ⟨context, rfl, rfl⟩
  have live : ∀ item ∈ items, (context.openDepth? item).isSome = true := by decide
  have byOne : forest.Abbreviates ⟨4⟩ ⟨7⟩ ⟨2⟩ ⟨3⟩ := ⟨rfl, ⟨6⟩, ⟨5⟩, rfl, rfl, rfl⟩
  have byLevel : forest.Abbreviates ⟨9⟩ ⟨11⟩ ⟨2⟩ ⟨8⟩ := ⟨rfl, ⟨10⟩, ⟨5⟩, rfl, rfl, rfl⟩
  have one := numeric_filter forest [] compiled byOne context 3
  have level := numeric_filter forest [] compiled byLevel context 3
  refine ⟨rfl, rfl, one.1 fun after _ => ⟨1, after, rfl, rfl⟩,
    level.1 fun after _ => ⟨Float.ofNat 2, after, rfl, rfl⟩,
    one.2 items given live ⟨fun _ => ⟨1, context, rfl, rfl⟩, nofun⟩,
    level.2 items given live ⟨nofun, fun _ entry _ depth _ => ?_⟩⟩
  exact ⟨Float.ofNat depth, { context with position := entry.2 }, rfl, rfl⟩
end Forest

end StreamPath
