import StreamPath.Proofs.Compilation

/-!
# Flags are exact

A node gets its flag once, when it is added, from its form and the flags of its operands. Afterwards
folding replaces nodes in place and copying takes flags over, so the flag could come to say something
else than the node that carries it. It does not: a replaced node was flagged and is a value, which is
flagged too, it was no chain of arguments, and a copy has the flag of its original, over operands that
have those of the original's.

None of this rests on what functions do. A library may lie about purity; the flags are those that its
answers amount to.

* `Forest.ContextFree` — the forms that add nothing to what their operands depend on;
* `Forest.Exact` — every flag is the one its node would get if it were added now;
* `Forest.Consistent` — what is true of every compiled forest, under any library;
* `Forest.Compiled.addCall`, `Forest.Compiled.addTemplate` — constructors that add several nodes.
-/

namespace StreamPath

namespace Forest

/-! ## Exact flags -/

/-- The forms that depend on the context through their operands at most: values, operators, chains of
arguments, templates, and calls of functions that are pure for so many arguments. -/
inductive ContextFree (library : Library) (forest : Forest) : Form NodeId → Prop
  | literal (value : Literal) : ContextFree library forest (.literal value)
  | arithmetic (op : Arithmetic) (left right : NodeId) :
      ContextFree library forest (.arithmetic op left right)
  | negate (operand : NodeId) : ContextFree library forest (.negate operand)
  | logic (op : Connective) (left right : NodeId) : ContextFree library forest (.logic op left right)
  | compare (op : Comparison) (left right : NodeId) :
      ContextFree library forest (.compare op left right)
  | sequence (left right : NodeId) : ContextFree library forest (.sequence left right)
  | list (left last : NodeId) : ContextFree library forest (.list left last)
  | template (before part : Option NodeId) : ContextFree library forest (.template before part)
  | call {function : Name} {arguments : Option NodeId} :
      library.isPure function (forest.arguments arguments).length = true →
      ContextFree library forest (.call function arguments)

theorem isContextFree_iff {forest : Forest} {form : Form NodeId} :
    forest.isContextFree form = true ↔ ContextFree forest.library forest form := by
  constructor
  · intro free
    cases form with
    | call function arguments => exact .call free
    | literal | arithmetic | negate | logic | compare | sequence | list | template => constructor
    | root | step | union | nodeTest | attributeTest | filter | var | contextItem | parent =>
      cases free
  · rintro (_ | _ | _ | _ | _ | _ | _ | _ | isPure)
    case call => exact isPure
    all_goals rfl

theorem infersConstant_iff {forest : Forest} {form : Form NodeId} :
    forest.infersConstant form = true ↔ ContextFree forest.library forest form ∧
      ∀ operand ∈ form.operands, forest.isConstant operand = true := by
  rw [infersConstant, Bool.and_eq_true, List.all_eq_true, isContextFree_iff]

/-- Every flag is the one that the node would get if it were added now. -/
def Exact (forest : Forest) : Prop :=
  ∀ id form, forest.form? id = some form → forest.isConstant id = forest.infersConstant form

section Operations

variable {forest : Forest} (flags : forest.Exact)

include flags

theorem exact_withPolicy (policy : PriorityPolicy) : Exact { forest with policy } := by
  have library : library { forest with policy } = forest.library := rfl
  intro id form found
  rw [infersConstant_congr library (arguments_withPolicy policy) fun _ => rfl]
  exact flags id form found

theorem exact_append (founded : forest.WellFounded) {node : TreeNode}
    (there : ∀ operand ∈ node.form.operands, operand.index < forest.size)
    (right : node.constant = forest.infersConstant node.form) : (forest.append node).2.Exact := by
  intro id form found
  rcases flag_of_append founded there found with ⟨flag, inferred⟩ | ⟨before, flag, inferred⟩
  · rw [flag, inferred, right]
  · rw [flag, inferred, flags id form before]

/-- A value in the place of a flagged node is flagged too. -/
theorem exact_settle {id : NodeId} (constant : forest.isConstant id = true)
    (notList : ∀ left last, forest.form? id ≠ some (.list left last)) (value : Sequence) :
    (forest.settle id value).Exact := by
  intro other form found
  rcases flag_of_settle value constant notList found with ⟨flag, inferred⟩ | ⟨before, flag, inferred⟩
  · rw [flag, inferred]
  · rw [flag, inferred, flags other form before]

end Operations

/-! ## Compiled forests, under any library -/

/-- What is true of every compiled forest, whatever its functions do. -/
structure Consistent (library : Library) (forest : Forest) (records : List CopyRecord) : Prop where
  library : forest.library = library
  founded : forest.WellFounded
  exact : forest.Exact
  mirrors : ∀ copies ∈ records, forest.Mirrors copies

section Steps

variable {library : Library} {records : List CopyRecord}

/-- Replacing nodes by values leaves every operand before its node. -/
theorem FoldSteps.wellFounded {asked : NodeId → Prop} {start final : Nat × Forest}
    (steps : FoldSteps asked start final) (founded : start.2.WellFounded) : final.2.WellFounded :=
  fun _ form found _ mem => (steps.hasOperand ⟨form, found, mem⟩).index_lt founded

/-- Replacing a node by its value changes no flag and no chain of arguments. -/
theorem FoldStep.consistent {asked : NodeId → Prop} {start final : Nat × Forest}
    (step : FoldStep asked start final) (consistent : Consistent library start.2 records) :
    Consistent library final.2 records := by
  have founded := FoldSteps.wellFounded (.single step) consistent.founded
  obtain ⟨-, found, isFlagged, -, noList, -⟩ := step
  have constant := isConstant_of_node? found isFlagged
  have notList := ne_list_of_node? found noList
  refine ⟨consistent.library, founded, exact_settle consistent.exact constant notList _,
    fun copies mem => ?_⟩
  refine (consistent.mirrors copies mem).transport ?_ (fun id _ => isConstant_settle _ constant id)
    fun id _ => arguments_settle _ notList (some id)
  exact Nat.le_of_eq Array.size_modify.symm

theorem FoldSteps.consistent {asked : NodeId → Prop} {start final : Nat × Forest}
    (steps : FoldSteps asked start final) (consistent : Consistent library start.2 records) :
    Consistent library final.2 records := by
  induction steps with
  | refl => exact consistent
  | tail _ step ih => exact step.consistent ih

/-- A copy has the flag of its original, and that is the one it would get. -/
theorem CopyState.Step.exact {asked : NodeId → Prop} {start final : CopyState}
    (step : Step asked start final) (founded : start.1.WellFounded) (flags : start.1.Exact)
    (mirrors : start.1.Mirrors start.2) : final.1.Exact := by
  cases step with
  | @copy forest copies id node _ here _ operands =>
    refine exact_append flags founded ((mirrors.sound founded).operands_lt operands) ?_
    calc node.constant
        = forest.isConstant id := by rw [isConstant, here]; rfl
      _ = forest.infersConstant node.form := flags id node.form (by rw [form?, here]; rfl)
      _ = forest.infersConstant (node.form.map copies.mapNode) :=
        (mirrors.infersConstant operands).symm

/-- Nodes that are copied in a consistent forest leave it consistent, with the new record. -/
theorem CopyState.Steps.consistent {asked : NodeId → Prop} {start final : CopyState}
    (steps : Steps asked start final) (consistent : Consistent library start.1 records)
    (mirrors : start.1.Mirrors start.2) :
    Consistent library final.1 (final.2 :: records) := by
  induction steps with
  | refl => exact { consistent with mirrors := List.forall_mem_cons.mpr ⟨mirrors, consistent.mirrors⟩ }
  | tail _ step ih =>
    obtain ⟨latest, earlier⟩ := List.forall_mem_cons.mp ih.mirrors
    have extension := step.grows.forest
    refine ⟨extension.library.trans ih.library, (step.sound (latest.sound ih.founded)).founded,
      step.exact ih.founded ih.exact latest, ?_⟩
    exact List.forall_mem_cons.mpr ⟨step.mirrors ih.founded latest, fun copies mem =>
      (earlier copies mem).extend extension ih.founded⟩

theorem Compiled.consistent {forest : Forest} (compiled : Compiled library forest records) :
    Consistent library forest records := by
  induction compiled with
  | start policy =>
    refine ⟨rfl, ?_, ?_, nofun⟩ <;>
    · intro id form found
      simp [form?, node?] at found
  | withPolicy policy _ ih =>
    refine ⟨ih.library, ih.founded, exact_withPolicy ih.exact policy, fun copies mem => ?_⟩
    exact (ih.mirrors copies mem).transport (Nat.le_refl _) (fun _ _ => rfl) fun id _ =>
      arguments_withPolicy policy (some id)
  | add _ there ih =>
    refine ⟨ih.library, wellFounded_add ih.founded there, exact_append ih.exact ih.founded there rfl,
      fun copies mem => ?_⟩
    exact (ih.mirrors copies mem).extend (.append _ _) ih.founded
  | copy _ inside known ih =>
    have mirrors := mirrors_of_known ih.mirrors known
    exact (steps_deepCopy (mirrors.sound ih.founded) inside).1.consistent ih mirrors
  | @fold forest _ id _ ih =>
    have steps := foldSteps_foldWithin (id.index + 1) id (0, forest) fun _ below => below
    exact steps.consistent ih

end Steps

/-! ## Constructors of several nodes -/

section Constructors

variable {library : Library} {forest : Forest} {records : List CopyRecord}

/-- A node is added, and it is there then like those that were. -/
theorem Compiled.add_there (compiled : Compiled library forest records) {form : Form NodeId}
    (operands : ∀ operand ∈ form.operands, operand.index < forest.size) {others : List NodeId}
    (there : ∀ other ∈ others, other.index < forest.size) :
    Compiled library (forest.add form).2 records ∧
      ∀ other ∈ (forest.add form).1 :: others, other.index < (forest.add form).2.size := by
  have size : (forest.add form).2.size = forest.size + 1 := size_append ..
  rw [size]
  exact ⟨compiled.add operands, List.forall_mem_cons.mpr
    ⟨Nat.lt_succ_self _, fun other mem => Nat.lt_succ_of_lt (there other mem)⟩⟩

theorem Compiled.addChain (compiled : Compiled library forest records) {chain : NodeId}
    {arguments : List NodeId} (there : ∀ id ∈ chain :: arguments, id.index < forest.size) :
    Compiled library (forest.addChain chain arguments).2 records ∧
      (forest.addChain chain arguments).1.index < (forest.addChain chain arguments).2.size := by
  induction arguments generalizing forest chain with
  | nil => exact ⟨compiled, there chain List.mem_cons_self⟩
  | cons argument rest ih =>
    obtain ⟨start, first, others⟩ : _ ∧ _ ∧ _ := by simpa only [List.forall_mem_cons] using there
    have operands : ∀ operand ∈ (Form.list chain argument).operands, operand.index < forest.size :=
      List.forall_mem_cons.mpr ⟨start, List.forall_mem_singleton.mpr first⟩
    obtain ⟨longer, inside⟩ := compiled.add_there operands others
    exact ih longer inside

/-- A call is compiled by adding its chain of arguments and a node for itself. -/
theorem Compiled.addCall (compiled : Compiled library forest records) (function : Name)
    {arguments : List NodeId} (there : ∀ argument ∈ arguments, argument.index < forest.size) :
    Compiled library (forest.addCall function arguments).2 records := by
  cases arguments with
  | nil => exact compiled.add nofun
  | cons first rest =>
    obtain ⟨chained, inside⟩ := compiled.addChain there
    exact chained.add (List.forall_mem_singleton.mpr inside)

theorem Compiled.addParts (compiled : Compiled library forest records) {before : NodeId}
    {parts : List NodeId} (there : ∀ id ∈ before :: parts, id.index < forest.size) :
    Compiled library (forest.addParts before parts).2 records := by
  induction parts generalizing forest before with
  | nil => exact compiled
  | cons part rest ih =>
    obtain ⟨start, first, others⟩ : _ ∧ _ ∧ _ := by simpa only [List.forall_mem_cons] using there
    have operands : ∀ operand ∈ (Form.template (some before) (some part)).operands,
        operand.index < forest.size :=
      List.forall_mem_cons.mpr ⟨start, List.forall_mem_singleton.mpr first⟩
    obtain ⟨longer, inside⟩ := compiled.add_there operands others
    exact ih longer inside

/-- A template is compiled by adding a node for every part. -/
theorem Compiled.addTemplate (compiled : Compiled library forest records) {parts : List NodeId}
    (there : ∀ part ∈ parts, part.index < forest.size) :
    Compiled library (forest.addTemplate parts).2 records := by
  cases parts with
  | nil => exact compiled.add nofun
  | cons part rest =>
    obtain ⟨first, others⟩ := List.forall_mem_cons.mp there
    have operands : ∀ operand ∈ (Form.template none (some part)).operands,
        operand.index < forest.size := List.forall_mem_singleton.mpr first
    obtain ⟨started, inside⟩ := compiled.add_there operands others
    exact started.addParts inside

end Constructors

end Forest

end StreamPath
