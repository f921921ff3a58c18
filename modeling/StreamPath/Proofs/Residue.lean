import StreamPath.Proofs.Compilation
import StreamPath.Proofs.Quiet

/-!
# What folding leaves

Folding replaces every largest constant expression that it can. What is left below the node afterwards
has nothing to replace: an expression that reports something still does when its operands were
replaced by their values, since it is interchangeable with what it was. So a second pass finds nothing
to do. A node that several others share is replaced when it is first reached and is a value from then
on, so it is counted once.

* `Forest.Replaced` — which nodes were replaced, and by what;
* `Forest.residual_foldWithin` — below the node there is nothing left to replace;
* `Forest.foldWithin_of_residual` — and where there is nothing to replace, folding does nothing;
* `Forest.foldsTo_foldConstants` — what folding comes to.
-/

namespace StreamPath

/-- The context in which constants are computed: nothing is open, and the sink takes every report. -/
def Context.blank : Context := .start .initial .collecting {} none

namespace Forest

/-! ## The replaced nodes -/

/-- Some nodes were replaced by values, and no others were touched. They were asked for, flagged as
constant and no values before. -/
structure Replaced (asked : NodeId → Prop) (before after : Forest) (ids : List NodeId) : Prop where
  nodup : ids.Nodup
  asked : ∀ id ∈ ids, asked id
  constant : ∀ id ∈ ids, before.isConstant id = true
  unsettled : ∀ id ∈ ids, ∀ value, before.form? id ≠ some (.literal value)
  settled : ∀ id ∈ ids, ∃ value,
    after.node? id = some ⟨.literal (.computed value), before.priority id, true⟩
  kept : ∀ id, id ∉ ids → after.node? id = before.node? id

namespace Replaced

variable {asked : NodeId → Prop} {before after : Forest} {ids : List NodeId}

theorem refl (asked : NodeId → Prop) (forest : Forest) : Replaced asked forest forest [] :=
  ⟨List.nodup_nil, nofun, nofun, nofun, nofun, fun _ _ => rfl⟩

/-- The replaced nodes are those whose form has changed. -/
theorem mem_iff (replaced : Replaced asked before after ids) {id : NodeId} :
    id ∈ ids ↔ after.form? id ≠ before.form? id := by
  constructor
  · intro mem same
    obtain ⟨value, found⟩ := replaced.settled id mem
    refine replaced.unsettled id mem (.computed value) ?_
    rw [← same, form?, found]
    rfl
  · intro differs
    by_contra absent
    rw [form?, replaced.kept id absent, form?] at differs
    exact differs rfl

/-- One more step replaces one more node, which was none of those before. -/
theorem settle (replaced : Replaced asked before after ids) {id : NodeId} {node : TreeNode}
    {value : Sequence} (isAsked : asked id) (found : after.node? id = some node)
    (constant : node.constant = true) (unsettled : node.form.isLiteral = false) :
    Replaced asked before (after.settle id value) (id :: ids) := by
  have fresh : id ∉ ids := by
    intro mem
    obtain ⟨_, isValue⟩ := replaced.settled id mem
    cases found.symm.trans isValue
    cases unsettled
  have sooner : before.node? id = some node := (replaced.kept id fresh).symm.trans found
  refine ⟨List.nodup_cons.mpr ⟨fresh, replaced.nodup⟩, ?_, ?_, ?_, ?_, fun other absent => ?_⟩
  · exact List.forall_mem_cons.mpr ⟨isAsked, replaced.asked⟩
  · exact List.forall_mem_cons.mpr ⟨isConstant_of_node? sooner constant, replaced.constant⟩
  · refine List.forall_mem_cons.mpr ⟨fun other isValue => ?_, replaced.unsettled⟩
    rw [form?, sooner] at isValue
    rw [Option.some.inj isValue] at unsettled
    cases unsettled
  · refine List.forall_mem_cons.mpr ⟨⟨value, ?_⟩, fun other mem => ?_⟩
    · rw [node?_settle, if_pos rfl, found, priority, sooner]
      rfl
    · have differs : id ≠ other := by
        rintro rfl
        exact fresh mem
      rw [node?_settle, if_neg differs]
      exact replaced.settled other mem
  · rw [List.mem_cons, not_or] at absent
    rw [node?_settle, if_neg (Ne.symm absent.1)]
    exact replaced.kept other absent.2

end Replaced

/-- Every step replaces one node, and is counted. -/
theorem FoldSteps.replaced {asked : NodeId → Prop} {start final : Nat × Forest}
    (steps : FoldSteps asked start final) :
    ∃ ids, final.1 = start.1 + ids.length ∧ Replaced asked start.2 final.2 ids := by
  induction steps with
  | refl => exact ⟨[], rfl, .refl asked _⟩
  | tail _ step ih =>
    obtain ⟨ids, count, replaced⟩ := ih
    cases step with
    | settle isAsked found constant unsettled _ _ =>
      refine ⟨_ :: ids, ?_, replaced.settle isAsked found constant unsettled⟩
      rw [List.length_cons, ← Nat.add_assoc, ← count]

/-- Folding leaves everything alone that is not below the node. -/
theorem node?_foldConstants {forest : Forest} {id inner : NodeId} (apart : ¬forest.Below id inner) :
    (forest.foldConstants id).2.node? inner = forest.node? inner := by
  obtain ⟨ids, -, replaced⟩ :=
    (foldSteps_foldWithin (id.index + 1) id (0, forest) fun _ below => below).replaced
  exact replaced.kept inner fun mem => apart (replaced.asked inner mem)

/-! ## Nothing left to replace -/

theorem Preserves.quietValue? {before after : Forest} (preserves : Preserves before after)
    (id : NodeId) : after.quietValue? id = before.quietValue? id := by
  rw [Forest.quietValue?, preserves.library, (preserves.expression id).evaluate, Forest.quietValue?]

/-- An expression that could not be replaced still cannot be when others were. -/
theorem Residual.preserve {before after : Forest} {id : NodeId} (residual : before.Residual id)
    (preserves : Preserves before after) : after.Residual id := by
  rcases preserves.form id with same | ⟨-, value, folded⟩
  · rw [Residual, same, preserves.isConstant, preserves.quietValue?]
    exact residual
  · exact .inr (.inl ⟨.computed value, folded⟩)

/-- What is replaced is not residual. -/
theorem FoldStep.not_residual {id : NodeId} {start final : Nat × Forest}
    (step : FoldStep (· = id) start final) : ¬start.2.Residual id := by
  cases step with
  | @settle _ forest other node _ isAsked found constant noLiteral noList quiet =>
    cases isAsked
    have isForm : forest.form? id = some node.form := by
      rw [form?, found]
      rfl
    rintro (changing | ⟨value, isLiteral⟩ | ⟨left, last, isList⟩ | noisy)
    · rw [isConstant_of_node? found constant] at changing
      cases changing
    · rw [Option.some.inj (isForm.symm.trans isLiteral)] at noLiteral
      cases noLiteral
    · exact ne_list_of_node? found noList left last isList
    · cases noisy.symm.trans quiet

/-- It is a value then, so nothing but itself is below it, and that is residual. -/
theorem FoldStep.residual {id inner : NodeId} {start final : Nat × Forest}
    (step : FoldStep (· = id) start final) (below : final.2.Below id inner) :
    final.2.Residual inner := by
  cases step with
  | @settle _ forest other node value isAsked found _ _ _ _ =>
    cases isAsked
    have isValue : (forest.settle id value).form? id = some (.literal (.computed value)) := by
      rw [form?_settle, if_pos rfl, form?, found]
      rfl
    have same : inner = id := eq_of_below (fun operand isOperand => by
      rw [hasOperand_iff, isValue] at isOperand
      cases isOperand) below
    rw [same]
    exact .inr (.inl ⟨.computed value, isValue⟩)

/-- What folding rests on: operands come before their nodes, flags are right, and pure functions read
nothing but their arguments. -/
structure Foldable (forest : Forest) : Prop where
  founded : forest.WellFounded
  flagged : forest.Flagged
  depends : forest.library.DependsOnArguments

theorem FoldSteps.foldable {asked : NodeId → Prop} {start final : Nat × Forest}
    (steps : FoldSteps asked start final) (foldable : start.2.Foldable) : final.2.Foldable := by
  obtain ⟨preserves, flagged⟩ := steps.preserves foldable.flagged foldable.depends
  exact ⟨preserves.wellFounded foldable.founded, flagged,
    by rw [preserves.library]; exact foldable.depends⟩

/-- What folding one of several nodes has dealt with stays dealt with when the others are folded. -/
theorem residual_foldEach {steps : Nat}
    (each : ∀ (id : NodeId) (forest : Forest), forest.Foldable → id.index < steps → ∀ inner,
      (foldWithin steps id forest).2.Below id inner → (foldWithin steps id forest).2.Residual inner)
    (ids : List NodeId) (counted : Nat × Forest) (foldable : counted.2.Foldable)
    (enough : ∀ id ∈ ids, id.index < steps) : ∀ id ∈ ids, ∀ inner,
      (foldEach steps ids counted).2.Below id inner →
        (foldEach steps ids counted).2.Residual inner := by
  induction ids generalizing counted with
  | nil => exact nofun
  | cons id rest ih =>
    rw [List.forall_mem_cons] at enough ⊢
    have first : FoldSteps (fun _ => True) counted _ :=
      foldSteps_foldWithin steps id counted fun _ _ => trivial
    have still := first.foldable foldable
    have others : FoldSteps (fun _ => True) _ (foldEach steps (id :: rest) counted) :=
      foldSteps_foldEach (foldSteps_foldWithin steps) rest _ fun _ _ _ _ => trivial
    refine ⟨fun inner below => ?_, ih _ still enough.2⟩
    have residual := each id counted.2 foldable enough.1 inner (others.below below)
    exact residual.preserve (others.preserves still.flagged still.depends).1

/-- Below a node that was folded, there is nothing left to replace. -/
theorem residual_foldWithin {steps : Nat} {id : NodeId} {forest : Forest}
    (foldable : forest.Foldable) (enough : id.index < steps) (inner : NodeId)
    (below : (foldWithin steps id forest).2.Below id inner) :
    (foldWithin steps id forest).2.Residual inner := by
  induction steps generalizing id forest inner with
  | zero => exact absurd enough (Nat.not_lt_zero _)
  | succ steps ih =>
    rcases foldWithin_succ steps id forest with step | ⟨residual, folded⟩
    · exact step.residual below
    · rw [folded] at below ⊢
      have path : FoldSteps (fun _ => True) (0, forest) _ :=
        foldSteps_foldEach (foldSteps_foldWithin steps)
          (((forest.form? id).map Form.operands).getD []) (0, forest) fun _ _ _ _ => trivial
      have operands : ∀ operand ∈ ((forest.form? id).map Form.operands).getD [],
          operand.index < steps := fun operand mem =>
        Nat.lt_of_lt_of_le ((hasOperand_iff.mpr mem).index_lt foldable.founded)
          (Nat.le_of_lt_succ enough)
      rcases Relation.ReflTransGen.cases_head below with rfl | ⟨operand, isOperand, rest⟩
      · exact residual.preserve (path.preserves foldable.flagged foldable.depends).1
      · exact residual_foldEach (fun _ _ => ih) _ (0, forest) foldable operands operand
          (hasOperand_iff.mp (path.hasOperand isOperand)) inner rest

/-- Where there is nothing to replace, folding replaces nothing. -/
theorem foldWithin_of_residual (steps : Nat) {id : NodeId} {forest : Forest}
    (residual : ∀ inner, forest.Below id inner → forest.Residual inner) :
    foldWithin steps id forest = (0, forest) := by
  induction steps generalizing id with
  | zero => rfl
  | succ steps ih =>
    rcases foldWithin_succ steps id forest with step | ⟨-, folded⟩
    · exact absurd (residual id .refl) step.not_residual
    · have each : ∀ ids : List NodeId,
          (∀ operand ∈ ids, foldWithin steps operand forest = (0, forest)) →
          foldEach steps ids (0, forest) = (0, forest) := by
        intro ids unchanged
        induction ids with
        | nil => rfl
        | cons operand rest ihRest =>
          rw [List.forall_mem_cons] at unchanged
          rw [foldEach, List.foldl_cons, unchanged.1]
          exact ihRest unchanged.2
      rw [folded]
      exact each _ fun operand mem =>
        ih fun inner below => residual inner (below.head (hasOperand_iff.mpr mem))

/-! ## What folding comes to -/

/-- The value that is computed for a constant is the one that it has where nothing is open. -/
theorem quietValue?_eq_some_iff {forest : Forest} {id : NodeId} {value : Sequence} :
    forest.quietValue? id = some value ↔ forest.Gives .blank 0 id value := by
  constructor
  · intro quiet
    unfold quietValue? at quiet
    split at quiet
    · next other memory ended =>
      split at quiet
      · next silent =>
        cases quiet
        exact ⟨_, Context.run_of_ok ended, List.isEmpty_iff.mp silent⟩
      · cases quiet
    · cases quiet
  · rintro ⟨after, evaluated, silent⟩
    obtain ⟨memory, ended⟩ := Context.exists_of_run_ok (congrArg Prod.fst evaluated)
    cases (Context.run_of_ok ended).symm.trans evaluated
    have found : ((forest.expression id).evaluate forest.library blankScene 0).run {} =
        .ok value memory := ended
    unfold quietValue?
    rw [found]
    exact if_pos (List.isEmpty_iff.mpr silent)

/-- What folding below a node comes to: how many nodes it reports to have replaced, and the forest
that it leaves. -/
structure FoldsTo (forest : Forest) (id : NodeId) (count : Nat) (folded : Forest) : Prop where
  /-- A constant that is left below the node has no value without a report. -/
  exhaustive : ∀ inner, folded.Below id inner → folded.isConstant inner = false ∨
    (∃ value, folded.form? inner = some (.literal value)) ∨
    (∃ left last, folded.form? inner = some (.list left last)) ∨
    ∀ value, ¬folded.Gives .blank 0 inner value
  counted : ∃ ids : List NodeId, ids.Nodup ∧ ids.length = count ∧
    ∀ inner, inner ∈ ids ↔ folded.form? inner ≠ forest.form? inner
  replaced : ∀ inner, folded.form? inner ≠ forest.form? inner →
    forest.isConstant inner = true ∧ forest.Below id inner ∧
      ∃ value, folded.node? inner = some ⟨.literal (.computed value), forest.priority inner, true⟩
  kept : ∀ inner, folded.form? inner = forest.form? inner →
    folded.node? inner = forest.node? inner
  unreached : ∀ inner, ¬forest.Below id inner → folded.node? inner = forest.node? inner
  again : folded.foldConstants id = (0, folded)

/-- Folding below any node of a compiled forest leaves nothing to replace there. It reports the number
of nodes that changed; each of them was constant, was below the node, and is a value of the same
priority now. No other node changes, and folding again does nothing. -/
theorem foldsTo_foldConstants (library : Library) (depends : library.DependsOnArguments)
    (forest : Forest) (records : List CopyRecord) (compiled : Compiled library forest records)
    (id : NodeId) : FoldsTo forest id (forest.foldConstants id).1 (forest.foldConstants id).2 := by
  have intact := compiled.intact depends
  have foldable : forest.Foldable :=
    ⟨intact.founded, intact.flagged, by rw [intact.library]; exact depends⟩
  obtain ⟨ids, count, replaced⟩ :=
    (foldSteps_foldWithin (id.index + 1) id (0, forest) fun _ below => below).replaced
  have residual := residual_foldWithin foldable (Nat.lt_succ_self id.index)
  simp only [Nat.zero_add] at count
  refine ⟨fun inner below => ?_, ⟨ids, replaced.nodup, count.symm, fun _ => replaced.mem_iff⟩,
    fun inner changed => ?_, fun inner same => ?_, fun inner => node?_foldConstants,
    foldWithin_of_residual _ residual⟩
  · refine (residual inner below).imp_right (Or.imp_right (Or.imp_right fun noisy value gives => ?_))
    cases noisy.symm.trans (quietValue?_eq_some_iff.mpr gives)
  · have mem := replaced.mem_iff.mpr changed
    exact ⟨replaced.constant inner mem, replaced.asked inner mem, replaced.settled inner mem⟩
  · exact replaced.kept inner fun mem => replaced.mem_iff.mp mem same

/-- A negated pair is left for the run to complain about, but the pair, which refers to one node
twice, is replaced. -/
theorem foldsTo_negated_pair :
    let forest := (((empty.add (.literal (.computed (.ofBoolean true)))).2.add
      (.sequence ⟨0⟩ ⟨0⟩)).2.add (.negate ⟨1⟩)).2
    Library.core.DependsOnArguments ∧ Compiled .core forest [] ∧
      (forest.foldConstants ⟨2⟩).1 = 1 ∧ FoldsTo forest ⟨2⟩ 1 (forest.foldConstants ⟨2⟩).2 := by
  intro forest
  have compiled : Compiled .core forest [] := by
    refine .add (.add (.add (.start {}) ?_) ?_) ?_
    · exact nofun
    · decide
    · decide
  exact ⟨Library.core_dependsOnArguments, compiled, rfl,
    foldsTo_foldConstants .core Library.core_dependsOnArguments forest [] compiled ⟨2⟩⟩

end Forest

end StreamPath
