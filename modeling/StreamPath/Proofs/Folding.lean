import StreamPath.Proofs.CorePurity
import StreamPath.Proofs.Interchange
import StreamPath.Proofs.Reach

/-!
# Folding keeps the meaning

Folding settles one node after the other: a constant node is replaced by the value that was computed
for it. One such step leaves every expression of the forest interchangeable with what it was, so any
number of steps does, wherever the nodes are shared.

* `Forest.Flagged` — a node flagged as constant depends on nothing outside it;
* `Forest.FoldStep` — one node is replaced by its value;
* `Forest.preserves_settle` — what one step keeps;
* `Forest.foldSteps_foldWithin` — folding is a number of steps below the node;
* `Forest.Built` — how forests come about;
* `Forest.foldConstants_preserves` — the whole of folding, seen from any context.
-/

namespace StreamPath

namespace Forest

/-! ## Flags -/

/-- A node that is flagged as constant needs no context and has flagged operands only. -/
def Flagged (forest : Forest) : Prop :=
  ∀ id form, forest.form? id = some form → forest.isConstant id = true →
    forest.infersConstant form = true

theorem exists_form_of_isConstant {forest : Forest} {id : NodeId}
    (constant : forest.isConstant id = true) : ∃ form, forest.form? id = some form := by
  obtain ⟨node, found, -⟩ := Option.any_eq_true _ _ |>.mp constant
  exact ⟨node.form, by rw [form?, found]; rfl⟩

/-- All arguments chained below a flagged node are flagged. -/
theorem isConstant_of_mem_chained {forest : Forest} (flagged : forest.Flagged) (steps : Nat)
    {id : NodeId} (constant : forest.isConstant id = true) :
    ∀ inner ∈ forest.chained steps id, forest.isConstant inner = true := by
  induction steps generalizing id with
  | zero =>
    intro inner mem
    rw [List.mem_singleton.mp mem]
    exact constant
  | succ steps ih =>
    obtain ⟨form, found⟩ := exists_form_of_isConstant constant
    have inferred := flagged id form found constant
    intro inner mem
    rw [chained, found] at mem
    split at mem
    · next left last eq =>
      cases eq
      simp only [infersConstant, isContextFree, Bool.true_and, List.all_eq_true] at inferred
      rcases List.mem_append.mp mem with below | here
      · exact ih (inferred left (by simp [Form.operands, Form.left?])) inner below
      · rw [List.mem_singleton.mp here]
        exact inferred last (by simp [Form.operands, Form.right?])
    · rw [List.mem_singleton.mp mem]
      exact constant

/-- A node that is flagged as constant stands for a constant expression. -/
theorem constant_expression {forest : Forest} (flagged : forest.Flagged) (id : NodeId)
    (constant : forest.isConstant id = true) :
    (forest.expression id).Constant forest.library := by
  obtain ⟨index⟩ := id
  -- on the place of the node: an operand that comes later stands for no value
  induction index using Nat.strongRecOn with
  | ind index ih =>
    obtain ⟨form, found⟩ := exists_form_of_isConstant constant
    have inferred := flagged _ form found constant
    rw [expression_of_form? found]
    have operand : ∀ inner : NodeId, forest.isConstant inner = true →
        Expr.Constant forest.library
          (if inner.index < index then forest.expression inner else .nothing inner) := by
      intro inner isConstant
      by_cases earlier : inner.index < index
      · rw [if_pos earlier]
        exact ih inner.index earlier isConstant
      · rw [if_neg earlier]
        exact .literal inner _
    rw [infersConstant, Bool.and_eq_true, List.all_eq_true] at inferred
    obtain ⟨free, operands⟩ := inferred
    have left : ∀ inner, form.left? = some inner → Expr.Constant forest.library
        (if inner.index < index then forest.expression inner else .nothing inner) := by
      intro inner first
      exact operand inner (operands inner (by simp [Form.operands, first]))
    have right : ∀ inner, form.right? = some inner → Expr.Constant forest.library
        (if inner.index < index then forest.expression inner else .nothing inner) := by
      intro inner second
      exact operand inner (operands inner (by simp [Form.operands, second]))
    cases form with
    | literal value => exact .literal _ value
    | list _ _ => exact .list _
    | call function arguments =>
      refine .call ?_ fun argument mem => ?_
      · rw [List.length_map]
        exact free
      · obtain ⟨inner, there, rfl⟩ := List.mem_map.mp mem
        cases arguments with
        | none => cases there
        | some chain =>
          have flag := operands chain (by simp [Form.operands, Form.left?])
          exact operand inner (isConstant_of_mem_chained flagged _ flag inner there)
    | arithmetic _ a b => exact .arithmetic (left a rfl) (right b rfl)
    | negate a => exact .negate (left a rfl)
    | logic _ a b => exact .logic (left a rfl) (right b rfl)
    | compare _ a b => exact .compare (left a rfl) (right b rfl)
    | sequence a b => exact .sequence (left a rfl) (right b rfl)
    | template before part =>
      constructor
      · cases before with
        | none => exact .literal _ _
        | some a => exact left a rfl
      · cases part with
        | none => exact .literal _ _
        | some b => exact right b rfl
    | root | step | union | nodeTest | attributeTest | filter | var | contextItem | parent =>
      cases free

/-- A node that is flagged as constant is no pattern. -/
theorem unsuitable_of_isConstant {forest : Forest} (flagged : forest.Flagged) {id : NodeId}
    (constant : forest.isConstant id = true) :
    ∃ form, (forest.expression id).unsuitable? = some (id, form) := by
  obtain ⟨form, found⟩ := exists_form_of_isConstant constant
  have inferred := flagged id form found constant
  rw [infersConstant, Bool.and_eq_true] at inferred
  obtain ⟨free, -⟩ := inferred
  rw [expression_of_form? found]
  cases form with
  | literal | list | call | arithmetic | negate | logic | compare | sequence | template =>
    exact ⟨_, rfl⟩
  | root | step | union | nodeTest | attributeTest | filter | var | contextItem | parent =>
    cases free

section Nodes

variable {forest : Forest} {id : NodeId} {node : TreeNode} (found : forest.node? id = some node)

include found

theorem isConstant_of_node? (isFlagged : node.constant = true) : forest.isConstant id = true := by
  rw [isConstant, found]
  exact isFlagged

theorem ne_list_of_node? (noList : node.form.isList = false) (left last : NodeId) :
    forest.form? id ≠ some (.list left last) := by
  intro isList
  rw [form?, found] at isList
  rw [Option.some.inj isList] at noList
  cases noList

end Nodes

/-! ## What a forest looks like from outside -/

/-- One forest can stand in for another: every expression is interchangeable with what it was, and
everything else that is asked of nodes has the same answer. -/
structure Preserves (before after : Forest) : Prop where
  library : after.library = before.library
  expression : ∀ id,
    Interchangeable before.library (after.expression id) (before.expression id)
  alternatives : ∀ id, after.alternatives id = before.alternatives id
  arguments : ∀ chain, after.arguments chain = before.arguments chain
  priority : ∀ id, after.priority id = before.priority id
  isConstant : ∀ id, after.isConstant id = before.isConstant id
  form : ∀ id, after.form? id = before.form? id ∨ before.isConstant id = true ∧
    ∃ value, after.form? id = some (.literal (.computed value))

namespace Preserves

theorem refl (forest : Forest) : Preserves forest forest where
  library := rfl
  expression := fun _ => Interchangeable.refl _
  alternatives := fun _ => rfl
  arguments := fun _ => rfl
  priority := fun _ => rfl
  isConstant := fun _ => rfl
  form := fun _ => .inl rfl

theorem trans {first second third : Forest} (one : Preserves first second)
    (two : Preserves second third) : Preserves first third where
  library := two.library.trans one.library
  expression := by
    intro id
    have last := two.expression id
    rw [one.library] at last
    exact last.trans (one.expression id)
  alternatives := fun id => (two.alternatives id).trans (one.alternatives id)
  arguments := fun chain => (two.arguments chain).trans (one.arguments chain)
  priority := fun id => (two.priority id).trans (one.priority id)
  isConstant := fun id => (two.isConstant id).trans (one.isConstant id)
  form := by
    intro id
    rcases two.form id with same | ⟨constant, folded⟩
    · rw [same]
      exact one.form id
    · exact .inr ⟨by rw [← one.isConstant, constant], folded⟩

end Preserves

/-- The flag that a form gets depends on the flags of its operands, and on how many arguments are
chained below them. -/
theorem infersConstant_map {first second : Forest} (library : second.library = first.library)
    (f : NodeId → NodeId) (form : Form NodeId)
    (flags : ∀ operand ∈ form.operands, second.isConstant (f operand) = first.isConstant operand)
    (counts : ∀ operand ∈ form.operands,
      (second.arguments (some (f operand))).length = (first.arguments (some operand)).length) :
    second.infersConstant (form.map f) = first.infersConstant form := by
  have operands : (form.map f).operands.all second.isConstant =
      form.operands.all first.isConstant := by
    rw [Form.operands_map, List.all_map, Bool.eq_iff_iff, List.all_eq_true, List.all_eq_true]
    exact forall₂_congr fun operand mem => by rw [Function.comp_apply, flags operand mem]
  have free : second.isContextFree (form.map f) = first.isContextFree form := by
    cases form with
    | call function arguments =>
      rw [Form.map_call, isContextFree, isContextFree, library]
      cases arguments with
      | none => rfl
      | some chain => rw [Option.map_some, counts chain List.mem_cons_self]
    | template before part => rw [Form.map_template, isContextFree, isContextFree]
    | _ => rfl
  rw [infersConstant, infersConstant, operands, free]

theorem infersConstant_congr {before after : Forest} (library : after.library = before.library)
    (arguments : ∀ chain, after.arguments chain = before.arguments chain)
    (isConstant : ∀ id, after.isConstant id = before.isConstant id) (form : Form NodeId) :
    after.infersConstant form = before.infersConstant form := by
  have same := infersConstant_map library (fun operand => operand) form
    (fun operand _ => isConstant operand) fun operand _ => by rw [arguments]
  rwa [Form.map_self] at same

/-! ## Settling a node -/

section Settle

variable (forest : Forest) (id : NodeId) (value : Sequence)

theorem node?_settle (other : NodeId) :
    (forest.settle id value).node? other =
      if id = other then (forest.node? other).map fun node =>
        { node with form := .literal (.computed value), constant := true }
      else forest.node? other := by
  obtain ⟨index⟩ := id
  obtain ⟨place⟩ := other
  simp only [node?, settle, Array.getElem?_modify, NodeId.mk.injEq]

theorem form?_settle (other : NodeId) :
    (forest.settle id value).form? other =
      if id = other then (forest.form? other).map fun _ => .literal (.computed value)
      else forest.form? other := by
  rw [form?, node?_settle, form?]
  split
  · cases forest.node? other <;> rfl
  · rfl

theorem priority_settle (other : NodeId) :
    (forest.settle id value).priority other = forest.priority other := by
  rw [priority, node?_settle, priority]
  split
  · cases forest.node? other <;> rfl
  · rfl

variable {forest id}

theorem isConstant_settle (constant : forest.isConstant id = true) (other : NodeId) :
    (forest.settle id value).isConstant other = forest.isConstant other := by
  rw [isConstant, node?_settle]
  split
  · next same =>
    subst same
    obtain ⟨node, found, -⟩ := Option.any_eq_true _ _ |>.mp constant
    rw [constant, found]
    rfl
  · rfl

variable (flagged : forest.Flagged) (constant : forest.isConstant id = true)

include flagged constant in
/-- What is settled is no union. -/
theorem form?_ne_union (left right : NodeId) : forest.form? id ≠ some (.union left right) := by
  intro found
  have inferred := flagged id _ found constant
  cases inferred

include flagged constant in
theorem alternatives_settle (other : NodeId) :
    (forest.settle id value).alternatives other = forest.alternatives other := by
  have within : ∀ steps other, (forest.settle id value).alternativesWithin steps other =
      forest.alternativesWithin steps other := by
    intro steps
    induction steps with
    | zero => exact fun _ => rfl
    | succ steps ih =>
      intro other
      rw [alternativesWithin, alternativesWithin, form?_settle]
      by_cases same : id = other
      · subst same
        obtain ⟨form, found⟩ := exists_form_of_isConstant constant
        rw [if_pos rfl, found]
        split
        · next left right eq =>
          cases eq
        · split
          · next left right eq =>
            cases eq
            exact absurd found (form?_ne_union flagged constant left right)
          · rfl
      · rw [if_neg same]
        split
        · rw [ih, ih]
        · rfl
  exact within other.index other

theorem chained_settle (notList : ∀ left last, forest.form? id ≠ some (.list left last))
    (steps : Nat) (other : NodeId) :
    (forest.settle id value).chained steps other = forest.chained steps other := by
  induction steps generalizing other with
  | zero => rfl
  | succ steps ih =>
    rw [chained, chained, form?_settle]
    by_cases same : id = other
    · subst same
      cases found : forest.form? id with
      | none => simp
      | some form =>
        cases form with
        | list left last => exact absurd found (notList left last)
        | _ => simp
    · rw [if_neg same]
      split
      · rw [ih]
      · rfl

theorem arguments_settle (notList : ∀ left last, forest.form? id ≠ some (.list left last))
    (chain : Option NodeId) : (forest.settle id value).arguments chain = forest.arguments chain := by
  cases chain with
  | none => rfl
  | some chain => exact chained_settle value notList chain.index chain

include constant in
/-- A node of the forest with the value is the value, which is rightly flagged, or it is as it was. -/
theorem flag_of_settle (notList : ∀ left last, forest.form? id ≠ some (.list left last))
    {other : NodeId} {form : Form NodeId} (found : (forest.settle id value).form? other = some form) :
    (forest.settle id value).isConstant other = true ∧
        (forest.settle id value).infersConstant form = true ∨
      forest.form? other = some form ∧
        (forest.settle id value).isConstant other = forest.isConstant other ∧
        (forest.settle id value).infersConstant form = forest.infersConstant form := by
  have library : (forest.settle id value).library = forest.library := rfl
  have flag := isConstant_settle value constant other
  rw [form?_settle] at found
  split at found
  · next same =>
    subst same
    obtain ⟨_, _, rfl⟩ := Option.map_eq_some_iff.mp found
    exact .inl ⟨flag.trans constant, rfl⟩
  · exact .inr ⟨found, flag, infersConstant_congr library (arguments_settle value notList)
      (isConstant_settle value constant) form⟩

include flagged constant in
theorem flagged_settle (notList : ∀ left last, forest.form? id ≠ some (.list left last)) :
    (forest.settle id value).Flagged := by
  intro other form found isConstant
  rcases flag_of_settle value constant notList found with ⟨-, inferred⟩ | ⟨before, flag, inferred⟩
  · exact inferred
  · rw [inferred]
    exact flagged other form before (flag.symm.trans isConstant)

include flagged constant in
/-- Replacing a constant node by the value computed for it changes nothing that can be seen. -/
theorem preserves_settle (depends : forest.library.DependsOnArguments)
    (notList : ∀ left last, forest.form? id ≠ some (.list left last))
    (quiet : forest.quietValue? id = some value) : Preserves forest (forest.settle id value) where
  library := rfl
  alternatives := alternatives_settle value flagged constant
  arguments := arguments_settle value notList
  priority := priority_settle forest id value
  isConstant := isConstant_settle value constant
  form := by
    intro other
    rw [form?_settle]
    by_cases same : id = other
    · subst same
      obtain ⟨form, found⟩ := exists_form_of_isConstant constant
      rw [if_pos rfl, found]
      exact .inr ⟨constant, value, rfl⟩
    · rw [if_neg same]
      exact .inl rfl
  expression := by
    intro other
    obtain ⟨index⟩ := other
    -- on the place of the node: what it is made up of comes before it
    induction index using Nat.strongRecOn with
    | ind index ih =>
      have form := form?_settle forest id value ⟨index⟩
      by_cases same : id = ⟨index⟩
      · subst same
        obtain ⟨old, found⟩ := exists_form_of_isConstant constant
        rw [if_pos rfl, found] at form
        obtain ⟨unsuitable, described⟩ := unsuitable_of_isConstant flagged constant
        -- the node is no pattern before or after, so only its value counts
        have settled := expression_of_form? form
        rw [settled]
        exact Interchangeable.of_unsuitable rfl described fun scene top =>
          (evaluate_of_quietValue? depends (constant_expression flagged _ constant) quiet scene
            top).symm
      · rw [if_neg same] at form
        cases found : forest.form? ⟨index⟩ with
        | none =>
          rw [found] at form
          rw [expression_of_missing form, expression_of_missing found]
          exact Interchangeable.refl _
        | some old =>
          rw [found] at form
          rw [expression_of_form? form, expression_of_form? found,
            assemble_congr (arguments_settle value notList) (isConstant_settle value constant)]
          refine interchangeable_assemble forest (fun inner => ?_) ⟨index⟩ old
          by_cases earlier : inner.index < index
          · simpa only [if_pos earlier] using ih inner.index earlier
          · simp only [if_neg earlier]
            exact Interchangeable.refl _

end Settle

/-! ## One node after another -/

/-- A node that was asked for is replaced by its value and counted. It is flagged as constant, it is
no value yet and no chain of arguments, and computing it reports nothing. -/
inductive FoldStep (asked : NodeId → Prop) : Nat × Forest → Nat × Forest → Prop
  | settle {count : Nat} {forest : Forest} {id : NodeId} {node : TreeNode} {value : Sequence} :
      asked id → forest.node? id = some node → node.constant = true →
      node.form.isLiteral = false → node.form.isList = false →
      forest.quietValue? id = some value →
      FoldStep asked (count, forest) (count + 1, forest.settle id value)

/-- Any number of nodes are replaced, one after another. -/
abbrev FoldSteps (asked : NodeId → Prop) : Nat × Forest → Nat × Forest → Prop :=
  Relation.ReflTransGen (FoldStep asked)

section Steps

variable {asked : NodeId → Prop} {start final : Nat × Forest}

theorem FoldStep.preserves (step : FoldStep asked start final) (flagged : start.2.Flagged)
    (depends : start.2.library.DependsOnArguments) :
    Preserves start.2 final.2 ∧ final.2.Flagged := by
  obtain ⟨-, found, isFlagged, -, noList, quiet⟩ := step
  have constant := isConstant_of_node? found isFlagged
  have notList := ne_list_of_node? found noList
  exact ⟨preserves_settle _ flagged constant depends notList quiet,
    flagged_settle _ flagged constant notList⟩

/-- Whatever steps do to a forest, one forest can stand in for the other in the end, and its flags
are as good. -/
theorem FoldSteps.preserves (steps : FoldSteps asked start final) (flagged : start.2.Flagged)
    (depends : start.2.library.DependsOnArguments) :
    Preserves start.2 final.2 ∧ final.2.Flagged := by
  induction steps with
  | refl => exact ⟨.refl _, flagged⟩
  | tail _ step ih =>
    obtain ⟨before, stillFlagged⟩ := ih
    obtain ⟨more, atLast⟩ := step.preserves stillFlagged (by rw [before.library]; exact depends)
    exact ⟨before.trans more, atLast⟩

/-- No node gets a new operand, so nothing comes in below a node. -/
theorem FoldSteps.hasOperand (steps : FoldSteps asked start final) {id operand : NodeId}
    (isOperand : final.2.HasOperand id operand) : start.2.HasOperand id operand := by
  induction steps with
  | refl => exact isOperand
  | tail _ step ih =>
    obtain ⟨-, -, -, -, -, -⟩ := step
    obtain ⟨form, found, mem⟩ := isOperand
    rw [form?_settle] at found
    split at found
    · obtain ⟨_, _, rfl⟩ := Option.map_eq_some_iff.mp found
      cases mem
    · exact ih ⟨form, found, mem⟩

theorem FoldSteps.below (steps : FoldSteps asked start final) {id inner : NodeId}
    (below : final.2.Below id inner) : start.2.Below id inner :=
  Relation.ReflTransGen.mono (fun _ _ => steps.hasOperand) id inner below

end Steps

/-! ## Folding -/

/-- There is nothing to replace at a node: it is not constant, or a value, or a chain of arguments,
or computing it does not go without a report. -/
def Residual (forest : Forest) (id : NodeId) : Prop :=
  forest.isConstant id = false ∨ (∃ value, forest.form? id = some (.literal value)) ∨
    (∃ left last, forest.form? id = some (.list left last)) ∨ forest.quietValue? id = none

/-- Fold some nodes, one after the other, and count all that are replaced. -/
def foldEach (steps : Nat) (ids : List NodeId) (counted : Nat × Forest) : Nat × Forest :=
  ids.foldl
    (fun counted id =>
      (counted.1 + (foldWithin steps id counted.2).1, (foldWithin steps id counted.2).2))
    counted

/-- Folding replaces the node, or there is nothing to replace at it and its operands are folded. -/
theorem foldWithin_succ (steps : Nat) (id : NodeId) (forest : Forest) :
    FoldStep (· = id) (0, forest) (foldWithin (steps + 1) id forest) ∨
    forest.Residual id ∧ foldWithin (steps + 1) id forest =
      foldEach steps (((forest.form? id).map Form.operands).getD []) (0, forest) := by
  unfold foldWithin Residual
  rw [form?, isConstant]
  cases found : forest.node? id with
  | none => exact .inr ⟨.inl rfl, rfl⟩
  | some node =>
    obtain ⟨form, priority, constant⟩ := node
    by_cases isLiteral : form.isLiteral = true
    · obtain ⟨value, rfl⟩ : ∃ value, form = .literal value := by
        cases form with
        | literal value => exact ⟨value, rfl⟩
        | _ => cases isLiteral
      exact .inr ⟨.inr (.inl ⟨value, rfl⟩), rfl⟩
    · simp only [isLiteral, Bool.false_eq_true, if_false]
      by_cases asks : (constant && !form.isList) = true
      · rw [if_pos asks]
        cases quiet : forest.quietValue? id with
        | none => exact .inr ⟨.inr (.inr (.inr rfl)), rfl⟩
        | some value =>
          rw [Bool.and_eq_true, Bool.not_eq_true'] at asks
          exact .inl (.settle rfl found asks.1 (by simpa using isLiteral) asks.2 quiet)
      · rw [if_neg asks]
        refine .inr ⟨?_, rfl⟩
        cases form with
        | list left last => exact .inr (.inr (.inl ⟨left, last, rfl⟩))
        | _ => exact .inl (by simpa [Form.isList] using asks)

theorem FoldStep.shift {asked further : NodeId → Prop} {count : Nat} {start final : Nat × Forest}
    (step : FoldStep asked start final) (more : ∀ id, asked id → further id) :
    FoldStep further (count + start.1, start.2) (count + final.1, final.2) := by
  obtain ⟨isAsked, found, constant, noLiteral, noList, quiet⟩ := step
  exact .settle (more _ isAsked) found constant noLiteral noList quiet

/-- Folding several nodes is a number of steps if folding each of them is. -/
theorem foldSteps_foldEach {asked : NodeId → Prop} {steps : Nat}
    (each : ∀ (id : NodeId) (counted : Nat × Forest),
      (∀ inner, counted.2.Below id inner → asked inner) → FoldSteps asked counted
        (counted.1 + (foldWithin steps id counted.2).1, (foldWithin steps id counted.2).2))
    (ids : List NodeId) (counted : Nat × Forest)
    (all : ∀ id ∈ ids, ∀ inner, counted.2.Below id inner → asked inner) :
    FoldSteps asked counted (foldEach steps ids counted) := by
  induction ids generalizing counted with
  | nil => exact .refl
  | cons id rest ih =>
    rw [List.forall_mem_cons] at all
    have first := each id counted all.1
    exact first.trans (ih _ fun other mem inner below => all.2 other mem inner (first.below below))

/-- Folding is a number of steps below the node. -/
theorem foldSteps_foldWithin {asked : NodeId → Prop} (steps : Nat) (id : NodeId)
    (counted : Nat × Forest) (all : ∀ inner, counted.2.Below id inner → asked inner) :
    FoldSteps asked counted
      (counted.1 + (foldWithin steps id counted.2).1, (foldWithin steps id counted.2).2) := by
  induction steps generalizing id counted with
  | zero => exact .refl
  | succ steps ih =>
    rcases foldWithin_succ steps id counted.2 with step | ⟨-, folded⟩
    · exact .single (step.shift fun _ same => same ▸ all _ .refl)
    · rw [folded]
      have path := foldSteps_foldEach ih _ (0, counted.2) fun operand mem inner below =>
        all inner (below.head (hasOperand_iff.mpr mem))
      exact path.lift (fun reached => (counted.1 + reached.1, reached.2)) fun _ _ step =>
        step.shift fun _ isAsked => isAsked

theorem foldWithin_preserves (steps : Nat) (id : NodeId) (forest : Forest)
    (flagged : forest.Flagged) (depends : forest.library.DependsOnArguments) :
    Preserves forest (foldWithin steps id forest).2 ∧ (foldWithin steps id forest).2.Flagged :=
  (foldSteps_foldWithin steps id (0, forest) fun _ below => below).preserves flagged depends

/-! ## Forests that are built -/

/-- A forest with one library that is built by adding nodes over nodes that are there, with any
priorities for new nodes, and by folding. -/
inductive Built (library : Library) : Forest → Prop
  | start (policy : PriorityPolicy) : Built library { policy, library }
  | withPolicy {forest : Forest} (policy : PriorityPolicy) : Built library forest →
      Built library { forest with policy }
  | add {forest : Forest} {form : Form NodeId} : Built library forest →
      (∀ operand ∈ form.operands, operand.index < forest.size) → Built library (forest.add form).2
  | fold {forest : Forest} (id : NodeId) : Built library forest →
      Built library (forest.foldConstants id).2

theorem arguments_withPolicy {forest : Forest} (policy : PriorityPolicy) (chain : Option NodeId) :
    arguments { forest with policy } chain = forest.arguments chain := by
  have chained : ∀ steps id, chained { forest with policy } steps id = forest.chained steps id := by
    intro steps
    induction steps with
    | zero => exact fun _ => rfl
    | succ steps ih =>
      intro id
      rw [Forest.chained, Forest.chained]
      simp only [ih]
      rfl
  cases chain with
  | none => rfl
  | some chain => exact chained chain.index chain

/-- Priorities do not matter to flags. -/
theorem flagged_withPolicy {forest : Forest} (policy : PriorityPolicy) (flagged : forest.Flagged) :
    Flagged { forest with policy } := by
  have library : library { forest with policy } = forest.library := rfl
  intro id form found constant
  rw [infersConstant_congr library (arguments_withPolicy policy) fun _ => rfl]
  exact flagged id form found constant

/-- In a forest that has grown, a form over nodes that were there gets the flag it would have got. -/
theorem Extends.infersConstant {base grown : Forest} (extension : Extends base grown)
    (founded : base.WellFounded) {form : Form NodeId}
    (there : ∀ operand ∈ form.operands, operand.index < base.size) :
    grown.infersConstant form = base.infersConstant form := by
  have same := infersConstant_map extension.library (fun operand => operand) form
    (fun operand mem => extension.isConstant (there operand mem))
    fun operand mem => by rw [extension.arguments founded (there operand mem)]
  rwa [Form.map_self] at same

/-- A node of the forest with a new node is that one, or it is as it was. -/
theorem flag_of_append {forest : Forest} (founded : forest.WellFounded) {node : TreeNode}
    (there : ∀ operand ∈ node.form.operands, operand.index < forest.size) {id : NodeId}
    {form : Form NodeId} (found : (forest.append node).2.form? id = some form) :
    (forest.append node).2.isConstant id = node.constant ∧
        (forest.append node).2.infersConstant form = forest.infersConstant node.form ∨
      forest.form? id = some form ∧
        (forest.append node).2.isConstant id = forest.isConstant id ∧
        (forest.append node).2.infersConstant form = forest.infersConstant form := by
  have extension := Extends.append forest node
  rw [form?_append] at found
  split at found
  · next last =>
    cases found
    obtain rfl : id = ⟨forest.size⟩ := congrArg NodeId.mk last
    refine .inl ⟨?_, extension.infersConstant founded there⟩
    rw [isConstant, node?_append_self]
    rfl
  · have inside := lt_size_of_form? found
    exact .inr ⟨found, extension.isConstant inside, extension.infersConstant founded fun operand mem =>
      Nat.lt_trans (founded id form found operand mem) inside⟩

/-- A new node over nodes that are there leaves the flags right if its own is. -/
theorem flagged_append {forest : Forest} (founded : forest.WellFounded) (flagged : forest.Flagged)
    {node : TreeNode} (there : ∀ operand ∈ node.form.operands, operand.index < forest.size)
    (right : node.constant = true → forest.infersConstant node.form = true) :
    (forest.append node).2.Flagged := by
  intro id other found constant
  rcases flag_of_append founded there found with ⟨flag, inferred⟩ | ⟨before, flag, inferred⟩
  · rw [inferred]
    exact right (flag.symm.trans constant)
  · rw [inferred]
    exact flagged id other before (flag.symm.trans constant)

theorem flagged_add {forest : Forest} (founded : forest.WellFounded) (flagged : forest.Flagged)
    {form : Form NodeId} (there : ∀ operand ∈ form.operands, operand.index < forest.size) :
    (forest.add form).2.Flagged :=
  flagged_append founded flagged there fun inferred => inferred

/-- Replacing nodes by values leaves every operand before its node. -/
theorem Preserves.wellFounded {before after : Forest} (preserves : Preserves before after)
    (founded : before.WellFounded) : after.WellFounded := by
  intro id form found operand mem
  rcases preserves.form id with same | ⟨-, value, folded⟩
  · rw [same] at found
    exact founded id form found operand mem
  · rw [folded] at found
    cases found
    cases mem

/-- What is built has its library, operands before their nodes, and flags that are right. -/
theorem Built.sound {library : Library} (depends : library.DependsOnArguments) {forest : Forest}
    (built : Built library forest) :
    forest.library = library ∧ forest.WellFounded ∧ forest.Flagged := by
  induction built with
  | start policy =>
    refine ⟨rfl, ?_, ?_⟩ <;>
    · intro id form found
      simp [form?, node?] at found
  | @withPolicy forest policy _ ih =>
    obtain ⟨same, founded, flagged⟩ := ih
    exact ⟨same, founded, flagged_withPolicy policy flagged⟩
  | add _ there ih =>
    obtain ⟨same, founded, flagged⟩ := ih
    exact ⟨same, wellFounded_add founded there, flagged_add founded flagged there⟩
  | fold id _ ih =>
    obtain ⟨same, founded, flagged⟩ := ih
    obtain ⟨preserves, still⟩ := foldWithin_preserves (id.index + 1) id _ flagged
      (by rw [same]; exact depends)
    exact ⟨preserves.library.trans same, preserves.wellFounded founded, still⟩

/-- Two outcomes of a match leave the same context and give the same answer, or both fail, with
messages that differ in the description of an expression at most. -/
def SameOutcome (first second : Except Diagnostic Bool × Context) : Prop :=
  first.2 = second.2 ∧ (first.1 = second.1 ∨
    ∃ d e, first.1 = .error d ∧ second.1 = .error e ∧ SameFault d e)

theorem sameOutcome_of_answerAlike {context : Context} {first second : Scene → Run Bool}
    (alike : AnswerAlike (first context.toScene) (second context.toScene)) :
    SameOutcome (context.run first) (context.run second) := by
  rcases Run.Related.run alike rfl with ⟨_, _, _, one, two, rfl⟩ | ⟨_, _, _, _, one, two, fault, rfl⟩
  · rw [one, two]
    exact ⟨rfl, .inl rfl⟩
  · rw [one, two]
    exact ⟨rfl, .inr ⟨_, _, rfl, rfl, fault⟩⟩

/-- Folding below any node changes nothing about any node of a forest: in every context it has the
same value or failure and matches alike, with the same position, remembered scopes and reports
afterwards; and it has the same alternatives, arguments, priority and flag. A node that is replaced
was flagged as constant. -/
theorem foldConstants_preserves (library : Library) (depends : library.DependsOnArguments)
    (forest : Forest) (built : Built library forest) (id node : NodeId) (context : Context)
    (top : Nat) :
    (forest.foldConstants id).2.evaluate node context top = forest.evaluate node context top ∧
    (∀ rank, SameOutcome ((forest.foldConstants id).2.accepts node context top rank)
      (forest.accepts node context top rank)) ∧
    (forest.foldConstants id).2.alternatives node = forest.alternatives node ∧
    (∀ chain, (forest.foldConstants id).2.arguments chain = forest.arguments chain) ∧
    (forest.foldConstants id).2.priority node = forest.priority node ∧
    (forest.foldConstants id).2.isConstant node = forest.isConstant node ∧
    ((forest.foldConstants id).2.form? node = forest.form? node ∨
      forest.isConstant node = true ∧
        ∃ value, (forest.foldConstants id).2.form? node = some (.literal (.computed value))) := by
  obtain ⟨same, -, flagged⟩ := built.sound depends
  obtain ⟨preserves, -⟩ := foldWithin_preserves (id.index + 1) id forest flagged
    (by rw [same]; exact depends)
  refine ⟨?_, fun rank => ?_, preserves.alternatives node, preserves.arguments,
    preserves.priority node, preserves.isConstant node, preserves.form node⟩
  · unfold evaluate
    congr 1
    funext scene
    rw [show (forest.foldConstants id).2.library = forest.library from preserves.library]
    exact (preserves.expression node).evaluate scene top
  · have library : (forest.foldConstants id).2.library = forest.library := preserves.library
    unfold accepts
    rw [library]
    exact sameOutcome_of_answerAlike ((preserves.expression node).accepts context.toScene top rank)

/-- A conjunction over the core library is folded to what it comes to. -/
theorem fold_conjunction :
    let first := (empty.add (.literal (.computed (.ofBoolean true)))).2
    let second := (first.add (.literal (.computed []))).2
    let both := (second.add (.logic .and ⟨0⟩ ⟨1⟩)).2
    let context : Context := { position := 3 }
    Library.core.DependsOnArguments ∧ Built .core both ∧
      (both.foldConstants ⟨2⟩).2.form? ⟨2⟩ = some (.literal (.computed (.ofBoolean false))) ∧
      (both.foldConstants ⟨2⟩).2.evaluate ⟨2⟩ context 0 = both.evaluate ⟨2⟩ context 0 := by
  intro first second both context
  have built : Built .core both := by
    refine .add (.add (.add (.start {}) ?_) ?_) ?_
    · exact nofun
    · exact nofun
    · decide
  exact ⟨Library.core_dependsOnArguments, built, rfl,
    (foldConstants_preserves .core Library.core_dependsOnArguments both built ⟨2⟩ ⟨2⟩ context 0).1⟩

end Forest

end StreamPath
