import Mathlib.Logic.Relation
import StreamPath.Proofs.Lockstep
import StreamPath.Proofs.Relocation

/-!
# Nodes below a node

What a node stands for is made up of its operands, of their operands, and so on: of what is below it.
The reachable nodes are found by marking operands from the node down; one pass is enough, since every
operand comes before its node.

* `Forest.Below` — a node and everything it is made of;
* `Forest.eq_expression_of_contains` — an expression contains those of the nodes below its node;
* `Forest.Extends.below_iff` — nothing comes in below a node that was there;
* `Forest.mem_reachable_iff` — the pass finds what is below, and nothing else.
-/

namespace StreamPath

namespace Forest

/-- One node is an operand of another. -/
def HasOperand (forest : Forest) (id operand : NodeId) : Prop :=
  ∃ form, forest.form? id = some form ∧ operand ∈ form.operands

/-- A node is the first one, or an operand of it, or an operand of that, and so on. -/
abbrev Below (forest : Forest) : NodeId → NodeId → Prop := Relation.ReflTransGen forest.HasOperand

variable {forest : Forest}

theorem hasOperand_iff {id operand : NodeId} :
    forest.HasOperand id operand ↔ operand ∈ ((forest.form? id).map Form.operands).getD [] := by
  unfold HasOperand
  cases forest.form? id <;> simp

/-- Chained arguments are below the chain. -/
theorem below_of_mem_chained {steps : Nat} {id argument : NodeId}
    (mem : argument ∈ forest.chained steps id) : forest.Below id argument := by
  induction steps generalizing id with
  | zero =>
    rw [List.mem_singleton.mp mem]
  | succ steps ih =>
    unfold chained at mem
    split at mem
    · next left last found =>
      rcases List.mem_append.mp mem with inner | isLast
      · exact (ih inner).head ⟨_, found, List.mem_cons_self⟩
      · rw [List.mem_singleton.mp isLast]
        exact .single ⟨_, found, List.mem_cons_of_mem _ List.mem_cons_self⟩
    · rw [List.mem_singleton.mp mem]

/-- The parts of a node are below it. -/
theorem below_of_mem_parts {id inner : NodeId} {form : Form NodeId}
    (found : forest.form? id = some form) (isPart : inner ∈ forest.parts form) :
    forest.Below id inner := by
  cases form with
  | call function arguments =>
    cases arguments with
    | none => cases isPart
    | some chain => exact (below_of_mem_chained isPart).head ⟨_, found, List.mem_cons_self⟩
  | list left last => cases isPart
  | _ => exact .single ⟨_, found, isPart⟩

/-- A node without operands has nothing but itself below it. -/
theorem eq_of_below {id inner : NodeId} (childless : ∀ operand, ¬forest.HasOperand id operand)
    (below : forest.Below id inner) : inner = id := by
  rcases Relation.ReflTransGen.cases_head below with same | ⟨operand, isOperand, -⟩
  · exact same.symm
  · exact absurd isOperand (childless operand)

/-- A node is below another one if it is that one, or is below an operand of it. -/
theorem below_iff {id inner : NodeId} {form : Form NodeId} (found : forest.form? id = some form) :
    forest.Below id inner ↔ inner = id ∨ ∃ operand ∈ form.operands, forest.Below operand inner := by
  constructor
  · intro below
    rcases Relation.ReflTransGen.cases_head below with same | ⟨operand, ⟨other, isForm, mem⟩, rest⟩
    · exact .inl same.symm
    · cases found.symm.trans isForm
      exact .inr ⟨operand, mem, rest⟩
  · rintro (rfl | ⟨operand, mem, rest⟩)
    · exact .refl
    · exact rest.head ⟨form, found, mem⟩

/-! ## What an expression contains -/

/-- The operands of an assembled expression are those of the parts of its form. Beside them there is
only what stands for a missing part of a template. -/
theorem operands_assemble {operand : NodeId → Expr} {id : NodeId} {form : Form NodeId} {expr : Expr}
    (mem : expr ∈ (forest.assemble operand id form).operands) :
    (∃ part ∈ forest.parts form, expr = operand part) ∨ expr = .nothing id := by
  cases form with
  | root | nodeTest | attributeTest | literal | list | var | contextItem | parent => cases mem
  | negate inner =>
    rw [List.mem_singleton.mp mem]
    exact .inl ⟨inner, List.mem_cons_self, rfl⟩
  | step axis left right | union left right | filter left right | arithmetic op left right
  | logic op left right | compare op left right | sequence left right =>
    simp only [assemble, Expr.operands, List.mem_cons, List.not_mem_nil, or_false] at mem
    rcases mem with rfl | rfl
    · exact .inl ⟨left, List.mem_cons_self, rfl⟩
    · exact .inl ⟨right, List.mem_cons_of_mem _ List.mem_cons_self, rfl⟩
  | call function arguments =>
    obtain ⟨inner, isArgument, rfl⟩ := List.mem_map.mp mem
    exact .inl ⟨inner, isArgument, rfl⟩
  | template before part =>
    simp only [assemble, Expr.operands, List.mem_cons, List.not_mem_nil, or_false] at mem
    rcases mem with rfl | rfl
    · cases before with
      | none => exact .inr rfl
      | some inner => exact .inl ⟨inner, List.mem_append_left _ List.mem_cons_self, rfl⟩
    · cases part with
      | none => exact .inr rfl
      | some inner => exact .inl ⟨inner, List.mem_append_right _ List.mem_cons_self, rfl⟩

/-- Whatever the expression of a node contains is the expression of a node below it, or stands for no
value. -/
theorem eq_expression_of_contains {id : NodeId} {expr : Expr}
    (within : (forest.expression id).Contains expr) :
    (∃ inner, forest.Below id inner ∧ expr = forest.expression inner) ∨
      ∃ missing, expr = .nothing missing := by
  induction within with
  | self => exact .inl ⟨id, .refl, rfl⟩
  | operand _ mem ih =>
    rcases ih with ⟨outer, below, rfl⟩ | ⟨missing, rfl⟩
    · cases found : forest.form? outer with
      | none =>
        rw [expression_of_missing found] at mem
        cases mem
      | some form =>
        rw [expression_of_form? found] at mem
        rcases operands_assemble mem with ⟨part, isPart, rfl⟩ | rfl
        · split
          · exact .inl ⟨part, below.trans (below_of_mem_parts found isPart), rfl⟩
          · exact .inr ⟨part, rfl⟩
        · exact .inr ⟨outer, rfl⟩
    · cases mem

/-- So the only literals in it are those stored in nodes below it, and the empty ones. -/
theorem form?_of_contains_literal {id inner : NodeId} {value : Literal}
    (within : (forest.expression id).Contains (.literal inner value)) :
    (∃ node, forest.Below id node ∧ forest.form? node = some (.literal value)) ∨
      value = .computed [] := by
  rcases eq_expression_of_contains within with ⟨node, below, same⟩ | ⟨missing, same⟩
  · cases found : forest.form? node with
    | none =>
      rw [expression_of_missing found] at same
      cases same
      exact .inr rfl
    | some form =>
      rw [expression_of_form? found] at same
      cases form with
      | literal other =>
        cases same
        exact .inl ⟨_, below, found⟩
      | _ => cases same
  · cases same
    exact .inr rfl

/-! ## Below earlier nodes -/

section WellFounded

variable (founded : forest.WellFounded)

include founded

theorem HasOperand.index_lt {id operand : NodeId} (isOperand : forest.HasOperand id operand) :
    operand.index < id.index := by
  obtain ⟨form, found, mem⟩ := isOperand
  exact founded id form found operand mem

/-- What is below a node does not come after it. -/
theorem index_le_of_below {id inner : NodeId} (below : forest.Below id inner) :
    inner.index ≤ id.index := by
  induction below with
  | refl => exact Nat.le_refl _
  | tail _ isOperand ih => exact Nat.le_trans (Nat.le_of_lt (isOperand.index_lt founded)) ih

/-- In a forest that has grown, the same is below a node that was there. -/
theorem Extends.below_iff {grown : Forest} (extension : Extends forest grown) {id inner : NodeId}
    (inside : id.index < forest.size) : grown.Below id inner ↔ forest.Below id inner := by
  have forms : ∀ node : NodeId, node.index < forest.size → grown.form? node = forest.form? node := by
    intro node there
    rw [form?, extension.kept node there, form?]
  constructor
  · intro below
    -- along the way everything was there, since operands come first
    induction below with
    | refl => exact .refl
    | tail _ isOperand ih =>
      obtain ⟨form, found, mem⟩ := isOperand
      have there := Nat.lt_of_le_of_lt (index_le_of_below founded ih) inside
      rw [forms _ there] at found
      exact ih.tail ⟨form, found, mem⟩
  · refine fun below => Relation.ReflTransGen.mono ?_ id inner below
    rintro node operand ⟨form, found, mem⟩
    exact ⟨form, by rw [forms node (lt_size_of_form? found), found], mem⟩

end WellFounded

/-! ## Marking operands -/

/-- The nodes that are marked already stay marked. -/
theorem mem_markOperands_of_mem {limit : Nat} {marked : List NodeId} {id : NodeId}
    (mem : id ∈ marked) : id ∈ forest.markOperands limit marked := by
  induction limit generalizing marked with
  | zero => exact mem
  | succ limit ih => exact ih (List.mem_append_right _ mem)

/-- What the pass marks at one node: operands of it, if it is marked. -/
theorem hasOperand_of_mem_further {marked : List NodeId} {index : Nat} {id : NodeId}
    (mem : id ∈ if marked.contains ⟨index⟩ then
        (((forest.form? ⟨index⟩).map Form.operands).getD []).filter fun id => !marked.contains id
      else []) : ⟨index⟩ ∈ marked ∧ forest.HasOperand ⟨index⟩ id := by
  split at mem
  · next isMarked =>
    exact ⟨by simpa using isMarked, hasOperand_iff.mpr (List.mem_filter.mp mem).1⟩
  · cases mem

/-- Only nodes below marked ones are marked. -/
theorem below_of_mem_markOperands {limit : Nat} {marked : List NodeId} {id : NodeId}
    (mem : id ∈ forest.markOperands limit marked) : ∃ start ∈ marked, forest.Below start id := by
  induction limit generalizing marked with
  | zero => exact ⟨id, mem, .refl⟩
  | succ limit ih =>
    obtain ⟨start, isStart, below⟩ := ih mem
    rcases List.mem_append.mp isStart with further | before
    · obtain ⟨isMarked, isOperand⟩ := hasOperand_of_mem_further further
      exact ⟨⟨limit⟩, isMarked, below.head isOperand⟩
    · exact ⟨start, before, below⟩

section WellFounded

variable (founded : forest.WellFounded)

include founded

/-- Every node that gets marked is below the limit. -/
theorem lt_of_mem_markOperands {limit : Nat} {marked : List NodeId} {id : NodeId}
    (mem : id ∈ forest.markOperands limit marked) : id ∈ marked ∨ id.index < limit := by
  induction limit generalizing marked with
  | zero => exact .inl mem
  | succ limit ih =>
    rcases ih mem with before | lt
    · rcases List.mem_append.mp before with further | marked
      · have earlier := (hasOperand_of_mem_further further).2.index_lt founded
        exact .inr (Nat.lt_succ_of_lt earlier)
      · exact .inl marked
    · exact .inr (Nat.lt_succ_of_lt lt)

/-- The operands of every marked node below the limit are marked in the end. -/
theorem mem_markOperands_of_hasOperand {limit : Nat} {marked : List NodeId} {id operand : NodeId}
    (lt : id.index < limit) (mem : id ∈ forest.markOperands limit marked)
    (isOperand : forest.HasOperand id operand) : operand ∈ forest.markOperands limit marked := by
  induction limit generalizing marked with
  | zero => exact absurd lt (Nat.not_lt_zero _)
  | succ limit ih =>
    by_cases earlier : id.index < limit
    · exact ih earlier mem
    · obtain ⟨index⟩ := id
      obtain rfl : index = limit := Nat.le_antisymm (Nat.le_of_lt_succ lt) (Nat.not_lt.mp earlier)
      -- from here on only nodes before this one get marked, so it was marked already
      have later : (⟨index⟩ : NodeId) ∈ forest.markOperands index (_ ++ marked) := mem
      have isMarked : (⟨index⟩ : NodeId) ∈ marked := by
        rcases lt_of_mem_markOperands founded later with before | lt
        · rcases List.mem_append.mp before with further | marked
          · have less := (hasOperand_of_mem_further further).2.index_lt founded
            exact absurd less (Nat.lt_irrefl _)
          · exact marked
        · exact absurd lt (Nat.lt_irrefl _)
      show operand ∈ forest.markOperands index (_ ++ marked)
      refine mem_markOperands_of_mem ?_
      by_cases already : operand ∈ marked
      · exact List.mem_append_right _ already
      · refine List.mem_append_left _ ?_
        simp [isMarked, hasOperand_iff.mp isOperand, already]

/-- The reachable nodes are those below a node. -/
theorem mem_reachable_iff {id inner : NodeId} : inner ∈ forest.reachable id ↔ forest.Below id inner := by
  have candidate : ∀ other : NodeId, other ∈ forest.reachable id ↔
      other.index < id.index + 1 ∧ other ∈ forest.markOperands (id.index + 1) [id] := by
    intro other
    obtain ⟨index⟩ := other
    simp [reachable]
  rw [candidate]
  constructor
  · rintro ⟨-, marked⟩
    obtain ⟨start, isStart, below⟩ := below_of_mem_markOperands marked
    rw [List.mem_singleton.mp isStart] at below
    exact below
  · intro below
    refine ⟨Nat.lt_succ_of_le (index_le_of_below founded below), ?_⟩
    induction below with
    | refl => exact mem_markOperands_of_mem List.mem_cons_self
    | tail before isOperand ih =>
      have lt := Nat.lt_succ_of_le (index_le_of_below founded before)
      exact mem_markOperands_of_hasOperand founded lt ih isOperand

end WellFounded

theorem nodup_reachable (forest : Forest) (id : NodeId) : (forest.reachable id).Nodup := by
  refine List.Pairwise.filter _ (List.Pairwise.map _ (fun one two differ same => ?_) List.nodup_range)
  cases same
  exact differ rfl

end Forest

end StreamPath
