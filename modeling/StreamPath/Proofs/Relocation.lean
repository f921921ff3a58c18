import StreamPath.Forest.Unfold
import StreamPath.Proofs.Renaming

/-!
# Relocated nodes

A forest can hold what another forest, or itself, holds elsewhere: at other identifiers, over
operands that are found elsewhere too. Then the nodes there stand for the same expressions, whose
nodes are called by the other identifiers. A forest that has grown holds its old nodes at their old
places, and one with copied trees holds the copied nodes at their copies.

* `Form.map` — a form over other operands;
* `Forest.Relocates` — where the nodes of one forest are found in another one;
* `Forest.Relocates.expression` — the expression of a node, elsewhere;
* `Forest.Extends.expression` — nodes that were there stand for what they stood for;
* `Forest.expression_eq_assemble` — where operands come first, an expression is made up of those of
  its parts.
-/

namespace StreamPath

namespace Form

variable {α β : Type} (f : α → β)

/-- The same form over other operands. -/
def map (form : Form α) : Form β := form.mapM (m := Id) f

theorem map_call (function : Name) (arguments : Option α) :
    (call function arguments).map f = call function (arguments.map f) := by
  cases arguments <;> rfl

theorem map_template (before part : Option α) :
    (template before part).map f = template (before.map f) (part.map f) := by
  cases before <;> cases part <;> rfl

@[simp] theorem isList_map (form : Form α) : (form.map f).isList = form.isList := by
  cases form <;> rfl

@[simp] theorem operands_map (form : Form α) : (form.map f).operands = form.operands.map f := by
  cases form with
  | call function arguments => cases arguments <;> rfl
  | template before part => cases before <;> cases part <;> rfl
  | _ => rfl

theorem map_self (form : Form α) : (form.map fun operand => operand) = form := by
  cases form with
  | call function arguments => cases arguments <;> rfl
  | template before part => cases before <;> cases part <;> rfl
  | _ => rfl

/-- A form is determined by what it makes of its operands. -/
theorem map_congr {form : Form α} {g : α → β}
    (same : ∀ operand ∈ form.operands, f operand = g operand) :
    form.map f = form.map g := by
  cases form with
  | step axis left right | union left right | filter left right | arithmetic op left right
  | logic op left right | compare op left right | sequence left right | list left right =>
    have first : f left = g left := same left List.mem_cons_self
    have second : f right = g right := same right (List.mem_cons_of_mem _ List.mem_cons_self)
    simp only [map, mapM, first, second]
  | negate operand =>
    have only : f operand = g operand := same operand List.mem_cons_self
    simp only [map, mapM, only]
  | call function arguments =>
    have only : arguments.map f = arguments.map g := Option.map_congr fun operand mem =>
      same operand (List.mem_append_left _ (Option.mem_toList.mpr mem))
    rw [map_call, map_call, only]
  | template before part =>
    have first : before.map f = before.map g := Option.map_congr fun operand mem =>
      same operand (List.mem_append_left _ (Option.mem_toList.mpr mem))
    have second : part.map f = part.map g := Option.map_congr fun operand mem =>
      same operand (List.mem_append_right _ (Option.mem_toList.mpr mem))
    rw [map_template, map_template, first, second]
  | root | nodeTest | attributeTest | literal | var | contextItem | parent => rfl

end Form

namespace Forest

/-! ## Chains -/

theorem chained_of_not_list {forest : Forest} {id : NodeId} {form : Form NodeId}
    (found : forest.form? id = some form) (notList : form.isList = false) (steps : Nat) :
    forest.chained steps id = [id] := by
  cases steps with
  | zero => rfl
  | succ steps =>
    rw [chained, found]
    cases form with
    | list => cases notList
    | _ => rfl

theorem chained_of_list {forest : Forest} {id left last : NodeId}
    (found : forest.form? id = some (.list left last)) (steps : Nat) :
    forest.chained (steps + 1) id = forest.chained steps left ++ [last] := by
  rw [chained, found]

/-! ## Parts -/

/-- The nodes whose expressions make up the expression of a form: its operands, or for a call the
arguments that are chained below it. -/
def parts (forest : Forest) : Form NodeId → List NodeId
  | .call _ arguments => forest.arguments arguments
  | .list _ _ => []
  | form => form.operands

/-- What a form makes up is determined by its parts. -/
theorem assemble_of_parts (forest : Forest) (operand other : NodeId → Expr) (id : NodeId)
    (form : Form NodeId) (same : ∀ part ∈ forest.parts form, operand part = other part) :
    forest.assemble operand id form = forest.assemble other id form := by
  cases form with
  | root | nodeTest | attributeTest | literal | list | var | contextItem | parent => rfl
  | step axis left right | union left right | filter left right | arithmetic op left right
  | logic op left right | compare op left right | sequence left right =>
    have first := same left List.mem_cons_self
    have second := same right (List.mem_cons_of_mem _ List.mem_cons_self)
    simp only [assemble, first, second]
  | negate inner =>
    have only := same inner List.mem_cons_self
    simp only [assemble, only]
  | call function arguments => exact congrArg (Expr.call id function) (List.map_congr_left same)
  | template before part =>
    have first : before.map operand = before.map other := Option.map_congr fun inner mem =>
      same inner (List.mem_append_left _ (Option.mem_toList.mpr mem))
    have second : part.map operand = part.map other := Option.map_congr fun inner mem =>
      same inner (List.mem_append_right _ (Option.mem_toList.mpr mem))
    simp only [assemble, first, second]

/-- The variables of an assembled expression are those of its parts, and its own if it is a
reference. -/
theorem references_assemble {P : NodeId × Name → Prop} (forest : Forest) (operand : NodeId → Expr)
    (id : NodeId) (form : Form NodeId)
    (below : ∀ part ∈ forest.parts form, ∀ entry ∈ (operand part).references, P entry)
    (own : ∀ name, form = .var name → P (id, name)) :
    ∀ entry ∈ (forest.assemble operand id form).references, P entry := by
  cases form with
  | root | nodeTest | attributeTest | literal | list | contextItem | parent =>
    intro entry mem
    cases mem
  | step axis left right | union left right | filter left right | arithmetic op left right
  | logic op left right | compare op left right | sequence left right =>
    rw [assemble, Expr.references, List.forall_mem_append]
    exact ⟨below left List.mem_cons_self, below right (List.mem_cons_of_mem _ List.mem_cons_self)⟩
  | negate inner => exact below inner List.mem_cons_self
  | call function arguments =>
    rw [assemble, Expr.references, Expr.referencesOfAll_eq]
    intro entry mem
    obtain ⟨argument, there, mem⟩ := List.mem_flatMap.mp mem
    obtain ⟨inner, isArgument, rfl⟩ := List.mem_map.mp there
    exact below inner isArgument entry mem
  | template before part =>
    rw [assemble, Expr.references, List.forall_mem_append]
    constructor
    · cases before with
      | none => exact fun entry mem => by cases mem
      | some inner => exact below inner (List.mem_append_left _ List.mem_cons_self)
    · cases part with
      | none => exact fun entry mem => by cases mem
      | some inner => exact below inner (List.mem_append_right _ List.mem_cons_self)
  | var name =>
    intro entry mem
    rw [List.mem_singleton.mp mem]
    exact own name rfl

/-! ## Relocated nodes -/

/-- Some nodes of one forest are found in another one, at other places and over operands that are
found there too. Operands come before their nodes in both. -/
structure Relocates (first second : Forest) (f : NodeId → NodeId) (known : NodeId → Prop) :
    Prop where
  node : ∀ id, known id → ∃ node, first.node? id = some node ∧
    second.node? (f id) = some { node with form := node.form.map f } ∧
    ∀ operand ∈ node.form.operands, known operand ∧ operand.index < id.index ∧
      (f operand).index < (f id).index

namespace Relocates

variable {first second : Forest} {f : NodeId → NodeId} {known : NodeId → Prop}
  (relocates : Relocates first second f known)

include relocates

/-- The form of a known node, here and there. -/
theorem form {id : NodeId} (isKnown : known id) : ∃ form, first.form? id = some form ∧
    second.form? (f id) = some (form.map f) ∧ ∀ operand ∈ form.operands,
      known operand ∧ operand.index < id.index ∧ (f operand).index < (f id).index := by
  obtain ⟨node, here, there, operands⟩ := relocates.node id isKnown
  exact ⟨node.form, by rw [form?, here]; rfl, by rw [form?, there]; rfl, operands⟩

theorem isConstant {id : NodeId} (isKnown : known id) :
    second.isConstant (f id) = first.isConstant id := by
  obtain ⟨node, here, there, -⟩ := relocates.node id isKnown
  unfold Forest.isConstant
  rw [here, there]
  rfl

/-- Chained arguments are relocated one by one. None of them comes after the chain. -/
theorem chained {id : NodeId} (isKnown : known id) {steps steps' : Nat} (enough : id.index ≤ steps)
    (enough' : (f id).index ≤ steps') :
    second.chained steps' (f id) = (first.chained steps id).map f ∧
      ∀ argument ∈ first.chained steps id, known argument ∧ argument.index ≤ id.index ∧
        (f argument).index ≤ (f id).index := by
  induction steps generalizing id steps' with
  | zero =>
    obtain ⟨form, here, there, operands⟩ := relocates.form isKnown
    have notList : form.isList = false := by
      cases form with
      | list left last =>
        have earlier := (operands left List.mem_cons_self).2.1
        exact absurd earlier (by omega)
      | _ => rfl
    rw [chained_of_not_list there (by rw [Form.isList_map, notList]),
      chained_of_not_list here notList]
    refine ⟨rfl, fun argument mem => ?_⟩
    rw [List.mem_singleton.mp mem]
    exact ⟨isKnown, Nat.le_refl _, Nat.le_refl _⟩
  | succ steps ih =>
    obtain ⟨form, here, there, operands⟩ := relocates.form isKnown
    cases isList : form.isList with
    | false =>
      rw [chained_of_not_list there (by rw [Form.isList_map, isList]),
        chained_of_not_list here isList]
      refine ⟨rfl, fun argument mem => ?_⟩
      rw [List.mem_singleton.mp mem]
      exact ⟨isKnown, Nat.le_refl _, Nat.le_refl _⟩
    | true =>
      obtain ⟨left, last, rfl⟩ : ∃ left last, form = .list left last := by
        cases form with
        | list left last => exact ⟨left, last, rfl⟩
        | _ => cases isList
      obtain ⟨leftKnown, leftEarlier, leftEarlier'⟩ := operands left List.mem_cons_self
      obtain ⟨lastKnown, lastEarlier, lastEarlier'⟩ :=
        operands last (List.mem_cons_of_mem _ List.mem_cons_self)
      obtain ⟨fewer, rfl⟩ : ∃ fewer, steps' = fewer + 1 := ⟨steps' - 1, by omega⟩
      have enoughLeft' : (f left).index ≤ fewer := by omega
      obtain ⟨same, arguments⟩ := ih leftKnown (by omega) enoughLeft'
      have chain : second.chained (fewer + 1) (f id) = second.chained fewer (f left) ++ [f last] :=
        chained_of_list there fewer
      rw [chain, chained_of_list here, same, List.map_append]
      refine ⟨rfl, fun argument mem => ?_⟩
      rcases List.mem_append.mp mem with inner | isLast
      · obtain ⟨argumentKnown, earlier, earlier'⟩ := arguments argument inner
        exact ⟨argumentKnown, by omega, by omega⟩
      · rw [List.mem_singleton.mp isLast]
        exact ⟨lastKnown, by omega, by omega⟩

/-- The parts of a known node are relocated. All of them come before it. -/
theorem parts {id : NodeId} (isKnown : known id) {form : Form NodeId}
    (found : first.form? id = some form) :
    second.parts (form.map f) = (first.parts form).map f ∧
      ∀ part ∈ first.parts form, known part ∧ part.index < id.index ∧
        (f part).index < (f id).index := by
  obtain ⟨other, here, -, operands⟩ := relocates.form isKnown
  rw [found] at here
  cases here
  have own : second.parts (form.map f) = (form.map f).operands → first.parts form = form.operands →
      second.parts (form.map f) = (first.parts form).map f ∧
        ∀ part ∈ first.parts form, known part ∧ part.index < id.index ∧
          (f part).index < (f id).index := by
    intro there here
    rw [there, here, Form.operands_map]
    exact ⟨rfl, operands⟩
  cases form with
  | call function arguments =>
    cases arguments with
    | none => exact ⟨rfl, nofun⟩
    | some chain =>
      obtain ⟨chainKnown, earlier, earlier'⟩ := operands chain List.mem_cons_self
      obtain ⟨same, members⟩ := relocates.chained chainKnown (Nat.le_refl _) (Nat.le_refl _)
      refine ⟨same, fun argument mem => ?_⟩
      obtain ⟨argumentKnown, notAfter, notAfter'⟩ := members argument mem
      exact ⟨argumentKnown, Nat.lt_of_le_of_lt notAfter earlier,
        Nat.lt_of_le_of_lt notAfter' earlier'⟩
  | list => exact ⟨rfl, nofun⟩
  | _ => exact own rfl rfl

/-- Every variable in the expression of a known node is at a known node. -/
theorem references {id : NodeId} (isKnown : known id) :
    ∀ entry ∈ (first.expression id).references, known entry.1 := by
  obtain ⟨index⟩ := id
  induction index using Nat.strongRecOn with
  | ind index ih =>
    obtain ⟨form, found, -, -⟩ := relocates.form isKnown
    rw [expression_of_form? found]
    refine references_assemble first _ _ form (fun part mem => ?_) fun _ _ => isKnown
    obtain ⟨partKnown, earlier, -⟩ := (relocates.parts isKnown found).2 part mem
    rw [if_pos earlier]
    exact ih part.index earlier partKnown

/-- A relocated node stands for the same expression, over relocated nodes. -/
theorem expression {id : NodeId} (isKnown : known id) :
    second.expression (f id) = (first.expression id).rename f := by
  obtain ⟨index⟩ := id
  -- on the place of the node: its parts come before it
  induction index using Nat.strongRecOn with
  | ind index ih =>
    obtain ⟨form, here, there, operands⟩ := relocates.form isKnown
    obtain ⟨sameParts, parts⟩ := relocates.parts isKnown here
    have inner : ∀ part ∈ first.parts form,
        (if (f part).index < (f ⟨index⟩).index then second.expression (f part)
          else .nothing (f part)) =
          (if part.index < index then first.expression part else .nothing part).rename f := by
      intro part mem
      obtain ⟨partKnown, earlier, earlier'⟩ := parts part mem
      rw [if_pos earlier, if_pos earlier']
      exact ih part.index earlier partKnown
    rw [expression_of_form? here, expression_of_form? there]
    cases form with
    | root | nodeTest | attributeTest | literal | list | var | contextItem | parent => rfl
    | step axis left right | union left right | arithmetic op left right | logic op left right
    | compare op left right | sequence left right =>
      have one := inner left List.mem_cons_self
      have two := inner right (List.mem_cons_of_mem _ List.mem_cons_self)
      simp only [assemble, Expr.rename, ← one, ← two]
      rfl
    | filter base condition =>
      have one := inner base List.mem_cons_self
      have two := inner condition (List.mem_cons_of_mem _ List.mem_cons_self)
      have once := relocates.isConstant (operands condition
        (List.mem_cons_of_mem _ List.mem_cons_self)).1
      simp only [assemble, Expr.rename, ← one, ← two, ← once]
      rfl
    | negate operand =>
      have one := inner operand List.mem_cons_self
      simp only [assemble, Expr.rename, ← one]
      rfl
    | call function arguments =>
      show Expr.call (f ⟨index⟩) function
          ((second.parts ((Form.call function arguments).map f)).map _) =
        Expr.call (f ⟨index⟩) function (Expr.renameAll f ((first.arguments arguments).map _))
      rw [sameParts, Expr.renameAll_eq, List.map_map, List.map_map]
      congr 1
      exact List.map_congr_left inner
    | template before part =>
      -- a missing part is missing there too
      have optional : ∀ part? : Option NodeId,
          (∀ inside ∈ part?.toList, inside ∈ first.parts (.template before part)) →
          ((part?.map f).map fun inside =>
              if inside.index < (f ⟨index⟩).index then second.expression inside
              else .nothing inside).getD (.nothing (f ⟨index⟩)) =
            ((part?.map fun inside =>
              if inside.index < index then first.expression inside
              else .nothing inside).getD (.nothing ⟨index⟩)).rename f := by
        intro part? among
        cases part? with
        | none => rfl
        | some inside => exact inner inside (among inside List.mem_cons_self)
      rw [Form.map_template, assemble, assemble, Expr.rename]
      rw [← optional before fun _ mem => List.mem_append_left _ mem]
      rw [← optional part fun _ mem => List.mem_append_right _ mem]

end Relocates

/-! ## Growth -/

theorem size_append (forest : Forest) (node : TreeNode) :
    (forest.append node).2.size = forest.size + 1 := Array.size_push node

theorem node?_append_self (forest : Forest) (node : TreeNode) :
    (forest.append node).2.node? ⟨forest.size⟩ = some node := by
  simp [append, node?, size]

/-- A forest has got further nodes, and nothing else about it has changed. -/
structure Extends (base grown : Forest) : Prop where
  size : base.size ≤ grown.size
  kept : ∀ id, id.index < base.size → grown.node? id = base.node? id
  library : grown.library = base.library
  policy : grown.policy = base.policy

namespace Extends

variable {base middle grown : Forest}

theorem refl (base : Forest) : Extends base base := ⟨Nat.le_refl _, fun _ _ => rfl, rfl, rfl⟩

theorem trans (first : Extends base middle) (second : Extends middle grown) :
    Extends base grown where
  size := Nat.le_trans first.size second.size
  kept := fun id lt => (second.kept id (Nat.lt_of_lt_of_le lt first.size)).trans (first.kept id lt)
  library := second.library.trans first.library
  policy := second.policy.trans first.policy

theorem append (forest : Forest) (node : TreeNode) : Extends forest (forest.append node).2 where
  size := by
    rw [size_append]
    exact Nat.le_succ _
  kept := by
    intro id lt
    have ne : id.index ≠ forest.nodes.size := Nat.ne_of_lt lt
    simp [Forest.append, node?, Array.getElem?_push, ne]
  library := rfl
  policy := rfl

/-- What was there is still there. -/
theorem node (extension : Extends base grown) {id : NodeId} {node : TreeNode}
    (found : base.node? id = some node) : grown.node? id = some node := by
  have inside : id.index < base.size := (Array.getElem?_eq_some_iff.mp found).1
  rw [extension.kept id inside, found]

/-- What was there is found at its place. -/
theorem relocates (extension : Extends base grown) (founded : base.WellFounded) :
    Relocates base grown (fun id => id) fun id => id.index < base.size := by
  refine ⟨fun id inside => ?_⟩
  have found : base.node? id = some base.nodes[id.index] := Array.getElem?_eq_getElem inside
  have isForm : base.form? id = some base.nodes[id.index].form := by
    rw [form?, found]
    rfl
  refine ⟨_, found, ?_, fun operand mem => ?_⟩
  · rw [extension.node found]
    rw [Form.map_self]
  · have earlier := founded id _ isForm operand mem
    exact ⟨Nat.lt_trans earlier inside, earlier, earlier⟩

theorem isConstant (extension : Extends base grown) {id : NodeId} (inside : id.index < base.size) :
    grown.isConstant id = base.isConstant id := by
  rw [Forest.isConstant, extension.kept id inside, Forest.isConstant]

theorem arguments (extension : Extends base grown) (founded : base.WellFounded) {id : NodeId}
    (inside : id.index < base.size) : grown.arguments (some id) = base.arguments (some id) := by
  have same :=
    ((extension.relocates founded).chained inside (Nat.le_refl _) (Nat.le_refl _)).1
  rw [List.map_id'] at same
  exact same

/-- Nodes that were there stand for what they stood for. -/
theorem expression (extension : Extends base grown) (founded : base.WellFounded) {id : NodeId}
    (inside : id.index < base.size) : grown.expression id = base.expression id :=
  ((extension.relocates founded).expression inside).trans (Expr.rename_id _)

end Extends

/-! ## Forests where operands come first -/

section WellFounded

variable {forest : Forest}

theorem lt_size_of_form? {id : NodeId} {form : Form NodeId} (found : forest.form? id = some form) :
    id.index < forest.size := by
  obtain ⟨node, there, -⟩ := Option.map_eq_some_iff.mp found
  exact (Array.getElem?_eq_some_iff.mp there).1

/-- All chained arguments are reached in as many steps as the identifier of the chain counts. -/
theorem chained_eq_arguments (founded : forest.WellFounded) {id : NodeId}
    (inside : id.index < forest.size) {steps : Nat} (enough : id.index ≤ steps) :
    forest.chained steps id = forest.arguments (some id) := by
  have same := (((Extends.refl forest).relocates founded).chained inside (Nat.le_refl _) enough).1
  rw [List.map_id'] at same
  exact same

/-- A chain has its last argument behind those of the rest. -/
theorem arguments_of_list (founded : forest.WellFounded) {id left last : NodeId}
    (found : forest.form? id = some (.list left last)) :
    forest.arguments (some id) = forest.arguments (some left) ++ [last] := by
  have inside := lt_size_of_form? found
  have earlier : left.index < id.index := founded id _ found left List.mem_cons_self
  rw [← chained_eq_arguments founded inside (Nat.le_succ _), chained_of_list found,
    chained_eq_arguments founded (Nat.lt_trans earlier inside) (Nat.le_of_lt earlier)]

/-- The expression of a node is made up of those of its parts. -/
theorem expression_eq_assemble (founded : forest.WellFounded) {id : NodeId} {form : Form NodeId}
    (found : forest.form? id = some form) :
    forest.expression id = forest.assemble forest.expression id form := by
  have earlier : ∀ part ∈ forest.parts form, part.index < id.index := fun part mem =>
    ((((Extends.refl forest).relocates founded).parts (lt_size_of_form? found) found).2 part mem).2.1
  rw [expression_of_form? found]
  exact assemble_of_parts forest _ _ id form fun part mem => if_pos (earlier part mem)

/-- A node added over nodes that are there stands for what its form makes of them. -/
theorem expression_append (founded : forest.WellFounded) {node : TreeNode}
    (there : ∀ operand ∈ node.form.operands, operand.index < forest.size) :
    (forest.append node).2.expression ⟨forest.size⟩ =
      (forest.append node).2.assemble forest.expression ⟨forest.size⟩ node.form := by
  have founded' := wellFounded_append founded there
  have found : (forest.append node).2.form? ⟨forest.size⟩ = some node.form := by
    rw [form?_append, if_pos rfl]
  rw [expression_eq_assemble founded' found]
  refine assemble_of_parts _ _ _ _ _ fun part mem => ?_
  have earlier := ((((Extends.refl _).relocates founded').parts (lt_size_of_form? found) found).2
    part mem).2.1
  exact (Extends.append forest node).expression founded earlier

end WellFounded

/-- A forest where operands come first has grown into another such forest, and a node of that is
pointed out. -/
structure Builds (base : Forest) (grown : NodeId × Forest) : Prop where
  extension : Extends base grown.2
  founded : grown.2.WellFounded
  inside : grown.1.index < grown.2.size

/-- A node added to a forest that has grown is one of that forest. -/
theorem builds_add {base forest : Forest} (extension : Extends base forest)
    (founded : forest.WellFounded) {form : Form NodeId}
    (there : ∀ operand ∈ form.operands, operand.index < forest.size) :
    base.Builds (forest.add form) where
  extension := extension.trans (.append ..)
  founded := wellFounded_add founded there
  inside := by
    rw [add, size_append]
    exact Nat.lt_succ_self _

end Forest

end StreamPath
