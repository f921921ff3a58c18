import StreamPath.Proofs.Retelling

/-!
# Closed nodes are opaque

No value, no diagnostic and no change of the memory depends on what a closed node was called or what
it said. Operators look at their operands before they use them up, and what they pass on unseen they
pass on as it is. So an evaluation cannot tell two contexts apart that differ in this only.

* `Run.Likewise` — two computations end alike from every memory, with related values;
* `Expr.Unaware` — two expressions do, in two scenes;
* `Forest.unaware_assemble` — so do the expressions that they make up;
* `Forest.evaluate_retold` — and so do the nodes of two forests, in two contexts.
-/

namespace StreamPath

/-! ## Two computations -/

/-- From every memory two computations end alike: with related values or with the same diagnostic,
and with the same memory. -/
def Run.Likewise {α β : Type} (R : α → β → Prop) (first : Run α) (second : Run β) : Prop :=
  ∀ memory, match first memory, second memory with
    | .ok a m, .ok b n => R a b ∧ m = n
    | .error d m, .error e n => d = e ∧ m = n
    | _, _ => False

namespace Run.Likewise

variable {α β γ δ : Type} {R : α → β → Prop} {S : γ → δ → Prop}

theorem pure {a : α} {b : β} (related : R a b) : Likewise R (Pure.pure a) (Pure.pure b) :=
  fun _ => ⟨related, rfl⟩

theorem bind {first : Run α} {second : Run β} {next : α → Run γ} {next' : β → Run δ}
    (head : Likewise R first second) (tail : ∀ a b, R a b → Likewise S (next a) (next' b)) :
    Likewise S (first >>= next) (second >>= next') := by
  intro memory
  have step := head memory
  rw [bind_apply, bind_apply]
  cases hfirst : first memory <;> cases hsecond : second memory <;> rw [hfirst, hsecond] at step
  · obtain ⟨related, rfl⟩ := step
    exact tail _ _ related _
  · exact step.elim
  · exact step.elim
  · exact step

/-- A computation does what it does, whatever comes of it. -/
theorem refl {R : α → α → Prop} (related : ∀ a, R a a) (computation : Run α) :
    Likewise R computation computation := by
  intro memory
  cases computation memory with
  | ok a final => exact ⟨related a, rfl⟩
  | error failure final => exact ⟨rfl, rfl⟩

theorem weaken {T : α → β → Prop} {first : Run α} {second : Run β}
    (likewise : Likewise R first second) (related : ∀ a b, R a b → T a b) :
    Likewise T first second := by
  intro memory
  have step := likewise memory
  cases hfirst : first memory <;> cases hsecond : second memory <;> rw [hfirst, hsecond] at step
  · exact ⟨related _ _ step.1, step.2⟩
  · exact step
  · exact step
  · exact step

/-- One computation decides how two others go on. -/
theorem after (head : Run γ) {next : γ → Run α} {next' : γ → Run β}
    (tail : ∀ a, Likewise R (next a) (next' a)) : Likewise R (head >>= next) (head >>= next') := by
  refine (refl (R := Eq) (fun _ => rfl) head).bind ?_
  rintro a _ rfl
  exact tail a

end Run.Likewise

open Run

/-! ## Operators -/

theorem likewise_atHeights {stack : Ancestors} {next next' : Nat → Run Sequence}
    (likewise : ∀ height, Likewise (Sequence.Retold stack) (next height) (next' height))
    (heights : List Nat) :
    Likewise (Sequence.Retold stack) (atHeights next heights) (atHeights next' heights) := by
  induction heights with
  | nil => exact .pure (.refl [])
  | cons height rest ih =>
    unfold atHeights
    refine (likewise height).bind fun here here' same => ?_
    refine ih.bind fun more more' later => ?_
    exact .pure (List.rel_append same later)

theorem Sequence.Retold.getD {stack : Ancestors} {found other : Option Sequence}
    (same : Option.Rel (Sequence.Retold stack) found other) :
    Sequence.Retold stack (found.getD []) (other.getD []) := by
  cases same with
  | none => exact .nil
  | some same => exact same

/-- What is selected without being looked at is passed on as it is. -/
theorem Sequence.Retold.selected {stack : Ancestors} {value value' : Sequence}
    (asked : Sequence.Retold stack value value') (position : Nat) {items others : Sequence}
    (same : Sequence.Retold stack items others) :
    Sequence.Retold stack (selected value position items)
      (StreamPath.selected value' position others) := by
  induction same generalizing position with
  | nil => exact .nil
  | @cons item other rest others same _ ih =>
    unfold StreamPath.selected
    rw [asked.holdsAt]
    split
    · exact .cons same (ih _)
    · exact ih _

namespace Scene.Retold

variable {first second : Scene} (told : first.Retold second)

include told

theorem fallback (cause : Cause) :
    Likewise (Sequence.Retold first.stack) (Run.fallback first cause)
      (Run.fallback second cause) := by
  unfold Run.fallback
  rw [told.report]
  exact .refl (fun items => .refl items) _

/-- A check ends alike, and what is found usable is not told anew. -/
theorem usable (operand : Operand) {a b : Sequence} (same : Sequence.Retold first.stack a b) :
    Likewise (fun x y => x = y ∧ (x = true → a = b)) (first.usable operand a)
      (second.usable operand b) := by
  have closed := same.firstClosed
  have isOpen : (a.nodes.find? fun node => !first.stack.isLive node) = none → a = b := by
    intro none
    refine same.eq_of_open ?_
    rintro ⟨node, mem, isClosed⟩
    have live := List.find?_eq_none.mp none node mem
    rw [isClosed] at live
    exact live rfl
  unfold Scene.usable
  rw [← told.stack]
  generalize (a.nodes.find? fun node => !first.stack.isLive node) = one at closed isOpen
  generalize (b.nodes.find? fun node => !first.stack.isLive node) = two at closed
  cases closed with
  | none => exact .pure ⟨rfl, fun _ => isOpen rfl⟩
  | some node =>
    show Likewise _ (Run.report first _ >>= fun _ => Pure.pure false)
      (Run.report second _ >>= fun _ => Pure.pure false)
    rw [node.kind, told.report]
    exact .after _ fun _ => .pure ⟨rfl, fun usable => absurd usable Bool.false_ne_true⟩

/-- So do the checks of several operands. -/
theorem allUsable {operands others : List (Operand × Sequence)}
    (same : OperandsRetold first.stack operands others) :
    Likewise (fun x y => x = y ∧ (x = true → operands = others)) (first.allUsable operands)
      (second.allUsable others) := by
  induction same with
  | nil => exact .pure ⟨rfl, fun _ => rfl⟩
  | @cons head other rest others same _ ih =>
    obtain ⟨named, same⟩ := same
    unfold Scene.allUsable
    rw [← named]
    refine (told.usable head.1 same).bind ?_
    rintro checked _ ⟨rfl, equal⟩
    cases checked with
    | false => exact .pure ⟨rfl, fun usable => absurd usable Bool.false_ne_true⟩
    | true =>
      -- the rest is checked only after this one was found usable
      refine ih.weaken ?_
      rintro all _ ⟨rfl, later⟩
      refine ⟨rfl, fun usable => ?_⟩
      rw [later usable, Prod.ext named (equal rfl)]

/-- Operands that are used are not told anew, and the others are refused. -/
theorem guarded {operands others : List (Operand × Sequence)}
    (same : OperandsRetold first.stack operands others) {use use' : Run Sequence}
    (uses : operands = others → Likewise (Sequence.Retold first.stack) use use') :
    Likewise (Sequence.Retold first.stack) (first.using operands use) (second.using others use') := by
  unfold Scene.using
  refine (told.allUsable same).bind ?_
  rintro usable _ ⟨rfl, equal⟩
  cases usable with
  | false => exact .pure (.refl [])
  | true => exact uses (equal rfl)

theorem guardedOne (operand : Operand) {a b : Sequence} (one : Sequence.Retold first.stack a b)
    (use use' : Sequence → Run Sequence)
    (uses : Likewise (Sequence.Retold first.stack) (use a) (use' a)) :
    Likewise (Sequence.Retold first.stack) (first.using [(operand, a)] (use a))
      (second.using [(operand, b)] (use' b)) := by
  have same : OperandsRetold first.stack [(operand, a)] [(operand, b)] := .cons ⟨rfl, one⟩ .nil
  refine told.guarded same fun equal => ?_
  cases equal
  exact uses

theorem guardedTwo (left right : Operand) {a a' b b' : Sequence}
    (one : Sequence.Retold first.stack a a') (two : Sequence.Retold first.stack b b')
    (use : Sequence → Sequence → Sequence) :
    Likewise (Sequence.Retold first.stack)
      (first.using [(left, a), (right, b)] (Pure.pure (use a b)))
      (second.using [(left, a'), (right, b')] (Pure.pure (use a' b'))) := by
  have same : OperandsRetold first.stack [(left, a), (right, b)] [(left, a'), (right, b')] :=
    .cons ⟨rfl, one⟩ (.cons ⟨rfl, two⟩ .nil)
  refine told.guarded same fun equal => ?_
  cases equal
  exact .pure (.refl _)

theorem unionOf (items : Sequence) :
    Likewise (Sequence.Retold first.stack) (first.unionOf items) (second.unionOf items) := by
  unfold Scene.unionOf
  rw [← told.stack]
  split
  · exact told.fallback _
  · exact .pure (.refl _)

/-- Nothing is found from a closed node, whatever it says. -/
theorem stepFrom (axis : Axis) {next next' : Nat → Run Sequence}
    (likewise : ∀ height, Likewise (Sequence.Retold first.stack) (next height) (next' height))
    {items others : Sequence} (same : Sequence.Retold first.stack items others) :
    Likewise (Option.Rel (Sequence.Retold first.stack)) (first.stepFrom axis next items)
      (second.stepFrom axis next' others) := by
  have refuse : ∀ cause, Likewise (Option.Rel (Sequence.Retold first.stack))
      (Run.report first cause >>= fun _ => Pure.pure none)
      (Run.report second cause >>= fun _ => Pure.pure none) := by
    intro cause
    rw [told.report]
    exact .after _ fun _ => .pure .none
  induction same with
  | nil => exact .pure (.some .nil)
  | @cons item other rest others same _ ih =>
    cases same with
    | plain noNode =>
      cases item with
      | node node => cases noNode
      | boolean | number | string => exact refuse _
    | @node a b same =>
      have append : ∀ {here here' : Sequence}, Sequence.Retold first.stack here here' →
          Likewise (Option.Rel (Sequence.Retold first.stack))
            (first.stepFrom axis next rest >>= fun more => Pure.pure (more.map (here ++ ·)))
            (second.stepFrom axis next' others >>= fun more => Pure.pure (more.map (here' ++ ·))) := by
        intro here here' same
        refine ih.bind fun more more' later => .pure ?_
        cases later with
        | none => exact .none
        | some later => exact .some (List.rel_append same later)
      unfold Scene.stepFrom Scene.heights
      rw [← told.stack, same.isLive, same.kind, same.depth?]
      split
      · cases b.depth? with
        | none => exact Likewise.bind (.pure (.refl [])) fun _ _ same => append same
        | some depth =>
          exact (likewise_atHeights likewise _).bind fun _ _ same => append same
      · exact refuse _

/-- The items that a filter looks at are open, so they are not told anew. -/
theorem select {condition condition' : Nat → Run Sequence}
    (likewise : ∀ height,
      Likewise (Sequence.Retold first.stack) (condition height) (condition' height))
    (saved position : Nat) {items others : Sequence}
    (same : Sequence.Retold first.stack items others) :
    Likewise (Option.Rel (Sequence.Retold first.stack))
      (first.select condition saved position items)
      (second.select condition' saved position others) := by
  induction same generalizing position with
  | nil => exact .pure (.some .nil)
  | @cons item other rest others same _ ih =>
    have place : second.openDepth? other = first.openDepth? item := by
      rw [same.openDepth? rfl]
      unfold Scene.openDepth?
      rw [told.stack]
    unfold Scene.select
    rw [place]
    split
    · next depth isOpen =>
      refine .after _ fun _ => ?_
      refine (likewise (depth + 1)).bind fun value value' asked => ?_
      refine (ih (position + 1)).bind fun more more' later => .pure ?_
      cases later with
      | none => exact .none
      | some later =>
        rw [Sequence.Retold.holdsAt asked]
        refine .some ?_
        split
        · exact .cons same later
        · exact later
    · rw [same.type, told.report]
      exact .after _ fun _ => .after _ fun _ => .pure .none

/-- A variable is looked for in one and the same place, and its values are the same but for what they
say of closed nodes. -/
theorem readVariable (id : NodeId) (name : Name) :
    Likewise (Option.Rel (Sequence.Retold first.stack)) (first.readVariable id name)
      (second.readVariable id name) := by
  have read : ∀ group, Option.Rel (Sequence.Retold first.stack)
      ((first.frame? group).bind fun bindings => bindings.find? name)
      ((second.frame? group).bind fun bindings => bindings.find? name) := by
    intro group
    have frames := told.frame? group
    generalize first.frame? group = here at frames
    generalize second.frame? group = there at frames
    cases frames with
    | none => exact .none
    | some same => exact same name
  intro memory
  rw [Scene.readVariable_apply, Scene.readVariable_apply, ← told.findScope]
  have bound := told.locals name
  generalize first.locals.find? name = here at bound
  generalize second.locals.find? name = there at bound
  cases bound with
  | some same => exact ⟨.some same, rfl⟩
  | none =>
    cases memory.scopes.find? id with
    | some group => exact ⟨read group, rfl⟩
    | none =>
      cases first.findScope name with
      | none => exact ⟨.none, rfl⟩
      | some scope =>
        cases scope with
        | rule => exact ⟨.none, rfl⟩
        | group group => exact ⟨read group, rfl⟩

end Scene.Retold

/-! ## Expressions -/

/-- Two expressions, each in its scene, are unaware of what closed nodes say. -/
def Expr.Unaware (library : Library) (first second : Scene) (a b : Expr) : Prop :=
  ∀ top, Likewise (Sequence.Retold first.stack) (a.evaluate library first top)
    (b.evaluate library second top)

section Expressions

variable {library : Library} {first second : Scene} (told : first.Retold second)

theorem Expr.Unaware.literal {a b : Literal} (same : Sequence.Retold first.stack a.value b.value)
    (id : NodeId) : Unaware library first second (.literal id a) (.literal id b) :=
  fun _ => .pure same

theorem Expr.likewise_evaluateAll {f g : NodeId → Expr}
    (unaware : ∀ id, Unaware library first second (f id) (g id)) (ids : List NodeId) (top : Nat) :
    Likewise (List.Forall₂ (Sequence.Retold first.stack))
      (evaluateAll library first (ids.map f) top) (evaluateAll library second (ids.map g) top) := by
  induction ids with
  | nil => exact .pure .nil
  | cons id rest ih =>
    rw [List.map_cons, List.map_cons, evaluateAll, evaluateAll]
    refine (unaware id top).bind fun value value' same => ?_
    refine ih.bind fun values values' later => ?_
    exact .pure (.cons same later)

include told

/-- Forms over operands that are unaware make up expressions that are. -/
theorem Forest.unaware_assemble (forest : Forest) {f g : NodeId → Expr}
    (unaware : ∀ id, Expr.Unaware library first second (f id) (g id)) (id : NodeId)
    (form : Form NodeId) :
    Expr.Unaware library first second (forest.assemble f id form) (forest.assemble g id form) := by
  have stack := told.stack
  have entryAt : ∀ depth, first.entryAt depth = second.entryAt depth := by
    intro depth
    unfold Scene.entryAt
    rw [stack]
  have plain : ∀ items : Sequence,
      Likewise (Sequence.Retold first.stack) (Pure.pure items) (Pure.pure items) :=
    fun items => .pure (.refl items)
  intro top
  cases form with
  | root =>
    rw [assemble, assemble, Expr.evaluate, Expr.evaluate, entryAt]
    exact plain _
  | contextItem =>
    rw [assemble, assemble]
    unfold Expr.evaluate
    split
    · exact plain _
    · rw [entryAt]
      exact plain _
  | parent =>
    rw [assemble, assemble]
    unfold Expr.evaluate
    split
    · exact plain _
    · exact plain _
    · rw [entryAt]
      exact plain _
  | nodeTest test =>
    have child : first.childEntry test top = second.childEntry test top := by
      unfold Scene.childEntry
      rw [entryAt, stack]
    rw [assemble, assemble, Expr.evaluate, Expr.evaluate, child]
    exact plain _
  | attributeTest test =>
    have attributes : first.contextAttributes test top = second.contextAttributes test top := by
      unfold Scene.contextAttributes
      rw [stack]
    rw [assemble, assemble, Expr.evaluate, Expr.evaluate, attributes]
    exact plain _
  | literal value => exact plain _
  | list left last =>
    rw [assemble, assemble, Expr.evaluate, Expr.evaluate]
    unfold Run.abort
    rw [told.location]
    exact .refl (fun items => .refl items) _
  | step axis base next =>
    rw [assemble, assemble, Expr.evaluate, Expr.evaluate]
    refine (unaware base top).bind fun starts starts' same => ?_
    refine (told.stepFrom axis (unaware next) same).bind fun found found' later => ?_
    exact .pure (Sequence.Retold.getD later)
  | union left right =>
    rw [assemble, assemble, Expr.evaluate, Expr.evaluate]
    refine (unaware left top).bind fun a a' one => ?_
    refine (unaware right top).bind fun b b' two => ?_
    have both : Sequence.Retold first.stack (a ++ b) (a' ++ b') := List.rel_append one two
    exact told.guardedOne .union both _ _ (told.unionOf _)
  | filter base condition =>
    rw [assemble, assemble]
    cases forest.isConstant condition with
    | true =>
      rw [Expr.evaluate, Expr.evaluate]
      refine (unaware base top).bind fun items items' same => ?_
      refine (unaware condition top).bind fun value value' asked => ?_
      exact .pure (asked.selected 1 same)
    | false =>
      rw [Expr.evaluate, Expr.evaluate]
      refine (unaware base top).bind fun items items' same => ?_
      refine .after _ fun saved => ?_
      refine (told.select (unaware condition) saved 1 same).bind fun kept kept' later => ?_
      exact .after _ fun _ => .pure (Sequence.Retold.getD later)
  | call function arguments =>
    rw [assemble, assemble, Expr.evaluate, Expr.evaluate]
    refine (Expr.likewise_evaluateAll unaware _ top).bind fun values values' same => ?_
    have operands : OperandsRetold first.stack
        (values.map fun value => (Operand.argument function, value))
        (values'.map fun value => (Operand.argument function, value)) := by
      unfold OperandsRetold
      rw [List.forall₂_map_left_iff, List.forall₂_map_right_iff]
      exact same.imp fun _ _ same => ⟨rfl, same⟩
    refine told.guarded operands fun equal => ?_
    -- the function sees the same open nodes and the same arguments
    have equal : values = values' :=
      List.map_injective_iff.mpr (fun _ _ same => (Prod.mk.inj same).2) equal
    rw [← equal, ← stack]
    refine .after _ fun position => ?_
    split
    · exact told.fallback _
    · split
      · exact told.fallback _
      · exact plain _
  | arithmetic op left right =>
    rw [assemble, assemble, Expr.evaluate, Expr.evaluate]
    refine (unaware left top).bind fun a a' one => ?_
    refine (unaware right top).bind fun b b' two => ?_
    rw [one.isEmpty, two.isEmpty, one.length_eq, two.length_eq]
    split
    · exact plain []
    · split
      · exact told.fallback _
      · exact told.guardedTwo .arithmetic .arithmetic one two fun a b =>
          .ofNumber (op.apply a.toNumber b.toNumber)
  | negate operand =>
    rw [assemble, assemble, Expr.evaluate, Expr.evaluate]
    refine (unaware operand top).bind fun value value' one => ?_
    rw [one.isEmpty, one.length_eq]
    split
    · exact plain []
    · split
      · exact told.fallback _
      · exact told.guardedOne .negated one (fun value => Pure.pure (.ofNumber (-value.toNumber)))
          (fun value => Pure.pure (.ofNumber (-value.toNumber))) (plain _)
  | logic op left right =>
    rw [assemble, assemble, Expr.evaluate, Expr.evaluate]
    refine (unaware left top).bind fun a a' one => ?_
    rw [one.toBoolean]
    split
    · exact plain _
    · exact plain _
    · refine (unaware right top).bind fun b b' two => ?_
      rw [two.toBoolean]
      exact plain _
  | compare op left right =>
    rw [assemble, assemble, Expr.evaluate, Expr.evaluate]
    refine (unaware left top).bind fun a a' one => ?_
    refine (unaware right top).bind fun b b' two => ?_
    exact told.guardedTwo .compared .compared one two fun a b => .ofBoolean (op.sequences a b)
  | sequence left right =>
    rw [assemble, assemble, Expr.evaluate, Expr.evaluate]
    refine (unaware left top).bind fun a a' one => ?_
    refine (unaware right top).bind fun b b' two => ?_
    exact .pure (List.rel_append one two)
  | template before part =>
    have parts : ∀ part : Option NodeId, Expr.Unaware library first second
        ((part.map f).getD (.nothing id)) ((part.map g).getD (.nothing id)) := by
      intro part
      cases part with
      | none => exact Expr.Unaware.literal .nil id
      | some part => exact unaware part
    rw [assemble, assemble, Expr.evaluate, Expr.evaluate]
    refine (parts before top).bind fun text text' one => ?_
    refine (parts part top).bind fun items items' two => ?_
    exact told.guardedTwo .templateText .templatePart one two fun text items =>
      .ofString (text.toText ++ items.join " ")
  | var name =>
    rw [assemble, assemble, Expr.evaluate, Expr.evaluate]
    refine (told.readVariable id name).bind fun found found' same => ?_
    cases same with
    | none => exact told.fallback _
    | some same => exact .pure same

end Expressions

/-! ## Forests -/

/-- Forms are equal, or values computed beforehand that are told anew. -/
inductive Form.Retold (stack : Ancestors) : Form NodeId → Form NodeId → Prop
  | same (form : Form NodeId) : Form.Retold stack form form
  | computed {a b : Sequence} (told : Sequence.Retold stack a b) :
    Form.Retold stack (.literal (.computed a)) (.literal (.computed b))

/-- Two forests differ in what the values in them say of closed nodes, and in nothing else that
evaluation looks at. -/
structure Forest.Retold (stack : Ancestors) (forest other : Forest) : Prop where
  library : forest.library = other.library
  form : ∀ id, Option.Rel (Form.Retold stack) (forest.form? id) (other.form? id)
  isConstant : ∀ id, forest.isConstant id = other.isConstant id

theorem Forest.Retold.refl (stack : Ancestors) (forest : Forest) : forest.Retold stack forest := by
  refine ⟨rfl, fun id => ?_, fun _ => rfl⟩
  cases forest.form? id with
  | none => exact .none
  | some form => exact .some (.same form)

namespace Forest.Retold

variable {stack : Ancestors} {forest other : Forest} (told : forest.Retold stack other)

include told

theorem chained (steps : Nat) (id : NodeId) : forest.chained steps id = other.chained steps id := by
  induction steps generalizing id with
  | zero => rfl
  | succ steps ih =>
    have forms := told.form id
    unfold Forest.chained
    generalize forest.form? id = one at forms
    generalize other.form? id = two at forms
    cases forms with
    | none => rfl
    | @some form _ same =>
      cases same with
      | computed => rfl
      | same =>
        cases form with
        | list left last =>
          show forest.chained steps left ++ [last] = other.chained steps left ++ [last]
          rw [ih]
        | _ => rfl

theorem arguments (chain : Option NodeId) : forest.arguments chain = other.arguments chain := by
  cases chain with
  | none => rfl
  | some id => exact told.chained id.index id

end Forest.Retold

/-- Nodes of forests that differ so stand for expressions that are unaware of it. -/
theorem Forest.unaware_expression {first second : Scene} (told : first.Retold second)
    {forest other : Forest} (trees : forest.Retold first.stack other) (id : NodeId) :
    Expr.Unaware forest.library first second (forest.expression id) (other.expression id) := by
  generalize size : id.index = index
  induction index using Nat.strongRecOn generalizing id with
  | ind index ih =>
    subst size
    have operands : ∀ operand : NodeId, Expr.Unaware forest.library first second
        (if operand.index < id.index then forest.expression operand else .nothing operand)
        (if operand.index < id.index then other.expression operand else .nothing operand) := by
      intro operand
      split
      · next before => exact ih operand.index before operand rfl
      · exact Expr.Unaware.literal .nil operand
    have forms := trees.form id
    cases found : forest.form? id with
    | none =>
      cases found' : other.form? id with
      | none =>
        rw [expression_of_missing found, expression_of_missing found']
        exact Expr.Unaware.literal .nil id
      | some form' =>
        rw [found, found'] at forms
        cases forms
    | some form =>
      cases found' : other.form? id with
      | none =>
        rw [found, found'] at forms
        cases forms
      | some form' =>
        rw [found, found'] at forms
        rw [expression_of_form? found, expression_of_form? found']
        cases forms with
        | some same =>
          cases same with
          | same =>
            rw [assemble_congr (fun chain => (trees.arguments chain).symm)
              fun id => (trees.isConstant id).symm]
            exact forest.unaware_assemble told operands id form
          | computed told => exact Expr.Unaware.literal told id

/-! ## Contexts -/

/-- What an evaluation gives and leaves is the same but for what is said of closed nodes. -/
structure SameButClosed (stack : Ancestors) (one two : Except Diagnostic Sequence × Context) :
    Prop where
  answer : match one.1, two.1 with
    | .ok a, .ok b => Sequence.Retold stack a b
    | .error d, .error e => d = e
    | _, _ => False
  after : one.2.Retold two.2

theorem Context.Retold.run {context other : Context} (told : context.Retold other)
    {computation computation' : Scene → Run Sequence}
    (likewise : Likewise (Sequence.Retold context.stack) (computation context.toScene)
      (computation' other.toScene)) :
    SameButClosed context.stack (context.run computation) (other.run computation') := by
  have step := likewise context.toMemory
  cases ended : computation context.toScene context.toMemory <;>
    cases ended' : computation' other.toScene context.toMemory <;> rw [ended, ended'] at step <;>
    rw [told.memory] at ended'
  · rw [Context.run_of_ok ended, Context.run_of_ok ended']
    exact ⟨step.1, told.scene, step.2⟩
  · exact step.elim
  · exact step.elim
  · rw [Context.run_of_error ended, Context.run_of_error ended']
    exact ⟨step.1, told.scene, step.2⟩

/-- An evaluation gives and leaves the same, whatever is said of closed nodes in its context and in
the values that stand in the forest. -/
theorem Forest.evaluate_retold {forest retold : Forest} {context other : Context}
    (trees : forest.Retold context.stack retold) (told : context.Retold other) (id : NodeId)
    (top : Nat) : SameButClosed context.stack (forest.evaluate id context top)
      (retold.evaluate id other top) := by
  have unaware := forest.unaware_expression told.scene trees id top
  unfold evaluate
  rw [← trees.library]
  exact told.run unaware

/-! ## A variable that outlives its node -/

namespace Closed

/-- The same context, in which the closed text was another one. -/
def retold : Context :=
  context.declareLocal (.unqualified "v") [.node (.entry 1 ⟨1, ⟨.text "forgotten", []⟩⟩)]

theorem context_retold : context.Retold retold := by
  have told : Occurrence.Retold context.stack ⟨1, ⟨.text "old", []⟩⟩
      ⟨1, ⟨.text "forgotten", []⟩⟩ := by
    refine ⟨rfl, rfl, fun depth isOpen => ?_⟩
    obtain _ | _ | depth := depth
    · cases isOpen
    · cases isOpen
    · cases isOpen
  refine ⟨⟨rfl, rfl, rfl, .nil, fun name => ?_, rfl, rfl⟩, rfl⟩
  show Option.Rel _ ((Table.empty.insert (.unqualified "v") value).find? name)
    (((Table.empty.insert (.unqualified "v") value).insert (.unqualified "v") _).find? name)
  rw [Table.find?_insert, Table.find?_insert]
  split
  · exact .some (.cons (.node (.entry 1 told)) .nil)
  · next other =>
    rw [Table.find?_insert, if_neg other]
    exact .none

/-- The text cannot be told from the comparison, which is refused; nor from the variable alone, since
the reference is the same, though the text it carries is not. -/
theorem sameButClosed_retold :
    SameButClosed context.stack (forest.evaluate ⟨3⟩ context 2) (forest.evaluate ⟨3⟩ retold 2) ∧
      (forest.evaluate ⟨3⟩ retold 2).2.reported.length = 1 ∧
    SameButClosed context.stack (forest.evaluate ⟨0⟩ context 2) (forest.evaluate ⟨0⟩ retold 2) ∧
      (forest.evaluate ⟨0⟩ context 2).1 = .ok value ∧
      (forest.evaluate ⟨0⟩ retold 2).1 = .ok [.node (.entry 1 ⟨1, ⟨.text "forgotten", []⟩⟩)] := by
  have trees : forest.Retold context.stack forest := .refl _ _
  have compared := Forest.evaluate_retold trees context_retold ⟨3⟩ 2
  have alone := Forest.evaluate_retold trees context_retold ⟨0⟩ 2
  exact ⟨compared, rfl, alone, rfl, rfl⟩

end Closed

end StreamPath
