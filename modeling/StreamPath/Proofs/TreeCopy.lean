import StreamPath.Forest.Copy
import StreamPath.Proofs.Reach

/-!
# Copies of trees

A copy is made from the operands up and remembered, so a node that is reached twice is copied once.
At every moment the remembered copies are what they should be: each has the form of its original,
over the copies of the operands. Nothing that was there before is touched, so a copy stands for the
same expression as its original, with every node called by its copy.

* `Forest.HasCopies` — the copies on record are copies;
* `Forest.CopyState.Step` — one node gets a copy;
* `Forest.copies_copyWithin` — copying what is below a node is a number of such steps;
* `Forest.expression_deepCopy` — what a copy stands for.
-/

namespace StreamPath

namespace CopyRecord

/-- The copy of a node, or the node itself if it was not copied. -/
def mapNode (copies : CopyRecord) (id : NodeId) : NodeId := (copies.node? id).getD id

variable {copies : CopyRecord}

theorem mapNode_of_some {id copy : NodeId} (found : copies.node? id = some copy) :
    copies.mapNode id = copy := by
  rw [mapNode, found]
  rfl

theorem node?_eq_mapNode {id : NodeId} (isKnown : (copies.node? id).isSome) :
    copies.node? id = some (copies.mapNode id) := by
  obtain ⟨copy, found⟩ := Option.isSome_iff_exists.mp isKnown
  rw [mapNode_of_some found, found]

theorem node?_of_empty (fresh : copies.nodes = .empty) (id : NodeId) : copies.node? id = none := by
  rw [node?, fresh]
  rfl

theorem length_keys_recordNode {copies : CopyRecord} {id copy : NodeId}
    (unknown : copies.node? id = none) :
    (copies.recordNode id copy).nodes.keys.length = copies.nodes.keys.length + 1 := by
  have absent : id ∉ copies.nodes.keys := by
    rw [← Table.contains_iff_mem_keys, Table.contains, show copies.nodes.find? id = none from unknown]
    exact Bool.false_ne_true
  rw [recordNode, Table.keys_insert, if_neg absent, List.length_append]
  rfl

theorem node?_recordNode (copies : CopyRecord) (id copy other : NodeId) :
    (copies.recordNode id copy).node? other =
      if id = other then some copy else copies.node? other :=
  Table.find?_insert copies.nodes id other copy

/-- What is found in a record that has got one more copy is that copy or was found before. -/
theorem eq_or_of_recordNode {id copy other found : NodeId}
    (isFound : (copies.recordNode id copy).node? other = some found) :
    id = other ∧ copy = found ∨ copies.node? other = some found := by
  rw [node?_recordNode] at isFound
  split at isFound
  · next same => exact .inl ⟨same, Option.some.inj isFound⟩
  · exact .inr isFound

/-- Copies of some nodes have been added to a record. -/
structure Grows (asked : NodeId → Prop) (copies grown : CopyRecord) : Prop where
  groups : grown.groups = copies.groups
  still : ∀ id copy, copies.node? id = some copy → grown.node? id = some copy
  only : ∀ id, (grown.node? id).isSome → (copies.node? id).isSome ∨ asked id

namespace Grows

variable {asked : NodeId → Prop} {middle grown : CopyRecord}

theorem refl (asked : NodeId → Prop) (copies : CopyRecord) : Grows asked copies copies :=
  ⟨rfl, fun _ _ found => found, fun _ => .inl⟩

theorem trans (first : Grows asked copies middle) (second : Grows asked middle grown) :
    Grows asked copies grown where
  groups := second.groups.trans first.groups
  still := fun id copy found => second.still id copy (first.still id copy found)
  only := by
    intro id isKnown
    rcases second.only id isKnown with earlier | isAsked
    · exact first.only id earlier
    · exact .inr isAsked

end Grows

end CopyRecord

namespace Forest

/-- The copies on record are copies: each has all that its original has, over the copies of the
operands, which were made before it. No two nodes have one copy. -/
structure HasCopies (forest : Forest) (copies : CopyRecord) : Prop where
  copied : ∀ id copy, copies.node? id = some copy → ∃ node, forest.node? id = some node ∧
    forest.node? copy = some { node with form := node.form.map copies.mapNode } ∧
    ∀ operand ∈ node.form.operands, (copies.node? operand).isSome ∧
      (copies.mapNode operand).index < copy.index
  injective : ∀ id other copy, copies.node? id = some copy → copies.node? other = some copy →
    id = other
  nodup : copies.nodes.keys.Nodup

/-- Nothing is copied yet. -/
theorem hasCopies_of_empty (forest : Forest) {copies : CopyRecord} (fresh : copies.nodes = .empty) :
    forest.HasCopies copies := by
  refine ⟨fun id copy found => ?_, fun id other copy found => ?_, ?_⟩
  · rw [CopyRecord.node?_of_empty fresh] at found
    cases found
  · rw [CopyRecord.node?_of_empty fresh] at found
    cases found
  · rw [fresh]
    exact List.nodup_nil

section Copies

variable {forest : Forest} {copies : CopyRecord}

/-- A copied node is found at its copy. -/
theorem HasCopies.relocates (holds : forest.HasCopies copies) (founded : forest.WellFounded) :
    Relocates forest forest copies.mapNode fun id => (copies.node? id).isSome := by
  refine ⟨fun id isKnown => ?_⟩
  obtain ⟨copy, found⟩ := Option.isSome_iff_exists.mp isKnown
  obtain ⟨node, here, there, operands⟩ := holds.copied id copy found
  have isForm : forest.form? id = some node.form := by
    rw [form?, here]
    rfl
  rw [CopyRecord.mapNode_of_some found]
  refine ⟨node, here, there, fun operand mem => ?_⟩
  exact ⟨(operands operand mem).1, founded id node.form isForm operand mem,
    (operands operand mem).2⟩

/-- All copies are nodes of the forest. -/
theorem HasCopies.lt (holds : forest.HasCopies copies) {id copy : NodeId}
    (found : copies.node? id = some copy) : copy.index < forest.size := by
  obtain ⟨_, -, there, -⟩ := holds.copied id copy found
  exact (Array.getElem?_eq_some_iff.mp there).1

theorem HasCopies.mapNode_lt (holds : forest.HasCopies copies) {id : NodeId}
    (isKnown : (copies.node? id).isSome) : (copies.mapNode id).index < forest.size :=
  holds.lt (CopyRecord.node?_eq_mapNode isKnown)

/-- A new node at the end, over copies of the operands of a node, is a copy of the node. -/
theorem HasCopies.append (holds : forest.HasCopies copies) {id : NodeId} {node : TreeNode}
    (here : forest.node? id = some node) (unknown : copies.node? id = none)
    (operands : ∀ operand ∈ node.form.operands, (copies.node? operand).isSome) :
    HasCopies (forest.append { node with form := node.form.map copies.mapNode }).2
      (copies.recordNode id ⟨forest.size⟩) := by
  let copy : TreeNode := { node with form := node.form.map copies.mapNode }
  have extension : Extends forest (forest.append copy).2 := Extends.append forest copy
  have last := node?_append_self forest copy
  have known_ne : ∀ operand, (copies.node? operand).isSome → operand ≠ id := by
    rintro operand isKnown rfl
    rw [unknown] at isKnown
    cases isKnown
  have mapped : ∀ operand, (copies.node? operand).isSome →
      (copies.recordNode id ⟨forest.size⟩).mapNode operand = copies.mapNode operand := by
    intro operand isKnown
    unfold CopyRecord.mapNode
    rw [CopyRecord.node?_recordNode, if_neg (known_ne operand isKnown).symm]
  have still : ∀ operand, (copies.node? operand).isSome →
      ((copies.recordNode id ⟨forest.size⟩).node? operand).isSome := by
    intro operand isKnown
    rw [CopyRecord.node?_recordNode, if_neg (known_ne operand isKnown).symm]
    exact isKnown
  refine ⟨fun other made found => ?_, fun one two made found alsoFound => ?_,
    Table.nodup_keys_insert _ _ _ holds.nodup⟩
  · rw [CopyRecord.node?_recordNode] at found
    split at found
    · next same =>
      cases found
      subst same
      refine ⟨node, extension.node here, ?_, fun operand mem => ?_⟩
      · rw [last, Form.map_congr _ fun operand mem => mapped operand (operands operand mem)]
      · rw [mapped operand (operands operand mem)]
        exact ⟨still operand (operands operand mem), holds.mapNode_lt (operands operand mem)⟩
    · obtain ⟨original, isNode, isCopy, inner⟩ := holds.copied other made found
      refine ⟨original, extension.node isNode, ?_, fun operand mem => ?_⟩
      · rw [extension.node isCopy,
          Form.map_congr _ fun operand mem => mapped operand (inner operand mem).1]
      · rw [mapped operand (inner operand mem).1]
        exact ⟨still operand (inner operand mem).1, (inner operand mem).2⟩
  · -- the copies on record are in the forest, so the new one is none of them
    exact Table.injective_insert holds.injective
      (fun _ earlier => Nat.lt_irrefl _ (holds.lt earlier)) found alsoFound

end Copies

/-! ## One copy after another -/

/-- What a copy operation works on: the forest, and what it remembers. -/
abbrev CopyState := Forest × CopyRecord

/-- A node that was asked for and had no copy gets one, at the end of the forest and over the copies
of its operands. -/
inductive CopyState.Step (asked : NodeId → Prop) : CopyState → CopyState → Prop
  | copy {forest : Forest} {copies : CopyRecord} {id : NodeId} {node : TreeNode} : asked id →
      forest.node? id = some node → copies.node? id = none →
      (∀ operand ∈ node.form.operands, (copies.node? operand).isSome) →
      Step asked (forest, copies)
        ((forest.append { node with form := node.form.map copies.mapNode }).2,
          copies.recordNode id ⟨forest.size⟩)

/-- Any number of nodes get copies, one after another. -/
abbrev CopyState.Steps (asked : NodeId → Prop) : CopyState → CopyState → Prop :=
  Relation.ReflTransGen (CopyState.Step asked)

/-- Operands come before their nodes, and all copies on record are nodes of the forest. -/
structure CopyState.Sound (state : CopyState) : Prop where
  founded : state.1.WellFounded
  inside : ∀ id copy, state.2.node? id = some copy → copy.index < state.1.size

/-- The forest has grown, by one node for each copy that was added to the record, and these copies
are behind what was there. -/
structure CopyState.Grows (asked : NodeId → Prop) (start final : CopyState) : Prop where
  forest : Extends start.1 final.1
  copies : CopyRecord.Grows asked start.2 final.2
  behind : ∀ id copy, final.2.node? id = some copy →
    start.2.node? id = some copy ∨ start.1.size ≤ copy.index
  count : final.1.size + start.2.nodes.keys.length = start.1.size + final.2.nodes.keys.length

namespace CopyState

variable {asked : NodeId → Prop} {start middle final : CopyState}

theorem Sound.mapNode_lt (sound : start.Sound) {id : NodeId} (isKnown : (start.2.node? id).isSome) :
    (start.2.mapNode id).index < start.1.size :=
  sound.inside id _ (CopyRecord.node?_eq_mapNode isKnown)

/-- A form over copies is one over nodes of the forest. -/
theorem Sound.operands_lt (sound : start.Sound) {form : Form NodeId}
    (copied : ∀ operand ∈ form.operands, (start.2.node? operand).isSome) :
    ∀ operand ∈ (form.map start.2.mapNode).operands, operand.index < start.1.size := by
  intro operand mem
  rw [Form.operands_map] at mem
  obtain ⟨original, isOperand, rfl⟩ := List.mem_map.mp mem
  exact sound.mapNode_lt (copied original isOperand)

theorem Grows.refl (asked : NodeId → Prop) (state : CopyState) : Grows asked state state :=
  ⟨.refl _, .refl _ _, fun _ _ => .inl, rfl⟩

theorem Grows.trans (first : Grows asked start middle) (second : Grows asked middle final) :
    Grows asked start final where
  forest := first.forest.trans second.forest
  copies := first.copies.trans second.copies
  behind := by
    intro id copy found
    rcases second.behind id copy found with earlier | late
    · exact first.behind id copy earlier
    · exact .inr (Nat.le_trans first.forest.size late)
  count := by
    have one := first.count
    have two := second.count
    omega

/-! What one step does. -/

theorem Step.sound (step : Step asked start final) (sound : start.Sound) : final.Sound := by
  obtain ⟨-, here, -, operands⟩ := step
  refine ⟨wellFounded_append sound.founded (sound.operands_lt operands), fun other copy found => ?_⟩
  rw [size_append]
  rcases CopyRecord.eq_or_of_recordNode found with ⟨-, rfl⟩ | earlier
  · exact Nat.lt_succ_self _
  · exact Nat.lt_succ_of_lt (sound.inside other copy earlier)

theorem Step.grows (step : Step asked start final) : Grows asked start final := by
  obtain ⟨isAsked, -, unknown, -⟩ := step
  refine ⟨Extends.append _ _, ⟨rfl, fun other copy found => ?_, fun other isKnown => ?_⟩,
    fun other copy found => ?_, ?_⟩
  · rw [CopyRecord.node?_recordNode, if_neg, found]
    rintro rfl
    rw [unknown] at found
    cases found
  · rw [CopyRecord.node?_recordNode] at isKnown
    split at isKnown
    · next same =>
      subst same
      exact .inr isAsked
    · exact .inl isKnown
  · rcases CopyRecord.eq_or_of_recordNode found with ⟨-, rfl⟩ | earlier
    · exact .inr (Nat.le_refl _)
    · exact .inl earlier
  · rw [size_append, CopyRecord.length_keys_recordNode unknown]
    simp only
    omega

theorem Step.hasCopies (step : Step asked start final) (holds : start.1.HasCopies start.2) :
    final.1.HasCopies final.2 := by
  obtain ⟨-, here, unknown, operands⟩ := step
  exact holds.append here unknown operands

/-! What any number of steps do. -/

theorem Steps.sound (steps : Steps asked start final) (sound : start.Sound) : final.Sound := by
  induction steps with
  | refl => exact sound
  | tail _ step ih => exact step.sound ih

theorem Steps.grows (steps : Steps asked start final) : Grows asked start final := by
  induction steps with
  | refl => exact .refl _ _
  | tail _ step ih => exact ih.trans step.grows

theorem Steps.hasCopies (steps : Steps asked start final) (holds : start.1.HasCopies start.2) :
    final.1.HasCopies final.2 := by
  induction steps with
  | refl => exact holds
  | tail _ step ih => exact step.hasCopies ih

theorem Steps.weaken {further : NodeId → Prop} (steps : Steps asked start final)
    (more : ∀ id, asked id → further id) : Steps further start final := by
  refine Relation.ReflTransGen.mono ?_ start final steps
  rintro _ _ ⟨isAsked, here, unknown, operands⟩
  exact .copy (more _ isAsked) here unknown operands

end CopyState

/-! ## Copying -/

/-- A computation copies a node of a forest that has grown since: step by step it copies nodes that
were asked for, and it gives the copy that is then on record. -/
def Copies (base : Forest) (asked : NodeId → Prop) (computation : StateM CopyState NodeId)
    (id : NodeId) : Prop :=
  ∀ state : CopyState, state.Sound → Extends base state.1 →
    CopyState.Steps asked state (computation state).2 ∧
      (computation state).2.2.node? id = some (computation state).1

/-- A computation copies the operands of a form: it gives the form over the copies that are then on
record. -/
def CopiesForm (base : Forest) (asked : NodeId → Prop)
    (computation : StateM CopyState (Form NodeId)) (form : Form NodeId) : Prop :=
  ∀ state : CopyState, state.Sound → Extends base state.1 →
    CopyState.Steps asked state (computation state).2 ∧
      (computation state).1 = form.map (computation state).2.2.mapNode ∧
      ∀ operand ∈ form.operands, ((computation state).2.2.node? operand).isSome

section Forms

variable {base : Forest} {asked : NodeId → Prop} {copy : NodeId → StateM CopyState NodeId}

theorem copiesForm_pure {form : Form NodeId} (none : form.operands = []) :
    CopiesForm base asked (pure form) form := by
  intro state _ _
  refine ⟨.refl, ?_, ?_⟩
  · show form = form.map state.2.mapNode
    rw [Form.map_congr (g := fun operand => operand) _ (by rw [none]; exact nofun), Form.map_self]
  · rw [none]
    exact nofun

/-- One operand, and a form over it. -/
theorem copiesForm_one {operand : NodeId} (copies : Copies base asked (copy operand) operand)
    (shape : NodeId → Form NodeId)
    (maps : ∀ f : NodeId → NodeId, (shape operand).map f = shape (f operand))
    (operands : (shape operand).operands = [operand]) :
    CopiesForm base asked (copy operand >>= fun only => pure (shape only)) (shape operand) := by
  intro state sound extension
  obtain ⟨steps, found⟩ := copies state sound extension
  refine ⟨steps, ?_, ?_⟩
  · show shape (copy operand state).1 = (shape operand).map (copy operand state).2.2.mapNode
    rw [maps, CopyRecord.mapNode_of_some found]
  · rw [operands]
    intro other mem
    rw [List.mem_singleton.mp mem]
    show ((copy operand state).2.2.node? operand).isSome
    rw [found]
    rfl

/-- Two operands, one after the other, and a form over them. -/
theorem copiesForm_two {left right : NodeId} (first : Copies base asked (copy left) left)
    (second : Copies base asked (copy right) right) (shape : NodeId → NodeId → Form NodeId)
    (maps : ∀ f : NodeId → NodeId, (shape left right).map f = shape (f left) (f right))
    (operands : (shape left right).operands = [left, right]) :
    CopiesForm base asked
      (copy left >>= fun one => copy right >>= fun two => pure (shape one two))
      (shape left right) := by
  intro state sound extension
  obtain ⟨steps, found⟩ := first state sound extension
  obtain ⟨steps', found'⟩ := second (copy left state).2 (steps.sound sound)
    (extension.trans steps.grows.forest)
  have still := steps'.grows.copies.still left _ found
  refine ⟨steps.trans steps', ?_, ?_⟩
  · show shape (copy left state).1 (copy right (copy left state).2).1 =
      (shape left right).map (copy right (copy left state).2).2.2.mapNode
    rw [maps, CopyRecord.mapNode_of_some still, CopyRecord.mapNode_of_some found']
  · rw [operands]
    intro other mem
    show ((copy right (copy left state).2).2.2.node? other).isSome
    rcases List.mem_cons.mp mem with rfl | isRight
    · rw [still]
      rfl
    · rw [List.mem_singleton.mp isRight, found']
      rfl

/-- Copying the operands of a form, from left to right, copies the form. -/
theorem copiesForm_mapM {form : Form NodeId}
    (copies : ∀ operand ∈ form.operands, Copies base asked (copy operand) operand) :
    CopiesForm base asked (form.mapM copy) form := by
  cases form with
  | root | nodeTest | attributeTest | literal | var | contextItem | parent =>
    exact copiesForm_pure rfl
  | step axis left right | union left right | filter left right | arithmetic op left right
  | logic op left right | compare op left right | sequence left right | list left right =>
    have first := copies left List.mem_cons_self
    have second := copies right (List.mem_cons_of_mem _ List.mem_cons_self)
    exact copiesForm_two first second _ (fun _ => rfl) rfl
  | negate operand => exact copiesForm_one (copies operand List.mem_cons_self) _ (fun _ => rfl) rfl
  | call function arguments =>
    cases arguments with
    | none => exact copiesForm_pure rfl
    | some chain =>
      exact copiesForm_one (copies chain List.mem_cons_self)
        (fun only => .call function (some only)) (fun _ => rfl) rfl
  | template before part =>
    cases before with
    | none =>
      cases part with
      | none => exact copiesForm_pure rfl
      | some right =>
        exact copiesForm_one (copies right List.mem_cons_self)
          (fun only => .template none (some only)) (fun _ => rfl) rfl
    | some left =>
      have first := copies left List.mem_cons_self
      cases part with
      | none =>
        exact copiesForm_one first (fun only => .template (some only) none) (fun _ => rfl) rfl
      | some right =>
        have second := copies right (List.mem_cons_of_mem _ List.mem_cons_self)
        exact copiesForm_two first second (fun one two => .template (some one) (some two))
          (fun _ => rfl) rfl

end Forms

/-- What copying below a node comes to. -/
theorem copyWithin_succ (steps : Nat) (id : NodeId) (state : CopyState) :
    copyWithin (steps + 1) id state =
      match state.2.node? id, state.1.node? id with
      | some copy, _ => (copy, state)
      | none, none => (id, state)
      | none, some node =>
        let ended := node.form.mapM (copyWithin steps) state
        let grown := ended.2.1.append { node with form := ended.1 }
        (grown.1, grown.2, ended.2.2.recordNode id grown.1) := by
  rw [copyWithin]
  show (match state.2.node? id, state.1.node? id with
    | some copy, _ => _
    | none, none => _
    | none, some node => _ : StateM CopyState NodeId) state = _
  cases state.2.node? id with
  | some copy => rfl
  | none => cases state.1.node? id <;> rfl

/-- Copying what is below a node copies the node, and on the way only nodes that are below it. -/
theorem copies_copyWithin {base : Forest} (founded : base.WellFounded) {steps : Nat} {id : NodeId}
    (enough : id.index < steps) (inside : id.index < base.size) :
    Copies base (base.Below id) (copyWithin steps id) id := by
  induction steps generalizing id with
  | zero => exact absurd enough (Nat.not_lt_zero _)
  | succ steps ih =>
    intro state sound extension
    rw [copyWithin_succ]
    cases known : state.2.node? id with
    | some copy => exact ⟨.refl, known⟩
    | none =>
      obtain ⟨node, here⟩ : ∃ node, base.node? id = some node :=
        ⟨_, Array.getElem?_eq_getElem inside⟩
      have isForm : base.form? id = some node.form := by
        rw [form?, here]
        rfl
      have earlier := founded id node.form isForm
      have operands : ∀ operand ∈ node.form.operands,
          Copies base (fun inner => ∃ operand ∈ node.form.operands, base.Below operand inner)
            (copyWithin steps operand) operand := by
        intro operand mem start startSound startExtension
        have lt : operand.index < id.index := earlier operand mem
        obtain ⟨path, found⟩ := ih (Nat.lt_of_lt_of_le lt (Nat.le_of_lt_succ enough))
          (Nat.lt_trans lt inside) start startSound startExtension
        exact ⟨path.weaken fun inner below => ⟨operand, mem, below⟩, found⟩
      obtain ⟨path, sameForm, copied⟩ := copiesForm_mapM operands state sound extension
      -- what is below an operand comes before the node, so the node is still not on record
      have unknown : (node.form.mapM (copyWithin steps) state).2.2.node? id = none := by
        rw [← Option.not_isSome_iff_eq_none]
        intro isKnown
        rcases path.grows.copies.only id isKnown with before | ⟨operand, mem, below⟩
        · rw [known] at before
          cases before
        · have le := index_le_of_below founded below
          exact absurd (earlier operand mem) (Nat.not_lt_of_le le)
      rw [extension.node here]
      show CopyState.Steps _ state (_, _) ∧ CopyRecord.node? _ _ = some _
      rw [sameForm]
      have stillHere := (extension.trans path.grows.forest).node here
      have whole := path.weaken fun inner among => (below_iff isForm).mpr (.inr among)
      refine ⟨whole.tail (.copy .refl stillHere unknown copied), ?_⟩
      rw [CopyRecord.node?_recordNode, if_pos rfl]

/-- A copy operation copies a node, and on the way only nodes that are below it. -/
theorem steps_deepCopy {forest : Forest} {copies : CopyRecord}
    (sound : CopyState.Sound (forest, copies)) {id : NodeId} (inside : id.index < forest.size) :
    CopyState.Steps (forest.Below id) (forest, copies) (forest.deepCopy copies id).2 ∧
      (forest.deepCopy copies id).2.2.node? id = some (forest.deepCopy copies id).1 :=
  copies_copyWithin sound.founded (Nat.lt_succ_self id.index) inside (forest, copies) sound
    (.refl forest)

/-- A node copied in a copy operation of its own stands for the same expression as its original,
with every node called by its copy. All that was there is still there, the copies are behind it, and
no group is touched. -/
theorem expression_deepCopy {forest : Forest} (founded : forest.WellFounded) {copies : CopyRecord}
    (fresh : copies.nodes = .empty) {id : NodeId} (inside : id.index < forest.size) :
    let (copy, grown, recorded) := forest.deepCopy copies id
    recorded.node? id = some copy ∧
      grown.expression copy = (grown.expression id).rename recorded.mapNode ∧
      grown.HasCopies recorded ∧ grown.WellFounded ∧ Extends forest grown ∧
      recorded.groups = copies.groups ∧
      ∀ id copy, recorded.node? id = some copy →
        id.index < forest.size ∧ forest.size ≤ copy.index := by
  have sound : CopyState.Sound (forest, copies) := by
    refine ⟨founded, fun id copy found => ?_⟩
    rw [CopyRecord.node?_of_empty fresh] at found
    cases found
  obtain ⟨steps, found⟩ := steps_deepCopy sound inside
  have grows := steps.grows
  have founded' := (steps.sound sound).founded
  have copied := steps.hasCopies (forest.hasCopies_of_empty fresh)
  have same := (copied.relocates founded').expression (Option.isSome_iff_exists.mpr ⟨_, found⟩)
  rw [CopyRecord.mapNode_of_some found] at same
  refine ⟨found, same, copied, founded', grows.forest, grows.copies.groups, ?_⟩
  intro other copy otherFound
  constructor
  · rcases grows.copies.only other (Option.isSome_iff_exists.mpr ⟨copy, otherFound⟩) with
      earlier | below
    · rw [CopyRecord.node?_of_empty fresh] at earlier
      cases earlier
    · exact Nat.lt_of_le_of_lt (index_le_of_below founded below) inside
  · rcases grows.behind other copy otherFound with earlier | late
    · rw [CopyRecord.node?_of_empty fresh] at earlier
      cases earlier
    · exact late

end Forest

end StreamPath
