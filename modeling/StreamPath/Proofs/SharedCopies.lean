import Mathlib.Logic.Function.Basic
import StreamPath.Proofs.Residue

/-!
# Copies that share

The nodes copied in one copy operation keep their connections: what two copied nodes have in common,
their copies have in common too, in whatever order the copies are asked for. Copying never leads back
to what was there before: every node has a generation, how many times it was copied, and whatever is
below a node is of its generation.

* `Forest.Copying` — one node copied after another, in one copy operation;
* `CopyState.Generations` — how often the nodes were copied;
* `CopyState.size_deepCopy` — a copy costs one node for each node below that had no copy;
* `Forest.copiesShared_deepCopy` — what a copy operation comes to.
-/

namespace StreamPath

namespace Forest

/-- The forest and the record of a copy operation in which nodes were copied one after the other,
copies included. -/
inductive Copying (base : Forest) : CopyState → Prop
  | start : Copying base (base, {})
  | copy {state : CopyState} {id : NodeId} : Copying base state → id.index < state.1.size →
      Copying base (state.1.deepCopy state.2 id).2

section Runs

variable {base : Forest} {state : CopyState}

theorem CopyState.sound_start (founded : base.WellFounded) : CopyState.Sound (base, {}) :=
  ⟨founded, fun _ _ found => nomatch found⟩

/-- All that a copy operation does is to copy single nodes. -/
theorem Copying.steps (founded : base.WellFounded) (copying : Copying base state) :
    CopyState.Steps (fun _ => True) (base, {}) state := by
  induction copying with
  | start => exact .refl
  | @copy state id _ inside ih =>
    have sound := ih.sound (CopyState.sound_start founded)
    exact ih.trans ((steps_deepCopy sound inside).1.weaken fun _ _ => trivial)

end Runs

namespace CopyState

variable {base : Forest} {asked : NodeId → Prop} {start final : CopyState}

/-! ## Generations -/

/-- Every node of the base is of the first generation, what is below a node is of its generation, and
a copy is of the one after that of its original. -/
structure Generations (base : Forest) (state : CopyState) (generation : NodeId → Nat) : Prop where
  first : ∀ id : NodeId, id.index < base.size → generation id = 0
  level : ∀ id operand, state.1.HasOperand id operand → generation operand = generation id
  next : ∀ id copy, state.2.node? id = some copy → generation copy = generation id + 1

theorem Generations.below {generation : NodeId → Nat} (generations : Generations base start generation)
    {id inner : NodeId} (below : start.1.Below id inner) : generation inner = generation id := by
  induction below with
  | refl => rfl
  | tail _ isOperand ih => rw [generations.level _ _ isOperand, ih]

/-- A new copy gets the generation after that of its original. -/
theorem Step.generations (step : Step asked start final) (founded : start.1.WellFounded)
    (holds : start.1.HasCopies start.2) (grown : Extends base start.1) {generation : NodeId → Nat}
    (generations : Generations base start generation) :
    ∃ further, Generations base final further := by
  cases step with
  | @copy forest copies id node _ here _ operands =>
    have isForm : forest.form? id = some node.form := by
      rw [form?, here]
      rfl
    have old : ∀ {other : NodeId}, other.index < forest.size →
        Function.update generation ⟨forest.size⟩ (generation id + 1) other = generation other := by
      intro other lt
      refine Function.update_of_ne ?_ _ _
      rintro rfl
      exact Nat.lt_irrefl _ lt
    refine ⟨Function.update generation ⟨forest.size⟩ (generation id + 1),
      fun other inside => ?_, fun other operand isOperand => ?_, fun other copy found => ?_⟩
    · rw [old (Nat.lt_of_lt_of_le inside grown.size)]
      exact generations.first other inside
    · obtain ⟨form, found, mem⟩ := isOperand
      rw [form?_append] at found
      split at found
      · next last =>
        obtain rfl : other = ⟨forest.size⟩ := congrArg NodeId.mk last
        cases found
        rw [Form.operands_map] at mem
        obtain ⟨original, isOriginal, rfl⟩ := List.mem_map.mp mem
        have known := CopyRecord.node?_eq_mapNode (operands original isOriginal)
        rw [old (holds.lt known), Function.update_self, generations.next _ _ known,
          generations.level id original ⟨node.form, isForm, isOriginal⟩]
      · have there := lt_size_of_form? found
        rw [old there, old (Nat.lt_trans (founded other form found operand mem) there)]
        exact generations.level other operand ⟨form, found, mem⟩
    · rcases CopyRecord.eq_or_of_recordNode found with ⟨rfl, rfl⟩ | earlier
      · rw [Function.update_self, old (lt_size_of_form? isForm)]
      · obtain ⟨_, isOriginal, -⟩ := holds.copied other copy earlier
        rw [old (holds.lt earlier), old (Array.getElem?_eq_some_iff.mp isOriginal).1]
        exact generations.next other copy earlier

theorem Steps.generations (steps : Steps asked (base, {}) final) (founded : base.WellFounded) :
    ∃ generation, Generations base final generation := by
  induction steps with
  | refl =>
    exact ⟨fun _ => 0, fun _ _ => rfl, fun _ _ _ => rfl, fun _ _ found => nomatch found⟩
  | tail before step ih =>
    obtain ⟨generation, generations⟩ := ih
    have before : Steps asked (base, {}) _ := before
    exact step.generations (before.sound (sound_start founded)).founded
      (before.hasCopies (base.hasCopies_of_empty rfl)) before.grows.forest generations

end CopyState

/-! ## What is on record -/

section Records

variable {forest : Forest} {copies : CopyRecord}

/-- All that is below a copied node was copied. -/
theorem HasCopies.isSome_of_below (holds : forest.HasCopies copies) {original inner : NodeId}
    (known : (copies.node? original).isSome) (below : forest.Below original inner) :
    (copies.node? inner).isSome := by
  induction below with
  | refl => exact known
  | @tail outer inner _ isOperand ih =>
    obtain ⟨form, found, mem⟩ := isOperand
    obtain ⟨node, here, -, operands⟩ := holds.copied outer _ (CopyRecord.node?_eq_mapNode ih)
    rw [form?, here] at found
    cases found
    exact (operands inner mem).1

/-- A copy costs one node for each node below the original that had no copy yet. -/
theorem size_deepCopy (founded : forest.WellFounded) (holds : forest.HasCopies copies) {id : NodeId}
    (inside : id.index < forest.size) :
    (forest.deepCopy copies id).2.1.size = forest.size +
      ((forest.reachable id).filter fun inner => (copies.node? inner).isNone).length := by
  have sound : CopyState.Sound (forest, copies) := ⟨founded, fun _ _ => holds.lt⟩
  obtain ⟨steps, found⟩ := steps_deepCopy sound inside
  have grows := steps.grows
  have holds' := steps.hasCopies holds
  have isKey : ∀ (record : CopyRecord) (inner : NodeId),
      inner ∈ record.nodes.keys ↔ (record.node? inner).isSome := fun record inner =>
    (record.nodes.contains_iff_mem_keys inner).symm
  have isFresh : ∀ inner,
      inner ∈ (forest.reachable id).filter (fun inner => (copies.node? inner).isNone) ↔
        forest.Below id inner ∧ copies.node? inner = none := by
    intro inner
    rw [List.mem_filter, mem_reachable_iff founded, Option.isNone_iff_eq_none]
  -- the keys on record in the end are those from before and the fresh ones
  have keys : (forest.deepCopy copies id).2.2.nodes.keys.Perm
      (copies.nodes.keys ++ (forest.reachable id).filter fun inner => (copies.node? inner).isNone) := by
    refine (List.perm_ext_iff_of_nodup holds'.nodup ?_).mpr fun inner => ?_
    · refine List.nodup_append.mpr
        ⟨holds.nodup, List.Pairwise.filter _ (nodup_reachable forest id), ?_⟩
      rintro inner known _ fresh rfl
      rw [isKey, ((isFresh inner).mp fresh).2] at known
      cases known
    · rw [List.mem_append, isKey, isKey, isFresh]
      constructor
      · intro known
        cases before : copies.node? inner with
        | some copy => exact .inl rfl
        | none =>
          rcases grows.copies.only inner known with earlier | below
          · rw [before] at earlier
            cases earlier
          · exact .inr ⟨below, rfl⟩
      · rintro (earlier | ⟨below, -⟩)
        · rw [grows.copies.still inner _ (CopyRecord.node?_eq_mapNode earlier)]
          rfl
        · refine holds'.isSome_of_below (Option.isSome_iff_exists.mpr ⟨_, found⟩) ?_
          exact (grows.forest.below_iff founded inside).mpr below
  have count := grows.count
  have length := keys.length_eq
  rw [List.length_append] at length
  simp only at count
  omega

end Records

/-! ## What a copy operation comes to -/

/-- What copying a node comes to, in a copy operation that began with the base: the copy, and what the
operation leaves of the forest and the record. -/
structure CopiesShared (base : Forest) (before : CopyState) (id copy : NodeId) (after : CopyState) :
    Prop where
  found : after.2.node? id = some copy
  kept : Extends before.1 after.1
  still : ∀ original made, before.2.node? original = some made →
    after.2.node? original = some made
  injective : ∀ original other made, after.2.node? original = some made →
    after.2.node? other = some made → original = other
  defined : ∀ original made, after.2.node? original = some made → ∀ inner,
    after.1.Below original inner → (after.2.node? inner).isSome
  alike : ∀ original made, after.2.node? original = some made → ∃ node,
    after.1.node? original = some node ∧
    after.1.node? made = some { node with form := node.form.map after.2.mapNode }
  grown : after.1.size = before.1.size +
    ((before.1.reachable id).filter fun inner => (before.2.node? inner).isNone).length
  /-- Nothing that is below a copy of a node of the base is below any node of the base. -/
  separate : ∀ original made, after.2.node? original = some made → original.index < base.size →
    ∀ inner, after.1.Below made inner → ∀ other : NodeId, other.index < base.size →
      ¬after.1.Below other inner
  /-- A copy of a copy, too, has nothing in common with its original. -/
  apart : ∀ original made, after.2.node? original = some made → ∀ inner,
    after.1.Below made inner → ¬after.1.Below original inner
  unfolded : ∀ original made, after.2.node? original = some made → ∀ inner,
    after.1.Below original inner →
      (after.1.foldConstants made).2.node? inner = after.1.node? inner

/-- Every copy is an isomorphic image of what it was made of, with nodes shared where the originals
are shared, within one tree and between all trees copied in one copy operation. It has nothing in
common with the originals, so folding it changes none of them. -/
theorem copiesShared_deepCopy (base : Forest) (founded : base.WellFounded) (before : CopyState)
    (copying : Copying base before) (id : NodeId) (inside : id.index < before.1.size) :
    CopiesShared base before id (before.1.deepCopy before.2 id).1
      (before.1.deepCopy before.2 id).2 := by
  have earlier := copying.steps founded
  have sound := earlier.sound (CopyState.sound_start founded)
  have holds := earlier.hasCopies (base.hasCopies_of_empty rfl)
  obtain ⟨latest, found⟩ := steps_deepCopy sound inside
  have all := (copying.copy inside).steps founded
  have holds' := all.hasCopies (base.hasCopies_of_empty rfl)
  obtain ⟨generation, generations⟩ := all.generations founded
  have apart : ∀ original made,
      (before.1.deepCopy before.2 id).2.2.node? original = some made → ∀ inner,
        (before.1.deepCopy before.2 id).2.1.Below made inner →
          ¬(before.1.deepCopy before.2 id).2.1.Below original inner := by
    intro original made known inner belowMade belowOriginal
    have next := generations.next original made known
    rw [← generations.below belowMade, generations.below belowOriginal] at next
    exact absurd next (Nat.ne_of_lt (Nat.lt_succ_self _))
  refine ⟨found, latest.grows.forest, latest.grows.copies.still, holds'.injective,
    fun original made known inner => ?_, fun original made known => ?_,
    size_deepCopy sound.founded holds inside, fun original made known first inner belowMade other
      otherFirst belowOther => ?_, apart, fun original made known inner below => ?_⟩
  · exact holds'.isSome_of_below (Option.isSome_iff_exists.mpr ⟨made, known⟩)
  · obtain ⟨node, here, there, -⟩ := holds'.copied original made known
    exact ⟨node, here, there⟩
  · have next := generations.next original made known
    rw [← generations.below belowMade, generations.below belowOther,
      generations.first other otherFirst, generations.first original first] at next
    exact absurd next Nat.zero_ne_one
  · exact node?_foldConstants fun belowMade => apart original made known inner belowMade below

/-- A pair whose first half was copied before: only the pair itself is new. -/
theorem copiesShared_nested_pair :
    let base := (((empty.add (.literal (.computed (.ofBoolean true)))).2.add
      (.sequence ⟨0⟩ ⟨0⟩)).2.add (.sequence ⟨1⟩ ⟨0⟩)).2
    let before := (base.deepCopy {} ⟨1⟩).2
    base.WellFounded ∧ Copying base before ∧ before.1.size = 5 ∧
      (before.1.deepCopy before.2 ⟨2⟩).2.1.size = 6 ∧
      CopiesShared base before ⟨2⟩ ⟨5⟩ (before.1.deepCopy before.2 ⟨2⟩).2 := by
  intro base before
  have founded : base.WellFounded := by
    refine wellFounded_add (wellFounded_add (wellFounded_add wellFounded_empty ?_) ?_) ?_
    · exact nofun
    · decide
    · decide
  have copying : Copying base before := .copy .start (by decide)
  exact ⟨founded, copying, rfl, rfl, copiesShared_deepCopy base founded before copying ⟨2⟩ (by decide)⟩

end Forest

end StreamPath
