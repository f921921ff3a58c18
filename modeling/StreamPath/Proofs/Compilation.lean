import StreamPath.Proofs.Folding
import StreamPath.Proofs.TreeCopy

/-!
# Compiled forests

A program is compiled by adding nodes, copying trees and folding constants, in any order. A copy
operation can go on after nodes were folded, with the copies it remembers. Then a copy may no longer
look like its original, but the two still have the same flag and chain as many arguments, and this is
all that the flags of further copies rest on.

* `Forest.Compiled` — how forests come about, with the records of the copy operations;
* `Forest.Mirrors` — what stays true of copies;
* `Forest.Compiled.intact` — what is true of every compiled forest.
-/

namespace StreamPath

namespace Forest

/-- A forest with one library, and the records of the copy operations on it, the latest first. Nodes
are added over nodes that are there, with any priorities; trees are copied, each time in a new copy
operation or in one that goes on from an earlier record; and constants are folded below any node. -/
inductive Compiled (library : Library) : Forest → List CopyRecord → Prop
  | start (policy : PriorityPolicy) : Compiled library { policy, library } []
  | withPolicy {forest : Forest} {records : List CopyRecord} (policy : PriorityPolicy) :
      Compiled library forest records → Compiled library { forest with policy } records
  | add {forest : Forest} {records : List CopyRecord} {form : Form NodeId} :
      Compiled library forest records →
      (∀ operand ∈ form.operands, operand.index < forest.size) →
      Compiled library (forest.add form).2 records
  | copy {forest : Forest} {records : List CopyRecord} {copies : CopyRecord} {id : NodeId} :
      Compiled library forest records → id.index < forest.size →
      (copies.nodes = .empty ∨ ∃ earlier ∈ records, copies.nodes = earlier.nodes) →
      Compiled library (forest.deepCopy copies id).2.1 ((forest.deepCopy copies id).2.2 :: records)
  | fold {forest : Forest} {records : List CopyRecord} (id : NodeId) :
      Compiled library forest records → Compiled library (forest.foldConstants id).2 records

/-! ## What stays true of copies -/

/-- A node and its copy are in the forest, have the same flag and chain as many arguments. -/
structure Mirrors (forest : Forest) (copies : CopyRecord) : Prop where
  inside : ∀ id copy, copies.node? id = some copy →
    id.index < forest.size ∧ copy.index < forest.size
  isConstant : ∀ id copy, copies.node? id = some copy →
    forest.isConstant copy = forest.isConstant id
  count : ∀ id copy, copies.node? id = some copy →
    (forest.arguments (some copy)).length = (forest.arguments (some id)).length

theorem mirrors_of_empty (forest : Forest) {copies : CopyRecord} (fresh : copies.nodes = .empty) :
    forest.Mirrors copies := by
  refine ⟨?_, ?_, ?_⟩ <;>
  · intro id copy found
    rw [CopyRecord.node?_of_empty fresh] at found
    cases found

theorem Mirrors.of_nodes {forest : Forest} {copies earlier : CopyRecord}
    (mirrors : forest.Mirrors earlier) (same : copies.nodes = earlier.nodes) :
    forest.Mirrors copies := by
  have found : ∀ id, copies.node? id = earlier.node? id := fun id => by
    rw [CopyRecord.node?, same, CopyRecord.node?]
  exact ⟨fun id copy known => mirrors.inside id copy ((found id).symm.trans known),
    fun id copy known => mirrors.isConstant id copy ((found id).symm.trans known),
    fun id copy known => mirrors.count id copy ((found id).symm.trans known)⟩

/-- A copy operation goes on from no record or from an earlier one, so its copies mirror their
originals. -/
theorem mirrors_of_known {forest : Forest} {records : List CopyRecord} {copies : CopyRecord}
    (mirrors : ∀ earlier ∈ records, forest.Mirrors earlier)
    (known : copies.nodes = .empty ∨ ∃ earlier ∈ records, copies.nodes = earlier.nodes) :
    forest.Mirrors copies := by
  rcases known with fresh | ⟨earlier, mem, same⟩
  · exact mirrors_of_empty forest fresh
  · exact (mirrors earlier mem).of_nodes same

theorem Mirrors.sound {forest : Forest} {copies : CopyRecord} (mirrors : forest.Mirrors copies)
    (founded : forest.WellFounded) : CopyState.Sound (forest, copies) :=
  ⟨founded, fun id copy known => (mirrors.inside id copy known).2⟩

/-- Mirroring rests on the size of the forest, on flags and on chains. -/
theorem Mirrors.transport {before after : Forest} {copies : CopyRecord} (mirrors : before.Mirrors copies)
    (size : before.size ≤ after.size)
    (isConstant : ∀ id : NodeId, id.index < before.size → after.isConstant id = before.isConstant id)
    (arguments : ∀ id : NodeId, id.index < before.size →
      after.arguments (some id) = before.arguments (some id)) : after.Mirrors copies where
  inside := fun id copy known =>
    (mirrors.inside id copy known).imp (Nat.lt_of_lt_of_le · size) (Nat.lt_of_lt_of_le · size)
  isConstant := by
    intro id copy known
    obtain ⟨there, alsoThere⟩ := mirrors.inside id copy known
    rw [isConstant id there, isConstant copy alsoThere, mirrors.isConstant id copy known]
  count := by
    intro id copy known
    obtain ⟨there, alsoThere⟩ := mirrors.inside id copy known
    rw [arguments id there, arguments copy alsoThere, mirrors.count id copy known]

theorem Mirrors.extend {base grown : Forest} {copies : CopyRecord} (mirrors : base.Mirrors copies)
    (extension : Extends base grown) (founded : base.WellFounded) : grown.Mirrors copies :=
  mirrors.transport extension.size (fun _ => extension.isConstant)
    fun _ => extension.arguments founded

theorem Preserves.size {before after : Forest} (preserves : Preserves before after) :
    after.size = before.size := by
  have there : ∀ index, index < after.size ↔ index < before.size := by
    intro index
    have isSome : ∀ forest : Forest, index < forest.size ↔ (forest.form? ⟨index⟩).isSome := by
      intro forest
      rw [form?, Option.isSome_map, node?, isSome_getElem?]
      rfl
    rw [isSome, isSome]
    rcases preserves.form ⟨index⟩ with same | ⟨constant, value, folded⟩
    · rw [same]
    · obtain ⟨form, found⟩ := exists_form_of_isConstant constant
      rw [found, folded]
      rfl
  exact Nat.le_antisymm (Nat.le_of_not_lt fun lt => Nat.lt_irrefl _ ((there _).mp lt))
    (Nat.le_of_not_lt fun lt => Nat.lt_irrefl _ ((there _).mpr lt))

theorem Mirrors.preserve {before after : Forest} {copies : CopyRecord}
    (mirrors : before.Mirrors copies) (preserves : Preserves before after) : after.Mirrors copies :=
  mirrors.transport (Nat.le_of_eq preserves.size.symm) (fun id _ => preserves.isConstant id)
    fun id _ => preserves.arguments (some id)

/-- A form over copies gets the flag of the form over the originals. -/
theorem Mirrors.infersConstant {forest : Forest} {copies : CopyRecord} (mirrors : forest.Mirrors copies)
    {form : Form NodeId} (copied : ∀ operand ∈ form.operands, (copies.node? operand).isSome) :
    forest.infersConstant (form.map copies.mapNode) = forest.infersConstant form := by
  have known : ∀ operand ∈ form.operands, copies.node? operand = some (copies.mapNode operand) :=
    fun operand mem => CopyRecord.node?_eq_mapNode (copied operand mem)
  exact infersConstant_map rfl _ _ (fun operand mem => mirrors.isConstant _ _ (known operand mem))
    fun operand mem => mirrors.count _ _ (known operand mem)

/-! ## Chains of copies -/

/-- A form over other operands chains as many arguments if the operands do. -/
theorem length_arguments_of_map {forest : Forest} (founded : forest.WellFounded) {id copy : NodeId}
    {form : Form NodeId} {f : NodeId → NodeId} (found : forest.form? id = some form)
    (copied : forest.form? copy = some (form.map f))
    (counts : ∀ operand ∈ form.operands,
      (forest.arguments (some (f operand))).length = (forest.arguments (some operand)).length) :
    (forest.arguments (some copy)).length = (forest.arguments (some id)).length := by
  have single : ∀ {id : NodeId} {form : Form NodeId}, forest.form? id = some form →
      form.isList = false → forest.arguments (some id) = [id] :=
    fun found notList => chained_of_not_list found notList _
  cases isList : form.isList with
  | false =>
    rw [single found isList, single copied (by rw [Form.isList_map, isList])]
    rfl
  | true =>
    obtain ⟨left, last, rfl⟩ : ∃ left last, form = .list left last := by
      cases form with
      | list left last => exact ⟨left, last, rfl⟩
      | _ => cases isList
    have copiedChain : forest.arguments (some copy) = forest.arguments (some (f left)) ++ [f last] :=
      arguments_of_list founded copied
    rw [arguments_of_list founded found, copiedChain, List.length_append, List.length_append,
      counts left List.mem_cons_self]
    rfl

/-- A copy mirrors its original. -/
theorem CopyState.Step.mirrors {asked : NodeId → Prop} {start final : CopyState}
    (step : Step asked start final) (founded : start.1.WellFounded)
    (mirrors : start.1.Mirrors start.2) : final.1.Mirrors final.2 := by
  have founded' := (step.sound (mirrors.sound founded)).founded
  cases step with
  | @copy forest copies id node _ here unknown operands =>
    have isForm : forest.form? id = some node.form := by
      rw [form?, here]
      rfl
    let copied : TreeNode := { node with form := node.form.map copies.mapNode }
    have extension := Extends.append forest copied
    have last := node?_append_self forest copied
    have still := mirrors.extend extension founded
    have inside := lt_size_of_form? isForm
    refine ⟨fun other copy found => ?_, fun other copy found => ?_, fun other copy found => ?_⟩ <;>
      rcases CopyRecord.eq_or_of_recordNode found with ⟨rfl, rfl⟩ | earlier
    · rw [size_append]
      exact ⟨Nat.lt_succ_of_lt inside, Nat.lt_succ_self _⟩
    · exact still.inside other copy earlier
    · rw [Forest.isConstant, last, extension.isConstant inside, Forest.isConstant, here]
      rfl
    · exact still.isConstant other copy earlier
    · have isStill : (forest.append copied).2.form? id = some node.form := by
        rw [form?, extension.node here]
        rfl
      have isCopy : (forest.append copied).2.form? ⟨forest.size⟩ = some copied.form := by
        rw [form?, last]
        rfl
      exact length_arguments_of_map founded' isStill isCopy fun operand mem =>
        still.count _ _ (CopyRecord.node?_eq_mapNode (operands operand mem))
    · exact still.count other copy earlier

/-- A copy is rightly flagged like its original, and the two mirror each other. -/
theorem CopyState.Step.intact {asked : NodeId → Prop} {start final : CopyState}
    (step : Step asked start final) (founded : start.1.WellFounded) (flagged : start.1.Flagged)
    (mirrors : start.1.Mirrors start.2) :
    final.1.WellFounded ∧ final.1.Flagged ∧ final.1.Mirrors final.2 := by
  have sound := mirrors.sound founded
  refine ⟨(step.sound sound).founded, ?_, step.mirrors founded mirrors⟩
  obtain ⟨-, here, -, operands⟩ := step
  refine flagged_append founded flagged (sound.operands_lt operands) fun constant => ?_
  rw [mirrors.infersConstant operands]
  exact flagged _ _ (by rw [form?, here]; rfl) (isConstant_of_node? here constant)

theorem CopyState.Steps.intact {asked : NodeId → Prop} {start final : CopyState}
    (steps : Steps asked start final) (founded : start.1.WellFounded) (flagged : start.1.Flagged)
    (mirrors : start.1.Mirrors start.2) :
    final.1.WellFounded ∧ final.1.Flagged ∧ final.1.Mirrors final.2 := by
  induction steps with
  | refl => exact ⟨founded, flagged, mirrors⟩
  | tail _ step ih => exact step.intact ih.1 ih.2.1 ih.2.2

/-! ## Compiled forests -/

/-- What is true of every compiled forest: it has its library, operands come before their nodes,
flags are right, and copies mirror their originals. -/
structure Intact (library : Library) (forest : Forest) (records : List CopyRecord) : Prop where
  library : forest.library = library
  founded : forest.WellFounded
  flagged : forest.Flagged
  mirrors : ∀ copies ∈ records, forest.Mirrors copies

theorem Compiled.intact {library : Library} (depends : library.DependsOnArguments)
    {forest : Forest} {records : List CopyRecord} (compiled : Compiled library forest records) :
    Intact library forest records := by
  induction compiled with
  | start policy =>
    refine ⟨rfl, ?_, ?_, nofun⟩ <;>
    · intro id form found
      simp [form?, node?] at found
  | withPolicy policy _ ih =>
    refine ⟨ih.library, ih.founded, flagged_withPolicy policy ih.flagged, fun copies mem => ?_⟩
    exact (ih.mirrors copies mem).transport (Nat.le_refl _) (fun _ _ => rfl) fun id _ =>
      arguments_withPolicy policy (some id)
  | add _ there ih =>
    refine ⟨ih.library, wellFounded_add ih.founded there,
      flagged_add ih.founded ih.flagged there, fun copies mem => ?_⟩
    exact (ih.mirrors copies mem).extend (.append _ _) ih.founded
  | @copy forest records copies id _ inside known ih =>
    have mirrors := mirrors_of_known ih.mirrors known
    obtain ⟨steps, -⟩ := steps_deepCopy (mirrors.sound ih.founded) inside
    obtain ⟨founded, flagged, latest⟩ := steps.intact ih.founded ih.flagged mirrors
    have extension := steps.grows.forest
    refine ⟨extension.library.trans ih.library, founded, flagged, ?_⟩
    rw [List.forall_mem_cons]
    exact ⟨latest, fun earlier mem => (ih.mirrors earlier mem).extend extension ih.founded⟩
  | fold id _ ih =>
    obtain ⟨preserves, still⟩ := foldWithin_preserves (id.index + 1) id _ ih.flagged
      (by rw [ih.library]; exact depends)
    exact ⟨preserves.library.trans ih.library, preserves.wellFounded ih.founded, still,
      fun copies mem => (ih.mirrors copies mem).preserve preserves⟩

end Forest

end StreamPath
