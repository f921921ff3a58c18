import Mathlib.Data.List.Find
import StreamPath.Proofs.GroupCopy
import StreamPath.Proofs.Recall
import StreamPath.Proofs.TreeCopy

/-!
# Specializations

A specialization copies some groups, and a tree to be evaluated in them. The copy of the tree does
among the copied groups what the tree does among the groups themselves: it looks for variables along
the copied line, finds them in the same bindings, and remembers the copy of the group that the tree
remembers.

* `Context.Mirrors` — a context for the copies beside one for the originals;
* `Memory.mirrors_inheritScopes` — what is remembered can be carried over to the copies;
* `Scene.Mirrors.correspondence` — single steps keep the memories mirrored;
* `Forest.evaluate_specialized` — a copy is evaluated like its original.
-/

namespace StreamPath

open Run

/-- The scene for the copies differs from the one for the originals in the current group and the
active groups only. It is in the copy of the current group, whose copied ancestors are the nearest
ones, and every copy of a group has the bindings that the group has in the other scene. -/
structure Scene.Mirrors (table : GroupTable) (ids : List GroupId) (copies : CopyRecord)
    (scene mirror : Scene) : Prop where
  rest : mirror = { scene with current := mirror.current, activations := mirror.activations }
  groups : scene.groups = (table.specialize ids).1
  current : mirror.current = scene.current.map copies.mapGroup
  before : ∀ group, scene.current = some group → group.index < table.size
  initial : ∀ group, scene.current = some group →
    GroupTable.Initial (· ∈ ids) (scene.groups.lineage group)
  frames : ∀ group, group.index < table.size →
    mirror.frame? (copies.mapGroup group) = scene.frame? group

/-- The memory for the copies differs from the one for the originals in the remembered scopes only.
For the copy of a node it remembers the copy of the group that is remembered for the node, which is
a group that was there before the copying. -/
structure Memory.Mirrors (table : GroupTable) (copies : CopyRecord) (memory mirror : Memory) :
    Prop where
  rest : mirror = { memory with scopes := mirror.scopes }
  scopes : ∀ id copy, copies.node? id = some copy →
    mirror.scopes.find? copy = (memory.scopes.find? id).map copies.mapGroup
  before : ∀ id copy group, copies.node? id = some copy → memory.scopes.find? id = some group →
    group.index < table.size

/-- A context for the copies beside one for the originals. -/
structure Context.Mirrors (table : GroupTable) (ids : List GroupId) (copies : CopyRecord)
    (context mirror : Context) : Prop where
  scene : Scene.Mirrors table ids copies context.toScene mirror.toScene
  memory : Memory.Mirrors table copies context.toMemory mirror.toMemory

/-- A fault of a copy is the fault of its original, or names the copy where that names the
original. -/
def Diagnostic.Mirrors (copies : CopyRecord) (fault mirror : Diagnostic) : Prop :=
  mirror = fault ∨ ∃ form id role location, fault = ⟨.unsuitable form id role, location⟩ ∧
    mirror = ⟨.unsuitable form (copies.mapNode id) role, location⟩

/-- Two runs end alike: with the same value, or with faults that are alike, and in contexts one of
which mirrors the other. -/
structure MirroredRun {α : Type} (table : GroupTable) (ids : List GroupId) (copies : CopyRecord)
    (run mirror : Except Diagnostic α × Context) : Prop where
  value : ∀ value, mirror.1 = .ok value ↔ run.1 = .ok value
  fault : ∀ failure, run.1 = .error failure →
    ∃ copied, mirror.1 = .error copied ∧ failure.Mirrors copies copied
  context : run.2.Mirrors table ids copies mirror.2

/-! ## Variables -/

/-- A variable that the rule does not bind is searched along the line of the current group. -/
theorem Scene.foundGroup?_of_unbound {scene : Scene} {name : Name}
    (unbound : scene.locals.find? name = none) :
    scene.foundGroup? name = scene.current.bind fun start =>
      (scene.groups.lineage start).find? fun group =>
        (scene.frame? group).any fun bindings => bindings.contains name := by
  have notLocal : scene.locals.contains name = false := by
    rw [Table.contains, unbound]
    rfl
  unfold foundGroup? findScope
  rw [notLocal, if_neg (by simp)]
  cases scene.current with
  | none => rfl
  | some start =>
    rw [Option.bind_some, Option.bind_some]
    cases (scene.groups.lineage start).find? fun group =>
      (scene.frame? group).any fun bindings => bindings.contains name <;> rfl

/-- The first reading of a variable that the rule does not bind remembers the group it finds. -/
theorem Scene.readVariable_of_unseen {scene : Scene} {id : NodeId} {name : Name} {memory : Memory}
    (unbound : scene.locals.find? name = none) (unseen : memory.scopes.find? id = none) :
    scene.readVariable id name memory =
      match scene.foundGroup? name with
      | some group =>
        .ok (scene.boundIn? group name) { memory with scopes := memory.scopes.insert id group }
      | none => .ok none memory := by
  rw [readVariable_apply, unbound, unseen]
  unfold foundGroup?
  cases scene.findScope name with
  | none => rfl
  | some scope => cases scope <;> rfl

section Mirrors

variable {table : GroupTable} {ids : List GroupId} {copies : CopyRecord}

namespace Scene.Mirrors

variable {scene mirror : Scene} (mirrors : Scene.Mirrors table ids copies scene mirror)

include mirrors

theorem locals : mirror.locals = scene.locals := by rw [mirrors.rest]

theorem boundIn? {group : GroupId} (before : group.index < table.size) (name : Name) :
    mirror.boundIn? (copies.mapGroup group) name = scene.boundIn? group name := by
  unfold Scene.boundIn?
  rw [mirrors.frames group before]

/-- The search for a variable leads to the copy of the group that it leads to in the other scene,
and that group was there before the copying. -/
theorem foundGroup? (closed : table.Closed) (inside : ∀ id ∈ ids, id.index < table.size)
    (same : copies.groups = (table.specialize ids).2.groups) {name : Name}
    (unbound : scene.locals.find? name = none) :
    mirror.foundGroup? name = (scene.foundGroup? name).map copies.mapGroup ∧
      ∀ group, scene.foundGroup? name = some group → group.index < table.size := by
  have groups : mirror.groups = scene.groups := by rw [mirrors.rest]
  rw [foundGroup?_of_unbound unbound,
    foundGroup?_of_unbound (by rw [mirrors.locals, unbound]), groups, mirrors.current]
  cases isCurrent : scene.current with
  | none => exact ⟨rfl, nofun⟩
  | some start =>
    obtain ⟨specialized, copied⟩ := GroupTable.specialized_specialize table inside
    have specialized := specialized.of_groups same
    have known : ∀ group, (copies.group? group).isSome ↔ group ∈ ids := by
      intro group
      rw [CopyRecord.group?, same]
      exact copied group
    -- no group on the line is a new one, and the copied ones among them are the nearest
    have old : ∀ group ∈ scene.groups.lineage start, group.index < table.size := by
      rw [mirrors.groups]
      exact specialized.lt_of_mem_ancestry closed (mirrors.before start isCurrent)
    have line : scene.groups.lineage (copies.mapGroup start) =
        (scene.groups.lineage start).map copies.mapGroup := by
      have initial := mirrors.initial start isCurrent
      rw [mirrors.groups] at initial ⊢
      apply specialized.lineage_mapGroup
      simpa only [known] using initial
    have binds : (scene.groups.lineage start).find? ((fun group =>
          (mirror.frame? group).any fun bindings => bindings.contains name) ∘ copies.mapGroup) =
        (scene.groups.lineage start).find? fun group =>
          (scene.frame? group).any fun bindings => bindings.contains name := by
      refine List.find?_congr fun group mem => ?_
      show (mirror.frame? (copies.mapGroup group)).any _ = _
      rw [mirrors.frames group (old group mem)]
    constructor
    · rw [Option.map_some, Option.bind_some, Option.bind_some, line, List.find?_map, binds]
    · intro group found
      exact old group (List.mem_of_find?_eq_some found)

end Scene.Mirrors

namespace Memory.Mirrors

variable {memory mirror : Memory} (mirrors : Memory.Mirrors table copies memory mirror)

include mirrors

/-- Remembering a group for a node, and the copy of the group for the copy of the node. -/
theorem remember {id copy : NodeId} (found : copies.node? id = some copy)
    (injective : ∀ id other copy, copies.node? id = some copy → copies.node? other = some copy →
      id = other)
    {group : GroupId} (before : group.index < table.size) :
    Memory.Mirrors table copies { memory with scopes := memory.scopes.insert id group }
      { mirror with scopes := mirror.scopes.insert copy (copies.mapGroup group) } where
  rest := by rw [mirrors.rest]
  scopes := by
    intro other otherCopy otherFound
    by_cases same : id = other
    · subst same
      rw [found] at otherFound
      cases otherFound
      rw [Table.find?_insert_self, Table.find?_insert_self]
      rfl
    · have differs : copy ≠ otherCopy := by
        rintro rfl
        exact same (injective id other copy found otherFound)
      rw [Table.find?_insert_of_ne _ _ same, Table.find?_insert_of_ne _ _ differs]
      exact mirrors.scopes other otherCopy otherFound
  before := by
    intro other otherCopy otherGroup otherFound remembered
    by_cases same : id = other
    · subst same
      rw [Table.find?_insert_self] at remembered
      cases remembered
      exact before
    · rw [Table.find?_insert_of_ne _ _ same] at remembered
      exact mirrors.before other otherCopy otherGroup otherFound remembered

end Memory.Mirrors

/-! ## Carrying over what is remembered -/

section Inherit

variable {context : Context} (nodup : copies.nodes.keys.Nodup)

include nodup

/-- For a copy, the copy of the group is remembered that is remembered for its original. If there is
none, it keeps what was remembered for it. -/
theorem Context.find?_inheritScopes
    (injective : ∀ id other copy, copies.node? id = some copy → copies.node? other = some copy →
      id = other) {id copy : NodeId} (found : copies.node? id = some copy) :
    (context.inheritScopes copies).scopes.find? copy =
      ((context.scopes.find? id).map copies.mapGroup).or (context.scopes.find? copy) := by
  unfold inheritScopes
  -- no other node has this copy, so there is one pair for it at most
  have only : ∀ pair ∈ copies.nodes.entries.filterMap (fun pair =>
      (context.scopes.find? pair.1).map fun group => (pair.2, copies.mapGroup group)),
      pair.1 = copy → (context.scopes.find? id).map copies.mapGroup = some pair.2 := by
    rintro pair mem rfl
    obtain ⟨⟨other, otherCopy⟩, isEntry, made⟩ := List.mem_filterMap.mp mem
    obtain ⟨group, remembered, rfl⟩ := Option.map_eq_some_iff.mp made
    have otherFound := (Table.mem_entries_iff nodup).mp isEntry
    cases injective id other otherCopy found otherFound
    exact congrArg (Option.map copies.mapGroup) remembered
  cases remembered : context.scopes.find? id with
  | none =>
    rw [remembered] at only
    rw [Table.find?_insertAll_of_not_mem]
    · rfl
    · intro mem
      obtain ⟨pair, isPair, same⟩ := List.mem_map.mp mem
      cases only pair isPair same
  | some group =>
    rw [remembered] at only
    refine Table.find?_insertAll_of_mem _ ?_ fun pair isPair same =>
      (Option.some.inj (only pair isPair same)).symm
    have isEntry := (Table.mem_entries_iff nodup).mpr found
    refine List.mem_map.mpr ⟨(copy, copies.mapGroup group), List.mem_filterMap.mpr ?_, rfl⟩
    exact ⟨(id, copy), isEntry, by rw [remembered]; rfl⟩

/-- For a node that is no copy, nothing else is remembered. -/
theorem Context.find?_inheritScopes_of_original {id : NodeId}
    (original : ∀ other, copies.node? other ≠ some id) :
    (context.inheritScopes copies).scopes.find? id = context.scopes.find? id := by
  unfold inheritScopes
  apply Table.find?_insertAll_of_not_mem
  intro mem
  obtain ⟨pair, isPair, rfl⟩ := List.mem_map.mp mem
  obtain ⟨⟨other, copy⟩, isEntry, made⟩ := List.mem_filterMap.mp isPair
  obtain ⟨group, -, rfl⟩ := Option.map_eq_some_iff.mp made
  exact original other ((Table.mem_entries_iff nodup).mp isEntry)

end Inherit

/-- Once what is remembered has been carried over to copies of which nothing was remembered, the
memory mirrors itself. -/
theorem Memory.mirrors_inheritScopes {grown : Forest} {context : Context}
    (holds : grown.HasCopies copies) {size : Nat}
    (behind : ∀ id copy, copies.node? id = some copy → id.index < size ∧ size ≤ copy.index)
    (fresh : ∀ id copy, copies.node? id = some copy → context.scopes.find? copy = none)
    (before : ∀ id copy group, copies.node? id = some copy → context.scopes.find? id = some group →
      group.index < table.size) :
    Memory.Mirrors table copies (context.inheritScopes copies).toMemory
      (context.inheritScopes copies).toMemory := by
  have original : ∀ id copy, copies.node? id = some copy →
      (context.inheritScopes copies).scopes.find? id = context.scopes.find? id := by
    intro id copy found
    refine Context.find?_inheritScopes_of_original holds.nodup fun other isCopy => ?_
    have early := (behind id copy found).1
    have late := (behind other id isCopy).2
    omega
  refine ⟨rfl, fun id copy found => ?_, fun id copy group found remembered => ?_⟩
  · rw [Context.find?_inheritScopes holds.nodup holds.injective found, fresh id copy found,
      Option.or_none, original id copy found]
  · rw [original id copy found] at remembered
    exact before id copy group found remembered

/-! ## Evaluations -/

/-- A reading of a copy mirrors the reading of its original. -/
theorem Scene.Mirrors.read {scene mirror : Scene}
    (mirrors : Scene.Mirrors table ids copies scene mirror) (closed : table.Closed)
    (inside : ∀ id ∈ ids, id.index < table.size)
    (same : copies.groups = (table.specialize ids).2.groups)
    (injective : ∀ id other copy, copies.node? id = some copy → copies.node? other = some copy →
      id = other) {id copy : NodeId} (name : Name) (found : copies.node? id = some copy) :
    Track (Diagnostic.Mirrors copies) (Memory.Mirrors table copies) (scene.readVariable id name)
      (mirror.readVariable copy name) := by
  intro m n related
  have remembered := related.scopes id copy found
  cases bound : scene.locals.find? name with
  | some value =>
    rw [readVariable_apply, readVariable_apply, mirrors.locals, bound]
    exact ⟨rfl, related⟩
  | none =>
    cases seen : m.scopes.find? id with
    | some group =>
      rw [seen, Option.map_some] at remembered
      rw [readVariable_apply, readVariable_apply, mirrors.locals, bound, seen, remembered]
      have old := related.before id copy group found seen
      exact ⟨(mirrors.boundIn? old name).symm, related⟩
    | none =>
      rw [seen, Option.map_none] at remembered
      obtain ⟨search, old⟩ := mirrors.foundGroup? closed inside same bound
      rw [readVariable_of_unseen bound seen,
        readVariable_of_unseen (by rw [mirrors.locals, bound]) remembered, search]
      cases leads : scene.foundGroup? name with
      | none => exact ⟨rfl, related⟩
      | some group =>
        have before := old group leads
        exact ⟨(mirrors.boundIn? before name).symm, related.remember found injective before⟩

/-- Where groups and nodes were copied, the single steps of an evaluation keep the memories
mirrored. -/
theorem Scene.Mirrors.correspondence {scene mirror : Scene}
    (mirrors : Scene.Mirrors table ids copies scene mirror) (closed : table.Closed)
    (inside : ∀ id ∈ ids, id.index < table.size)
    (same : copies.groups = (table.specialize ids).2.groups)
    (injective : ∀ id other copy, copies.node? id = some copy → copies.node? other = some copy →
      id = other) :
    Correspondence scene mirror copies.mapNode (fun id _ => (copies.node? id).isSome)
      (Diagnostic.Mirrors copies) (Memory.Mirrors table copies) where
  stack := by rw [mirrors.rest]
  location := by rw [mirrors.rest]
  sink := by rw [mirrors.rest]
  same := fun _ => .inl rfl
  refuse := fun form id role => .inr ⟨form, id, role, _, rfl, rfl⟩
  position := fun m n related => by rw [related.rest]
  move := fun m n place related => ⟨by rw [related.rest], related.scopes, related.before⟩
  note := fun m n cause diagnostic _ related =>
    ⟨by rw [related.rest], related.scopes, related.before⟩
  read := by
    intro id name isKnown
    obtain ⟨copy, found⟩ := Option.isSome_iff_exists.mp isKnown
    rw [CopyRecord.mapNode_of_some found]
    exact mirrors.read closed inside same injective name found

/-- Computations that keep the memories mirrored end alike. -/
theorem Context.Mirrors.run {α : Type} {context mirror : Context} {one two : Scene → Run α}
    (mirrors : context.Mirrors table ids copies mirror)
    (tracks : Track (Diagnostic.Mirrors copies) (Memory.Mirrors table copies)
      (one context.toScene) (two mirror.toScene)) :
    MirroredRun table ids copies (context.run one) (mirror.run two) := by
  rcases tracks.run mirrors.memory with
    ⟨value, m, n, first, second, related⟩ | ⟨failure, copied, m, n, first, second, fault, related⟩
  · rw [first, second]
    exact ⟨fun _ => Iff.rfl, nofun, mirrors.scene, related⟩
  · rw [first, second]
    refine ⟨fun value => ⟨nofun, nofun⟩, ?_, mirrors.scene, related⟩
    rintro _ ⟨⟩
    exact ⟨copied, rfl, fault⟩

end Mirrors

/-- A copy of a node is evaluated among copied groups as the node is among the groups themselves:
with the same value or a like fault, the same position and the same reports, and what is remembered
is mirrored again. The node stands for what it stood for before it was copied. -/
theorem Forest.evaluate_specialized (forest : Forest) (founded : forest.WellFounded)
    (table : GroupTable) (closed : table.Closed) (ids : List GroupId)
    (groupsInside : ∀ group ∈ ids, group.index < table.size) (id : NodeId)
    (nodeInside : id.index < forest.size) {copy : NodeId} {grown : Forest} {copies : CopyRecord}
    (copied : forest.deepCopy (table.specialize ids).2 id = (copy, grown, copies))
    (context mirror : Context) (mirrors : context.Mirrors table ids copies mirror) (top : Nat) :
    grown.evaluate id context top = forest.evaluate id context top ∧
      MirroredRun table ids copies (grown.evaluate id context top)
        (grown.evaluate copy mirror top) := by
  have spec := expression_deepCopy founded (GroupTable.nodes_specialize table ids) nodeInside
  rw [copied] at spec
  obtain ⟨found, renamed, holds, grownFounded, extension, groups, -⟩ := spec
  constructor
  · unfold evaluate
    rw [extension.expression founded nodeInside, extension.library]
  · have isKnown : (copies.node? id).isSome := by
      rw [found]
      rfl
    have known := (holds.relocates grownFounded).references isKnown
    have lockstep := (mirrors.scene.correspondence closed groupsInside groups
      holds.injective).lockstep
    have tracks := lockstep.evaluate grown.library (grown.expression id) known top
    rw [← renamed] at tracks
    exact mirrors.run tracks

/-- Two nested groups are copied, and a sequence of two references. The first one is remembered in
the outer group, so its copy goes to the copied outer group; the second is found in the inner group,
so its copy is found in the copied inner group. -/
theorem Forest.evaluate_copied_references :
    let table := ((GroupTable.initial.add ⟨0⟩ (some "outer")).2.add ⟨1⟩ (some "inner")).2
    let forest := (((Forest.empty.add (.var (.unqualified "x"))).2.add
      (.var (.unqualified "y"))).2.add (.sequence ⟨0⟩ ⟨1⟩)).2
    let ids : List GroupId := [⟨1⟩, ⟨2⟩]
    let copied := forest.deepCopy (table.specialize ids).2 ⟨2⟩
    let outer : Bindings := Table.empty.insert (.unqualified "x") (.ofString "outer")
    let inner : Bindings := Table.empty.insert (.unqualified "y") (.ofString "inner")
    let start : Context :=
      { groups := (table.specialize ids).1
        current := some ⟨2⟩
        activations := [⟨⟨2⟩, some ⟨1⟩, inner⟩, ⟨⟨1⟩, none, outer⟩]
        scopes := Table.empty.insert ⟨0⟩ ⟨1⟩ }
    let context := start.inheritScopes copied.2.2
    let mirror : Context :=
      { context with
        current := some ⟨4⟩
        activations := [⟨⟨4⟩, some ⟨3⟩, inner⟩, ⟨⟨3⟩, none, outer⟩] }
    context.Mirrors table ids copied.2.2 mirror ∧ copied.1 = ⟨5⟩ ∧
      (copied.2.1.evaluate ⟨5⟩ mirror 0).1 = .ok (.ofString "outer" ++ .ofString "inner") := by
  intro table forest ids copied outer inner start context mirror
  have founded : forest.WellFounded := by
    refine Forest.wellFounded_add (Forest.wellFounded_add (Forest.wellFounded_add
      Forest.wellFounded_empty ?_) ?_) ?_ <;> decide
  have closed : table.Closed :=
    GroupTable.closed_add (GroupTable.closed_add GroupTable.closed_initial (by decide) _)
      (by decide) _
  have groupsInside : ∀ group ∈ ids, group.index < table.size := by decide
  have nodeInside : (⟨2⟩ : NodeId).index < forest.size := by decide
  have spec := Forest.expression_deepCopy founded (GroupTable.nodes_specialize table ids) nodeInside
  obtain ⟨-, -, holds, -, -, -, behind⟩ := spec
  have remembered : ∀ id group, start.scopes.find? id = some group →
      id.index = 0 ∧ group = ⟨1⟩ := by
    intro id group found
    obtain ⟨rfl, rfl⟩ := Table.eq_of_find?_insert_empty found
    exact ⟨rfl, rfl⟩
  have mirrors : context.Mirrors table ids copied.2.2 mirror := by
    refine ⟨⟨rfl, rfl, rfl, ?_, ?_, ?_⟩, ?_⟩
    · rintro _ ⟨⟩
      decide
    · rintro _ ⟨⟩
      exact ⟨[⟨2⟩, ⟨1⟩], [⟨0⟩], rfl, by decide, by decide⟩
    · rintro ⟨index⟩ inside
      match index with
      | 0 | 1 | 2 => rfl
      | index + 3 =>
        have small : index + 3 < 3 := inside
        omega
    · refine Memory.mirrors_inheritScopes holds behind (fun id copy found => ?_)
        fun id copy group found isRemembered => ?_
      · rw [← Option.not_isSome_iff_eq_none]
        intro isRemembered
        obtain ⟨group, found'⟩ := Option.isSome_iff_exists.mp isRemembered
        have late := (behind id copy found).2
        rw [(remembered copy group found').1] at late
        exact absurd late (by decide)
      · rw [(remembered id group isRemembered).2]
        decide
  have same := (forest.evaluate_specialized founded table closed ids groupsInside ⟨2⟩ nodeInside rfl
    context mirror mirrors 0).2
  refine ⟨mirrors, rfl, (same.value _).mpr ?_⟩
  rfl

end StreamPath
