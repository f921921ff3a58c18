import StreamPath.CopyRecord

/-!
# Copies of groups

A specialization copies some groups of a table and then points each copy at the copy of its parent,
where the parent was copied too. So the copies nest as the copied groups do, and where the line of a
group leaves the copied ones, the line of its copy goes on with the groups themselves.

* `GroupTable.specialize` — copy groups and relink the copies;
* `GroupTable.Specialized` — what becomes of a table that way;
* `GroupTable.specialized_specialize` — it is what becomes of it;
* `GroupTable.Specialized.lineage_mapGroup` — the line of a copy is the copied line.
-/

namespace StreamPath

/-- A group with another parent, where it has one. -/
def Group.mapParent (f : GroupId → GroupId) (group : Group) : Group :=
  { group with parent := group.parent.map f }

namespace GroupTable

/-- Copy groups one after the other within one operation. -/
def copyGroups (table : GroupTable) (copies : CopyRecord) : List GroupId → GroupTable × CopyRecord
  | [] => (table, copies)
  | id :: rest =>
    let (_, grown, recorded) := table.copyGroup copies id
    grown.copyGroups recorded rest

/-- Copy groups of a table and relink the copies. -/
def specialize (table : GroupTable) (ids : List GroupId) : GroupTable × CopyRecord :=
  let (grown, copies) := table.copyGroups {} ids
  (grown.relink copies, copies)

/-- Every parent is a group of the table. -/
def Closed (table : GroupTable) : Prop :=
  ∀ id parent, table.parent? id = some parent → parent.index < table.size

theorem closed_initial : initial.Closed := by
  rintro ⟨index⟩ parent found
  cases index <;> cases found

/-- Declaring groups in groups of the table keeps every parent in the table. -/
theorem closed_add {table : GroupTable} (closed : table.Closed) {parent : GroupId}
    (inside : parent.index < table.size) (name : Option String) :
    (table.add parent name).2.Closed := by
  intro id outer found
  obtain ⟨group, isGroup, hasParent⟩ := Option.bind_eq_some_iff.mp found
  unfold add at isGroup ⊢
  rw [size_append]
  by_cases earlier : id.index < table.size
  · rw [get?_append_of_lt _ _ earlier] at isGroup
    have there := closed id outer (Option.bind_eq_some_iff.mpr ⟨group, isGroup, hasParent⟩)
    exact Nat.lt_succ_of_lt there
  · -- the new group is the only other one
    have lt := (Array.getElem?_eq_some_iff.mp isGroup).1
    have last : id = ⟨table.size⟩ := by
      have bound : id.index < table.size + 1 := by rwa [← size_append]
      exact congrArg GroupId.mk (by omega)
    subst last
    rw [show (⟨table.size⟩ : GroupId) = (table.append ⟨name, some parent⟩).1 from rfl,
      get?_append_self] at isGroup
    cases isGroup
    cases hasParent
    exact Nat.lt_succ_of_lt inside

/-- Some groups of a table were copied to groups behind it, and the copies were changed in one way.
Nothing else in the table is touched, and no two groups have one copy. -/
structure Copied (change : Group → Group) (base grown : GroupTable) (copies : CopyRecord) :
    Prop where
  size : base.size ≤ grown.size
  kept : ∀ id, id.index < base.size → grown.get? id = base.get? id
  original : ∀ id copy, copies.group? id = some copy → id.index < base.size
  behind : ∀ id copy, copies.group? id = some copy →
    base.size ≤ copy.index ∧ copy.index < grown.size
  copied : ∀ id copy, copies.group? id = some copy → grown.get? copy = (base.get? id).map change
  injective : ∀ id other copy, copies.group? id = some copy → copies.group? other = some copy →
    id = other
  nodup : copies.groups.keys.Nodup

/-- A table with copies of groups whose parents are mapped like the groups themselves. -/
abbrev Specialized (base special : GroupTable) (copies : CopyRecord) : Prop :=
  Copied (Group.mapParent copies.mapGroup) base special copies

variable {base grown special : GroupTable} {copies : CopyRecord}

/-! ## Copying -/

theorem copied_start (base : GroupTable) : Copied id base base {} where
  size := Nat.le_refl _
  kept := fun _ _ => rfl
  original := nofun
  behind := nofun
  copied := nofun
  injective := nofun
  nodup := List.nodup_nil

theorem mapGroup_of_some {id copy : GroupId} (found : copies.group? id = some copy) :
    copies.mapGroup id = copy := by
  rw [CopyRecord.mapGroup, found]
  rfl

theorem mapGroup_of_none {id : GroupId} (unknown : copies.group? id = none) :
    copies.mapGroup id = id := by
  rw [CopyRecord.mapGroup, unknown]
  rfl

theorem group?_recordGroup (copies : CopyRecord) (id copy other : GroupId) :
    (copies.recordGroup id copy).group? other =
      if id = other then some copy else copies.group? other :=
  Table.find?_insert copies.groups id other copy

/-- A group that was not copied before is copied to the end of the table. -/
theorem copyGroup_of_unknown (table : GroupTable) {id : GroupId}
    (unknown : copies.group? id = none) :
    table.copyGroup copies id = (⟨table.size⟩, (table.append ((table.get? id).getD {})).2,
      copies.recordGroup id ⟨table.size⟩) := by
  rw [GroupTable.copyGroup, unknown]
  rfl

/-- A copy at the end of the table, of a group that was not copied before. -/
theorem Copied.append (copied : Copied id base grown copies) {group : GroupId} {entry : Group}
    (isGroup : base.get? group = some entry) :
    Copied id base (grown.append entry).2 (copies.recordGroup group ⟨grown.size⟩) where
  size := by
    rw [size_append]
    exact Nat.le_succ_of_le copied.size
  kept := by
    intro id lt
    rw [get?_append_of_lt _ _ (Nat.lt_of_lt_of_le lt copied.size)]
    exact copied.kept id lt
  original := by
    intro id copy found
    rw [group?_recordGroup] at found
    split at found
    · next same =>
      subst same
      exact (Array.getElem?_eq_some_iff.mp isGroup).1
    · exact copied.original id copy found
  behind := by
    intro id copy found
    rw [group?_recordGroup] at found
    rw [size_append]
    split at found
    · cases found
      exact ⟨copied.size, Nat.lt_succ_self _⟩
    · obtain ⟨late, early⟩ := copied.behind id copy found
      exact ⟨late, Nat.lt_succ_of_lt early⟩
  copied := by
    intro id copy found
    rw [group?_recordGroup] at found
    split at found
    · next same =>
      cases found
      subst same
      rw [isGroup]
      exact get?_append_self grown entry
    · rw [get?_append_of_lt _ _ (copied.behind id copy found).2]
      exact copied.copied id copy found
  injective := by
    -- all earlier copies are before the new one
    have fresh : ∀ id, copies.group? id ≠ some ⟨grown.size⟩ := by
      intro id earlier
      exact Nat.lt_irrefl _ (copied.behind id _ earlier).2
    exact fun _ _ _ => Table.injective_insert copied.injective fresh
  nodup := Table.nodup_keys_insert _ _ _ copied.nodup

/-- Copying one more group of the table goes on in the same way. -/
theorem Copied.copyGroup (copied : Copied id base grown copies) {group : GroupId}
    (inside : group.index < base.size) :
    Copied id base (grown.copyGroup copies group).2.1 (grown.copyGroup copies group).2.2 ∧
      ∀ other, ((grown.copyGroup copies group).2.2.group? other).isSome ↔
        other = group ∨ (copies.group? other).isSome := by
  cases known : copies.group? group with
  | some copy =>
    rw [copyGroup_of_known grown known]
    refine ⟨copied, fun other => ⟨.inr, ?_⟩⟩
    rintro (rfl | isCopied)
    · rw [known]
      rfl
    · exact isCopied
  | none =>
    have isGroup : base.get? group = some base.groups[group.index] :=
      Array.getElem?_eq_getElem inside
    rw [copyGroup_of_unknown grown known, copied.kept group inside, isGroup]
    refine ⟨copied.append isGroup, fun other => ?_⟩
    rw [group?_recordGroup]
    by_cases same : group = other
    · simp [same]
    · simp [same, Ne.symm same]

/-- Copying groups of a table copies exactly these. -/
theorem Copied.copyGroups (copied : Copied id base grown copies) {ids : List GroupId}
    (inside : ∀ id ∈ ids, id.index < base.size) :
    Copied id base (grown.copyGroups copies ids).1 (grown.copyGroups copies ids).2 ∧
      ∀ other, ((grown.copyGroups copies ids).2.group? other).isSome ↔
        other ∈ ids ∨ (copies.group? other).isSome := by
  induction ids generalizing grown copies with
  | nil => exact ⟨copied, fun other => by simp [GroupTable.copyGroups]⟩
  | cons group rest ih =>
    rw [List.forall_mem_cons] at inside
    obtain ⟨once, known⟩ := copied.copyGroup inside.1
    obtain ⟨all, known'⟩ := ih once inside.2
    refine ⟨all, fun other => (known' other).trans ?_⟩
    rw [known, List.mem_cons]
    constructor
    · rintro (later | same | earlier)
      · exact .inl (.inr later)
      · exact .inl (.inl same)
      · exact .inr earlier
    · rintro ((same | later) | earlier)
      · exact .inr (.inl same)
      · exact .inl later
      · exact .inr (.inr earlier)

/-- Copying groups copies no node. -/
theorem nodes_copyGroups (table : GroupTable) (copies : CopyRecord) (ids : List GroupId) :
    (table.copyGroups copies ids).2.nodes = copies.nodes := by
  induction ids generalizing table copies with
  | nil => rfl
  | cons group rest ih =>
    have once : (table.copyGroup copies group).2.2.nodes = copies.nodes := by
      unfold GroupTable.copyGroup
      cases copies.group? group <;> rfl
    exact (ih _ _).trans once

/-! ## Relinking -/

theorem get?_setParent (table : GroupTable) (id parent other : GroupId) :
    (table.setParent id parent).get? other =
      if other = id then (table.get? other).map fun group => { group with parent := some parent }
      else table.get? other := by
  unfold setParent get?
  rw [Array.getElem?_modify]
  by_cases same : other = id
  · simp [same]
  · have ne : id.index ≠ other.index := by
      intro same'
      exact same (congrArg GroupId.mk same'.symm)
    simp [same, ne]

/-- Relinking one copy maps its parent and touches no other group. -/
theorem get?_relinkCopy (table : GroupTable) (copies : CopyRecord) (copy id : GroupId) :
    (table.relinkCopy copies copy).get? id =
      if id = copy then (table.get? id).map (Group.mapParent copies.mapGroup)
      else table.get? id := by
  unfold relinkCopy
  cases found : (table.parent? copy).bind copies.group? with
  | some parent =>
    obtain ⟨outer, isParent, isCopied⟩ := Option.bind_eq_some_iff.mp found
    obtain ⟨group, isGroup, hasParent⟩ := Option.bind_eq_some_iff.mp isParent
    simp only [get?_setParent]
    by_cases same : id = copy
    · subst same
      simp [isGroup, Group.mapParent, hasParent, mapGroup_of_some isCopied]
    · simp [same]
  | none =>
    by_cases same : id = copy
    · subst same
      rw [if_pos rfl]
      cases isGroup : table.get? id with
      | none => rfl
      | some group =>
        -- a parent that was not copied is mapped to itself
        have still : group.parent.map copies.mapGroup = group.parent := by
          cases hasParent : group.parent with
          | none => rfl
          | some outer =>
            have isParent : table.parent? id = some outer :=
              Option.bind_eq_some_iff.mpr ⟨group, isGroup, hasParent⟩
            rw [isParent] at found
            rw [Option.map_some, mapGroup_of_none found]
        show some group = some (group.mapParent copies.mapGroup)
        unfold Group.mapParent
        rw [still]
    · rw [if_neg same]

/-- Relinking each of some copies once maps the parents of these copies. -/
theorem get?_foldl_relinkCopy (copies : CopyRecord) (pairs : List (GroupId × GroupId))
    (nodup : (pairs.map Prod.snd).Nodup) (table : GroupTable) (id : GroupId) :
    (pairs.foldl (fun acc pair => acc.relinkCopy copies pair.2) table).get? id =
      if id ∈ pairs.map Prod.snd then (table.get? id).map (Group.mapParent copies.mapGroup)
      else table.get? id := by
  induction pairs generalizing table with
  | nil => simp
  | cons pair rest ih =>
    rw [List.map_cons, List.nodup_cons] at nodup
    rw [List.foldl_cons, ih nodup.2, get?_relinkCopy, List.map_cons]
    by_cases same : id = pair.2
    · subst same
      rw [if_neg nodup.1, if_pos rfl, if_pos List.mem_cons_self]
    · simp only [List.mem_cons, same, if_false, false_or]

theorem size_relinkCopy (table : GroupTable) (copies : CopyRecord) (copy : GroupId) :
    (table.relinkCopy copies copy).size = table.size := by
  unfold relinkCopy
  split
  · exact size_setParent ..
  · rfl

theorem size_relink (table : GroupTable) (copies : CopyRecord) :
    (table.relink copies).size = table.size := by
  have step : ∀ (pairs : List (GroupId × GroupId)) (table : GroupTable),
      (pairs.foldl (fun acc pair => acc.relinkCopy copies pair.2) table).size = table.size := by
    intro pairs
    induction pairs with
    | nil => exact fun _ => rfl
    | cons pair rest ih =>
      intro table
      rw [List.foldl_cons, ih, size_relinkCopy]
  exact step _ table

section Record

variable {change : Group → Group} (copied : Copied change base grown copies)

include copied

theorem Copied.mem_copies_iff {copy : GroupId} :
    copy ∈ copies.groups.entries.map Prod.snd ↔ ∃ id, copies.group? id = some copy := by
  rw [List.mem_map]
  constructor
  · rintro ⟨⟨id, _⟩, mem, rfl⟩
    exact ⟨id, (Table.mem_entries_iff copied.nodup).mp mem⟩
  · rintro ⟨id, found⟩
    exact ⟨(id, copy), (Table.mem_entries_iff copied.nodup).mpr found, rfl⟩

/-- No copy is on record twice. -/
theorem Copied.nodup_copies : (copies.groups.entries.map Prod.snd).Nodup := by
  have keys : copies.groups.entries.Pairwise fun a b => a.1 ≠ b.1 :=
    List.pairwise_map.mp copied.nodup
  refine List.pairwise_map.mpr (keys.imp_of_mem ?_)
  rintro ⟨id, copy⟩ ⟨other, _⟩ mem mem' differ rfl
  exact differ (copied.injective id other copy ((Table.mem_entries_iff copied.nodup).mp mem)
    ((Table.mem_entries_iff copied.nodup).mp mem'))

end Record

/-- Relinking the copies maps their parents. -/
theorem Copied.relink (copied : Copied id base grown copies) :
    Specialized base (grown.relink copies) copies := by
  have relinked := get?_foldl_relinkCopy copies copies.groups.entries copied.nodup_copies grown
  refine ⟨?_, ?_, copied.original, ?_, ?_, copied.injective, copied.nodup⟩
  · rw [size_relink]
    exact copied.size
  · intro id lt
    have notCopy : id ∉ copies.groups.entries.map Prod.snd := by
      rw [copied.mem_copies_iff]
      rintro ⟨other, found⟩
      exact Nat.not_lt.mpr (copied.behind other id found).1 lt
    rw [GroupTable.relink, relinked, if_neg notCopy]
    exact copied.kept id lt
  · rw [size_relink]
    exact copied.behind
  · intro id copy found
    rw [GroupTable.relink, relinked, if_pos (copied.mem_copies_iff.mpr ⟨id, found⟩),
      copied.copied id copy found, Option.map_id]
    rfl

/-- Specializing copies exactly the given groups, and the copies nest as they do. -/
theorem specialized_specialize (table : GroupTable) {ids : List GroupId}
    (inside : ∀ id ∈ ids, id.index < table.size) :
    Specialized table (table.specialize ids).1 (table.specialize ids).2 ∧
      ∀ id, ((table.specialize ids).2.group? id).isSome ↔ id ∈ ids := by
  obtain ⟨copied, known⟩ := (copied_start table).copyGroups inside
  refine ⟨copied.relink, fun id => ?_⟩
  show ((table.copyGroups {} ids).2.group? id).isSome ↔ _
  rw [known]
  simp [CopyRecord.group?]

theorem nodes_specialize (table : GroupTable) (ids : List GroupId) :
    (table.specialize ids).2.nodes = .empty := nodes_copyGroups table {} ids

/-- Only the groups on record matter, not the nodes. -/
theorem Specialized.of_groups (specialized : Specialized base special copies) {other : CopyRecord}
    (same : other.groups = copies.groups) : Specialized base special other := by
  obtain ⟨nodes, groups⟩ := copies
  obtain ⟨otherNodes, otherGroups⟩ := other
  cases same
  exact ⟨specialized.size, specialized.kept, specialized.original, specialized.behind,
    specialized.copied, specialized.injective, specialized.nodup⟩

/-! ## Lines of copies -/

/-- The wanted groups are the first ones on a line. -/
def Initial (wanted : GroupId → Prop) (line : List GroupId) : Prop :=
  ∃ nearer further, line = nearer ++ further ∧ (∀ id ∈ nearer, wanted id) ∧
    ∀ id ∈ further, ¬wanted id

/-- Behind a group that is not wanted, no group is. -/
theorem Initial.none {wanted : GroupId → Prop} {id : GroupId} {line : List GroupId}
    (initial : Initial wanted (id :: line)) (unwanted : ¬wanted id) :
    ∀ other ∈ id :: line, ¬wanted other := by
  obtain ⟨nearer, further, split, inside, outside⟩ := initial
  cases nearer with
  | nil =>
    rw [split]
    exact outside
  | cons head rest =>
    cases split
    exact absurd (inside id List.mem_cons_self) unwanted

/-- Behind a wanted group, the wanted groups are the first ones again. -/
theorem Initial.tail {wanted : GroupId → Prop} {id : GroupId} {line : List GroupId}
    (initial : Initial wanted (id :: line)) (isWanted : wanted id) : Initial wanted line := by
  obtain ⟨nearer, further, split, inside, outside⟩ := initial
  cases nearer with
  | nil =>
    have here : id ∈ further := by
      rw [show further = id :: line from split.symm]
      exact List.mem_cons_self
    exact absurd isWanted (outside id here)
  | cons head rest =>
    cases split
    exact ⟨rest, further, rfl, fun other mem => inside other (List.mem_cons_of_mem _ mem), outside⟩

section Specialized

variable (specialized : Specialized base special copies)

include specialized

theorem Specialized.parent?_of_lt {id : GroupId} (old : id.index < base.size) :
    special.parent? id = base.parent? id := by
  unfold parent?
  rw [specialized.kept id old]

/-- The parent of a copy is the copy of the parent, or the parent itself if it was not copied. -/
theorem Specialized.parent?_copy {id copy : GroupId} (found : copies.group? id = some copy) :
    special.parent? copy = (special.parent? id).map copies.mapGroup := by
  unfold parent?
  rw [specialized.copied id copy found, specialized.kept id (specialized.original id copy found)]
  cases base.get? id <;> rfl

/-- No line of a group that was there leads out of the groups that were there. -/
theorem Specialized.lt_of_mem_ancestry (closed : base.Closed) {steps : Nat} {id : GroupId}
    (inside : id.index < base.size) :
    ∀ group ∈ special.ancestry steps id, group.index < base.size := by
  induction steps generalizing id with
  | zero =>
    intro group mem
    rw [List.mem_singleton.mp mem]
    exact inside
  | succ steps ih =>
    intro group mem
    rw [ancestry, specialized.parent?_of_lt inside] at mem
    cases hasParent : base.parent? id with
    | none =>
      rw [hasParent] at mem
      rw [List.mem_singleton.mp mem]
      exact inside
    | some parent =>
      rw [hasParent] at mem
      rcases List.mem_cons.mp mem with rfl | above
      · exact inside
      · exact ih (closed id parent hasParent) group above

/-- The line of the copy of a group is the line of the group, mapped, if the copied groups on it are
the first ones. -/
theorem Specialized.ancestry_mapGroup (steps : Nat) (id : GroupId)
    (initial : Initial (fun group => (copies.group? group).isSome) (special.ancestry steps id)) :
    special.ancestry steps (copies.mapGroup id) =
      (special.ancestry steps id).map copies.mapGroup := by
  induction steps generalizing id with
  | zero => rfl
  | succ steps ih =>
    cases found : copies.group? id with
    | none =>
      have starts : ∃ rest, special.ancestry (steps + 1) id = id :: rest := by
        rw [ancestry]
        cases special.parent? id with
        | none => exact ⟨[], rfl⟩
        | some parent => exact ⟨_, rfl⟩
      obtain ⟨rest, line⟩ := starts
      rw [line] at initial
      have uncopied := initial.none (by rw [found]; simp)
      rw [← line] at uncopied
      -- neither the group nor any of its ancestors was copied
      have still : (special.ancestry (steps + 1) id).map copies.mapGroup =
          special.ancestry (steps + 1) id := by
        refine (List.map_congr_left fun other mem => ?_).trans (List.map_id _)
        exact mapGroup_of_none (Option.not_isSome_iff_eq_none.mp (uncopied other mem))
      rw [still, mapGroup_of_none found]
    | some copy =>
      have parents := specialized.parent?_copy found
      rw [ancestry] at initial
      rw [mapGroup_of_some found, ancestry, ancestry, parents]
      cases hasParent : special.parent? id with
      | none =>
        show [copy] = [copies.mapGroup id]
        rw [mapGroup_of_some found]
      | some parent =>
        rw [hasParent] at initial
        have above := ih parent (initial.tail (by rw [found]; rfl))
        show copy :: special.ancestry steps (copies.mapGroup parent) =
          copies.mapGroup id :: (special.ancestry steps parent).map copies.mapGroup
        rw [above, mapGroup_of_some found]

theorem Specialized.lineage_mapGroup {id : GroupId}
    (initial : Initial (fun group => (copies.group? group).isSome) (special.lineage id)) :
    special.lineage (copies.mapGroup id) = (special.lineage id).map copies.mapGroup :=
  specialized.ancestry_mapGroup special.size id initial

end Specialized

end GroupTable

end StreamPath
