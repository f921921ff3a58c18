import Mathlib.Data.List.Dedup
import StreamPath.Proofs.GroupCopy
import StreamPath.Proofs.Lineage

/-!
# Copies nest as the groups do

Groups are copied in any order, so a copy may come before the copy of its parent, and the line of a
group may leave the copied groups and never return to them, or return to them later. Where it does
not return, the line of the copy is the line of the group with every copied group replaced.

* `GroupTable.Convex` — no line leaves some groups and returns to them;
* `GroupTable.Numbered` — which groups of the table are copies;
* `GroupTable.Specialized.initial_of_convex` — along a line, the copied groups come first;
* `GroupTable.nestsAlike_specialize` — what copying and relinking makes of a table.
-/

namespace StreamPath

namespace GroupTable

/-- With a group and one of its ancestors, all groups between them are wanted too. -/
def Convex (table : GroupTable) (wanted : GroupId → Prop) : Prop :=
  ∀ inner between outer, wanted inner → wanted outer →
    table.Ancestor inner between → table.Ancestor between outer → wanted between

/-- The table has grown by the copies on record and by nothing else, and they stand in the order in
which they were made. -/
structure Numbered (base grown : GroupTable) (copies : CopyRecord) : Prop where
  size : grown.size = base.size + copies.groups.entries.length
  copies : copies.groups.entries.map Prod.snd =
    (List.range' base.size copies.groups.entries.length).map GroupId.mk

variable {base grown special : GroupTable} {copies : CopyRecord}

/-! ## Which groups are copies -/

theorem numbered_start (base : GroupTable) : Numbered base base {} := ⟨rfl, rfl⟩

/-- Copying a group adds the copy at the end, unless the group has one already. -/
theorem Numbered.copyGroup (numbered : Numbered base grown copies) (group : GroupId) :
    Numbered base (grown.copyGroup copies group).2.1 (grown.copyGroup copies group).2.2 := by
  cases known : copies.group? group with
  | some copy =>
    rw [copyGroup_of_known grown known]
    exact numbered
  | none =>
    rw [copyGroup_of_unknown grown known]
    have entries : (copies.recordGroup group ⟨grown.size⟩).groups.entries =
        copies.groups.entries ++ [(group, ⟨grown.size⟩)] :=
      Table.entries_insert_of_find?_none _ known
    constructor
    · show (grown.append _).2.size = _
      rw [size_append, entries, numbered.size, List.length_append]
      rfl
    · show (copies.recordGroup group ⟨grown.size⟩).groups.entries.map Prod.snd = _
      rw [entries, List.map_append, numbered.copies, List.length_append, List.length_singleton,
        List.range'_1_concat, List.map_append, numbered.size]
      rfl

theorem Numbered.copyGroups (numbered : Numbered base grown copies) (ids : List GroupId) :
    Numbered base (grown.copyGroups copies ids).1 (grown.copyGroups copies ids).2 := by
  induction ids generalizing grown copies with
  | nil => exact numbered
  | cons group rest ih => exact ih (numbered.copyGroup group)

theorem numbered_specialize (table : GroupTable) (ids : List GroupId) :
    Numbered table (table.specialize ids).1 (table.specialize ids).2 := by
  have numbered := (numbered_start table).copyGroups ids
  refine ⟨?_, numbered.copies⟩
  show ((table.copyGroups {} ids).1.relink _).size = _
  rw [size_relink]
  exact numbered.size

/-- Every new group is the copy of a group. -/
theorem Numbered.exists_original (numbered : Numbered base grown copies)
    (nodup : copies.groups.keys.Nodup) {id : GroupId} (new : base.size ≤ id.index)
    (inside : id.index < grown.size) : ∃ original, copies.group? original = some id := by
  have isCopy : id ∈ copies.groups.entries.map Prod.snd := by
    rw [numbered.copies, List.mem_map]
    refine ⟨id.index, List.mem_range'_1.mpr ⟨new, ?_⟩, rfl⟩
    rw [← numbered.size]
    exact inside
  obtain ⟨⟨original, _⟩, isEntry, rfl⟩ := List.mem_map.mp isCopy
  exact ⟨original, (Table.mem_entries_iff nodup).mp isEntry⟩

/-- There are as many copies as different groups were asked for. -/
theorem Specialized.length_entries (specialized : Specialized base special copies)
    {ids : List GroupId} (copied : ∀ id, (copies.group? id).isSome ↔ id ∈ ids) :
    copies.groups.entries.length = ids.dedup.length := by
  have keys : copies.groups.keys.Perm ids.dedup := by
    refine (List.perm_ext_iff_of_nodup specialized.nodup (List.nodup_dedup ids)).mpr fun id => ?_
    rw [List.mem_dedup, ← copied, ← Table.contains_iff_mem_keys]
    rfl
  rw [← keys.length_eq, Table.keys, List.length_map]

/-! ## Lines of copies -/

/-- A place on the line of a copied group behind the last copied one: no copied group, and above a
copied one unless it is a copy itself. -/
def Beyond (base : GroupTable) (copies : CopyRecord) (id : GroupId) : Prop :=
  copies.group? id = none ∧
    (id.index < base.size → ∃ inner, (copies.group? inner).isSome ∧ base.Ancestor inner id)

theorem initial_of_none {wanted : GroupId → Prop} {line : List GroupId}
    (unwanted : ∀ id ∈ line, ¬wanted id) : Initial wanted line :=
  ⟨[], line, rfl, nofun, unwanted⟩

theorem Initial.cons {wanted : GroupId → Prop} {id : GroupId} {line : List GroupId}
    (isWanted : wanted id) (initial : Initial wanted line) : Initial wanted (id :: line) := by
  obtain ⟨nearer, further, rfl, inside, outside⟩ := initial
  exact ⟨id :: nearer, further, rfl, List.forall_mem_cons.mpr ⟨isWanted, inside⟩, outside⟩

section Line

variable (specialized : Specialized base special copies)
  (convex : base.Convex fun id => (copies.group? id).isSome)

include specialized

/-- A copy was not copied in turn. -/
theorem Specialized.group?_copy {id copy : GroupId} (found : copies.group? id = some copy) :
    copies.group? copy = none := by
  rw [← Option.not_isSome_iff_eq_none]
  intro again
  obtain ⟨second, copied⟩ := Option.isSome_iff_exists.mp again
  have early := specialized.original copy second copied
  have late := (specialized.behind id copy found).1
  omega

/-- The parent of a copy is the copy of the parent of its original, if that was copied, and else that
parent itself. -/
theorem Specialized.parent?_mapGroup {id : GroupId} (isCopied : (copies.group? id).isSome) :
    special.parent? (copies.mapGroup id) = (base.parent? id).map copies.mapGroup := by
  obtain ⟨copy, found⟩ := Option.isSome_iff_exists.mp isCopied
  rw [mapGroup_of_some found, specialized.parent?_copy found,
    specialized.parent?_of_lt (specialized.original id copy found)]

/-- Where all parents are groups of the table, the lines of its groups stay as they are. -/
theorem Specialized.ancestry_of_lt (closed : base.Closed) (steps : Nat) {id : GroupId}
    (old : id.index < base.size) : special.ancestry steps id = base.ancestry steps id := by
  induction steps generalizing id with
  | zero => rfl
  | succ steps ih =>
    rw [ancestry, ancestry, specialized.parent?_of_lt old]
    cases found : base.parent? id with
    | none => rfl
    | some parent =>
      show id :: special.ancestry steps parent = id :: base.ancestry steps parent
      rw [ih (closed id parent found)]

/-- Behind the old groups there are the copies and nothing else. -/
theorem Specialized.get?_of_no_copy (numbered : Numbered base special copies) {id : GroupId}
    (noCopy : ∀ original, copies.group? original ≠ some id) : special.get? id = base.get? id := by
  by_cases old : id.index < base.size
  · exact specialized.kept id old
  · have outside : ¬id.index < special.size := by
      intro inside
      obtain ⟨original, found⟩ :=
        numbered.exists_original specialized.nodup (Nat.le_of_not_lt old) inside
      exact noCopy original found
    unfold get?
    rw [Array.getElem?_eq_none (Nat.le_of_not_lt outside),
      Array.getElem?_eq_none (Nat.le_of_not_lt old)]

include convex

/-- From beyond the copied groups, parents do not lead back to them. -/
theorem Specialized.beyond_parent (numbered : Numbered base special copies) {id parent : GroupId}
    (beyond : Beyond base copies id) (found : special.parent? id = some parent) :
    Beyond base copies parent := by
  obtain ⟨uncopied, above⟩ := beyond
  by_cases old : id.index < base.size
  · obtain ⟨inner, isCopied, line⟩ := above old
    rw [specialized.parent?_of_lt old] at found
    refine ⟨?_, fun _ => ⟨inner, isCopied, line.trans (.parent found (.self _))⟩⟩
    -- a copied parent would put the group between two copied ones
    rw [← Option.not_isSome_iff_eq_none]
    intro again
    have between : (copies.group? id).isSome :=
      convex inner id parent isCopied again line (.parent found (.self parent))
    rw [uncopied] at between
    cases between
  · have inside := index_lt_of_parent? found
    obtain ⟨original, copied⟩ :=
      numbered.exists_original specialized.nodup (Nat.le_of_not_lt old) inside
    rw [specialized.parent?_copy copied,
      specialized.parent?_of_lt (specialized.original original id copied)] at found
    obtain ⟨outer, isParent, rfl⟩ := Option.map_eq_some_iff.mp found
    cases outerCopied : copies.group? outer with
    | some copy =>
      rw [mapGroup_of_some outerCopied]
      refine ⟨specialized.group?_copy outerCopied, fun early => ?_⟩
      have late := (specialized.behind outer copy outerCopied).1
      omega
    | none =>
      rw [mapGroup_of_none outerCopied]
      refine ⟨outerCopied, fun _ => ⟨original, ?_, .parent isParent (.self outer)⟩⟩
      rw [copied]
      rfl

theorem Specialized.group?_of_beyond (numbered : Numbered base special copies) {steps : Nat}
    {id : GroupId} (beyond : Beyond base copies id) :
    ∀ group ∈ special.ancestry steps id, copies.group? group = none := by
  induction steps generalizing id with
  | zero =>
    intro group mem
    rw [List.mem_singleton.mp mem]
    exact beyond.1
  | succ steps ih =>
    intro group mem
    rw [ancestry] at mem
    cases found : special.parent? id with
    | none =>
      rw [found] at mem
      rw [List.mem_singleton.mp mem]
      exact beyond.1
    | some parent =>
      rw [found] at mem
      rcases List.mem_cons.mp mem with rfl | further
      · exact beyond.1
      · exact ih (specialized.beyond_parent convex numbered beyond found) group further

/-- On the line of a copied group the copied groups come first, if they are convex. -/
theorem Specialized.initial_of_convex (numbered : Numbered base special copies) (steps : Nat)
    {id : GroupId} (isCopied : (copies.group? id).isSome) :
    Initial (fun group => (copies.group? group).isSome) (special.ancestry steps id) := by
  induction steps generalizing id with
  | zero => exact .cons isCopied (initial_of_none nofun)
  | succ steps ih =>
    rw [ancestry]
    cases found : special.parent? id with
    | none => exact .cons isCopied (initial_of_none nofun)
    | some parent =>
      refine .cons isCopied ?_
      by_cases again : (copies.group? parent).isSome
      · exact ih again
      · -- from here on the line is beyond the copied groups
        obtain ⟨copy, copied⟩ := Option.isSome_iff_exists.mp isCopied
        rw [specialized.parent?_of_lt (specialized.original id copy copied)] at found
        have beyond : Beyond base copies parent :=
          ⟨Option.not_isSome_iff_eq_none.mp again,
            fun _ => ⟨id, isCopied, .parent found (.self parent)⟩⟩
        refine initial_of_none fun group mem => ?_
        rw [Option.not_isSome_iff_eq_none]
        exact specialized.group?_of_beyond convex numbered beyond group mem

end Line

/-! ## Relinking in any order, and again -/

theorem eq_of_get? {first second : GroupTable} (same : ∀ id, first.get? id = second.get? id) :
    first = second := by
  obtain ⟨first⟩ := first
  obtain ⟨second⟩ := second
  exact congrArg GroupTable.mk (Array.ext_getElem? fun index => same ⟨index⟩)

/-- Relinking a copy reads and changes the parent of that copy alone, so two copies can be relinked in
either order. -/
theorem relinkCopy_comm (table : GroupTable) (copies : CopyRecord) (one two : GroupId) :
    (table.relinkCopy copies one).relinkCopy copies two =
      (table.relinkCopy copies two).relinkCopy copies one := by
  apply eq_of_get?
  intro id
  simp only [get?_relinkCopy]
  split <;> split <;> rfl

/-- The order in which copies are relinked does not matter, also where one is relinked repeatedly. -/
theorem foldl_relinkCopy_perm (copies : CopyRecord) {pairs others : List (GroupId × GroupId)}
    (perm : pairs.Perm others) (table : GroupTable) :
    pairs.foldl (fun acc pair => acc.relinkCopy copies pair.2) table =
      others.foldl (fun acc pair => acc.relinkCopy copies pair.2) table :=
  perm.foldl_eq' (fun one _ two _ reached => reached.relinkCopy_comm copies one.2 two.2) table

theorem relinkCopy_eq_self {table : GroupTable} {copy : GroupId}
    (settled : ∀ parent, table.parent? copy = some parent → copies.group? parent = none) :
    table.relinkCopy copies copy = table := by
  unfold relinkCopy
  cases found : table.parent? copy with
  | none => rfl
  | some parent =>
    rw [Option.bind_some, settled parent found]

/-- Relinked copies stay as they are: none of their parents was copied. -/
theorem Specialized.relink_eq_self (specialized : Specialized base special copies) :
    special.relink copies = special := by
  have settled : ∀ pair ∈ copies.groups.entries, special.relinkCopy copies pair.2 = special := by
    rintro ⟨id, copy⟩ isEntry
    have copied : copies.group? id = some copy :=
      (Table.mem_entries_iff specialized.nodup).mp isEntry
    refine relinkCopy_eq_self fun parent found => ?_
    rw [specialized.parent?_copy copied] at found
    obtain ⟨outer, -, rfl⟩ := Option.map_eq_some_iff.mp found
    cases outerCopied : copies.group? outer with
    | some outerCopy =>
      rw [mapGroup_of_some outerCopied]
      exact specialized.group?_copy outerCopied
    | none =>
      rw [mapGroup_of_none outerCopied]
      exact outerCopied
  unfold relink
  generalize copies.groups.entries = pairs at settled
  induction pairs with
  | nil => rfl
  | cons pair rest ih =>
    rw [List.forall_mem_cons] at settled
    rw [List.foldl_cons, settled.1]
    exact ih settled.2

/-! ## The whole operation -/

/-- What copying some groups of a table and relinking the copies makes of the table. -/
structure NestsAlike (table special : GroupTable) (ids : List GroupId) (copies : CopyRecord) :
    Prop where
  /-- Every copy is a new group with the name of its original. -/
  copy : ∀ id ∈ ids, table.size ≤ (copies.mapGroup id).index ∧
    (special.get? (copies.mapGroup id)).map Group.name = (table.get? id).map Group.name
  /-- Different groups have different copies. -/
  injective : ∀ id ∈ ids, ∀ other ∈ ids, copies.mapGroup id = copies.mapGroup other → id = other
  /-- However often a group was asked for, it was copied once. -/
  size : special.size = table.size + ids.dedup.length
  /-- The parent of a copy is the copy of the parent, if that was copied too. -/
  parent : ∀ id ∈ ids, special.parent? (copies.mapGroup id) =
    (table.parent? id).map fun parent => if parent ∈ ids then copies.mapGroup parent else parent
  /-- Nothing else in the table changes. -/
  others : ∀ id, (∀ original ∈ ids, copies.mapGroup original ≠ id) →
    special.get? id = table.get? id
  /-- As far as one follows it, the line of a copy is the line of the group, mapped. -/
  line : table.Convex (· ∈ ids) → ∀ id ∈ ids, ∀ steps,
    special.ancestry steps (copies.mapGroup id) =
      (special.ancestry steps id).map copies.mapGroup
  /-- The line of a group is the one that it had before. -/
  kept : table.Closed → ∀ id, id.index < table.size → ∀ steps,
    special.ancestry steps id = table.ancestry steps id
  /-- In every later table, copying one of the groups gives its copy and changes nothing. -/
  again : ∀ id ∈ ids, ∀ later : GroupTable,
    later.copyGroup copies id = (copies.mapGroup id, later, copies)
  /-- The order in which the copies are relinked does not matter, in any table. -/
  order : ∀ pairs : List (GroupId × GroupId), pairs.Perm copies.groups.entries →
    ∀ other : GroupTable, pairs.foldl (fun acc pair => acc.relinkCopy copies pair.2) other =
      other.relink copies
  /-- Relinking once more changes nothing. -/
  relinked : special.relink copies = special

/-- Some groups of any table are copied, in any order and each as often as one likes, and then the
copies are relinked once. The copies are new groups that nest as the groups do, and where no line
leaves the copied groups and returns to them, the lines of the copies are the copied lines. -/
theorem nestsAlike_specialize (table : GroupTable) {ids : List GroupId}
    (inside : ∀ id ∈ ids, id.index < table.size) :
    NestsAlike table (table.specialize ids).1 ids (table.specialize ids).2 := by
  obtain ⟨specialized, copied⟩ := specialized_specialize table inside
  have numbered := numbered_specialize table ids
  generalize (table.specialize ids).1 = special at *
  generalize (table.specialize ids).2 = copies at *
  have isCopied : ∀ id ∈ ids, ∃ copy, copies.group? id = some copy := fun id mem =>
    Option.isSome_iff_exists.mp ((copied id).mpr mem)
  refine ⟨fun id mem => ?_, fun id mem other otherMem same => ?_, ?_, fun id mem => ?_,
    fun id original => ?_, fun convex id mem steps => ?_,
    fun closed id old steps => specialized.ancestry_of_lt closed steps old,
    fun id mem later => ?_, fun pairs perm => foldl_relinkCopy_perm copies perm,
    specialized.relink_eq_self⟩
  · obtain ⟨copy, found⟩ := isCopied id mem
    rw [mapGroup_of_some found, specialized.copied id copy found]
    refine ⟨(specialized.behind id copy found).1, ?_⟩
    cases table.get? id <;> rfl
  · obtain ⟨copy, found⟩ := isCopied id mem
    obtain ⟨otherCopy, otherFound⟩ := isCopied other otherMem
    rw [mapGroup_of_some found, mapGroup_of_some otherFound] at same
    subst same
    exact specialized.injective id other copy found otherFound
  · rw [numbered.size, specialized.length_entries copied]
  · rw [specialized.parent?_mapGroup ((copied id).mpr mem)]
    refine congrArg (fun f => (table.parent? id).map f) (funext fun parent => ?_)
    by_cases wanted : parent ∈ ids
    · rw [if_pos wanted]
    · rw [if_neg wanted]
      exact mapGroup_of_none (Option.not_isSome_iff_eq_none.mp (mt (copied parent).mp wanted))
  · refine specialized.get?_of_no_copy numbered fun group found => ?_
    have mem := (copied group).mp (by rw [found]; rfl)
    exact original group mem (mapGroup_of_some found)
  · have wanted : table.Convex fun group => (copies.group? group).isSome := by
      simp only [copied]
      exact convex
    exact specialized.ancestry_mapGroup steps id
      (specialized.initial_of_convex wanted numbered steps ((copied id).mpr mem))
  · obtain ⟨copy, found⟩ := isCopied id mem
    rw [copyGroup_of_known later found, mapGroup_of_some found]

/-- Of three nested groups the inner two are copied, the innermost first and once more at the end, so
its copy stands before the copy of its parent. -/
theorem nestsAlike_innermost_first :
    let table := (((GroupTable.initial.add ⟨0⟩ (some "outer")).2.add ⟨1⟩ (some "inner")).2.add ⟨2⟩
      none).2
    let ids : List GroupId := [⟨3⟩, ⟨2⟩, ⟨3⟩]
    let special := (table.specialize ids).1
    let copies := (table.specialize ids).2
    special.size = 6 ∧ special.parent? ⟨4⟩ = some ⟨5⟩ ∧ special.parent? ⟨5⟩ = some ⟨1⟩ ∧
      special.lineage ⟨4⟩ = [⟨4⟩, ⟨5⟩, ⟨1⟩, ⟨0⟩] ∧ special.relink copies = special := by
  intro table ids special copies
  have nests : NestsAlike table special ids copies := nestsAlike_specialize table (by decide)
  have convex : table.Convex (· ∈ ids) := by
    intro inner between outer isInner isOuter below above
    rw [← mem_lineage_iff] at below above
    have around : ∀ inner ∈ ids, ∀ between ∈ table.lineage inner, ∀ outer ∈ ids,
        outer ∈ table.lineage between → between ∈ ids := by decide
    exact around inner isInner between below outer isOuter above
  have line := nests.line convex ⟨3⟩ (by decide) special.size
  exact ⟨nests.size, nests.parent ⟨3⟩ (by decide), nests.parent ⟨2⟩ (by decide), line,
    nests.relinked⟩

end GroupTable

end StreamPath
