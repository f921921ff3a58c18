import StreamPath.Proofs.GroupCopy
import StreamPath.Proofs.Lineage
import StreamPath.Scene

/-!
# No group is its own ancestor

A parent can stand behind its child in a table whose copies were relinked, so the place of a group
says nothing about how deep it is nested. What decreases from child to parent is a rank that every
group gets when it is made: a declared group ranks above its parent, and a copy ranks with its
original. Relinking replaces a parent by a copy of it, which does not rank higher.

* `GroupTable.Developed` — the tables that come about by declaring, copying and relinking, with the
  copies that were made;
* `GroupTable.Ranked` — what such tables keep;
* `GroupTable.Finds` — the search along a line without a bound on its steps;
* `GroupTable.Developed.lines_end` — every line ends, every search along it ends, and being within a
  group is a partial order.
-/

namespace StreamPath

namespace GroupTable

/-- Every pair of groups on record is one of the given ones. -/
def RecordedIn (copies : CopyRecord) (made : List (GroupId × GroupId)) : Prop :=
  ∀ pair ∈ copies.groups.entries, pair ∈ made

/-- A table that came about from the outermost group by declaring, copying and relinking groups in
any order, and the pairs of originals and copies that were made on the way. Any number of records
take part, each of which holds nothing but such pairs. -/
inductive Developed : GroupTable → List (GroupId × GroupId) → Prop
  | initial : Developed .initial []
  | add {table : GroupTable} {made : List (GroupId × GroupId)} {parent : GroupId}
    (name : Option String) :
    Developed table made → parent.index < table.size → Developed (table.add parent name).2 made
  | copy {table : GroupTable} {made : List (GroupId × GroupId)} {copies : CopyRecord}
    (id : GroupId) : Developed table made → RecordedIn copies made →
    Developed (table.copyGroup copies id).2.1 ((id, (table.copyGroup copies id).1) :: made)
  | relink {table : GroupTable} {made : List (GroupId × GroupId)} {copies : CopyRecord} :
    Developed table made → RecordedIn copies made → Developed (table.relink copies) made

/-- A rank that is lower for the parent of a group than for the group, and for a copy not higher than
for its original. What is not in the table yet has the lowest rank. -/
structure Ranked (table : GroupTable) (made : List (GroupId × GroupId)) (rank : GroupId → Nat) :
    Prop where
  parent : ∀ id parent, table.parent? id = some parent →
    parent.index < table.size ∧ rank parent < rank id
  copy : ∀ pair ∈ made, pair.2.index < table.size ∧ rank pair.2 ≤ rank pair.1
  bound : ∀ id, rank id < table.size
  outside : ∀ id, table.size ≤ id.index → rank id = 0

/-! ## Records -/

/-- A record that copies a group holds the new copy and what it held before. -/
theorem RecordedIn.copyGroup {copies : CopyRecord} {made : List (GroupId × GroupId)}
    (recorded : RecordedIn copies made) (table : GroupTable) (id : GroupId) :
    RecordedIn (table.copyGroup copies id).2.2 ((id, (table.copyGroup copies id).1) :: made) := by
  cases known : copies.group? id with
  | some copy =>
    rw [copyGroup_of_known table known]
    exact fun pair mem => List.mem_cons_of_mem _ (recorded pair mem)
  | none =>
    rw [copyGroup_of_unknown table known]
    intro pair mem
    change pair ∈ (copies.groups.insert id ⟨table.size⟩).entries at mem
    rw [Table.entries_insert_of_find?_none _ known] at mem
    rcases List.mem_append.mp mem with earlier | new
    · exact List.mem_cons_of_mem _ (recorded pair earlier)
    · rw [List.mem_singleton.mp new]
      exact List.mem_cons_self

theorem RecordedIn.mem {copies : CopyRecord} {made : List (GroupId × GroupId)}
    (recorded : RecordedIn copies made) {id copy : GroupId} (found : copies.group? id = some copy) :
    (id, copy) ∈ made :=
  recorded _ (Table.mem_entries_of_find? found)

/-- Copying several groups within one operation is copying them one after the other. -/
theorem Developed.copyGroups {table : GroupTable} {made : List (GroupId × GroupId)}
    {copies : CopyRecord} (developed : Developed table made) (recorded : RecordedIn copies made)
    (ids : List GroupId) :
    ∃ more, Developed (table.copyGroups copies ids).1 more ∧
      RecordedIn (table.copyGroups copies ids).2 more ∧ made ⊆ more := by
  induction ids generalizing table made copies with
  | nil => exact ⟨made, developed, recorded, List.Subset.refl made⟩
  | cons id rest ih =>
    obtain ⟨more, grown, recorded', kept⟩ :=
      ih (developed.copy id recorded) (recorded.copyGroup table id)
    exact ⟨more, grown, recorded', fun pair mem => kept (List.mem_cons_of_mem _ mem)⟩

/-! ## Ranks -/

variable {table : GroupTable} {made : List (GroupId × GroupId)} {rank : GroupId → Nat}

theorem parent?_append_self (table : GroupTable) (group : Group) :
    (table.append group).2.parent? ⟨table.size⟩ = group.parent := by
  unfold parent?
  rw [show (⟨table.size⟩ : GroupId) = (table.append group).1 from rfl, get?_append_self]
  rfl

/-- Appending a group changes no other group. -/
theorem parent?_append_of_ne (table : GroupTable) (group : Group) {id : GroupId}
    (ne : id ≠ ⟨table.size⟩) : (table.append group).2.parent? id = table.parent? id := by
  have differs : id.index ≠ table.groups.size := fun same => ne (congrArg GroupId.mk same)
  simp [parent?, get?, append, Array.getElem?_push, differs]

theorem ranked_initial : Ranked .initial [] fun _ => 0 where
  parent := by
    rintro ⟨index⟩ parent found
    cases index <;> cases found
  copy := nofun
  bound := fun _ => Nat.one_pos
  outside := fun _ _ => rfl

/-- A group that is appended can be ranked anywhere above its parent. -/
theorem Ranked.append (ranked : Ranked table made rank) {group : Group} {height : Nat}
    (above : ∀ parent, group.parent = some parent →
      parent.index < table.size ∧ rank parent < height)
    (low : height ≤ table.size) :
    Ranked (table.append group).2 made
      (fun id => if id = ⟨table.size⟩ then height else rank id) := by
  have old : ∀ {id : GroupId}, id.index < table.size → id ≠ ⟨table.size⟩ := by
    rintro id inside rfl
    exact Nat.lt_irrefl _ inside
  constructor
  · intro id parent found
    rw [size_append]
    by_cases new : id = ⟨table.size⟩
    · subst new
      rw [parent?_append_self] at found
      obtain ⟨inside, lower⟩ := above parent found
      rw [if_pos rfl, if_neg (old inside)]
      exact ⟨Nat.lt_succ_of_lt inside, lower⟩
    · rw [parent?_append_of_ne _ _ new] at found
      obtain ⟨inside, lower⟩ := ranked.parent id parent found
      rw [if_neg new, if_neg (old inside)]
      exact ⟨Nat.lt_succ_of_lt inside, lower⟩
  · intro pair mem
    obtain ⟨inside, le⟩ := ranked.copy pair mem
    rw [size_append, if_neg (old inside)]
    refine ⟨Nat.lt_succ_of_lt inside, ?_⟩
    split
    · next new =>
      -- the original was no group of the table yet, so its copy has the lowest rank
      have lowest := ranked.outside pair.1 (by rw [new])
      omega
    · exact le
  · intro id
    rw [size_append]
    split
    · exact Nat.lt_succ_of_le low
    · exact Nat.lt_succ_of_lt (ranked.bound id)
  · intro id outside
    rw [size_append] at outside
    rw [if_neg (by rintro rfl; exact Nat.not_succ_le_self _ outside)]
    exact ranked.outside id (Nat.le_of_succ_le outside)

/-- A new copy ranks with its original. -/
theorem Ranked.copyGroup (ranked : Ranked table made rank) {copies : CopyRecord}
    (recorded : RecordedIn copies made) (id : GroupId) :
    ∃ rank, Ranked (table.copyGroup copies id).2.1
      ((id, (table.copyGroup copies id).1) :: made) rank := by
  cases known : copies.group? id with
  | some copy =>
    rw [copyGroup_of_known table known]
    have earlier := ranked.copy _ (recorded.mem known)
    refine ⟨rank, ranked.parent, ?_, ranked.bound, ranked.outside⟩
    exact List.forall_mem_cons.mpr ⟨earlier, ranked.copy⟩
  | none =>
    rw [copyGroup_of_unknown table known]
    have above : ∀ parent, ((table.get? id).getD {}).parent = some parent →
        parent.index < table.size ∧ rank parent < rank id := by
      intro parent found
      apply ranked.parent id parent
      unfold parent?
      cases isGroup : table.get? id with
      | none =>
        rw [isGroup] at found
        cases found
      | some group =>
        rw [isGroup] at found
        exact found
    have appended := ranked.append above (Nat.le_of_lt (ranked.bound id))
    refine ⟨_, appended.parent, ?_, appended.bound, appended.outside⟩
    refine List.forall_mem_cons.mpr ⟨⟨?_, ?_⟩, appended.copy⟩
    · show table.size < (table.append _).2.size
      rw [size_append]
      exact Nat.lt_succ_self _
    · show (if (⟨table.size⟩ : GroupId) = ⟨table.size⟩ then rank id else _) ≤ _
      rw [if_pos rfl]
      split <;> exact Nat.le_refl _

theorem parent?_relinkCopy (table : GroupTable) (copies : CopyRecord) (copy id : GroupId) :
    (table.relinkCopy copies copy).parent? id =
      if id = copy then (table.parent? id).map copies.mapGroup else table.parent? id := by
  unfold parent?
  rw [get?_relinkCopy]
  split
  · cases table.get? id <;> rfl
  · rfl

/-- Relinking one group, whether a copy or not, changes no rank. -/
theorem Ranked.relinkCopy (ranked : Ranked table made rank) {copies : CopyRecord}
    (recorded : RecordedIn copies made) (copy : GroupId) :
    Ranked (table.relinkCopy copies copy) made rank := by
  have size := size_relinkCopy table copies copy
  refine ⟨?_, by rw [size]; exact ranked.copy, by rw [size]; exact ranked.bound,
    by rw [size]; exact ranked.outside⟩
  intro id parent found
  rw [parent?_relinkCopy] at found
  rw [size]
  split at found
  · obtain ⟨former, isParent, rfl⟩ := Option.map_eq_some_iff.mp found
    have lower := ranked.parent id former isParent
    cases known : copies.group? former with
    | none =>
      rw [mapGroup_of_none known]
      exact lower
    | some image =>
      obtain ⟨inside, le⟩ := ranked.copy _ (recorded.mem known)
      rw [mapGroup_of_some known]
      exact ⟨inside, Nat.lt_of_le_of_lt le lower.2⟩
  · exact ranked.parent id parent found

theorem Ranked.relink (ranked : Ranked table made rank) {copies : CopyRecord}
    (recorded : RecordedIn copies made) : Ranked (table.relink copies) made rank := by
  unfold GroupTable.relink
  generalize copies.groups.entries = pairs
  induction pairs generalizing table with
  | nil => exact ranked
  | cons pair rest ih => exact ih (ranked.relinkCopy recorded pair.2)

/-- Every table that came about in this way can be ranked. -/
theorem Developed.ranked (developed : Developed table made) : ∃ rank, Ranked table made rank := by
  induction developed with
  | initial => exact ⟨_, ranked_initial⟩
  | @add table made parent name _ inside ih =>
    obtain ⟨rank, ranked⟩ := ih
    have above : ∀ outer, (⟨name, some parent⟩ : Group).parent = some outer →
        outer.index < table.size ∧ rank outer < rank parent + 1 := by
      rintro _ ⟨⟩
      exact ⟨inside, Nat.lt_succ_self _⟩
    exact ⟨_, ranked.append above (ranked.bound parent)⟩
  | copy id _ recorded ih =>
    obtain ⟨rank, ranked⟩ := ih
    exact ranked.copyGroup recorded id
  | relink _ recorded ih =>
    obtain ⟨rank, ranked⟩ := ih
    exact ⟨rank, ranked.relink recorded⟩

/-! ## Lines that end -/

/-- Where ranks decrease, the line of a group ends after no more steps than the group ranks high. -/
theorem Ranked.exists_outermost (ranked : Ranked table made rank) (id : GroupId) :
    ∃ generations ≤ rank id, ∃ outermost, table.climb generations id = some outermost ∧
      table.parent? outermost = none := by
  generalize bound : rank id = height
  induction height using Nat.strongRecOn generalizing id with
  | ind height ih =>
    cases found : table.parent? id with
    | none => exact ⟨0, Nat.zero_le _, id, rfl, found⟩
    | some parent =>
      have lower := (ranked.parent id parent found).2
      rw [bound] at lower
      obtain ⟨generations, le, outermost, reached, last⟩ := ih _ lower parent rfl
      refine ⟨generations + 1, Nat.lt_of_le_of_lt le lower, outermost, ?_, last⟩
      rw [climb, found]
      exact reached

/-- A proper ancestor ranks lower. -/
theorem Ranked.eq_or_lt (ranked : Ranked table made rank) {inner outer : GroupId}
    (line : table.Ancestor inner outer) : inner = outer ∨ rank outer < rank inner := by
  induction line with
  | self id => exact .inl rfl
  | parent found _ ih =>
    have lower := (ranked.parent _ _ found).2
    rcases ih with rfl | further
    · exact .inr lower
    · exact .inr (Nat.lt_trans further lower)

/-! ## Searches that end -/

/-- A search along the line of a group looks at one group after the other, until one is wanted or has
no parent, and ends with this result. Nothing but the table bounds its steps. -/
inductive Finds (table : GroupTable) (wanted : GroupId → Bool) : GroupId → Option GroupId → Prop
  | here {id : GroupId} : wanted id = true → Finds table wanted id (some id)
  | nowhere {id : GroupId} : wanted id = false → table.parent? id = none →
    Finds table wanted id none
  | further {id parent : GroupId} {result : Option GroupId} : wanted id = false →
    table.parent? id = some parent → Finds table wanted parent result →
    Finds table wanted id result

variable {wanted : GroupId → Bool}

theorem Finds.unique {id : GroupId} {one two : Option GroupId} (first : Finds table wanted id one)
    (second : Finds table wanted id two) : one = two := by
  induction first with
  | here isWanted =>
    cases second with
    | here => rfl
    | nowhere unwanted | further unwanted =>
      rw [isWanted] at unwanted
      cases unwanted
  | nowhere unwanted last =>
    cases second with
    | here isWanted =>
      rw [isWanted] at unwanted
      cases unwanted
    | nowhere => rfl
    | further _ found =>
      rw [last] at found
      cases found
  | further unwanted found _ ih =>
    cases second with
    | here isWanted =>
      rw [isWanted] at unwanted
      cases unwanted
    | nowhere _ last =>
      rw [last] at found
      cases found
    | further _ found' rest =>
      rw [found] at found'
      cases found'
      exact ih rest

theorem finds_of_outermost {id : GroupId} (last : table.parent? id = none) :
    Finds table wanted id ([id].find? wanted) := by
  cases isWanted : wanted id with
  | true =>
    rw [List.find?_cons_of_pos isWanted]
    exact .here isWanted
  | false =>
    rw [List.find?_cons_of_neg (by simp [isWanted])]
    exact .nowhere isWanted last

/-- Where the line ends within the steps of a walk, searching the walk is searching the line. -/
theorem finds_ancestry {generations steps : Nat} {id outermost : GroupId}
    (reached : table.climb generations id = some outermost)
    (last : table.parent? outermost = none) (within : generations ≤ steps) :
    Finds table wanted id ((table.ancestry steps id).find? wanted) := by
  induction steps generalizing generations id with
  | zero =>
    cases Nat.le_zero.mp within
    cases reached
    exact finds_of_outermost last
  | succ steps ih =>
    rw [ancestry]
    cases found : table.parent? id with
    | none => exact finds_of_outermost found
    | some parent =>
      show Finds table wanted id ((id :: table.ancestry steps parent).find? wanted)
      cases isWanted : wanted id with
      | true =>
        rw [List.find?_cons_of_pos isWanted]
        exact .here isWanted
      | false =>
        rw [List.find?_cons_of_neg (by simp [isWanted])]
        cases generations with
        | zero =>
          cases reached
          rw [last] at found
          cases found
        | succ fewer =>
          rw [climb, found] at reached
          exact .further isWanted found (ih reached (Nat.le_of_succ_le_succ within))

/-- Along a line that ends, a search ends with what is found on the lineage. -/
theorem Ranked.finds_iff (ranked : Ranked table made rank) (id : GroupId)
    (result : Option GroupId) :
    Finds table wanted id result ↔ result = (table.lineage id).find? wanted := by
  obtain ⟨generations, le, outermost, reached, last⟩ := ranked.exists_outermost id
  have ends : Finds table wanted id ((table.lineage id).find? wanted) :=
    finds_ancestry reached last (Nat.le_trans le (Nat.le_of_lt (ranked.bound id)))
  constructor
  · exact fun found => found.unique ends
  · rintro rfl
    exact ends

/-! ## Developed tables -/

/-- A table that came about by declaring groups in groups of the table, copying groups and relinking
copies, in any order and with any number of records of its own copies, copies of copies included.
From every group, fewer steps than the table has groups lead to one without a parent. So every search
along a line ends: the one for the scope of a variable and the one for a group within which another
is, with the answers that are given for them. Being within a group is a partial order. -/
theorem Developed.lines_end (developed : Developed table made) :
    (∀ id, ∃ generations < table.size, ∃ outermost, table.climb generations id = some outermost ∧
      table.parent? outermost = none) ∧
    (∀ (wanted : GroupId → Bool) id result,
      Finds table wanted id result ↔ result = (table.lineage id).find? wanted) ∧
    (∀ (scene : Scene) (name : Name) (start : GroupId), scene.groups = table →
      scene.current = some start → scene.locals.contains name = false →
      ∃ result, Finds table (fun group => (scene.frame? group).any fun bindings =>
          bindings.contains name) start result ∧
        scene.findScope name = result.map Scope.group) ∧
    (∀ inner outer, ∃ result, Finds table (· = outer) inner result ∧
      table.isWithin inner outer = result.isSome) ∧
    (∀ id, table.isWithin id id = true) ∧
    (∀ inner between outer, table.isWithin inner between = true →
      table.isWithin between outer = true → table.isWithin inner outer = true) ∧
    ∀ one other, table.isWithin one other = true → table.isWithin other one = true →
      one = other := by
  obtain ⟨rank, ranked⟩ := developed.ranked
  have ends : ∀ (wanted : GroupId → Bool) id result,
      Finds table wanted id result ↔ result = (table.lineage id).find? wanted :=
    fun wanted => ranked.finds_iff
  refine ⟨fun id => ?_, ends, ?_, fun inner outer => ?_, table.isWithin_self, ?_, ?_⟩
  · obtain ⟨generations, le, line⟩ := ranked.exists_outermost id
    exact ⟨generations, Nat.lt_of_le_of_lt le (ranked.bound id), line⟩
  · rintro scene name start rfl current unbound
    refine ⟨_, (ends _ start _).mpr rfl, ?_⟩
    unfold Scene.findScope
    rw [unbound, current]
    rfl
  · refine ⟨_, (ends _ inner _).mpr rfl, ?_⟩
    rw [isWithin, Bool.eq_iff_iff, List.contains_iff_mem, List.find?_isSome]
    simp
  · intro inner between outer first second
    rw [isWithin_iff] at *
    exact first.trans second
  · intro one other first second
    rw [isWithin_iff] at *
    rcases ranked.eq_or_lt first with same | lower
    · exact same
    · rcases ranked.eq_or_lt second with same | higher
      · exact same.symm
      · omega

/-- Two nested groups are copied, the inner one first; then the copies are copied in the same way with
a record of its own, and the first copies are relinked once more. The last parent stands behind its
child, and the lines end all the same. -/
theorem lines_end_copied_copies :
    let declared := ((GroupTable.initial.add ⟨0⟩ (some "outer")).2.add ⟨1⟩ (some "inner")).2
    let first := declared.copyGroups {} [⟨2⟩, ⟨1⟩]
    let second := (first.1.relink first.2).copyGroups {} [⟨3⟩, ⟨4⟩]
    let table := (second.1.relink second.2).relink first.2
    (∃ made, Developed table made) ∧ table.parent? ⟨5⟩ = some ⟨6⟩ ∧
      (∃ generations < 7, ∃ outermost, table.climb generations ⟨5⟩ = some outermost ∧
        table.parent? outermost = none) ∧
      Finds table (· = ⟨4⟩) ⟨3⟩ (some ⟨4⟩) ∧ Finds table (· = ⟨3⟩) ⟨5⟩ none ∧
      table.isWithin ⟨5⟩ ⟨6⟩ = true ∧ table.isWithin ⟨6⟩ ⟨5⟩ ≠ true := by
  intro declared first second table
  have started : Developed declared [] := by
    refine .add _ (.add _ .initial ?_) ?_ <;> decide
  have empty : ∀ {made}, RecordedIn {} made := nofun
  obtain ⟨_, copied, recorded, -⟩ := started.copyGroups empty [⟨2⟩, ⟨1⟩]
  obtain ⟨made, again, recorded', kept⟩ :=
    (copied.relink recorded).copyGroups empty [⟨3⟩, ⟨4⟩]
  have developed : Developed table made :=
    (again.relink recorded').relink fun pair mem => kept (recorded pair mem)
  obtain ⟨ends, finds, -, -, -, -, antisymmetric⟩ := developed.lines_end
  have size : table.size = 7 := by decide +kernel
  have inside : table.isWithin ⟨5⟩ ⟨6⟩ = true := by decide +kernel
  rw [size] at ends
  refine ⟨⟨made, developed⟩, by decide +kernel, ends ⟨5⟩, (finds _ _ _).mpr (by decide +kernel),
    (finds _ _ _).mpr (by decide +kernel), inside, fun back => ?_⟩
  exact absurd (antisymmetric ⟨5⟩ ⟨6⟩ inside back) (by decide)

end GroupTable

end StreamPath
