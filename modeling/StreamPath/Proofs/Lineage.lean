import Mathlib.Data.Fintype.Pigeonhole
import StreamPath.Group

/-!
# Lines of ancestors

`lineage` lists a group and its ancestors by a walk that takes as many steps as the table has groups.
No ancestor is missed: a longer line would meet a group twice, and could be shortened.

* `GroupTable.mem_lineage_iff` — the lineage holds exactly the group and its static ancestors.
-/

namespace StreamPath

namespace GroupTable

/-- One group is another one or a static ancestor of it: parents lead from `inner` to `outer`. -/
inductive Ancestor (table : GroupTable) : (inner outer : GroupId) → Prop
  | self (id : GroupId) : Ancestor table id id
  | parent {id parent outer : GroupId} : table.parent? id = some parent →
      Ancestor table parent outer → Ancestor table id outer

theorem Ancestor.trans {table : GroupTable} {inner between outer : GroupId}
    (first : table.Ancestor inner between) (second : table.Ancestor between outer) :
    table.Ancestor inner outer := by
  induction first with
  | self id => exact second
  | parent found _ ih => exact .parent found (ih second)

/-- The ancestor a number of generations above a group. -/
def climb (table : GroupTable) : (generations : Nat) → GroupId → Option GroupId
  | 0, id => some id
  | generations + 1, id => (table.parent? id).bind (table.climb generations)

variable {table : GroupTable}

theorem climb_add (first more : Nat) (id : GroupId) :
    table.climb (first + more) id = (table.climb first id).bind (table.climb more) := by
  induction first generalizing id with
  | zero => simp [climb]
  | succ first ih =>
    rw [Nat.succ_add, climb, climb, Option.bind_assoc]
    congr 1
    funext parent
    exact ih parent

theorem ancestor_iff_climb {inner outer : GroupId} :
    table.Ancestor inner outer ↔ ∃ generations, table.climb generations inner = some outer := by
  constructor
  · intro line
    induction line with
    | self id => exact ⟨0, rfl⟩
    | parent found _ ih =>
      obtain ⟨generations, reached⟩ := ih
      exact ⟨generations + 1, by rw [climb, found]; exact reached⟩
  · rintro ⟨generations, reached⟩
    induction generations generalizing inner with
    | zero =>
      cases reached
      exact .self _
    | succ generations ih =>
      obtain ⟨parent, found, reached⟩ := Option.bind_eq_some_iff.mp reached
      exact .parent found (ih reached)

theorem mem_ancestry_iff {steps : Nat} {id outer : GroupId} :
    outer ∈ table.ancestry steps id ↔
      ∃ generations ≤ steps, table.climb generations id = some outer := by
  induction steps generalizing id with
  | zero => simp [ancestry, climb, eq_comm]
  | succ steps ih =>
    rw [ancestry]
    cases found : table.parent? id with
    | none =>
      rw [List.mem_singleton]
      constructor
      · rintro rfl
        exact ⟨0, Nat.zero_le _, rfl⟩
      · rintro ⟨generations, -, reached⟩
        cases generations with
        | zero => exact (Option.some.inj reached).symm
        | succ generations => simp [climb, found] at reached
    | some parent =>
      rw [List.mem_cons, ih]
      constructor
      · rintro (rfl | ⟨generations, le, reached⟩)
        · exact ⟨0, Nat.zero_le _, rfl⟩
        · exact ⟨generations + 1, by omega, by rw [climb, found]; exact reached⟩
      · rintro ⟨generations, le, reached⟩
        cases generations with
        | zero => exact .inl (Option.some.inj reached).symm
        | succ generations =>
          rw [climb, found] at reached
          exact .inr ⟨generations, by omega, reached⟩

/-- Only groups of the table have a parent. -/
theorem index_lt_of_parent? {id parent : GroupId} (found : table.parent? id = some parent) :
    id.index < table.size := by
  unfold parent? get? at found
  by_contra outside
  rw [Array.getElem?_eq_none (by simpa [size] using outside)] at found
  cases found

/-- A line that is longer than the table meets a group twice. -/
theorem exists_shorter_climb {generations : Nat} {id outer : GroupId}
    (reached : table.climb generations id = some outer) (long : table.size < generations) :
    ∃ fewer < generations, table.climb fewer id = some outer := by
  -- every group on the way up has a parent, so it is one of the table's
  have onTheWay : ∀ place : Fin generations, ∃ group : GroupId,
      table.climb place id = some group ∧ group.index < table.size := by
    intro place
    have split : table.climb (place + (generations - place)) id = _ := climb_add _ _ id
    rw [show place + (generations - place) = generations by omega, reached] at split
    obtain ⟨group, there, rest⟩ := Option.bind_eq_some_iff.mp split.symm
    rw [show generations - place = (generations - place - 1) + 1 by omega, climb] at rest
    obtain ⟨parent, found, -⟩ := Option.bind_eq_some_iff.mp rest
    exact ⟨group, there, index_lt_of_parent? found⟩
  choose group there inside using onTheWay
  obtain ⟨a, b, ne, same⟩ := Fintype.exists_ne_map_eq_of_card_lt
    (fun place => (⟨(group place).index, inside place⟩ : Fin table.size)) (by simpa using long)
  have same : group a = group b := congrArg GroupId.mk (Fin.mk.inj same)
  -- leave out what lies between the two meetings
  have cut : ∀ early late : Fin generations, early < late → group early = group late →
      ∃ fewer < generations, table.climb fewer id = some outer := by
    intro early late before same
    have split : table.climb (late + (generations - late)) id = _ := climb_add _ _ id
    rw [show late + (generations - late) = generations by omega, reached, there late] at split
    refine ⟨early + (generations - late), by omega, ?_⟩
    rw [climb_add, there early, same]
    exact split.symm
  rcases lt_or_gt_of_ne ne with before | after
  · exact cut a b before same
  · exact cut b a after same.symm

/-- The lineage of a group holds exactly the group and its static ancestors. -/
theorem mem_lineage_iff {id outer : GroupId} :
    outer ∈ table.lineage id ↔ table.Ancestor id outer := by
  rw [lineage, mem_ancestry_iff, ancestor_iff_climb]
  constructor
  · rintro ⟨generations, -, reached⟩
    exact ⟨generations, reached⟩
  · rintro ⟨generations, reached⟩
    induction generations using Nat.strongRecOn with
    | ind generations ih =>
      by_cases short : generations ≤ table.size
      · exact ⟨generations, short, reached⟩
      · obtain ⟨fewer, lt, reached⟩ := exists_shorter_climb reached (by omega)
        exact ih fewer lt reached

/-- Being within a group is having it as oneself or as a static ancestor. -/
theorem isWithin_iff {inner outer : GroupId} :
    table.isWithin inner outer = true ↔ table.Ancestor inner outer := by
  rw [isWithin, List.contains_iff_mem, mem_lineage_iff]

end GroupTable

end StreamPath
