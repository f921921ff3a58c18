import StreamPath.Identifier

/-!
# Groups

Groups nest: every group but the outermost has a parent, and a variable is looked up along the line
of ancestors. A table starts with the outermost group and grows by declarations.

* `lineage` — a group and its ancestors, innermost first;
* `isWithin` — whether one group is another or nested in it.
-/

namespace StreamPath

structure Group where
  name : Option String := none
  parent : Option GroupId := none
deriving DecidableEq, Repr, Inhabited

/-- The declared groups, in order of declaration. -/
structure GroupTable where
  groups : Array Group
deriving DecidableEq, Repr

namespace GroupTable

/-- The table of the outermost group alone. -/
def initial : GroupTable := ⟨#[{}]⟩

instance : Inhabited GroupTable := ⟨initial⟩

def size (table : GroupTable) : Nat := table.groups.size

def get? (table : GroupTable) (id : GroupId) : Option Group := table.groups[id.index]?

def parent? (table : GroupTable) (id : GroupId) : Option GroupId :=
  (table.get? id).bind Group.parent

def append (table : GroupTable) (group : Group) : GroupId × GroupTable :=
  (⟨table.size⟩, ⟨table.groups.push group⟩)

def add (table : GroupTable) (parent : GroupId) (name : Option String) : GroupId × GroupTable :=
  table.append ⟨name, some parent⟩

def setParent (table : GroupTable) (id parent : GroupId) : GroupTable :=
  ⟨table.groups.modify id.index fun group => { group with parent := some parent }⟩

/-- A group and at most `steps` ancestors. -/
def ancestry (table : GroupTable) : (steps : Nat) → GroupId → List GroupId
  | 0, id => [id]
  | steps + 1, id =>
    match table.parent? id with
    | none => [id]
    | some parent => id :: table.ancestry steps parent

/-- A group and its ancestors, innermost first. No line of distinct groups is longer than the
table, so that many steps reach the outermost ancestor. -/
def lineage (table : GroupTable) (id : GroupId) : List GroupId := table.ancestry table.size id

/-- Whether a group is another one or nested in it. -/
def isWithin (table : GroupTable) (inner outer : GroupId) : Bool :=
  (table.lineage inner).contains outer

theorem get?_append_self (table : GroupTable) (group : Group) :
    (table.append group).2.get? (table.append group).1 = some group := by
  simp [append, get?, size]

theorem get?_append_of_lt (table : GroupTable) (group : Group) {id : GroupId}
    (lt : id.index < table.size) : (table.append group).2.get? id = table.get? id := by
  have ne : id.index ≠ table.groups.size := Nat.ne_of_lt lt
  simp [append, get?, Array.getElem?_push, ne]

@[simp] theorem size_append (table : GroupTable) (group : Group) :
    (table.append group).2.size = table.size + 1 := by simp [append, size]

@[simp] theorem size_setParent (table : GroupTable) (id parent : GroupId) :
    (table.setParent id parent).size = table.size := by simp [setParent, size]

theorem mem_lineage_self (table : GroupTable) (id : GroupId) : id ∈ table.lineage id := by
  unfold lineage
  cases table.size with
  | zero => simp [ancestry]
  | succ steps =>
    rw [ancestry]
    cases table.parent? id <;> simp

theorem isWithin_self (table : GroupTable) (id : GroupId) : table.isWithin id id = true := by
  simp [isWithin, mem_lineage_self]

end GroupTable

end StreamPath
