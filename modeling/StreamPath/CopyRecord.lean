import StreamPath.Group
import StreamPath.Table

/-!
# Copying groups

A specialization copies groups and the trees that belong to them. One `CopyRecord` spans the whole
operation: it remembers which node and which group became which, so that what is reached twice is
copied once, and what was known about a node or group can be carried over to its copy.
-/

namespace StreamPath

/-- What became what in a copy operation. -/
structure CopyRecord where
  nodes : Table NodeId NodeId := .empty
  groups : Table GroupId GroupId := .empty
deriving DecidableEq, Repr, Inhabited

namespace CopyRecord

/-- The copy of a node, if it was copied. -/
def node? (copies : CopyRecord) (id : NodeId) : Option NodeId := copies.nodes.find? id

/-- The copy of a group, if it was copied. -/
def group? (copies : CopyRecord) (id : GroupId) : Option GroupId := copies.groups.find? id

/-- The copy of a group, or the group itself if it was not copied. -/
def mapGroup (copies : CopyRecord) (id : GroupId) : GroupId := (copies.group? id).getD id

def recordNode (copies : CopyRecord) (id copy : NodeId) : CopyRecord :=
  { copies with nodes := copies.nodes.insert id copy }

def recordGroup (copies : CopyRecord) (id copy : GroupId) : CopyRecord :=
  { copies with groups := copies.groups.insert id copy }

end CopyRecord

namespace GroupTable

/-- Copy a group, once per operation. The copy has the parent of the copied group until it is
relinked. -/
def copyGroup (table : GroupTable) (copies : CopyRecord) (id : GroupId) :
    GroupId × GroupTable × CopyRecord :=
  match copies.group? id with
  | some copy => (copy, table, copies)
  | none =>
    let (copy, grown) := table.append ((table.get? id).getD {})
    (copy, grown, copies.recordGroup id copy)

/-- Point one copy at the copy of its parent, if the parent was copied. -/
def relinkCopy (copies : CopyRecord) (table : GroupTable) (copy : GroupId) : GroupTable :=
  match (table.parent? copy).bind copies.group? with
  | some parent => table.setParent copy parent
  | none => table

/-- Point every copy at the copy of its parent, if the parent was copied. -/
def relink (table : GroupTable) (copies : CopyRecord) : GroupTable :=
  copies.groups.entries.foldl (fun acc pair => acc.relinkCopy copies pair.2) table

/-- A group that was copied before gets the same copy, and nothing changes. -/
theorem copyGroup_of_known (table : GroupTable) {copies : CopyRecord} {id copy : GroupId}
    (known : copies.group? id = some copy) :
    table.copyGroup copies id = (copy, table, copies) := by
  rw [copyGroup, known]

end GroupTable

end StreamPath
