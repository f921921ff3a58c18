/-!
# Identifiers

The numbers by which the nodes of a tree and the groups of a table are addressed.
-/

namespace StreamPath

/-- A node of a tree store, by its place in the store. -/
structure NodeId where
  index : Nat
deriving DecidableEq, Repr, Inhabited

def NodeId.display (id : NodeId) : String := "#" ++ toString id.index

/-- A group of a group table, by its place in the table. -/
structure GroupId where
  index : Nat
deriving DecidableEq, Repr, Inhabited

/-- The outermost group. -/
def GroupId.root : GroupId := ⟨0⟩

def GroupId.display (id : GroupId) : String := "group#" ++ toString id.index

end StreamPath
