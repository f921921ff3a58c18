import StreamPath.CopyRecord
import StreamPath.Forest.Basic

/-!
# Copying trees

A specialization gets a tree of its own. Within one copy operation a node that is reached twice is
copied once, so the copy shares nodes where the copied tree does.
-/

namespace StreamPath

namespace Forest

/-- Copy what is below a node, at most `steps` operands deep: operands first, from left to right,
then the node. -/
def copyWithin : (steps : Nat) → NodeId → StateM (Forest × CopyRecord) NodeId
  | 0, id => return id
  | steps + 1, id => do
    let (forest, copies) ← get
    match copies.node? id, forest.node? id with
    | some copy, _ => return copy
    | none, none => return id
    | none, some node => do
      -- the operands first, so that a copy comes after what it is made of
      let form ← node.form.mapM (copyWithin steps)
      modifyGet fun (forest, copies) =>
        let (copy, grown) := forest.append { node with form }
        (copy, grown, copies.recordNode id copy)

def deepCopy (forest : Forest) (copies : CopyRecord) (id : NodeId) :
    NodeId × Forest × CopyRecord :=
  (copyWithin (id.index + 1) id).run (forest, copies)

end Forest

end StreamPath
