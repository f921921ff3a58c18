import StreamPath.Node
import StreamPath.Number.Text

/-!
# Sequences

Every value is a sequence of items, and an item is a boolean, a number, a string or a node. Items
are converted on demand:

| from | to boolean | to number | to string |
|---|---|---|---|
| boolean | itself | `1` or `0` | `true` or `false` |
| number | neither zero nor `NaN` | itself | `Number.format` |
| string | not empty | `Number.parse` | itself |
| node | `true` | the number of its text | its text |

A sequence stands for its first item, and the empty one for `false`, `NaN` and the empty string.
-/

namespace StreamPath

inductive ItemType
  | boolean
  | number
  | string
  | node
deriving DecidableEq, Repr

namespace ItemType

def display : ItemType → String
  | boolean => "boolean"
  | number => "number"
  | string => "string"
  | node => "node"

end ItemType

inductive Item
  | boolean (value : Bool)
  | number (value : Float)
  | string (value : String)
  | node (value : Node)
deriving DecidableEq

namespace Item

def type : Item → ItemType
  | boolean _ => .boolean
  | number _ => .number
  | string _ => .string
  | node _ => .node

def toBoolean : Item → Bool
  | boolean value => value
  | number value => !(value == 0) && !value.isNaN
  | string value => !value.isEmpty
  | node _ => true

/-- The number that a truth value stands for. -/
def ofBool (value : Bool) : Float := if value then 1 else 0

def toNumber : Item → Float
  | boolean value => ofBool value
  | number value => value
  | string value => Number.parse value
  | node value => Number.parse value.text

def toText : Item → String
  | boolean value => if value then "true" else "false"
  | number value => Number.format value
  | string value => value
  | node value => value.text

def node? : Item → Option Node
  | node value => some value
  | _ => none

/-- The text shown for an item: a node shows its kind. -/
def display : Item → String
  | node value => "<" ++ value.kind.display ++ ">"
  | item => item.toText

/-- Whether two items are the same: of one type, numbers equal or both undefined, nodes identical. -/
def same : Item → Item → Bool
  | boolean a, boolean b => a = b
  | number a, number b => a == b || (a.isNaN && b.isNaN)
  | string a, string b => a = b
  | node a, node b => a.same b
  | _, _ => false

end Item

/-- A value: any number of items in order. -/
abbrev Sequence := List Item

namespace Sequence

def ofNumber (value : Float) : Sequence := [.number value]

def ofString (value : String) : Sequence := [.string value]

def ofBoolean (value : Bool) : Sequence := [.boolean value]

/-- The truth value: that of a single item; nothing is false and more than one item is true. -/
def toBoolean : Sequence → Bool
  | [] => false
  | [item] => item.toBoolean
  | _ => true

/-- The number of the first item. -/
def toNumber (items : Sequence) : Float := (items.head?.map Item.toNumber).getD Number.nan

/-- The text of the first item. -/
def toText (items : Sequence) : String := (items.head?.map Item.toText).getD ""

/-- The texts of all items with a separator between them. -/
def join (separator : String) (items : Sequence) : String :=
  String.intercalate separator (items.map Item.toText)

/-- The number of a sequence that is nothing but one number. -/
def singleNumber? : Sequence → Option Float
  | [.number value] => some value
  | _ => none

def nodes (items : Sequence) : List Node := items.filterMap Item.node?

theorem mem_nodes {items : Sequence} {node : Node} :
    node ∈ items.nodes ↔ Item.node node ∈ items := by
  unfold nodes
  rw [List.mem_filterMap]
  constructor
  · rintro ⟨item, mem, isNode⟩
    cases item <;> cases isNode
    exact mem
  · intro mem
    exact ⟨_, mem, rfl⟩

theorem nodes_append (items more : Sequence) : nodes (items ++ more) = items.nodes ++ more.nodes :=
  List.filterMap_append

theorem nodes_map_node (nodes : List Node) : Sequence.nodes (nodes.map .node) = nodes := by
  unfold Sequence.nodes
  rw [List.filterMap_map]
  exact List.filterMap_some

/-- Whether two sequences are the same, item by item. -/
def same : Sequence → Sequence → Bool
  | [], [] => true
  | a :: as, b :: bs => a.same b && same as bs
  | _, _ => false

end Sequence

end StreamPath
