import StreamPath.Diagnostic
import StreamPath.Comparison
import StreamPath.NodeTest
import StreamPath.Number.Priority

/-!
# Forms of expressions

The shape of one expression over its operands, whatever those are: identifiers in a tree store, or
expressions in turn. Everything that can be said without looking below the operands is said here:
how a form is described, and how specific it is as a pattern.
-/

namespace StreamPath

inductive Axis
  | child
  | descendant
deriving DecidableEq, Repr

inductive Arithmetic
  | add
  | sub
  | mul
  | div
  | mod
deriving DecidableEq, Repr

namespace Arithmetic

def symbol : Arithmetic → String
  | add => "+"
  | sub => "-"
  | mul => "*"
  | div => "div"
  | mod => "mod"

def apply : Arithmetic → Float → Float → Float
  | add, x, y => x + y
  | sub, x, y => x - y
  | mul, x, y => x * y
  | div, x, y => x / y
  | mod, x, y => Number.remainder x y

end Arithmetic

inductive Connective
  | and
  | or
deriving DecidableEq, Repr

def Connective.symbol : Connective → String
  | .and => "and"
  | .or => "or"

/-- Values that stand in the tree. -/
inductive Literal
  | number (value : Float)
  | string (value : String)
  /-- A value computed beforehand. -/
  | computed (value : Sequence)
deriving DecidableEq

def Literal.value : Literal → Sequence
  | number value => .ofNumber value
  | string value => .ofString value
  | computed value => value

/-- The shape of an expression over its operands. -/
inductive Form (α : Type)
  | root
  /-- What is found by `next` one level, or any number of levels, below the nodes of `base`. -/
  | step (axis : Axis) (base next : α)
  | union (left right : α)
  | nodeTest (test : NodeTest)
  | attributeTest (test : AttributeTest)
  /-- The nodes of `base` for which `condition` holds. -/
  | filter (base condition : α)
  /-- A function call. More than one argument is chained through `list`. -/
  | call (function : Name) (arguments : Option α)
  | literal (value : Literal)
  | arithmetic (op : Arithmetic) (left right : α)
  | negate (operand : α)
  | logic (op : Connective) (left right : α)
  | compare (op : Comparison) (left right : α)
  | sequence (left right : α)
  /-- Arguments of a call: those of `left`, then `last`. -/
  | list (left last : α)
  /-- Text with a part appended to it. -/
  | template (before part : Option α)
  | var (name : Name)
  | contextItem
  | parent
deriving DecidableEq

namespace Form

variable {α β : Type}

def left? : Form α → Option α
  | step _ base _ => some base
  | union left _ => some left
  | filter base _ => some base
  | call _ arguments => arguments
  | arithmetic _ left _ => some left
  | negate operand => some operand
  | logic _ left _ => some left
  | compare _ left _ => some left
  | sequence left _ => some left
  | list left _ => some left
  | template before _ => before
  | _ => none

def right? : Form α → Option α
  | step _ _ next => some next
  | union _ right => some right
  | filter _ condition => some condition
  | arithmetic _ _ right => some right
  | logic _ _ right => some right
  | compare _ _ right => some right
  | sequence _ right => some right
  | list _ last => some last
  | template _ part => part
  | _ => none

def operands (form : Form α) : List α := form.left?.toList ++ form.right?.toList

/-- Replace the operands, in order, by what an effectful function makes of them. -/
def mapM {m : Type → Type} [Monad m] (f : α → m β) : Form α → m (Form β)
  | root => return root
  | step axis base next => return step axis (← f base) (← f next)
  | union left right => return union (← f left) (← f right)
  | nodeTest test => return nodeTest test
  | attributeTest test => return attributeTest test
  | filter base condition => return filter (← f base) (← f condition)
  | call function arguments => return call function (← arguments.mapM f)
  | literal value => return literal value
  | arithmetic op left right => return arithmetic op (← f left) (← f right)
  | negate operand => return negate (← f operand)
  | logic op left right => return logic op (← f left) (← f right)
  | compare op left right => return compare op (← f left) (← f right)
  | sequence left right => return sequence (← f left) (← f right)
  | list left last => return list (← f left) (← f last)
  | template before part => return template (← before.mapM f) (← part.mapM f)
  | var name => return var name
  | contextItem => return contextItem
  | parent => return parent

/-- Whether a form is a value that stands in the tree. -/
def isLiteral : Form α → Bool
  | literal _ => true
  | _ => false

/-- Whether a form only chains arguments. -/
def isList : Form α → Bool
  | list _ _ => true
  | _ => false

/-- The form as text, for messages. -/
def describe : Form α → String
  | root => "root step '/'"
  | step .child _ _ => "child step '/'"
  | step .descendant _ _ => "descendant step '//'"
  | union _ _ => "union '|'"
  | nodeTest (.element name) => "name test '" ++ name.display ++ "'"
  | nodeTest .anyElement => "wildcard '*'"
  | nodeTest (.elementIn uri) => "namespace wildcard '\x7b" ++ uri ++ "\x7d*'"
  | nodeTest (.elementNamed localPart) => "local wildcard '*:" ++ localPart ++ "'"
  | nodeTest .anyNode => "kind test 'node()'"
  | nodeTest .text => "kind test 'text()'"
  | nodeTest .cdata => "kind test 'cdata()'"
  | nodeTest .comment => "kind test 'comment()'"
  | nodeTest (.instruction target) =>
    "kind test 'processing-instruction(" ++ target.getD "" ++ ")'"
  | attributeTest (.named name) => "attribute test '@" ++ name.display ++ "'"
  | attributeTest .any => "attribute wildcard '@*'"
  | attributeTest (.inNamespace uri) => "attribute namespace wildcard '@\x7b" ++ uri ++ "\x7d*'"
  | attributeTest (.locallyNamed localPart) => "attribute local wildcard '@*:" ++ localPart ++ "'"
  | filter _ _ => "predicate '[]'"
  | call function _ => "function call '" ++ function.display ++ "()'"
  | literal (.number value) => "number literal " ++ Number.format value
  | literal (.string value) => "string literal '" ++ value ++ "'"
  | literal (.computed _) => "precomputed value"
  | arithmetic op _ _ => "operator '" ++ op.symbol ++ "'"
  | negate _ => "unary minus"
  | logic op _ _ => "operator '" ++ op.symbol ++ "'"
  | compare op _ _ => "operator '" ++ op.symbol ++ "'"
  | sequence _ _ => "sequence ','"
  | list _ _ => "argument list"
  | template _ _ => "attribute value template"
  | var name => "variable reference '$" ++ name.display ++ "'"
  | contextItem => "context item '.'"
  | parent => "parent '..'"

end Form

/-- The priorities that patterns get by default. With the standard values a specific test always
outranks a wildcard that selects the same node. -/
structure PriorityPolicy where
  /-- Paths, filters, and everything that is not a single test. -/
  composite : Priority := .ofNumber 0.5
  /-- Tests for one name, and for instructions of one target. -/
  named : Priority := .ofNumber 0
  /-- Tests for one namespace or one local part. -/
  partialName : Priority := .ofNumber (-0.25)
  /-- Tests for a kind alone. -/
  wildcard : Priority := .ofNumber (-0.5)

instance : Inhabited PriorityPolicy := ⟨{}⟩

/-- The default priority of a pattern. -/
def Form.priority {α : Type} (policy : PriorityPolicy) : Form α → Priority
  | nodeTest (.element _) | nodeTest (.instruction (some _)) => policy.named
  | nodeTest (.elementIn _) | nodeTest (.elementNamed _) => policy.partialName
  | nodeTest _ => policy.wildcard
  | attributeTest (.named _) => policy.named
  | attributeTest (.inNamespace _) | attributeTest (.locallyNamed _) => policy.partialName
  | attributeTest .any => policy.wildcard
  | _ => policy.composite

end StreamPath
