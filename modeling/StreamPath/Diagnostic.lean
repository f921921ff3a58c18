import StreamPath.Identifier
import StreamPath.Sequence

/-!
# Diagnostics

Everything that can go wrong, as a cause with a location. A cause fixes the wording, the code and
the severity; the location is that of the instruction being executed when the cause arose. A fatal
cause is a defect of the compiled program and always ends the run, a recoverable one is a fault of
the data.
-/

namespace StreamPath

/-- Where an instruction stands in its source. -/
structure Location where
  publicId : Option String := none
  systemId : Option String := none
  line : Nat := 0
  column : Nat := 0
deriving DecidableEq, Repr, Inhabited

/-- The written form: an identifier, the system one before the public one, then line and column. -/
def Location.display (location : Location) : String :=
  (location.systemId.or location.publicId).getD "<unknown>" ++ ":" ++ toString location.line ++
    ":" ++ toString location.column

inductive Code
  | undeclaredVariable
  | unknownFunction
  | typeMismatch
  | invalidArgument
  | unsuitableRole
  | other
deriving DecidableEq, Repr

namespace Code

def text : Code → String
  | undeclaredVariable => "err:XPST0008"
  | unknownFunction => "err:XPST0017"
  | typeMismatch => "err:XPTY0004"
  | invalidArgument => "err:FORG0006"
  | unsuitableRole => "err:STXI0001"
  | other => "err:UNKNOWN"

/-- The codes that have a text of their own. -/
def known : List Code :=
  [undeclaredVariable, unknownFunction, typeMismatch, invalidArgument, unsuitableRole]

/-- The code that a text names. -/
def ofText (text : String) : Code := (known.find? fun code => code.text = text).getD other

theorem ofText_text (code : Code) : ofText code.text = code := by cases code <;> decide

end Code

/-- Whether the run can go on. -/
inductive Severity
  | fatal
  | recoverable
deriving DecidableEq, Repr

/-- The places where an operand must be open to be used. -/
inductive Operand
  | union
  | argument (function : Name)
  | arithmetic
  | negated
  | compared
  | templateText
  | templatePart
deriving DecidableEq, Repr

def Operand.display : Operand → String
  | union => "union operand"
  | argument function => "argument of " ++ function.display ++ "()"
  | arithmetic => "arithmetic operand"
  | negated => "operand of unary minus"
  | compared => "comparison operand"
  | templateText => "template text"
  | templatePart => "template part"

/-- What an expression can be asked to be. -/
inductive Role
  | pattern
  | value
deriving DecidableEq, Repr

def Role.refusal : Role → String
  | pattern => "used as a pattern"
  | value => "evaluated outside a function call"

inductive Cause
  | undeclaredVariable (name : Name)
  | unknownFunction (name : Name)
  | wrongArity (name : Name) (available : List Nat)
  /-- An operand holds a node that is no longer open. -/
  | closedOperand (operand : Operand) (kind : Kind)
  /-- A path step starts from a node that is no longer open. -/
  | closedStep (kind : Kind)
  | stepFromItem (type : ItemType)
  /-- A filtered item is not an open entry of the stack. -/
  | filterOffStack (type : ItemType)
  | unionOfItem (type : ItemType)
  | manyArithmetic
  | manyNegated
  | nodeExpected (function : String) (type : ItemType)
  | searchItemExpected
  /-- An expression of a form that cannot take a role. -/
  | unsuitable (form : String) (id : NodeId) (role : Role)
  | exitNotInnermost (group innermost : GroupId)
  | exitWithoutEntry (group : GroupId)
  | leftActive (inner group : GroupId)
  | bindInactive (group : GroupId) (name : Name)
  /-- A recoverable condition raised by a function or by the instructions of a run. -/
  | raised (code : Code) (message : String)
  /-- A defect raised by a function or by the instructions of a run. -/
  | defect (message : String)
deriving DecidableEq, Repr

namespace Cause

def arities (available : List Nat) : String := String.intercalate ", " (available.map toString)

def message : Cause → String
  | undeclaredVariable name => "undeclared variable $" ++ name.display
  | unknownFunction name => "unknown function " ++ name.display ++ "()"
  | wrongArity name available =>
    "function " ++ name.display ++ "() has no overload for this arity (available: " ++
      arities available ++ ")"
  | closedOperand operand kind => operand.display ++ " is a closed " ++ kind.display ++ " node"
  | closedStep kind => "path step applied to a closed " ++ kind.display ++ " node"
  | stepFromItem type => "path step applied to a " ++ type.display
  | filterOffStack type => "predicate applied to a " ++ type.display ++ " outside the stack"
  | unionOfItem type => "union operand is a " ++ type.display
  | manyArithmetic => "arithmetic operand is a sequence of more than one item"
  | manyNegated => "operand of unary minus is a sequence of more than one item"
  | nodeExpected function type => function ++ "() expects a node, got a " ++ type.display
  | searchItemExpected => "index-of() expects a search item"
  | unsuitable form id role => form ++ " " ++ id.display ++ " cannot be " ++ role.refusal
  | exitNotInnermost group innermost =>
    "exit of " ++ group.display ++ " while " ++ innermost.display ++
      " is the innermost active group"
  | exitWithoutEntry group => "exit of " ++ group.display ++ " without an active group"
  | leftActive inner group =>
    inner.display ++ " was still active when " ++ group.display ++ " ended"
  | bindInactive group name =>
    group.display ++ " is not active; cannot bind $" ++ name.display
  | raised _ message => message
  | defect message => message

/-- Defects end the run; faults of the data need not. -/
def severity : Cause → Severity
  | unsuitable .. | exitNotInnermost .. | exitWithoutEntry .. | leftActive .. | bindInactive ..
  | defect .. => .fatal
  | _ => .recoverable

def code : Cause → Code
  | undeclaredVariable _ => .undeclaredVariable
  | unknownFunction _ | wrongArity _ _ => .unknownFunction
  | searchItemExpected => .invalidArgument
  | raised code _ => code
  | unsuitable .. | exitNotInnermost .. | exitWithoutEntry .. | leftActive .. | bindInactive ..
  | defect .. => .unsuitableRole
  | _ => .typeMismatch

/-- Whether a cause always ends the run. -/
def isFatal (cause : Cause) : Bool := cause.severity = .fatal

end Cause

structure Diagnostic where
  cause : Cause
  location : Location := {}
deriving DecidableEq, Repr

namespace Diagnostic

def isFatal (diagnostic : Diagnostic) : Bool := diagnostic.cause.isFatal

def display (diagnostic : Diagnostic) : String :=
  diagnostic.location.display ++ ": " ++ diagnostic.cause.message ++ " (" ++
    diagnostic.cause.code.text ++ ")"

end Diagnostic

/-! ## Sinks -/

/-- The policy of a run: what happens when a diagnostic is reported. Accepting one lets the run go on
with a fallback value; refusing one ends the run with it. The response is assumed to go by the
diagnostic alone: a sink that remembers what was reported before is not described. -/
structure Sink where
  respond : Diagnostic → Except Diagnostic Unit
  /-- Whether accepted diagnostics are kept for the caller. -/
  keeps : Bool := false

namespace Sink

/-- Refuse every diagnostic. -/
def aborting : Sink where
  respond := .error

/-- Accept what is recoverable and forget it. -/
def lenient : Sink where
  respond diagnostic := if diagnostic.isFatal then .error diagnostic else .ok ()

/-- Accept what is recoverable and keep it. -/
def collecting : Sink where
  respond := lenient.respond
  keeps := true

/-- What the caller can see of the accepted diagnostics. -/
def record (sink : Sink) (accepted : List Diagnostic) : List Diagnostic :=
  if sink.keeps then accepted else []

end Sink

end StreamPath
