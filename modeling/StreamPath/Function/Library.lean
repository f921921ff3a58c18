import StreamPath.Ancestors
import StreamPath.Diagnostic
import StreamPath.Ranking

/-!
# Function libraries

Functions are registered by name with a range of arities. The overloads of a name are ranked by how
specific they are: the highest least arity first, then the smallest greatest arity, unbounded ones
last, and those registered first before equal ones. A call takes the first overload that accepts its
number of arguments.

* `accepts_of_resolve` — what a call takes accepts its arity;
* `isPure` — whether a call depends on nothing but its arguments.
-/

namespace StreamPath

/-- What a function can see of a run besides its arguments. Functions are assumed to read the position
and the open nodes and nothing else, so the groups, the variables and the remembered scopes of the run
are not handed to them. -/
structure CallSite where
  stack : Ancestors
  position : Nat
  /-- How many of the open nodes are in view; the innermost of these is the context node. -/
  top : Nat

/-- The context node, if there is one. -/
def CallSite.contextNode? (site : CallSite) : Option Node :=
  match site.top with
  | 0 => none
  | depth + 1 => site.stack.node? depth

abbrev Body := CallSite → List Sequence → Except Cause Sequence

/-- What the result of a function depends on. -/
inductive Purity
  /-- On the arguments alone. -/
  | pure
  /-- On the position or the open nodes too. -/
  | contextual
deriving DecidableEq, Repr

/-- A function for a range of arities. -/
structure Overload where
  least : Nat
  /-- `none` for any number of arguments from `least` on. -/
  greatest : Option Nat
  purity : Purity
  body : Body

namespace Overload

/-- Whether an overload can take so many arguments. -/
def accepts (overload : Overload) (arity : Nat) : Bool :=
  overload.least ≤ arity && overload.greatest.all fun greatest => arity ≤ greatest

/-- Whether one overload is strictly more specific than another. -/
def precedes (a b : Overload) : Bool :=
  b.least < a.least ||
    (a.least = b.least &&
      match a.greatest, b.greatest with
      | some x, some y => x < y
      -- an unbounded overload is the least specific
      | some _, none => true
      | none, _ => false)

/-- The arities of a bounded overload; an unbounded one lists none. -/
def arities (overload : Overload) : List Nat :=
  match overload.greatest with
  | some greatest => List.range' overload.least (greatest + 1 - overload.least)
  | none => []

end Overload

/-- The registered functions: the overloads of each name, most specific first. -/
structure Library where
  functions : Table Name (List Overload) := .empty

namespace Library

def empty : Library := {}

/-- Register an overload behind those at least as specific. -/
def register (library : Library) (name : Name) (overload : Overload) : Library :=
  ⟨library.functions.insert name
    (Ranking.place Overload.precedes overload ((library.functions.find? name).getD []))⟩

def contains (library : Library) (name : Name) : Bool := library.functions.contains name

/-- Drop the repetitions from an ascending list. -/
def dedup : List Nat → List Nat
  | a :: b :: rest => if a = b then dedup (b :: rest) else a :: dedup (b :: rest)
  | short => short

/-- All arities that the bounded overloads of a name accept, ascending. -/
def available (overloads : List Overload) : List Nat :=
  dedup (Ranking.arrange (fun a b => a < b) (overloads.flatMap Overload.arities))

/-- The overload that a call takes. -/
def resolve (library : Library) (name : Name) (arity : Nat) : Except Cause Overload :=
  match library.functions.find? name with
  | none => .error (.unknownFunction name)
  | some overloads =>
    match overloads.find? fun overload => overload.accepts arity with
    | some overload => .ok overload
    | none => .error (.wrongArity name (available overloads))

/-- Whether a call depends on nothing but its arguments. A call that cannot be resolved does not
count: it has to stay where it is to be reported. -/
def isPure (library : Library) (name : Name) (arity : Nat) : Bool :=
  match library.resolve name arity with
  | .ok overload => overload.purity = .pure
  | .error _ => false

/-- What a call takes accepts its arity. -/
theorem accepts_of_resolve {library : Library} {name : Name} {arity : Nat} {overload : Overload}
    (resolved : library.resolve name arity = .ok overload) : overload.accepts arity = true := by
  unfold resolve at resolved
  split at resolved
  · simp at resolved
  · split at resolved
    · next found =>
      cases resolved
      simpa using List.find?_some found
    · simp at resolved

end Library

end StreamPath
