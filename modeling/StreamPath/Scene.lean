import StreamPath.Ancestors
import StreamPath.Diagnostic
import StreamPath.Group

/-!
# The scene of an evaluation

The state of a run falls into two parts. The *scene* is what evaluating an expression reads: the open
nodes, the groups and their bindings, the location and the sink. The *memory* is all that evaluating
can change: the context position, the remembered scopes of variables, and the diagnostics accepted
so far. Since the scene is only ever an argument, evaluation cannot touch it.

* `findScope` — where a variable is bound, as seen from the current group;
* `judge` — what becomes of a cause at the present location.
-/

namespace StreamPath

abbrev Bindings := Table Name Sequence

/-- A group that was entered and not yet left. -/
structure Activation where
  group : GroupId
  /-- The group that was current before. -/
  previous : Option GroupId
  bindings : Bindings := .empty

/-- What evaluation reads. -/
structure Scene where
  stack : Ancestors := {}
  groups : GroupTable := .initial
  /-- The group from which variables are looked up. -/
  current : Option GroupId := none
  /-- The active groups, newest first; a group may be active more than once. -/
  activations : List Activation := []
  /-- The bindings of the rule being executed. -/
  locals : Bindings := .empty
  /-- The place of the instruction being executed. -/
  location : Location := {}
  sink : Sink := .aborting

/-- What evaluation changes. -/
structure Memory where
  position : Nat := 1
  /-- The group in which each variable reference was found when it was first read. -/
  scopes : Table NodeId GroupId := .empty
  /-- The accepted diagnostics, oldest first. -/
  reported : List Diagnostic := []
deriving DecidableEq, Repr, Inhabited

/-- Where a variable is bound. -/
inductive Scope
  /-- In the rule being executed. -/
  | rule
  /-- In the newest activation of a group. -/
  | group (id : GroupId)
deriving DecidableEq, Repr

namespace Scene

/-- The bindings of the newest activation of a group. -/
def frame? (scene : Scene) (group : GroupId) : Option Bindings :=
  (scene.activations.find? fun activation => activation.group = group).map Activation.bindings

/-- How often a group is active. -/
def activationDepth (scene : Scene) (group : GroupId) : Nat :=
  scene.activations.countP fun activation => activation.group = group

/-- Where a variable is bound. The bindings of the rule come first; then the current group and its
ancestors are searched, innermost first, each through its newest activation alone. -/
def findScope (scene : Scene) (name : Name) : Option Scope :=
  if scene.locals.contains name then some .rule
  else
    scene.current.bind fun start =>
      ((scene.groups.lineage start).find? fun group =>
        (scene.frame? group).any fun bindings => bindings.contains name).map .group

/-- What becomes of a cause: a diagnostic that is accepted, or one that ends the run. A fatal one
never reaches the sink. -/
def judge (scene : Scene) (cause : Cause) : Except Diagnostic Diagnostic :=
  let diagnostic : Diagnostic := ⟨cause, scene.location⟩
  if cause.isFatal then .error diagnostic
  else
    match scene.sink.respond diagnostic with
    | .ok () => .ok diagnostic
    | .error refused => .error refused

/-- The entry at a depth as a sequence: empty if nothing is open there. -/
def entryAt (scene : Scene) (depth : Nat) : Sequence :=
  ((scene.stack.node? depth).map Item.node).toList

/-- A fatal cause always ends the run, with that very diagnostic. -/
theorem judge_of_isFatal (scene : Scene) {cause : Cause} (fatal : cause.isFatal = true) :
    scene.judge cause = .error ⟨cause, scene.location⟩ := by
  simp [judge, fatal]

/-- What is accepted is what was reported. -/
theorem eq_of_judge_eq_ok {scene : Scene} {cause : Cause} {diagnostic : Diagnostic}
    (accepted : scene.judge cause = .ok diagnostic) :
    diagnostic = ⟨cause, scene.location⟩ ∧ cause.isFatal = false := by
  unfold judge at accepted
  by_cases fatal : cause.isFatal = true
  · simp [fatal] at accepted
  · simp only [fatal, Bool.false_eq_true, if_false] at accepted
    split at accepted
    · exact ⟨(Except.ok.inj accepted).symm, by simpa using fatal⟩
    · simp at accepted

end Scene

/-- A computation that changes the memory and can end the run. -/
abbrev Run := EStateM Diagnostic Memory

namespace Run

def position : Run Nat := do return (← get).position

def setPosition (position : Nat) : Run Unit := modify fun memory => { memory with position }

/-- Report a cause: go on if it is accepted, end the run if not. -/
def report (scene : Scene) (cause : Cause) : Run Unit :=
  match scene.judge cause with
  | .ok diagnostic =>
    modify fun memory => { memory with reported := memory.reported ++ [diagnostic] }
  | .error refused => throw refused

def abort {α : Type} (scene : Scene) (cause : Cause) : Run α := throw ⟨cause, scene.location⟩

/-- Report a cause and go on with the empty sequence. -/
def fallback (scene : Scene) (cause : Cause) : Run Sequence := do
  report scene cause
  return []

end Run

end StreamPath
