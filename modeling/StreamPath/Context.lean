import StreamPath.CopyRecord
import StreamPath.Scene

/-!
# The context of a run

A context is a scene and a memory, and the operations by which a run moves on: nodes open and close,
groups are entered and left, variables are bound. An operation that fails gives a diagnostic and no
new context, so the one before it still stands.

* `enter`, `exit` — groups are left in the opposite order to that in which they were entered;
* `withGroup`, `withEntry` — a body runs inside a group or below a node, and whatever it leaves open
  is closed behind it.
-/

namespace StreamPath

/-- The whole state of a run. -/
structure Context extends Scene, Memory

namespace Context

/-- Enter a group: it gets an activation without bindings and becomes the current group. -/
def enter (context : Context) (group : GroupId) : Context :=
  { context with
    activations := { group, previous := context.current } :: context.activations
    current := some group }

/-- The context at the start of a run. -/
def start (groups : GroupTable) (sink : Sink) (location : Location)
    (initialGroup : Option GroupId) : Context :=
  let context : Context := { groups, sink, location }
  match initialGroup with
  | none => context
  | some group => context.enter group

/-! ## Diagnostics -/

def report (context : Context) (cause : Cause) : Except Diagnostic Context :=
  match context.judge cause with
  | .ok diagnostic => .ok { context with reported := context.reported ++ [diagnostic] }
  | .error refused => .error refused

def diagnose (context : Context) (cause : Cause) : Diagnostic := ⟨cause, context.location⟩

/-- Run a computation on the scene, starting from the memory. -/
def run {α : Type} (context : Context) (computation : Scene → Run α) :
    Except Diagnostic α × Context :=
  match (computation context.toScene).run context.toMemory with
  | .ok value memory => (.ok value, { context with toMemory := memory })
  | .error diagnostic memory => (.error diagnostic, { context with toMemory := memory })

section Run

variable {α : Type} {context : Context} {computation : Scene → Run α} {value : α}
  {failure : Diagnostic} {memory : Memory}

theorem run_of_ok (ended : computation context.toScene context.toMemory = .ok value memory) :
    context.run computation = (.ok value, { context with toMemory := memory }) := by
  show (match computation context.toScene context.toMemory with
    | .ok value memory => _
    | .error diagnostic memory => _ : Except Diagnostic α × Context) = _
  rw [ended]

theorem run_of_error
    (ended : computation context.toScene context.toMemory = .error failure memory) :
    context.run computation = (.error failure, { context with toMemory := memory }) := by
  show (match computation context.toScene context.toMemory with
    | .ok value memory => _
    | .error diagnostic memory => _ : Except Diagnostic α × Context) = _
  rw [ended]

/-- A run is what the computation makes of the scene and the memory of the context. -/
theorem run_congr {other : Scene → Run α}
    (same : computation context.toScene context.toMemory =
      other context.toScene context.toMemory) : context.run computation = context.run other := by
  cases ended : other context.toScene context.toMemory with
  | ok value memory => rw [run_of_ok ended, run_of_ok (same.trans ended)]
  | error failure memory => rw [run_of_error ended, run_of_error (same.trans ended)]

/-- A run that gives a value is one of the computation from the memory of the context. -/
theorem exists_of_run_ok (ended : (context.run computation).1 = .ok value) :
    ∃ memory, computation context.toScene context.toMemory = .ok value memory := by
  cases result : computation context.toScene context.toMemory with
  | ok other memory =>
    rw [run_of_ok result] at ended
    cases ended
    exact ⟨memory, rfl⟩
  | error failure memory =>
    rw [run_of_error result] at ended
    cases ended

/-- So is a run that ends with a failure. -/
theorem exists_of_run_error (ended : (context.run computation).1 = .error failure) :
    ∃ memory, computation context.toScene context.toMemory = .error failure memory := by
  cases result : computation context.toScene context.toMemory with
  | ok value memory =>
    rw [run_of_ok result] at ended
    cases ended
  | error other memory =>
    rw [run_of_error result] at ended
    cases ended
    exact ⟨memory, rfl⟩

end Run

/-! ## Open nodes -/

def push (context : Context) (event : Event) : Context :=
  { context with stack := context.stack.push event }

def pushOccurrence (context : Context) (occurrence : Occurrence) : Context :=
  { context with stack := context.stack.pushOccurrence occurrence }

def pop (context : Context) : Context := { context with stack := context.stack.pop }

/-- Close nodes until at most `height` are open. -/
def closeAbove (context : Context) (height : Nat) : Context :=
  { context with stack := context.stack.truncate height }

/-- Run a body below a new node and close the node, with whatever the body left open above it. The
body may have effects of its own. -/
def withEntry {m : Type → Type} [Monad m] {ρ : Type} (context : Context) (event : Event)
    (body : Context → m (ρ × Context)) : m (ρ × Context) := do
  let (result, after) ← body (context.push event)
  return (result, after.closeAbove context.stack.height)

/-! ## Groups -/

/-- Leave the newest activation, which must be one of the given group. The group that was current
before it was entered becomes current again. -/
def exit (context : Context) (group : GroupId) : Except Diagnostic Context :=
  match context.activations with
  | [] => .error (context.diagnose (.exitWithoutEntry group))
  | newest :: rest =>
    if newest.group = group then
      .ok { context with activations := rest, current := newest.previous }
    else .error (context.diagnose (.exitNotInnermost group newest.group))

/-- Leave activations until at most `count` are left, and tell the group of the oldest one left. -/
def unwind (context : Context) (count : Nat) : Option GroupId × Context :=
  let surplus := context.activations.length - count
  match (context.activations.take surplus).getLast? with
  | none => (none, context)
  | some oldest =>
    (some oldest.group,
      { context with
        activations := context.activations.drop surplus
        current := oldest.previous })

/-- End a group whose body has run, when `count` activations were there before it was entered. What
the body left active is left too; that is a defect unless the body failed already. -/
def finishGroup {α : Type} (context : Context) (count : Nat) (group : GroupId)
    (result : Except Diagnostic α) : Except Diagnostic α × Context :=
  -- the activation of the group itself is left by `exit`, which can refuse
  let (leftover, unwound) := context.unwind (count + 1)
  match unwound.exit group, result with
  | .ok final, .error failure => (.error failure, final)
  | .ok final, .ok value =>
    match leftover with
    | none => (.ok value, final)
    | some inner => (.error (final.diagnose (.leftActive inner group)), final)
  | .error _, .error failure => (.error failure, unwound)
  -- the body left the group on its own, so there is nothing of it to leave
  | .error fault, .ok _ => (.error fault, unwound)

/-- Run a body inside a new activation of a group. The body may have effects of its own. -/
def withGroup {m : Type → Type} [Monad m] {α : Type} (context : Context) (group : GroupId)
    (body : Context → m (Except Diagnostic α × Context)) : m (Except Diagnostic α × Context) := do
  let (result, after) ← body (context.enter group)
  return after.finishGroup context.activations.length group result

/-! ## Variables -/

/-- Change the bindings of the newest activation of a group. -/
def updateFrame (group : GroupId) (change : Bindings → Bindings) :
    List Activation → List Activation
  | [] => []
  | activation :: rest =>
    if activation.group = group then
      { activation with bindings := change activation.bindings } :: rest
    else activation :: updateFrame group change rest

/-- Bind a variable in the newest activation of a group. -/
def declare (context : Context) (group : GroupId) (name : Name) (value : Sequence) :
    Except Diagnostic Context :=
  match context.frame? group with
  | none => .error (context.diagnose (.bindInactive group name))
  | some _ =>
    .ok { context with
      activations := updateFrame group (fun bindings => bindings.insert name value)
        context.activations }

/-- Bind a variable in the rule being executed. -/
def declareLocal (context : Context) (name : Name) (value : Sequence) : Context :=
  { context with locals := context.locals.insert name value }

/-- Bind a variable anew where it is bound now. One that is bound nowhere is reported. -/
def assign (context : Context) (name : Name) (value : Sequence) : Except Diagnostic Context :=
  match context.findScope name with
  | some .rule => .ok (context.declareLocal name value)
  | some (.group group) =>
    .ok { context with
      activations := updateFrame group (fun bindings => bindings.insert name value)
        context.activations }
  | none => context.report (.undeclaredVariable name)

/-! ## Remembered scopes -/

/-- Give the copies of variable references the scopes of the copied ones, mapped through the same
copy operation, so that references into copied groups land on the copies. -/
def inheritScopes (context : Context) (copies : CopyRecord) : Context :=
  let inherited := copies.nodes.entries.filterMap fun pair =>
    (context.scopes.find? pair.1).map fun group => (pair.2, copies.mapGroup group)
  { context with scopes := context.scopes.insertAll inherited }

def forgetScopes (context : Context) : Context := { context with scopes := .empty }

end Context

end StreamPath
