import Mathlib.Data.List.Forall2
import StreamPath.Proofs.Openness
import StreamPath.Proofs.Policy
import StreamPath.Proofs.Quiet

/-!
# Text from parts

A template is a chain of nodes, each of which appends one part to the text of the one before. A node
whose part holds a closed node reports it and has no value, and the next one takes that for a text
that is still empty. So the text begins anew behind the last part with a closed node. Only if that is
the last part of all, the whole template has no value.

* `Run.Emits` — what a computation gives and what it reports;
* `Forest.Gives.emits` — what reports nothing at first reports nothing after other reports either;
* `Scene.IsTextOf` — what parts come to;
* `Forest.Reads.addParts` — a chain, part by part;
* `Forest.evaluate_template` — the value of a template and its reports.
-/

namespace StreamPath

open Run

/-! ## What a computation reports -/

namespace Run

variable {α β : Type} {near : Memory → Prop}

/-- From every memory of a kind, a computation ends well with one and the same value and adds the same
diagnostics to those reported before, and a memory of that kind is left. -/
def Emits (near : Memory → Prop) (computation : Run α) (a : α) (told : List Diagnostic) : Prop :=
  ∀ memory, near memory → ∃ final, computation memory = .ok a final ∧ near final ∧
    final.reported = memory.reported ++ told

theorem Emits.pure (a : α) : Emits near (Pure.pure a) a [] := by
  intro memory holds
  exact ⟨memory, rfl, holds, (List.append_nil _).symm⟩

theorem Emits.bind {first : Run α} {next : α → Run β} {a : α} {b : β} {told more : List Diagnostic}
    (head : Emits near first a told) (tail : Emits near (next a) b more) :
    Emits near (first >>= next) b (told ++ more) := by
  intro memory holds
  obtain ⟨middle, ended, holds, begun⟩ := head memory holds
  obtain ⟨final, last, holds, added⟩ := tail middle holds
  refine ⟨final, bind_eq_ok.mpr ⟨a, middle, ended, last⟩, holds, ?_⟩
  rw [added, begun, List.append_assoc]

end Run

/-- A tolerant sink accepts what is recoverable. -/
theorem Scene.judge_of_isTolerant {scene : Scene} {cause : Cause} (tolerant : scene.sink.IsTolerant)
    (recoverable : cause.isFatal = false) : scene.judge cause = .ok ⟨cause, scene.location⟩ :=
  judge_under_of_isTolerant tolerant recoverable

section Emits

variable {forest : Forest} {context : Context}

/-- Under a tolerant sink, a recoverable fault is reported and has no value. -/
theorem Run.Emits.fallback {cause : Cause} (tolerant : context.sink.IsTolerant)
    (recoverable : cause.isFatal = false) :
    Emits (Memory.Near forest context) (fallback context.toScene cause) []
      [⟨cause, context.location⟩] := by
  intro memory near
  refine ⟨{ memory with reported := memory.reported ++ [⟨cause, context.location⟩] }, ?_,
    ⟨near.position, near.grown⟩, rfl⟩
  unfold Run.fallback
  rw [bind_apply, report_apply, Scene.judge_of_isTolerant tolerant recoverable]
  rfl

/-- What two runs have reported since they began is the same. -/
def SameSince (begun begun' reported reported' : List Diagnostic) : Prop :=
  ∃ told, reported = begun ++ told ∧ reported' = begun' ++ told

theorem SameSince.refl (begun begun' : List Diagnostic) : SameSince begun begun' begun begun' :=
  ⟨[], (List.append_nil _).symm, (List.append_nil _).symm⟩

theorem SameSince.further {begun begun' reported reported' : List Diagnostic}
    (diagnostic : Diagnostic) (same : SameSince begun begun' reported reported') :
    SameSince begun begun' (reported ++ [diagnostic]) (reported' ++ [diagnostic]) := by
  obtain ⟨told, rfl, rfl⟩ := same
  exact ⟨told ++ [diagnostic], List.append_assoc .., List.append_assoc ..⟩

/-- An expression that has a value without a report has it again, whatever was reported before. -/
theorem Forest.Gives.emits {id : NodeId} {top : Nat} {value : Sequence}
    (gives : forest.Gives context top id value) :
    Emits (Memory.Near forest context)
      ((forest.expression id).evaluate forest.library context.toScene top) value [] := by
  obtain ⟨after, evaluated, silent⟩ := gives
  obtain ⟨end₀, ended⟩ := Context.exists_of_run_ok
    (show (forest.evaluate id context top).1 = .ok value by rw [evaluated])
  have isAfter : forest.evaluate id context top =
      (.ok value, { context with toMemory := end₀ }) := Context.run_of_ok ended
  cases isAfter.symm.trans evaluated
  intro memory near
  have alike : Memory.Alike context.toScene forest.Refers context.toMemory memory :=
    ⟨near.position.symm, fun _ _ named => (near.grown.consulted forest.refers_unique named).symm⟩
  have since : Simulation context.toScene forest.Refers fun m n =>
      Memory.Alike context.toScene forest.Refers m n ∧
        SameSince context.reported memory.reported m.reported n.reported :=
    Memory.simulation_reports forest context.toScene fun _ _ => SameSince.further
  have agree := Expr.agree_evaluate since forest.library _ (forest.refers_of_mem_references id) top
  have grown := forest.keeps_evaluate_grown context.toScene id top context.toMemory memory near.grown
  obtain ⟨final, again, -, told, one, two⟩ := agree.ok ⟨alike, .refl _ _⟩ ended
  rw [again] at grown
  have position := (forest.expression id).restores_evaluate forest.library context.toScene top
    memory value final again
  have nothing : told = [] := List.append_cancel_left
    (one.symm.trans (silent.trans (List.append_nil _).symm))
  subst nothing
  exact ⟨final, again, ⟨position.trans near.position, grown⟩, two⟩

end Emits

/-! ## Parts -/

/-- The first node among the items that is no longer open. -/
def Ancestors.firstClosed? (stack : Ancestors) (items : Sequence) : Option Node :=
  items.nodes.find? fun node => !stack.isLive node

theorem Ancestors.firstClosed?_isSome_iff {stack : Ancestors} {items : Sequence} :
    (stack.firstClosed? items).isSome ↔ stack.HoldsClosed items := by
  unfold firstClosed? HoldsClosed
  rw [List.find?_isSome]
  simp only [Bool.not_eq_true']

namespace Scene

variable (scene : Scene)

/-- A text with the items of a part appended to it; nothing if one of them is a closed node. -/
def appended (text items : Sequence) : Sequence :=
  if (scene.stack.firstClosed? items).isSome then [] else .ofString (text.toText ++ items.join " ")

/-- What is reported of a part: its first closed node, if it has one. -/
def refusals (items : Sequence) : List Diagnostic :=
  ((scene.stack.firstClosed? items).map fun closed =>
    ⟨.closedOperand .templatePart closed.kind, scene.location⟩).toList

variable {scene}

theorem appended_of_holdsClosed {items : Sequence} (closed : scene.stack.HoldsClosed items)
    (text : Sequence) : scene.appended text items = [] :=
  if_pos (Ancestors.firstClosed?_isSome_iff.mpr closed)

theorem appended_of_allOpen {items : Sequence} (isOpen : scene.stack.AllOpen items)
    (text : Sequence) : scene.appended text items = .ofString (text.toText ++ items.join " ") := by
  rw [Ancestors.allOpen_iff, ← Ancestors.firstClosed?_isSome_iff] at isOpen
  exact if_neg isOpen

/-- The part is looked at only if the text before is open, which it always is. -/
theorem using_appended {text : Sequence} (isOpen : scene.stack.AllOpen text) (items : Sequence) :
    scene.using [(.templateText, text), (.templatePart, items)]
        (pure (.ofString (text.toText ++ items.join " "))) =
      match scene.stack.firstClosed? items with
      | some closed => fallback scene (.closedOperand .templatePart closed.kind)
      | none => pure (scene.appended text items) := by
  unfold Scene.using
  rw [allUsable, usable_of_not_holdsClosed _ (Ancestors.allOpen_iff.mp isOpen), pure_bind, if_pos rfl]
  unfold allUsable appended usable Ancestors.firstClosed?
  cases items.nodes.find? fun node => !scene.stack.isLive node with
  | some closed =>
    simp only [bind_assoc, pure_bind, Bool.false_eq_true, if_false]
    rfl
  | none => rfl

theorem allOpen_appended (text items : Sequence) : scene.stack.AllOpen (scene.appended text items) := by
  unfold appended
  split
  · exact Ancestors.allOpen_nil
  · exact Ancestors.allOpen_ofString _

/-- Open parts are appended one after the other. -/
theorem foldl_appended_of_allOpen {items : Sequence} {later : List Sequence} (text : Sequence)
    (isOpen : ∀ part ∈ items :: later, scene.stack.AllOpen part) :
    (items :: later).foldl scene.appended text =
      .ofString (text.toText ++ String.join ((items :: later).map fun part => part.join " ")) := by
  induction later generalizing items text with
  | nil =>
    rw [List.foldl_cons, appended_of_allOpen (isOpen items List.mem_cons_self)]
    simp
  | cons next rest ih =>
    obtain ⟨first, others⟩ := List.forall_mem_cons.mp isOpen
    have joined : String.join ((items :: next :: rest).map fun part => part.join " ") =
        items.join " " ++ String.join ((next :: rest).map fun part => part.join " ") :=
      String.join_cons
    rw [List.foldl_cons, ih _ others, appended_of_allOpen first, joined, ← String.append_assoc]
    rfl

/-- What parts with these values come to, one appended to the other. -/
structure IsTextOf (scene : Scene) (values : List Sequence) (value : Sequence) : Prop where
  /-- If no part has a closed node, they make up one string. -/
  whole : (∀ items ∈ values, scene.stack.AllOpen items) →
    value = .ofString (String.join (values.map fun items => items.join " "))
  /-- If the last part has one, there is nothing. -/
  dropped : ∀ earlier items, values = earlier ++ [items] → scene.stack.HoldsClosed items → value = []
  /-- If an earlier part was the last to have one, there is what comes after it. -/
  resumed : ∀ earlier items later, values = earlier ++ items :: later →
    scene.stack.HoldsClosed items → later ≠ [] → (∀ items ∈ later, scene.stack.AllOpen items) →
    value = .ofString (String.join (later.map fun items => items.join " "))

theorem isTextOf_nil : scene.IsTextOf [] (scene.appended [] []) where
  whole _ := rfl
  dropped _ _ split := absurd split.symm (List.append_ne_nil_of_right_ne_nil _ nofun)
  resumed _ _ _ split := absurd split.symm (List.append_ne_nil_of_right_ne_nil _ nofun)

/-- It is what comes of appending them to a text that is empty at first. -/
theorem isTextOf_foldl_appended (items : Sequence) (later : List Sequence) :
    scene.IsTextOf (items :: later) ((items :: later).foldl scene.appended []) where
  whole isOpen := (foldl_appended_of_allOpen [] isOpen).trans (by simp [Sequence.toText])
  dropped earlier last split closed := by
    rw [split, List.foldl_append]
    exact appended_of_holdsClosed closed _
  resumed earlier last rest split closed some isOpen := by
    obtain ⟨next, rest, rfl⟩ := List.exists_cons_of_ne_nil some
    rw [split, List.foldl_append, List.foldl_cons, appended_of_holdsClosed closed,
      foldl_appended_of_allOpen [] isOpen]
    simp [Sequence.toText]

end Scene

/-! ## Chains of parts -/

/-- In a forest that has grown, a node has a text for its value and some reports. -/
structure Forest.Reads (base : Forest) (context : Context) (top : Nat) (grown : NodeId × Forest)
    (text : Sequence) (told : List Diagnostic) : Prop extends base.Builds grown where
  isOpen : context.stack.AllOpen text
  emits : Emits (Memory.Near base context)
    ((grown.2.expression grown.1).evaluate base.library context.toScene top) text told

section Chains

variable {base forest : Forest} {context : Context} {top : Nat} {text items : Sequence}
  {told : List Diagnostic}

/-- A node of a template appends its part to the text before. -/
theorem Expr.emits_template {before part : Expr} (tolerant : context.sink.IsTolerant)
    (isOpen : context.stack.AllOpen text) (id : NodeId)
    (head : Emits (Memory.Near base context) (before.evaluate base.library context.toScene top) text
      told)
    (last : Emits (Memory.Near base context) (part.evaluate base.library context.toScene top) items
      []) :
    Emits (Memory.Near base context)
      ((template id before part).evaluate base.library context.toScene top)
      (context.toScene.appended text items) (told ++ context.toScene.refusals items) := by
  have refused : Emits (Memory.Near base context)
      (context.toScene.using [(.templateText, text), (.templatePart, items)]
        (pure (.ofString (text.toText ++ items.join " "))))
      (context.toScene.appended text items) (context.toScene.refusals items) := by
    rw [Scene.using_appended isOpen]
    unfold Scene.refusals Scene.appended
    cases context.stack.firstClosed? items with
    | none => exact .pure _
    | some closed => exact .fallback tolerant rfl
  rw [evaluate]
  exact head.bind (last.bind refused)

namespace Forest

/-- A node that is added to a template, at its beginning or behind other parts. -/
theorem reads_add (tolerant : context.sink.IsTolerant) (extension : Extends base forest)
    (founded : forest.WellFounded) {before part : Option NodeId}
    (there : ∀ operand ∈ before.toList ++ part.toList, operand.index < forest.size)
    (isOpen : context.stack.AllOpen text)
    (head : Emits (Memory.Near base context)
      (((before.map forest.expression).getD (.nothing ⟨forest.size⟩)).evaluate base.library
        context.toScene top) text told)
    (last : Emits (Memory.Near base context)
      (((part.map forest.expression).getD (.nothing ⟨forest.size⟩)).evaluate base.library
        context.toScene top) items []) :
    base.Reads context top (forest.add (.template before part)) (context.toScene.appended text items)
      (told ++ context.toScene.refusals items) where
  toBuilds := builds_add extension founded there
  isOpen := Scene.allOpen_appended _ _
  emits := by
    have expression : (forest.add (.template before part)).2.expression ⟨forest.size⟩ = _ :=
      expression_append founded there
    rw [show (forest.add (.template before part)).1 = ⟨forest.size⟩ from rfl, expression]
    exact Expr.emits_template tolerant isOpen _ head last

/-- Nothing is in front of the first part. -/
theorem emits_nothing (id : NodeId) :
    Emits (Memory.Near base context)
      ((Expr.nothing id).evaluate base.library context.toScene top) [] [] :=
  .pure []

variable (founded : base.WellFounded) (tolerant : context.sink.IsTolerant)

include founded tolerant

/-- A part of the base is appended to a text. -/
theorem Reads.append {before part : NodeId}
    (reads : base.Reads context top (before, forest) text told)
    (there : part.index < base.size) (gives : base.Gives context top part items) :
    base.Reads context top (forest.add (.template (some before) (some part)))
      (context.toScene.appended text items) (told ++ context.toScene.refusals items) := by
  refine reads_add tolerant reads.extension reads.founded ?_ reads.isOpen reads.emits ?_
  · intro operand mem
    rcases List.mem_pair.mp mem with rfl | rfl
    · exact reads.inside
    · exact Nat.lt_of_lt_of_le there reads.extension.size
  · show Emits _ ((forest.expression part).evaluate _ _ _) _ _
    rw [reads.extension.expression founded there]
    exact gives.emits

/-- Parts of the base are appended to a text, one after the other. -/
theorem Reads.addParts {before : NodeId} {parts : List NodeId} {values : List Sequence}
    (reads : base.Reads context top (before, forest) text told)
    (there : ∀ part ∈ parts, part.index < base.size)
    (given : List.Forall₂ (base.Gives context top) parts values) :
    base.Reads context top (forest.addParts before parts) (values.foldl context.toScene.appended text)
      (told ++ values.flatMap context.toScene.refusals) := by
  induction given generalizing forest before text told with
  | nil =>
    rw [List.flatMap_nil, List.append_nil]
    exact reads
  | cons gives _ ih =>
    obtain ⟨first, others⟩ := List.forall_mem_cons.mp there
    rw [List.flatMap_cons, ← List.append_assoc]
    exact ih (reads.append founded tolerant first gives) others

/-- A template of any parts, in a sink that lets the run go on. -/
theorem reads_addTemplate {parts : List NodeId} {values : List Sequence}
    (there : ∀ part ∈ parts, part.index < base.size)
    (given : List.Forall₂ (base.Gives context top) parts values) :
    ∃ text, base.Reads context top (base.addTemplate parts) text
        (values.flatMap context.toScene.refusals) ∧ context.toScene.IsTextOf values text := by
  cases given with
  | nil =>
    have empty : base.Reads context top (base.add (.template none none)) _ _ :=
      reads_add tolerant (.refl base) founded (fun _ mem => absurd mem List.not_mem_nil)
        Ancestors.allOpen_nil (emits_nothing _) (emits_nothing _)
    exact ⟨_, empty, Scene.isTextOf_nil⟩
  | @cons part items parts values gives others =>
    obtain ⟨first, rest⟩ := List.forall_mem_cons.mp there
    have begun : base.Reads context top (base.add (.template none (some part))) _ _ :=
      reads_add tolerant (.refl base) founded (List.forall_mem_singleton.mpr first)
        Ancestors.allOpen_nil (emits_nothing _) gives.emits
    exact ⟨_, begun.addParts founded tolerant rest others, Scene.isTextOf_foldl_appended items values⟩

/-- Under a sink that lets the run go on, a template has a value if its parts have values without a
report. If none of these has a closed node, they make up one string. Each one that has is reported, and
the text begins anew behind the last of them. -/
theorem evaluate_template {parts : List NodeId} {values : List Sequence}
    (there : ∀ part ∈ parts, part.index < base.size)
    (given : List.Forall₂ (base.Gives context top) parts values) :
    ∃ value after, (base.addTemplate parts).2.evaluate (base.addTemplate parts).1 context top =
        (.ok value, after) ∧ context.toScene.IsTextOf values value ∧
      after.reported = context.reported ++ values.flatMap context.toScene.refusals := by
  obtain ⟨text, reads, isText⟩ := reads_addTemplate founded tolerant there given
  obtain ⟨final, ended, -, told⟩ := reads.emits context.toMemory ⟨rfl, .refl _⟩
  rw [← reads.extension.library] at ended
  exact ⟨text, _, Context.run_of_ok ended, isText, told⟩

end Forest

end Chains

/-! ## A variable that outlives its node, as a part -/

namespace Closed

/-- The variable and two strings to put around it. -/
def partsForest : Forest :=
  (((Forest.empty.add (.var (.unqualified "v"))).2.add (.literal (.string "front"))).2.add
    (.literal (.string "back"))).2

theorem gives_variable : partsForest.Gives context 2 ⟨0⟩ value := ⟨context, rfl, rfl⟩

theorem gives_front : partsForest.Gives context 2 ⟨1⟩ (.ofString "front") := ⟨context, rfl, rfl⟩

theorem gives_back : partsForest.Gives context 2 ⟨2⟩ (.ofString "back") := ⟨context, rfl, rfl⟩

/-- Between two strings, the variable is reported and takes the first one away. -/
theorem template_around_variable :
    ∃ after, (partsForest.addTemplate [⟨1⟩, ⟨0⟩, ⟨2⟩]).2.evaluate
        (partsForest.addTemplate [⟨1⟩, ⟨0⟩, ⟨2⟩]).1 context 2 = (.ok (.ofString "back"), after) ∧
      after.reported = [⟨.closedOperand .templatePart .text, {}⟩] := by
  have founded : partsForest.WellFounded := by
    refine Forest.wellFounded_add (Forest.wellFounded_add (Forest.wellFounded_add
      Forest.wellFounded_empty ?_) ?_) ?_ <;> decide
  have given : List.Forall₂ (partsForest.Gives context 2) [⟨1⟩, ⟨0⟩, ⟨2⟩]
      [.ofString "front", value, .ofString "back"] :=
    .cons gives_front (.cons gives_variable (.cons gives_back .nil))
  obtain ⟨text, after, evaluated, isText, told⟩ :=
    Forest.evaluate_template founded Sink.isTolerant_collecting (by decide) given
  have isBack : text = .ofString "back" :=
    isText.resumed [.ofString "front"] value [.ofString "back"] rfl holdsClosed_value nofun
      (List.forall_mem_singleton.mpr (Ancestors.allOpen_ofString _))
  subst isBack
  exact ⟨after, evaluated, told⟩

/-- In front of a string, the variable is reported and the string is there all the same. -/
theorem template_begins_anew :
    List.Forall₂ (partsForest.Gives context 2) [⟨0⟩, ⟨2⟩] [value, .ofString "back"] ∧
      context.stack.HoldsClosed value ∧ context.sink.IsTolerant ∧
      ((partsForest.addTemplate [⟨0⟩, ⟨2⟩]).2.evaluate
        (partsForest.addTemplate [⟨0⟩, ⟨2⟩]).1 context 2).1 = .ok (.ofString "back") :=
  ⟨.cons gives_variable (.cons gives_back .nil), holdsClosed_value, Sink.isTolerant_collecting, rfl⟩

end Closed

end StreamPath
