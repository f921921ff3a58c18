import StreamPath.Forest.Fold
import StreamPath.Proofs.Evaluation

/-!
# Constant expressions

An expression is constant if it is built from values by operators and by calls that depend on nothing
but their arguments. Computing it where nothing is open either reports something, or ends the run, or
gives the value that it has everywhere: an operand with a node in it would have been reported there,
since no node is open.

* `Library.DependsOnArguments` — pure functions read nothing but their arguments;
* `Noisy` — a computation that never ends well without a report;
* `Expr.Constant.steady` — a constant expression has one value or is noisy on the blank scene.
-/

namespace StreamPath

open Run

/-- The functions registered as pure depend on their arguments alone. -/
def Library.DependsOnArguments (library : Library) : Prop :=
  ∀ name arity overload, library.resolve name arity = .ok overload → overload.purity = .pure →
    ∀ arguments : List Sequence, arguments.length = arity →
      ∀ site other, overload.body site arguments = overload.body other arguments

namespace Expr

/-- An expression is built from values by operators and pure calls. -/
inductive Constant (library : Library) : Expr → Prop
  | literal (id : NodeId) (value : Literal) : Constant library (literal id value)
  | call {id : NodeId} {function : Name} {arguments : List Expr} :
      library.isPure function arguments.length = true →
      (∀ argument ∈ arguments, Constant library argument) →
      Constant library (call id function arguments)
  | arithmetic {id : NodeId} {op : Arithmetic} {left right : Expr} : Constant library left →
      Constant library right → Constant library (arithmetic id op left right)
  | negate {id : NodeId} {operand : Expr} : Constant library operand →
      Constant library (negate id operand)
  | logic {id : NodeId} {op : Connective} {left right : Expr} : Constant library left →
      Constant library right → Constant library (logic id op left right)
  | compare {id : NodeId} {op : Comparison} {left right : Expr} : Constant library left →
      Constant library right → Constant library (compare id op left right)
  | sequence {id : NodeId} {left right : Expr} : Constant library left →
      Constant library right → Constant library (sequence id left right)
  | list (id : NodeId) : Constant library (list id)
  | template {id : NodeId} {before part : Expr} : Constant library before →
      Constant library part → Constant library (template id before part)

end Expr

/-! ## Reports -/

/-- A computation that ends well has taken back no report. -/
def Grows {α : Type} (computation : Run α) : Prop :=
  ∀ memory a final, computation memory = .ok a final →
    memory.reported.length ≤ final.reported.length

/-- A computation that ends well has reported something. -/
def Noisy {α : Type} (computation : Run α) : Prop :=
  ∀ memory a final, computation memory = .ok a final →
    memory.reported.length < final.reported.length

theorem Grows.pure {α : Type} (a : α) : Grows (pure a : Run α) := by
  rintro memory _ _ ⟨⟩
  exact Nat.le_refl _

theorem Noisy.grows {α : Type} {computation : Run α} (noisy : Noisy computation) :
    Grows computation :=
  fun memory a final ended => Nat.le_of_lt (noisy memory a final ended)

namespace Noisy

variable {α β : Type}

theorem bind {first : Run α} {next : α → Run β} (noisy : Noisy first)
    (grows : ∀ memory a final, first memory = .ok a final → Grows (next a)) :
    Noisy (first >>= next) := by
  intro memory b final ended
  obtain ⟨a, middle, head, tail⟩ := bind_eq_ok.mp ended
  have before := noisy memory a middle head
  have after := grows memory a middle head middle b final tail
  exact Nat.lt_of_lt_of_le before after

theorem report (cause : Cause) : Noisy (Run.report Forest.blankScene cause) := by
  intro memory a final ended
  rw [report_apply] at ended
  cases judged : Forest.blankScene.judge cause <;> rw [judged] at ended <;> cases ended
  simp

/-- What only passes a value on after a noisy computation is noisy. -/
theorem bind_pure {first : Run α} (noisy : Noisy first) (f : α → β) :
    Noisy (first >>= fun a => pure (f a)) :=
  noisy.bind fun _ a _ _ => Grows.pure (f a)

theorem fallback (cause : Cause) : Noisy (Run.fallback Forest.blankScene cause) :=
  (report cause).bind_pure fun _ => []

theorem abort (scene : Scene) (cause : Cause) : Noisy (Run.abort scene cause : Run α) := by
  intro memory a final ended
  cases ended

end Noisy

/-! ## Operands -/

namespace Scene

/-- Operands without nodes are usable everywhere, and any others are reported where nothing is open. -/
theorem allUsable_blank (operands : List (Operand × Sequence)) :
    (∀ scene : Scene, scene.allUsable operands = pure true) ∨
      Noisy (Forest.blankScene.allUsable operands) := by
  induction operands with
  | nil => exact .inl fun _ => rfl
  | cons head rest ih =>
    obtain ⟨operand, items⟩ := head
    cases nodes : items.nodes with
    | nil =>
      have usable : ∀ scene : Scene, scene.usable operand items = pure true := by
        intro scene
        rw [usable, nodes]
        rfl
      rcases ih with all | noisy
      · left
        intro scene
        rw [allUsable, usable, pure_bind, if_pos rfl, all]
      · right
        rw [allUsable, usable, pure_bind, if_pos rfl]
        exact noisy
    | cons node others =>
      -- nothing is open in the blank scene, so the very first node is reported
      right
      have closed : (Forest.blankScene.stack.isLive node) = false := by
        cases node <;> rfl
      have refused : Forest.blankScene.usable operand items =
          Run.report Forest.blankScene (.closedOperand operand node.kind) >>= fun _ => pure false := by
        rw [usable, nodes, List.find?_cons_of_pos (by rw [closed]; rfl)]
      rw [allUsable, refused]
      intro memory a final ended
      obtain ⟨usable, middle, first, ended⟩ := bind_eq_ok.mp ended
      have more := ((Noisy.report _).bind_pure fun _ => false) memory usable middle first
      obtain ⟨_, _, _, last⟩ := bind_eq_ok.mp first
      cases last
      cases ended
      exact more

end Scene

/-! ## Steady expressions -/

/-- A computation gives one value everywhere and does nothing else, or it is noisy where nothing is
open. -/
def SteadyRun {α : Type} (computation : Scene → Nat → Run α) : Prop :=
  (∃ a, ∀ scene top, computation scene top = pure a) ∨ Noisy (computation Forest.blankScene 0)

namespace SteadyRun

variable {α β : Type}

theorem pure (a : α) : SteadyRun fun _ _ => (pure a : Run α) := .inl ⟨a, fun _ _ => rfl⟩

/-- What goes on from the value of a steady computation is steady if it is for every value that can
come out. -/
theorem bind_of {first : Scene → Nat → Run α} {next : α → Scene → Nat → Run β}
    (head : SteadyRun first) (tail : ∀ memory a final,
      first Forest.blankScene 0 memory = .ok a final → SteadyRun (next a)) :
    SteadyRun fun scene top => first scene top >>= fun a => next a scene top := by
  unfold SteadyRun
  rcases head with ⟨a, value⟩ | noisy
  · simp only [value, pure_bind]
    exact tail default a default (by rw [value]; rfl)
  · right
    refine noisy.bind fun memory a final ended => ?_
    rcases tail memory a final ended with ⟨b, last⟩ | noisy
    · rw [last]
      exact Grows.pure b
    · exact noisy.grows

theorem bind {first : Scene → Nat → Run α} {next : α → Scene → Nat → Run β}
    (head : SteadyRun first) (tail : ∀ a, SteadyRun (next a)) :
    SteadyRun fun scene top => first scene top >>= fun a => next a scene top :=
  bind_of head fun _ a _ _ => tail a

theorem fallback (cause : Cause) : SteadyRun fun scene _ => Run.fallback scene cause :=
  .inr (Noisy.fallback cause)

theorem ite {first second : Scene → Nat → Run α} (condition : Prop) [Decidable condition]
    (yes : SteadyRun first) (no : SteadyRun second) :
    SteadyRun fun scene top => if condition then first scene top else second scene top := by
  by_cases holds : condition
  · simpa only [if_pos holds] using yes
  · simpa only [if_neg holds] using no

theorem guarded (operands : List (Operand × Sequence)) {use : Scene → Nat → Run Sequence}
    (steady : SteadyRun use) : SteadyRun fun scene top => scene.using operands (use scene top) := by
  have usable : SteadyRun fun scene _ => scene.allUsable operands := by
    rcases Scene.allUsable_blank operands with all | noisy
    · exact .inl ⟨true, fun scene _ => all scene⟩
    · exact .inr noisy
  exact usable.bind fun answer => ite _ steady (pure [])

end SteadyRun

namespace Expr

variable {library : Library}

theorem steady_evaluateAll (exprs : List Expr)
    (steady : ∀ expr ∈ exprs, SteadyRun fun scene top => expr.evaluate library scene top) :
    SteadyRun fun scene top => evaluateAll library scene exprs top := by
  induction exprs with
  | nil => exact SteadyRun.pure []
  | cons expr rest ih =>
    rw [List.forall_mem_cons] at steady
    exact steady.1.bind fun _ => (ih steady.2).bind fun _ => SteadyRun.pure _

/-- There are as many values as expressions. -/
theorem length_of_evaluateAll (library : Library) (scene : Scene) (exprs : List Expr) (top : Nat)
    {memory final : Memory} {values : List Sequence}
    (ended : evaluateAll library scene exprs top memory = .ok values final) :
    values.length = exprs.length := by
  induction exprs generalizing memory values final with
  | nil =>
    cases ended
    rfl
  | cons expr rest ih =>
    obtain ⟨value, middle, -, ended⟩ := bind_eq_ok.mp ended
    obtain ⟨others, last, there, ended⟩ := bind_eq_ok.mp ended
    cases ended
    rw [List.length_cons, List.length_cons, ih there]

/-- A pure call with usable arguments is computed from them alone, or its fault is reported. -/
theorem steady_apply (depends : library.DependsOnArguments) (function : Name)
    (values : List Sequence) (isPure : library.isPure function values.length = true) :
    SteadyRun fun scene top => Run.position >>= fun position =>
      match library.resolve function values.length with
      | .error cause => Run.fallback scene cause
      | .ok overload =>
        match overload.body ⟨scene.stack, position, top⟩ values with
        | .error cause => Run.fallback scene cause
        | .ok value => pure value := by
  unfold Library.isPure at isPure
  cases resolved : library.resolve function values.length with
  | error cause =>
    rw [resolved] at isPure
    cases isPure
  | ok overload =>
    rw [resolved] at isPure
    have same := depends function values.length overload resolved (of_decide_eq_true isPure) values
      rfl
    let elsewhere : CallSite := ⟨Forest.blankScene.stack, 1, 0⟩
    cases result : overload.body elsewhere values with
    | error cause =>
      right
      show Noisy (Run.position >>= fun position => _)
      simp only [same _ elsewhere, result]
      intro memory a final ended
      exact Noisy.fallback cause memory a final ended
    | ok value =>
      left
      refine ⟨value, fun scene top => ?_⟩
      simp only [same _ elsewhere, result]
      rfl

/-- A constant expression has one value everywhere, or computing it where nothing is open reports
something or ends the run. -/
theorem Constant.steady (depends : library.DependsOnArguments) {expr : Expr}
    (constant : expr.Constant library) :
    SteadyRun fun scene top => expr.evaluate library scene top := by
  induction constant with
  | literal id value => exact SteadyRun.pure value.value
  | call isPure _ ih =>
    refine (steady_evaluateAll _ ih).bind_of fun memory values final ended => ?_
    -- purity is asked of the number of arguments, a call takes the number of values
    have count := length_of_evaluateAll _ _ _ _ ended
    exact SteadyRun.guarded _ (steady_apply depends _ values (by rw [count]; exact isPure))
  | arithmetic _ _ ihLeft ihRight =>
    exact ihLeft.bind fun a => ihRight.bind fun b => SteadyRun.ite _ (SteadyRun.pure [])
      (SteadyRun.ite _ (SteadyRun.fallback _) (SteadyRun.guarded _ (SteadyRun.pure _)))
  | negate _ ih =>
    exact ih.bind fun value => SteadyRun.ite _ (SteadyRun.pure [])
      (SteadyRun.ite _ (SteadyRun.fallback _) (SteadyRun.guarded _ (SteadyRun.pure _)))
  | @logic _ op _ _ _ _ ihLeft ihRight =>
    refine ihLeft.bind fun first => ?_
    have second := ihRight.bind fun second =>
      SteadyRun.pure (Sequence.ofBoolean (Sequence.toBoolean second))
    -- the second operand matters only if the first leaves the answer open
    cases op <;> cases first.toBoolean
    · exact SteadyRun.pure _
    · exact second
    · exact second
    · exact SteadyRun.pure _
  | compare _ _ ihLeft ihRight =>
    exact ihLeft.bind fun a => ihRight.bind fun b => SteadyRun.guarded _ (SteadyRun.pure _)
  | sequence _ _ ihLeft ihRight =>
    exact ihLeft.bind fun a => ihRight.bind fun b => SteadyRun.pure _
  | list id => exact .inr (Noisy.abort _ _)
  | template _ _ ihBefore ihPart =>
    exact ihBefore.bind fun text => ihPart.bind fun items =>
      SteadyRun.guarded _ (SteadyRun.pure _)

end Expr

/-- The value that is computed for a constant expression without a report is the one it has
everywhere. -/
theorem Forest.evaluate_of_quietValue? {forest : Forest} {id : NodeId} {value : Sequence}
    (depends : forest.library.DependsOnArguments)
    (constant : (forest.expression id).Constant forest.library)
    (quiet : forest.quietValue? id = some value) (scene : Scene) (top : Nat) :
    (forest.expression id).evaluate forest.library scene top = pure value := by
  unfold quietValue? at quiet
  rcases constant.steady depends with ⟨settled, everywhere⟩ | noisy
  · have settles : ∀ scene top, (forest.expression id).evaluate forest.library scene top =
        pure settled := everywhere
    rw [settles] at quiet
    cases quiet
    exact settles scene top
  · split at quiet
    · next found memory ended =>
      have reports := noisy _ _ _ ended
      split at quiet
      · next silent =>
        rw [List.isEmpty_iff.mp silent] at reports
        exact absurd reports (Nat.not_lt_zero _)
      · cases quiet
    · cases quiet

end StreamPath
