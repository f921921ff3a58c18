import StreamPath.Forest.Unfold
import StreamPath.Proofs.Evaluation

/-!
# Interchangeable expressions

Two expressions are interchangeable if nothing can tell which of them is run: they have the same
values, match alike and do the same to the memory. Only the message that an expression is no pattern
may describe them differently. Expressions made up of interchangeable operands are interchangeable.

* `SameFault` — diagnostics that differ in the description of an expression at most;
* `Forest.interchangeable_assemble` — being interchangeable is a congruence.
-/

namespace StreamPath

open Run

/-- Two diagnostics are the same, or both say of one expression that it is no pattern. -/
def SameFault (a b : Diagnostic) : Prop :=
  a = b ∨ ∃ id location form other,
    a = ⟨.unsuitable form id .pattern, location⟩ ∧ b = ⟨.unsuitable other id .pattern, location⟩

theorem SameFault.trans {a b c : Diagnostic} (first : SameFault a b) (second : SameFault b c) :
    SameFault a c := by
  rcases first with rfl | ⟨id, location, form, other, rfl, rfl⟩
  · exact second
  · rcases second with rfl | ⟨_, _, _, further, eq, rfl⟩
    · exact .inr ⟨id, location, form, other, rfl, rfl⟩
    · cases eq
      exact .inr ⟨id, location, form, further, rfl, rfl⟩

/-- Two matches answer alike and do the same to the memory. -/
def AnswerAlike (first second : Run Bool) : Prop :=
  Related Eq (fun _ => Eq) (fun d e m n => SameFault d e ∧ m = n) first second

namespace AnswerAlike

variable {first second : Run Bool}

theorem refl (computation : Run Bool) : AnswerAlike computation computation := by
  rintro m _ rfl
  cases computation m with
  | ok => exact ⟨rfl, rfl⟩
  | error => exact ⟨.inl rfl, rfl⟩

theorem bind {α : Type} (head : Run α) {next next' : α → Run Bool}
    (tail : ∀ a, AnswerAlike (next a) (next' a)) : AnswerAlike (head >>= next) (head >>= next') := by
  rintro m _ rfl
  rw [bind_apply, bind_apply]
  cases head m with
  | ok a final => exact tail a final final rfl
  | error => exact ⟨.inl rfl, rfl⟩

/-- One match decides whether another computation goes on from it. -/
theorem andThen (head : AnswerAlike first second) {next next' : Bool → Run Bool}
    (tail : ∀ matched, AnswerAlike (next matched) (next' matched)) :
    AnswerAlike (first >>= next) (second >>= next') :=
  Related.bind head tail

theorem ite {first' second' : Run Bool} (condition : Prop) [Decidable condition]
    (yes : AnswerAlike first second) (no : AnswerAlike first' second') :
    AnswerAlike (if condition then first else first') (if condition then second else second') :=
  Related.ite condition (fun _ => yes) fun _ => no

theorem anyBelow {test test' : Nat → Run Bool}
    (alike : ∀ height, AnswerAlike (test height) (test' height)) (top : Nat) :
    AnswerAlike (StreamPath.anyBelow test top) (StreamPath.anyBelow test' top) := by
  induction top with
  | zero => exact refl _
  | succ height ih =>
    exact (alike height).andThen fun _ => ite _ (refl _) ih

/-- Two expressions that are no patterns both say so. -/
theorem abort (scene : Scene) (id : NodeId) (form other : String) :
    AnswerAlike (Run.abort scene (.unsuitable form id .pattern))
      (Run.abort scene (.unsuitable other id .pattern)) := by
  rintro m _ rfl
  exact ⟨.inr ⟨id, scene.location, form, other, rfl, rfl⟩, rfl⟩

theorem trans {third : Run Bool} (one : AnswerAlike first second) (two : AnswerAlike second third) :
    AnswerAlike first third := by
  rintro m _ rfl
  have left := one m m rfl
  have right := two m m rfl
  cases hfirst : first m <;> cases hsecond : second m <;> cases hthird : third m <;>
    rw [hfirst, hsecond] at left <;> rw [hsecond, hthird] at right
  all_goals first | exact left.elim | exact right.elim | skip
  · exact ⟨left.1.trans right.1, left.2.trans right.2⟩
  · exact ⟨left.1.trans right.1, left.2.trans right.2⟩

end AnswerAlike

/-- Two expressions have the same value and match alike, in every scene and from every memory. -/
structure Interchangeable (library : Library) (a b : Expr) : Prop where
  evaluate : ∀ scene top, a.evaluate library scene top = b.evaluate library scene top
  accepts : ∀ scene top rank,
    AnswerAlike (a.accepts library scene top rank) (b.accepts library scene top rank)

namespace Interchangeable

variable {library : Library} {a b c : Expr}

theorem refl (expr : Expr) : Interchangeable library expr expr where
  evaluate := fun _ _ => rfl
  accepts := fun _ _ _ => AnswerAlike.refl _

theorem trans (one : Interchangeable library a b) (two : Interchangeable library b c) :
    Interchangeable library a c where
  evaluate := fun scene top => (one.evaluate scene top).trans (two.evaluate scene top)
  accepts := fun scene top rank => (one.accepts scene top rank).trans (two.accepts scene top rank)

theorem evaluateAll {f g : NodeId → Expr}
    (same : ∀ id, Interchangeable library (f id) (g id)) (scene : Scene) (ids : List NodeId)
    (top : Nat) : Expr.evaluateAll library scene (ids.map f) top =
      Expr.evaluateAll library scene (ids.map g) top := by
  induction ids with
  | nil => rfl
  | cons id rest ih =>
    rw [List.map_cons, List.map_cons, Expr.evaluateAll, Expr.evaluateAll,
      (same id).evaluate scene top, ih]

/-- Expressions that are no patterns are interchangeable if they have the same value. -/
theorem of_unsuitable {id : NodeId} {form other : Form Unit}
    (first : a.unsuitable? = some (id, form)) (second : b.unsuitable? = some (id, other))
    (evaluate : ∀ scene top, a.evaluate library scene top = b.evaluate library scene top) :
    Interchangeable library a b where
  evaluate := evaluate
  accepts := by
    intro scene top rank
    have aborts : ∀ {expr : Expr} {form : Form Unit}, expr.unsuitable? = some (id, form) →
        expr.accepts library scene top rank =
          Run.abort scene (.unsuitable form.describe id .pattern) := by
      intro expr form found
      cases expr <;> simp only [Expr.unsuitable?, reduceCtorEq] at found <;> cases found <;> rfl
    rw [aborts first, aborts second]
    exact AnswerAlike.abort scene id _ _

end Interchangeable

/-- Forms over interchangeable operands make up interchangeable expressions. -/
theorem Forest.interchangeable_assemble (forest : Forest) {library : Library} {f g : NodeId → Expr}
    (same : ∀ id, Interchangeable library (f id) (g id)) (id : NodeId) (form : Form NodeId) :
    Interchangeable library (forest.assemble f id form) (forest.assemble g id form) := by
  have value : ∀ id scene top, (f id).evaluate library scene top = (g id).evaluate library scene top :=
    fun id => (same id).evaluate
  cases form with
  | root | nodeTest | attributeTest | literal | list | var | contextItem | parent =>
    exact Interchangeable.refl _
  | step axis base next =>
    refine ⟨fun scene top => ?_, fun scene top rank => ?_⟩
    · simp only [assemble, Expr.evaluate, value]
    · cases axis with
      | child =>
        cases top with
        | zero => exact AnswerAlike.refl _
        | succ below =>
          exact ((same next).accepts scene (below + 1) rank).andThen fun _ =>
            AnswerAlike.ite _ ((same base).accepts scene below false) (AnswerAlike.refl _)
      | descendant =>
        exact ((same next).accepts scene top rank).andThen fun _ => AnswerAlike.ite _
          (AnswerAlike.anyBelow (fun height => (same base).accepts scene height false) top)
          (AnswerAlike.refl _)
  | union left right =>
    refine ⟨fun scene top => ?_, fun scene top rank => ?_⟩
    · simp only [assemble, Expr.evaluate, value]
    · exact ((same left).accepts scene top rank).andThen fun _ =>
        AnswerAlike.ite _ (AnswerAlike.refl _) ((same right).accepts scene top rank)
  | filter base condition =>
    refine ⟨fun scene top => ?_, fun scene top rank => ?_⟩
    · -- whether the condition is asked once is a flag of the node, the same on both sides
      cases once : forest.isConstant condition <;>
        simp only [assemble, once, Expr.evaluate, value]
    · rw [assemble, assemble, Expr.accepts_filter, Expr.accepts_filter]
      simp only [value]
      exact AnswerAlike.bind _ fun saved =>
        (((same base).accepts scene top true).andThen fun _ => AnswerAlike.refl _).andThen
          fun _ => AnswerAlike.refl _
  | call function arguments =>
    refine Interchangeable.of_unsuitable rfl rfl fun scene top => ?_
    simp only [assemble, Expr.evaluate, Interchangeable.evaluateAll same]
  | arithmetic | negate | logic | compare | sequence =>
    refine Interchangeable.of_unsuitable rfl rfl fun scene top => ?_
    simp only [assemble, Expr.evaluate, value]
  | template before part =>
    refine Interchangeable.of_unsuitable rfl rfl fun scene top => ?_
    cases before <;> cases part <;>
      simp only [assemble, Expr.evaluate, Option.map, Option.getD, value]

end StreamPath
