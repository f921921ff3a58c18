import StreamPath.Proofs.Lockstep

/-!
# Steps of a path

A step matches a node if its test does and if the path before it matches a node around. Which nodes
are around, the axis says. The matcher asks for them one by one and ends with the first that
matches, but what it finds is no matter of that order: every answer is the one that is given alone.

* `Axis.Spans` — the heights that an axis connects;
* `Run.Yields` — an answer that is the same from every memory of some kind;
* `Expr.yields_step` — a step matches exactly if its axis connects a match of its test to one of the
  path before it.
-/

namespace StreamPath

/-- A depth is one level, or any number of levels, below another one. -/
def Axis.Spans (axis : Axis) (start depth : Nat) : Prop :=
  match axis with
  | .child => depth = start + 1
  | .descendant => start < depth

theorem Axis.Spans.lt {axis : Axis} {start depth : Nat} (spans : axis.Spans start depth) :
    start < depth := by
  cases axis with
  | child =>
    rw [show depth = start + 1 from spans]
    exact Nat.lt_succ_self start
  | descendant => exact spans

theorem Axis.spans_succ {axis : Axis} {start depth : Nat} :
    axis.Spans (start + 1) (depth + 1) ↔ axis.Spans start depth := by
  cases axis with
  | child => exact Nat.succ_inj
  | descendant => exact Nat.succ_lt_succ_iff

namespace Run

variable {α β : Type} {near : Memory → Prop}

/-- From every such memory, a computation ends well with one and the same value, and such a memory
is left. -/
def Yields (near : Memory → Prop) (computation : Run α) (a : α) : Prop :=
  ∀ memory, near memory → ∃ final, computation memory = .ok a final ∧ near final

theorem Yields.pure (a : α) : Yields near (Pure.pure a : Run α) a := by
  intro memory holds
  exact ⟨memory, rfl, holds⟩

theorem Yields.bind {first : Run α} {next : α → Run β} {a : α} {b : β} (head : Yields near first a)
    (tail : Yields near (next a) b) : Yields near (first >>= next) b := by
  intro memory holds
  obtain ⟨middle, ended, holds⟩ := head memory holds
  obtain ⟨final, last, holds⟩ := tail middle holds
  exact ⟨final, bind_eq_ok.mpr ⟨a, middle, ended, last⟩, holds⟩

/-- One match after another, if the first one succeeds. -/
theorem Yields.andThen {one rest : Run Bool} {first second : Bool} (head : Yields near one first)
    (tail : Yields near rest second) :
    Yields near (one >>= fun matched => if matched then rest else Pure.pure false)
      (first && second) := by
  refine head.bind ?_
  cases first with
  | true => exact tail
  | false => exact Yields.pure false

/-- The search for a height that satisfies a test ends with the first one it meets, and finds one
exactly if there is one. -/
theorem Yields.anyBelow {test : Nat → Run Bool} {answer : Nat → Bool} {top : Nat}
    (answers : ∀ height < top, Yields near (test height) (answer height)) :
    ∃ found, Yields near (anyBelow test top) found ∧
      (found = true ↔ ∃ height < top, answer height = true) := by
  induction top with
  | zero =>
    refine ⟨false, Yields.pure false, ?_⟩
    simp
  | succ highest ih =>
    have asked := answers highest (Nat.lt_succ_self highest)
    cases here : answer highest with
    | true =>
      rw [here] at asked
      refine ⟨true, asked.bind (Yields.pure true), ?_⟩
      simp only [true_iff]
      exact ⟨highest, Nat.lt_succ_self highest, here⟩
    | false =>
      rw [here] at asked
      obtain ⟨found, searched, iff⟩ := ih fun height lt => answers height (Nat.lt_succ_of_lt lt)
      refine ⟨found, asked.bind searched, ?_⟩
      rw [iff]
      constructor
      · rintro ⟨height, lt, holds⟩
        exact ⟨height, Nat.lt_succ_of_lt lt, holds⟩
      · rintro ⟨height, lt, holds⟩
        have other : height ≠ highest := by
          rintro rfl
          rw [here] at holds
          cases holds
        exact ⟨height, by omega, holds⟩

end Run

open Run

variable {near : Memory → Prop} (library : Library) (scene : Scene)

/-- A step matches exactly if its last part does and, at some height which the axis connects to this
one, the path before it does. -/
theorem Expr.yields_step {axis : Axis} {base next : Expr} {top : Nat} {last : Bool}
    {around : Nat → Bool} (here : Yields near (next.accepts library scene top false) last)
    (before : ∀ start, axis.Spans start top →
      Yields near (base.accepts library scene start false) (around start)) :
    ∃ matched, Yields near ((step axis base next).accepts library scene top false) matched ∧
      (matched = true ↔ last = true ∧ ∃ start, axis.Spans start top ∧ around start = true) := by
  cases axis with
  | child =>
    cases top with
    | zero =>
      refine ⟨false, Yields.pure false, ?_⟩
      simp [Axis.Spans]
    | succ below =>
      refine ⟨last && around below, here.andThen (before below rfl), ?_⟩
      rw [Bool.and_eq_true]
      constructor
      · rintro ⟨holds, matched⟩
        exact ⟨holds, below, rfl, matched⟩
      · rintro ⟨holds, start, spans, matched⟩
        cases Nat.succ.inj spans
        exact ⟨holds, matched⟩
  | descendant =>
    obtain ⟨found, searched, iff⟩ := Yields.anyBelow before
    refine ⟨last && found, here.andThen searched, ?_⟩
    rw [Bool.and_eq_true, iff]
    rfl

end StreamPath
