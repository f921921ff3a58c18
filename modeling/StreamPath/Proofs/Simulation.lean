import StreamPath.Context

/-!
# Comparing computations

Two computations are compared by what they make of two related memories. `Related` is the general
judgment, with a relation before, one after for each value, and one for runs that end; `Agree` is the
common case of one relation throughout. A computation that agrees with itself over a part of the
diagonal keeps an invariant (`Keeps`), so invariants need no rules of their own.

* `Related.ok`, `Related.error` — related computations end alike;
* `Related.bind` — the rule of sequencing, on which all others rest;
* `Related.run` — what becomes of the contexts in which related computations are run;
* `Keeps.of_agree` — an invariant is a simulation of a computation by itself.
-/

namespace StreamPath

namespace Run

variable {α β : Type}

/-- What is left in memory by a computation, whether it ends well or not. -/
def memoryOf : EStateM.Result Diagnostic Memory α → Memory
  | .ok _ memory => memory
  | .error _ memory => memory

/-- From memories related by `before`, both computations give the same value and memories related by
`after`, or both end the run with diagnostics and memories related by `failed`. -/
def Related (before : Memory → Memory → Prop) (after : α → Memory → Memory → Prop)
    (failed : Diagnostic → Diagnostic → Memory → Memory → Prop) (first second : Run α) : Prop :=
  ∀ m n, before m n →
    match first m, second n with
    | .ok a m', .ok b n' => a = b ∧ after a m' n'
    | .error d m', .error e n' => failed d e m' n'
    | _, _ => False

/-- Both computations give the same value or end the run with the same diagnostic, and memories that
were related are related afterwards. -/
def Agree (R : Memory → Memory → Prop) (first second : Run α) : Prop :=
  Related R (fun _ => R) (fun d e m n => d = e ∧ R m n) first second

/-- A property of the memory outlives the computation, whether it ends well or not. -/
def Keeps (P : Memory → Prop) (computation : Run α) : Prop :=
  ∀ memory, P memory → P (memoryOf (computation memory))

/-- A computation that ends well leaves the context position where it was. -/
def Restores (computation : Run α) : Prop :=
  ∀ memory a final, computation memory = .ok a final → final.position = memory.position

/-! ## Steps of a computation -/

theorem bind_apply (first : Run α) (next : α → Run β) (memory : Memory) :
    (first >>= next) memory =
      match first memory with
      | .ok a final => next a final
      | .error d final => .error d final := by
  show EStateM.bind first next memory = _
  unfold EStateM.bind
  cases first memory <;> rfl

/-- A sequence ends well if both parts do. -/
theorem bind_eq_ok {first : Run α} {next : α → Run β} {memory final : Memory} {b : β} :
    (first >>= next) memory = .ok b final ↔
      ∃ a middle, first memory = .ok a middle ∧ next a middle = .ok b final := by
  rw [bind_apply]
  cases first memory with
  | ok a middle =>
    constructor
    · intro ended
      exact ⟨a, middle, rfl, ended⟩
    · rintro ⟨_, _, ⟨⟩, ended⟩
      exact ended
  | error d middle => simp

/-- A sequence fails if its first part does, or the rest from where that ends. -/
theorem bind_eq_error {first : Run α} {next : α → Run β} {memory final : Memory}
    {failure : Diagnostic} :
    (first >>= next) memory = .error failure final ↔
      first memory = .error failure final ∨
        ∃ a middle, first memory = .ok a middle ∧ next a middle = .error failure final := by
  rw [bind_apply]
  cases first memory with
  | ok a middle =>
    constructor
    · intro ended
      exact .inr ⟨a, middle, rfl, ended⟩
    · rintro (ended | ⟨_, _, ⟨⟩, ended⟩)
      · cases ended
      · exact ended
  | error d middle => simp

theorem pure_apply (a : α) (memory : Memory) : (pure a : Run α) memory = .ok a memory := rfl

theorem position_apply (memory : Memory) : position memory = .ok memory.position memory := rfl

theorem setPosition_apply (place : Nat) (memory : Memory) :
    setPosition place memory = .ok () { memory with position := place } := rfl

/-- A report is accepted and noted, or it ends the run and nothing is noted. -/
theorem report_apply (scene : Scene) (cause : Cause) (memory : Memory) :
    report scene cause memory =
      match scene.judge cause with
      | .ok diagnostic => .ok () { memory with reported := memory.reported ++ [diagnostic] }
      | .error refused => .error refused memory := by
  unfold report
  cases scene.judge cause <;> rfl

/-! ## Rules of the judgment -/

section Related

variable {before : Memory → Memory → Prop} {after : α → Memory → Memory → Prop}
  {failed : Diagnostic → Diagnostic → Memory → Memory → Prop} {first second : Run α}

/-- Where one of two related computations ends well, so does the other. -/
theorem Related.ok (related : Related before after failed first second) {m n m' : Memory}
    (start : before m n) {a : α} (ended : first m = .ok a m') :
    ∃ n', second n = .ok a n' ∧ after a m' n' := by
  have step := related m n start
  rw [ended] at step
  cases other : second n with
  | ok b n' =>
    rw [other] at step
    obtain ⟨rfl, holds⟩ := step
    exact ⟨n', rfl, holds⟩
  | error e n' =>
    rw [other] at step
    exact step.elim

/-- Where one of two related computations fails, so does the other. -/
theorem Related.error (related : Related before after failed first second) {m n m' : Memory}
    (start : before m n) {d : Diagnostic} (ended : first m = .error d m') :
    ∃ e n', second n = .error e n' ∧ failed d e m' n' := by
  have step := related m n start
  rw [ended] at step
  cases other : second n with
  | ok b n' =>
    rw [other] at step
    exact step.elim
  | error e n' =>
    rw [other] at step
    exact ⟨e, n', rfl, step⟩

theorem Related.pure (a : α) (holds : ∀ m n, before m n → after a m n) :
    Related before after failed (pure a) (pure a) := by
  intro m n start
  exact ⟨rfl, holds m n start⟩

theorem Related.bind {last : β → Memory → Memory → Prop} {next next' : α → Run β}
    (head : Related before after failed first second)
    (tail : ∀ a, Related (after a) last failed (next a) (next' a)) :
    Related before last failed (first >>= next) (second >>= next') := by
  intro m n start
  rw [bind_apply, bind_apply]
  cases ended : first m with
  | ok a m' =>
    obtain ⟨n', ended', mid⟩ := head.ok start ended
    rw [ended']
    exact tail a m' n' mid
  | error d m' =>
    obtain ⟨e, n', ended', fault⟩ := head.error start ended
    rw [ended']
    exact fault

/-- The rule of consequence. -/
theorem Related.weaken {before' : Memory → Memory → Prop} {after' : α → Memory → Memory → Prop}
    {failed' : Diagnostic → Diagnostic → Memory → Memory → Prop}
    (related : Related before after failed first second)
    (sooner : ∀ m n, before' m n → before m n) (later : ∀ a m n, after a m n → after' a m n)
    (worse : ∀ d e m n, failed d e m n → failed' d e m n) :
    Related before' after' failed' first second := by
  intro m n start
  cases ended : first m with
  | ok a m' =>
    obtain ⟨n', ended', holds⟩ := related.ok (sooner m n start) ended
    rw [ended']
    exact ⟨rfl, later a m' n' holds⟩
  | error d m' =>
    obtain ⟨e, n', ended', fault⟩ := related.error (sooner m n start) ended
    rw [ended']
    exact worse d e m' n' fault

/-- Two branches on one condition. -/
theorem Related.ite {first' second' : Run α} (condition : Prop) [Decidable condition]
    (yes : condition → Related before after failed first second)
    (no : ¬condition → Related before after failed first' second') :
    Related before after failed (if condition then first else first')
      (if condition then second else second') := by
  by_cases holds : condition
  · simpa only [if_pos holds] using yes holds
  · simpa only [if_neg holds] using no holds

/-- Related computations are run in two contexts: both give the same value or both fail, and the
memories that they leave are related. -/
theorem Related.run {one two : Context} {first second : Scene → Run α}
    (related : Related before after failed (first one.toScene) (second two.toScene))
    (start : before one.toMemory two.toMemory) :
    (∃ a m n, one.run first = (.ok a, { one with toMemory := m }) ∧
      two.run second = (.ok a, { two with toMemory := n }) ∧ after a m n) ∨
    ∃ d e m n, one.run first = (.error d, { one with toMemory := m }) ∧
      two.run second = (.error e, { two with toMemory := n }) ∧ failed d e m n := by
  cases ended : first one.toScene one.toMemory with
  | ok a m =>
    obtain ⟨n, ended', holds⟩ := related.ok start ended
    exact .inl ⟨a, m, n, Context.run_of_ok ended, Context.run_of_ok ended', holds⟩
  | error d m =>
    obtain ⟨e, n, ended', fault⟩ := related.error start ended
    exact .inr ⟨d, e, m, n, Context.run_of_error ended, Context.run_of_error ended', fault⟩

end Related

/-- An invariant is a simulation of a computation by itself, over the diagonal. -/
theorem Keeps.of_agree {P : Memory → Prop} {computation : Run α}
    (agree : Agree (fun m n => m = n ∧ P m) computation computation) : Keeps P computation := by
  intro memory holds
  have step := agree memory memory ⟨rfl, holds⟩
  cases ended : computation memory <;> rw [ended] at step <;> exact step.2.2

section Restores

theorem Restores.pure (a : α) : Restores (pure a : Run α) := by
  intro memory b final ended
  cases ended
  rfl

theorem Restores.bind {first : Run α} {next : α → Run β} (head : Restores first)
    (tail : ∀ a, Restores (next a)) : Restores (first >>= next) := by
  intro memory b final ended
  rw [bind_apply] at ended
  cases hfirst : first memory with
  | ok a middle =>
    rw [hfirst] at ended
    exact (tail a middle b final ended).trans (head memory a middle hfirst)
  | error d middle =>
    rw [hfirst] at ended
    cases ended

/-- Whatever happens in between, moving back to the saved position restores it. -/
theorem Restores.saved {first : Nat → Run α} {next : α → Run β}
    (tail : ∀ a, Restores (next a)) :
    Restores (position >>= fun place =>
      first place >>= fun a => setPosition place >>= fun _ => next a) := by
  intro memory b final ended
  rw [bind_apply, position_apply] at ended
  simp only [bind_apply, setPosition_apply] at ended
  cases hfirst : first memory.position memory with
  | ok a middle =>
    rw [hfirst] at ended
    exact tail a { middle with position := memory.position } b final ended
  | error d middle =>
    rw [hfirst] at ended
    cases ended

theorem Restores.report (scene : Scene) (cause : Cause) : Restores (report scene cause) := by
  intro memory a final ended
  rw [report_apply] at ended
  cases judged : scene.judge cause <;> rw [judged] at ended <;> cases ended
  rfl

theorem Restores.abort (scene : Scene) (cause : Cause) :
    Restores (abort scene cause : Run α) := by
  intro memory a final ended
  cases ended

end Restores

end Run

end StreamPath
