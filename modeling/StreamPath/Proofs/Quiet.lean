import StreamPath.Proofs.Embedding

/-!
# Evaluations that report nothing

An expression that has a value without a report has it again, whatever was evaluated without a report
before. Scopes may have been remembered in between, but they were found where they would be found
anyway. So a sequence of computations reports nothing exactly if none of its parts does, and each
part can be looked at alone.

* `Forest.Gives` — an expression has a value without a report;
* `Run.Repeatable` — a computation that does not depend on what was done before without a report;
* `Run.yields_bind_iff` — a sequence of such computations, part by part;
* `Forest.gives_iff_yields` — evaluations are such computations.
-/

namespace StreamPath

open Run

/-- In a context, an expression evaluates to a value and nothing is reported. -/
def Forest.Gives (forest : Forest) (context : Context) (top : Nat) (id : NodeId)
    (value : Sequence) : Prop :=
  ∃ after, forest.evaluate id context top = (.ok value, after) ∧ after.reported = context.reported

/-- A memory that evaluations without a report may have left. -/
structure Memory.Calm (forest : Forest) (context : Context) (memory : Memory) : Prop
    extends Memory.Near forest context memory where
  reported : memory.reported = context.reported

theorem Memory.Calm.refl (forest : Forest) (context : Context) :
    Calm forest context context.toMemory :=
  ⟨⟨rfl, .refl _⟩, rfl⟩

/-- The state of a run is the same, but for scopes that are remembered where they would be found. -/
structure Memory.Akin (forest : Forest) (scene : Scene) (m n : Memory) : Prop
    extends Memory.Alike scene forest.Refers m n where
  reported : m.reported = n.reported

theorem Memory.Calm.akin {forest : Forest} {context : Context} {m n : Memory}
    (first : Calm forest context m) (second : Calm forest context n) :
    Akin forest context.toScene m n where
  position := first.position.trans second.position.symm
  consulted := fun _ _ named => (first.grown.consulted forest.refers_unique named).trans
    (second.grown.consulted forest.refers_unique named).symm
  reported := first.reported.trans second.reported.symm

/-! ## What evaluation does to reports -/

section Simulations

variable {scene : Scene} {known : NodeId → Name → Prop}

/-- Reading a variable reports nothing. -/
theorem Scene.reported_of_readVariable {id : NodeId} {name : Name} {memory final : Memory}
    {found : Option Sequence} (ended : scene.readVariable id name memory = .ok found final) :
    final.reported = memory.reported := by
  obtain ⟨other, isOther, step⟩ := scene.readVariable_eq id name memory
  cases isOther.symm.trans ended
  rcases step with rfl | ⟨group, -, -, -, rfl⟩ <;> rfl

/-- That reports only accumulate is an invariant of evaluation. -/
theorem Memory.simulation_reported (recorded : List Diagnostic) :
    Simulation scene known fun m n => m = n ∧ recorded <+: m.reported where
  position := fun m n related => by rw [related.1]
  move := fun m n place related => ⟨by rw [related.1], related.2⟩
  note := by
    rintro m n cause diagnostic - ⟨rfl, before⟩
    exact ⟨rfl, before.trans (List.prefix_append _ _)⟩
  read := by
    rintro id name - m n ⟨rfl, before⟩
    cases ended : scene.readVariable id name m with
    | ok found final =>
      refine ⟨rfl, rfl, ?_⟩
      rw [Scene.reported_of_readVariable ended]
      exact before
    | error failure final =>
      obtain ⟨other, isOther, -⟩ := scene.readVariable_eq id name m
      cases isOther.symm.trans ended

/-- Evaluation keeps being alike together with any relation of what is reported that is kept by a
further report. -/
theorem Memory.simulation_reports (forest : Forest) (scene : Scene)
    {P : List Diagnostic → List Diagnostic → Prop}
    (further : ∀ one two diagnostic, P one two → P (one ++ [diagnostic]) (two ++ [diagnostic])) :
    Simulation scene forest.Refers fun m n =>
      Alike scene forest.Refers m n ∧ P m.reported n.reported where
  position := fun m n related => related.1.position
  move := fun m n place related => ⟨⟨rfl, related.1.consulted⟩, related.2⟩
  note := fun m n cause diagnostic _ related =>
    ⟨⟨related.1.position, related.1.consulted⟩, further _ _ diagnostic related.2⟩
  read := by
    intro id name named m n related
    have simulation : Simulation scene forest.Refers _ :=
      Memory.simulation_alike forest.refers_unique
    -- reading never fails, and it reports nothing
    obtain ⟨value, endedM, -⟩ := scene.readVariable_eq id name m
    obtain ⟨n', endedN, alike⟩ := (simulation.read id name named).ok related.1 endedM
    rw [endedM, endedN]
    refine ⟨rfl, alike, ?_⟩
    rw [Scene.reported_of_readVariable endedM, Scene.reported_of_readVariable endedN]
    exact related.2

/-- Being akin is kept by evaluation. -/
theorem Memory.simulation_akin (forest : Forest) (scene : Scene) :
    Simulation scene forest.Refers (Akin forest scene) where
  position := fun m n related => related.position
  move := fun m n place related => ⟨⟨rfl, related.consulted⟩, related.reported⟩
  note := by
    intro m n cause diagnostic _ related
    exact ⟨⟨related.position, related.consulted⟩, by rw [related.reported]⟩
  read := by
    intro id name named
    have same : Simulation scene forest.Refers fun m n =>
        Alike scene forest.Refers m n ∧ m.reported = n.reported :=
      simulation_reports forest scene fun one two diagnostic equal => by rw [equal]
    exact (same.read id name named).weaken (fun m n akin => ⟨akin.toAlike, akin.reported⟩)
      (fun _ m n related => ⟨related.1, related.2⟩) fun d e m n failed =>
        ⟨failed.1, failed.2.1, failed.2.2⟩

end Simulations

/-! ## Repeatable computations -/

/-- A computation only adds to what is reported. If it ends well and adds nothing, then it has the
same value from every memory that such computations may have left, and it leaves one of these. -/
structure Run.Repeatable {α : Type} (forest : Forest) (context : Context) (computation : Run α) :
    Prop where
  grows : ∀ memory, memory.reported <+: (memoryOf (computation memory)).reported
  again : ∀ memory a final, Memory.Calm forest context memory → computation memory = .ok a final →
    final.reported = memory.reported → Yields (Memory.Calm forest context) computation a

namespace Run

variable {α β : Type} {forest : Forest} {context : Context}

/-- A value that is given from one calm memory without a report is left with a calm memory. -/
theorem Yields.calm {computation : Run α} {a : α} {memory final : Memory}
    (yields : Yields (Memory.Calm forest context) computation a)
    (calm : Memory.Calm forest context memory) (ended : computation memory = .ok a final) :
    Memory.Calm forest context final := by
  obtain ⟨other, isOther, holds⟩ := yields memory calm
  cases isOther.symm.trans ended
  exact holds

/-- Two values that are given from the same memories are the same. -/
theorem Yields.unique {near : Memory → Prop} {computation : Run α} {a b : α} {memory : Memory}
    (holds : near memory) (first : Yields near computation a) (second : Yields near computation b) :
    a = b := by
  obtain ⟨_, one, -⟩ := first memory holds
  obtain ⟨_, two, -⟩ := second memory holds
  cases one.symm.trans two
  rfl

namespace Repeatable

theorem pure (a : α) : Repeatable forest context (pure a) where
  grows := fun memory => List.prefix_refl _
  again := by
    rintro memory b final calm ⟨⟩ -
    exact .pure a

/-- A report adds something. -/
theorem report (cause : Cause) : Repeatable forest context (report context.toScene cause) where
  grows := by
    intro memory
    rw [report_apply]
    cases context.toScene.judge cause with
    | ok diagnostic => exact List.prefix_append _ _
    | error refused => exact List.prefix_refl _
  again := by
    intro memory a final calm ended same
    rw [report_apply] at ended
    cases judged : context.toScene.judge cause <;> rw [judged] at ended <;> cases ended
    simp at same

/-- If a sequence ends well without a report, each part of it does. -/
theorem parts {first : Run α} {next : α → Run β} (head : Repeatable forest context first)
    (tail : ∀ a, Repeatable forest context (next a)) {memory final : Memory} {b : β}
    (calm : Memory.Calm forest context memory) (ended : (first >>= next) memory = .ok b final)
    (same : final.reported = memory.reported) :
    ∃ a, Yields (Memory.Calm forest context) first a ∧
      Yields (Memory.Calm forest context) (next a) b := by
  obtain ⟨a, middle, isFirst, isNext⟩ := bind_eq_ok.mp ended
  have sooner := head.grows memory
  have later := (tail a).grows middle
  rw [isFirst] at sooner
  rw [isNext] at later
  -- what was reported in between would still be there at the end
  have still : middle.reported = memory.reported := by
    refine (sooner.eq_of_length_le ?_).symm
    rw [← same]
    exact later.length_le
  have one := head.again memory a middle calm isFirst still
  exact ⟨a, one, (tail a).again middle b final (one.calm calm isFirst) isNext
    (same.trans still.symm)⟩

theorem bind {first : Run α} {next : α → Run β} (head : Repeatable forest context first)
    (tail : ∀ a, Repeatable forest context (next a)) : Repeatable forest context (first >>= next) where
  grows := by
    intro memory
    have sooner := head.grows memory
    rw [bind_apply]
    cases ended : first memory with
    | ok a middle =>
      rw [ended] at sooner
      exact sooner.trans ((tail a).grows middle)
    | error failure middle =>
      rw [ended] at sooner
      exact sooner
  again := by
    intro memory b final calm ended same
    obtain ⟨a, one, two⟩ := parts head tail calm ended same
    exact one.bind two

end Repeatable

/-- A sequence gives a value without a report exactly if its parts do, one after the other. -/
theorem yields_bind_iff {first : Run α} {next : α → Run β} (head : Repeatable forest context first)
    (tail : ∀ a, Repeatable forest context (next a)) {b : β} :
    Yields (Memory.Calm forest context) (first >>= next) b ↔
      ∃ a, Yields (Memory.Calm forest context) first a ∧
        Yields (Memory.Calm forest context) (next a) b := by
  constructor
  · intro yields
    obtain ⟨final, ended, calm⟩ := yields _ (.refl forest context)
    exact head.parts tail (.refl forest context) ended calm.reported
  · rintro ⟨a, one, two⟩
    exact one.bind two

theorem yields_pure_iff {a b : α} :
    Yields (Memory.Calm forest context) (pure a : Run α) b ↔ b = a := by
  constructor
  · intro yields
    exact yields.unique (.refl forest context) (.pure a)
  · rintro rfl
    exact .pure b

/-- Two computations and what is made of their values. -/
theorem yields_both_iff {γ : Type} {one : Run α} {two : Run β} {f : α → β → γ} {c : γ}
    (first : Repeatable forest context one) (second : Repeatable forest context two) :
    Yields (Memory.Calm forest context) (one >>= fun a => two >>= fun b => pure (f a b)) c ↔
      ∃ a b, Yields (Memory.Calm forest context) one a ∧
        Yields (Memory.Calm forest context) two b ∧ c = f a b := by
  refine (yields_bind_iff first fun a => second.bind fun b => .pure _).trans ?_
  constructor
  · rintro ⟨a, given, later⟩
    obtain ⟨b, also, isMade⟩ := (yields_bind_iff second fun b => .pure _).mp later
    exact ⟨a, b, given, also, yields_pure_iff.mp isMade⟩
  · rintro ⟨a, b, given, also, rfl⟩
    exact ⟨a, given, also.bind (.pure _)⟩

/-- What begins with a report gives nothing without a report. -/
theorem not_yields_report {cause : Cause} {next : Unit → Run β} {b : β}
    (tail : ∀ a, Repeatable forest context (next a)) :
    ¬Yields (Memory.Calm forest context) (report context.toScene cause >>= next) b := by
  intro yields
  obtain ⟨a, one, -⟩ := (yields_bind_iff (.report cause) tail).mp yields
  obtain ⟨final, ended, calm⟩ := one _ (.refl forest context)
  rw [report_apply] at ended
  have same := calm.reported
  cases judged : context.toScene.judge cause <;> rw [judged] at ended <;> cases ended
  simp at same

end Run

/-! ## Evaluations -/

namespace Forest

variable (forest : Forest) (context : Context)

theorem repeatable_evaluate (id : NodeId) (top : Nat) :
    Repeatable forest context
      ((forest.expression id).evaluate forest.library context.toScene top) where
  grows := by
    intro memory
    have simulation : Simulation context.toScene forest.Refers _ :=
      Memory.simulation_reported memory.reported
    exact Keeps.of_agree (Expr.agree_evaluate simulation forest.library _
      (forest.refers_of_mem_references id) top) memory (List.prefix_refl _)
  again := by
    intro memory a final calm ended same other otherCalm
    have agree := Expr.agree_evaluate (Memory.simulation_akin forest context.toScene)
      forest.library _ (forest.refers_of_mem_references id) top
    have grown := forest.keeps_evaluate_grown context.toScene id top context.toMemory other
      otherCalm.grown
    obtain ⟨rest, isOther, akin⟩ := agree.ok (calm.akin otherCalm) ended
    rw [isOther] at grown
    refine ⟨rest, isOther, ⟨?_, grown⟩, ?_⟩
    · exact ((forest.expression id).restores_evaluate forest.library context.toScene top other a
        rest isOther).trans otherCalm.position
    · rw [← akin.reported, same, calm.reported]

variable {forest context}

/-- An expression has a value without a report exactly if it gives it from every memory that
evaluations without a report may have left. -/
theorem gives_iff_yields {id : NodeId} {top : Nat} {value : Sequence} :
    forest.Gives context top id value ↔ Yields (Memory.Calm forest context)
      ((forest.expression id).evaluate forest.library context.toScene top) value := by
  constructor
  · rintro ⟨after, evaluated, same⟩
    obtain ⟨final, ended⟩ := Context.exists_of_run_ok
      (show (forest.evaluate id context top).1 = .ok value by rw [evaluated])
    have isAfter : forest.evaluate id context top =
        (.ok value, { context with toMemory := final }) := Context.run_of_ok ended
    cases isAfter.symm.trans evaluated
    exact (forest.repeatable_evaluate context id top).again _ value final (.refl forest context)
      ended same
  · intro yields
    obtain ⟨final, ended, calm⟩ := yields _ (.refl forest context)
    exact ⟨_, Context.run_of_ok ended, calm.reported⟩

end Forest

end StreamPath
