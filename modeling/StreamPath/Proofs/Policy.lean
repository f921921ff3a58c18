import StreamPath.Proofs.Evaluation

/-!
# One policy for errors

A strict sink refuses every fault, a tolerant one accepts all that are recoverable. Run in one and
the same context, evaluations, matches and selections differ under the two in one way only. So long
as nothing is reported they are the same. The first recoverable fault ends the strict run and is the
first that the tolerant one records. A fatal fault ends either run.

* `Tolerates` — what a run under a tolerant sink does to the memory;
* `Foretells` — how the strict run and the tolerant one end that start from the same memory;
* `OnePolicy` — the same of runs in a context;
* `Forest.one_policy` — it holds of evaluations, matches and selections.
-/

namespace StreamPath

open Run

/-! ## Sinks -/

/-- A sink accepts whatever is recoverable. -/
def Sink.IsTolerant (sink : Sink) : Prop :=
  ∀ diagnostic, diagnostic.isFatal = false → sink.respond diagnostic = .ok ()

theorem Sink.isTolerant_lenient : lenient.IsTolerant := by
  intro diagnostic recoverable
  simp [lenient, recoverable]

theorem Sink.isTolerant_collecting : collecting.IsTolerant := isTolerant_lenient

namespace Scene

/-- The same scene with another sink. -/
def under (scene : Scene) (sink : Sink) : Scene := { scene with sink }

variable {scene : Scene} {cause : Cause}

theorem judge_under_aborting (recoverable : cause.isFatal = false) :
    (scene.under .aborting).judge cause = .error ⟨cause, scene.location⟩ := by
  unfold judge
  rw [if_neg (by simp [recoverable])]
  rfl

theorem judge_under_of_isTolerant {sink : Sink} (tolerant : sink.IsTolerant)
    (recoverable : cause.isFatal = false) :
    (scene.under sink).judge cause = .ok ⟨cause, scene.location⟩ := by
  have accepted : (scene.under sink).sink.respond ⟨cause, (scene.under sink).location⟩ = .ok () :=
    tolerant _ recoverable
  unfold judge
  rw [if_neg (by simp [recoverable])]
  simp only [accepted]
  rfl

end Scene

/-! ## Two runs from one memory -/

section Runs

variable {α β : Type}

/-- A run only adds to what is recorded, and nothing but a fatal fault ends it. -/
structure Tolerates (kept : Run α) : Prop where
  grows : ∀ memory, memory.reported <+: (memoryOf (kept memory)).reported
  fatal : ∀ memory failure final, kept memory = .error failure final → failure.isFatal = true

/-- How a strict run and a tolerant one end. They end alike and nothing is recorded, or the strict
one ends with a fault that the tolerant one records first. -/
inductive Compared (start : Memory) :
    EStateM.Result Diagnostic Memory α → EStateM.Result Diagnostic Memory α → Prop
  | alike {result} (silent : (memoryOf result).reported = start.reported) :
    Compared start result result
  | stopped {failure final result} (recoverable : failure.isFatal = false)
    (recorded : start.reported ++ [failure] <+: (memoryOf result).reported) :
    Compared start (.error failure final) result

/-- Only what was recorded at the start matters. -/
theorem Compared.of_start {start other : Memory}
    {strict kept : EStateM.Result Diagnostic Memory α} (compared : Compared start strict kept)
    (same : start.reported = other.reported) : Compared other strict kept := by
  cases compared with
  | alike silent => exact .alike (silent.trans same)
  | stopped recoverable recorded =>
    rw [same] at recorded
    exact .stopped recoverable recorded

/-- A strict run tells how a tolerant one goes on: to the same end, or past the first fault. -/
structure Foretells (strict kept : Run α) : Prop extends Tolerates kept where
  compared : ∀ memory, Compared memory (strict memory) (kept memory)

theorem Tolerates.bind {first : Run α} {next : α → Run β} (head : Tolerates first)
    (tail : ∀ a, Tolerates (next a)) : Tolerates (first >>= next) := by
  constructor
  · intro memory
    have grown := head.grows memory
    rw [bind_apply]
    cases ended : first memory with
    | ok a middle =>
      rw [ended] at grown
      exact grown.trans ((tail a).grows middle)
    | error failure middle =>
      rw [ended] at grown
      exact grown
  · intro memory failure final ended
    rw [bind_apply] at ended
    cases halfway : first memory with
    | ok a middle =>
      rw [halfway] at ended
      exact (tail a).fatal middle failure final ended
    | error other middle =>
      rw [halfway] at ended
      cases ended
      exact head.fatal memory failure final halfway

theorem Foretells.bind {strict kept : Run α} {next next' : α → Run β}
    (head : Foretells strict kept) (tail : ∀ a, Foretells (next a) (next' a)) :
    Foretells (strict >>= next) (kept >>= next') := by
  refine ⟨head.toTolerates.bind fun a => (tail a).toTolerates, ?_⟩
  intro memory
  have step := head.compared memory
  rw [bind_apply, bind_apply]
  cases halfway : strict memory with
  | ok a middle =>
    rw [halfway] at step
    generalize kept memory = result at step
    cases step with
    | alike silent =>
      -- nothing is recorded yet, so what is recorded first comes from the rest
      exact ((tail a).compared middle).of_start silent
  | error failure middle =>
    rw [halfway] at step
    generalize ended : kept memory = result at step
    cases step with
    | alike silent => exact .alike silent
    | stopped recoverable recorded =>
      refine .stopped recoverable ?_
      cases result with
      | ok a after => exact recorded.trans ((tail a).grows after)
      | error other after => exact recorded

/-- A computation that neither fails nor reports is the same under every policy. -/
theorem Foretells.of_silent {computation : Run α}
    (silent : ∀ memory, ∃ a final, computation memory = .ok a final ∧
      final.reported = memory.reported) : Foretells computation computation := by
  refine ⟨⟨fun memory => ?_, fun memory failure last failed => ?_⟩, fun memory => ?_⟩
  · obtain ⟨a, final, ended, same⟩ := silent memory
    rw [ended, ← same]
    exact List.prefix_refl _
  · obtain ⟨a, final, ended, -⟩ := silent memory
    rw [ended] at failed
    cases failed
  · obtain ⟨a, final, ended, same⟩ := silent memory
    rw [ended]
    exact .alike same

theorem Foretells.pure (a : α) : Foretells (Pure.pure a : Run α) (Pure.pure a) :=
  of_silent fun memory => ⟨a, memory, rfl, rfl⟩

theorem Foretells.position : Foretells Run.position Run.position :=
  of_silent fun memory => ⟨memory.position, memory, rfl, rfl⟩

theorem Foretells.setPosition (place : Nat) :
    Foretells (Run.setPosition place) (Run.setPosition place) :=
  of_silent fun memory => ⟨(), { memory with position := place }, rfl, rfl⟩

theorem Foretells.readVariable (scene : Scene) (id : NodeId) (name : Name) :
    Foretells (scene.readVariable id name) (scene.readVariable id name) := by
  refine of_silent fun memory => ?_
  rw [Scene.readVariable_apply]
  split
  · exact ⟨_, _, rfl, rfl⟩
  · split
    · exact ⟨_, _, rfl, rfl⟩
    · split <;> exact ⟨_, _, rfl, rfl⟩

/-- A fatal fault ends both runs before the sink is asked. -/
theorem Foretells.throw {failure : Diagnostic} (fatal : failure.isFatal = true) :
    Foretells (throw failure : Run α) (throw failure) where
  grows := fun memory => List.prefix_refl _
  fatal := by
    intro memory _ final ended
    cases ended
    exact fatal
  compared := fun memory => .alike rfl

theorem Foretells.report (scene : Scene) {sink : Sink} (tolerant : sink.IsTolerant)
    (cause : Cause) :
    Foretells (Run.report (scene.under .aborting) cause) (Run.report (scene.under sink) cause) := by
  cases fatal : cause.isFatal with
  | true =>
    have ends : ∀ policy, Run.report (scene.under policy) cause =
        MonadExcept.throw ⟨cause, scene.location⟩ := by
      intro policy
      unfold Run.report
      rw [Scene.judge_of_isFatal _ fatal]
      rfl
    rw [ends, ends]
    exact .throw fatal
  | false =>
    have recorded : ∀ memory, Run.report (scene.under sink) cause memory =
        .ok () { memory with reported := memory.reported ++ [⟨cause, scene.location⟩] } := by
      intro memory
      rw [report_apply, Scene.judge_under_of_isTolerant tolerant fatal]
    refine ⟨⟨fun memory => ?_, fun memory failure final ended => ?_⟩, fun memory => ?_⟩
    · rw [recorded]
      exact List.prefix_append _ _
    · rw [recorded] at ended
      cases ended
    · rw [recorded, report_apply, Scene.judge_under_aborting fatal]
      exact .stopped fatal (List.prefix_refl _)

/-- Every single step of a strict run foretells that of the tolerant run. -/
theorem lockstep_policy (scene : Scene) {sink : Sink} (tolerant : sink.IsTolerant) :
    Lockstep (scene.under .aborting) (scene.under sink) id (fun _ _ => True) Foretells
      Foretells where
  stack := rfl
  pure := .pure
  position := .position
  report := .report scene tolerant
  refuse := fun _ _ _ => .throw rfl
  read := fun id name _ => .readVariable scene id name
  bind := .bind
  weaken := id
  move := .setPosition
  chain := .bind
  saved := by
    intro α β one two next next' runs rest
    refine Foretells.bind .position fun place => (runs place).bind fun a => ?_
    exact (Foretells.setPosition place).bind fun _ => rest a

end Runs

/-! ## Runs in a context -/

/-- The same context with another sink. -/
def Context.under (context : Context) (sink : Sink) : Context := { context with sink }

/-- A run in a context depends on the policy only through its first recoverable fault. -/
structure OnePolicy {α : Type} (run : Context → Except Diagnostic α × Context)
    (context : Context) : Prop where
  succeeds : ∀ value, (run (context.under .aborting)).1 = .ok value ↔
    (run (context.under .collecting)).1 = .ok value ∧
      (run (context.under .collecting)).2.reported = context.reported
  after : ∀ value, (run (context.under .aborting)).1 = .ok value →
    (run (context.under .collecting)).2 = (run (context.under .aborting)).2.under .collecting
  recorded : ∀ failure, (run (context.under .aborting)).1 = .error failure →
    failure.isFatal = false →
      context.reported ++ [failure] <+: (run (context.under .collecting)).2.reported
  fails : ∀ failure, (run (context.under .aborting)).1 = .error failure →
    failure.isFatal = true →
      (run (context.under .collecting)).1 = .error failure ∧
        (run (context.under .collecting)).2.reported = context.reported
  fatal : ∀ sink, sink = .collecting ∨ sink = .lenient → ∀ failure,
    (run (context.under sink)).1 = .error failure → failure.isFatal = true

namespace OnePolicy

variable {α : Type} {run : Context → Except Diagnostic α × Context} {context : Context}
  {failure : Diagnostic}
  (fatal : ∀ sink, sink = .collecting ∨ sink = .lenient → ∀ failure,
    (run (context.under sink)).1 = .error failure → failure.isFatal = true)

include fatal

/-- Nothing goes wrong. -/
theorem of_ok {value : α} {after : Context}
    (stops : run (context.under .aborting) = (.ok value, after))
    (goes : run (context.under .collecting) = (.ok value, after.under .collecting))
    (silent : after.reported = context.reported) : OnePolicy run context := by
  refine ⟨fun other => ?_, fun other _ => ?_, fun failure failed => ?_, fun failure failed => ?_,
    fatal⟩
  · rw [stops, goes]
    exact ⟨fun same => ⟨same, silent⟩, And.left⟩
  · rw [stops, goes]
  · rw [stops] at failed
    cases failed
  · rw [stops] at failed
    cases failed

/-- The first fault is fatal. -/
theorem of_fatal (stops : (run (context.under .aborting)).1 = .error failure)
    (goes : (run (context.under .collecting)).1 = .error failure)
    (silent : (run (context.under .collecting)).2.reported = context.reported) :
    OnePolicy run context := by
  have final := fatal .collecting (.inl rfl) failure goes
  refine ⟨fun value => ?_, fun value done => ?_, fun other failed recoverable => ?_,
    fun other failed _ => ?_, fatal⟩
  · rw [stops, goes]
    exact ⟨nofun, nofun⟩
  · rw [stops] at done
    cases done
  · rw [stops] at failed
    cases failed
    rw [final] at recoverable
    cases recoverable
  · rw [stops] at failed
    exact ⟨goes.trans failed, silent⟩

/-- The first fault is recoverable. -/
theorem of_recorded (stops : (run (context.under .aborting)).1 = .error failure)
    (recoverable : failure.isFatal = false)
    (recorded : context.reported ++ [failure] <+:
      (run (context.under .collecting)).2.reported) : OnePolicy run context := by
  refine ⟨fun value => ?_, fun value done => ?_, fun other failed _ => ?_,
    fun other failed final => ?_, fatal⟩
  · -- the one run has failed and the other has recorded something
    rw [stops]
    refine ⟨nofun, ?_⟩
    rintro ⟨-, silent⟩
    have longer := recorded.length_le
    rw [silent, List.length_append, List.length_singleton] at longer
    omega
  · rw [stops] at done
    cases done
  · rw [stops] at failed
    cases failed
    exact recorded
  · rw [stops] at failed
    cases failed
    rw [recoverable] at final
    cases final

end OnePolicy

/-- What a run in a context leaves recorded, whether it ends well or not. -/
theorem Context.reported_run {α : Type} (context : Context) (computation : Scene → Run α) :
    (context.run computation).2.reported =
      (memoryOf (computation context.toScene context.toMemory)).reported := by
  cases ended : computation context.toScene context.toMemory with
  | ok value memory => rw [run_of_ok ended]; rfl
  | error failure memory => rw [run_of_error ended]; rfl

/-- Runs of which the strict one foretells the tolerant one follow one policy. -/
theorem Context.onePolicy_of_foretells {α : Type} (context : Context)
    {run : Context → Except Diagnostic α × Context} (computation : Scene → Run α)
    (runs : ∀ sink, run (context.under sink) = (context.under sink).run computation)
    (foretells : ∀ sink : Sink, sink.IsTolerant → Foretells
      (computation (context.toScene.under .aborting)) (computation (context.toScene.under sink))) :
    OnePolicy run context := by
  have fatal : ∀ sink : Sink, sink = .collecting ∨ sink = .lenient → ∀ failure,
      (run (context.under sink)).1 = .error failure → failure.isFatal = true := by
    intro sink chosen failure failed
    have tolerant : sink.IsTolerant := by
      rcases chosen with rfl | rfl
      · exact Sink.isTolerant_collecting
      · exact Sink.isTolerant_lenient
    rw [runs] at failed
    obtain ⟨memory, ended⟩ := exists_of_run_error failed
    exact (foretells sink tolerant).fatal _ _ _ ended
  have compared := (foretells .collecting Sink.isTolerant_collecting).compared context.toMemory
  have left : (run (context.under .collecting)).2.reported =
      (memoryOf (computation (context.toScene.under .collecting) context.toMemory)).reported := by
    rw [runs]
    exact reported_run (context.under .collecting) computation
  generalize ended : computation (context.toScene.under .aborting) context.toMemory = strict
    at compared
  generalize finished : computation (context.toScene.under .collecting) context.toMemory = kept
    at compared left
  cases compared with
  | alike silent =>
    cases strict with
    | ok value memory =>
      have stops := (runs .aborting).trans (run_of_ok ended)
      have goes := (runs .collecting).trans (run_of_ok finished)
      exact .of_ok fatal stops goes silent
    | error failure memory =>
      have stops := (runs .aborting).trans (run_of_error ended)
      have goes := (runs .collecting).trans (run_of_error finished)
      exact .of_fatal fatal (by rw [stops]) (by rw [goes]) (left.trans silent)
  | stopped recoverable recorded =>
    have stops := (runs .aborting).trans (run_of_error ended)
    rw [← left] at recorded
    exact .of_recorded fatal (by rw [stops]) recoverable recorded

/-- Whether a strict run succeeds, and with which fault it stops if not, is told by what a tolerant
run records. This holds of all that evaluates or matches, fatal faults end both runs alike, and
nothing else ends a tolerant one. -/
theorem Forest.one_policy (forest : Forest) (context : Context) (top : Nat) :
    (∀ node, OnePolicy (fun context => forest.evaluate node context top) context) ∧
    (∀ node rank, OnePolicy (fun context => forest.accepts node context top rank) context) ∧
    ∀ rules : RuleTable, OnePolicy (fun context => rules.best forest context top) context ∧
      ∀ viewpoint, OnePolicy (fun context => rules.bestVisible viewpoint forest context top)
        context := by
  refine ⟨fun node => ?_, fun node rank => ?_, fun rules => ?_⟩
  · refine context.onePolicy_of_foretells _ (fun _ => rfl) fun sink tolerant => ?_
    have foretells := (lockstep_policy context.toScene tolerant).evaluate forest.library
      (forest.expression node) (fun _ _ => trivial) top
    rwa [Expr.rename_id] at foretells
  · refine context.onePolicy_of_foretells _ (fun _ => rfl) fun sink tolerant => ?_
    obtain ⟨still, moved⟩ := (lockstep_policy context.toScene tolerant).accepts forest.library
      (forest.expression node) (fun _ _ => trivial) top
    rw [Expr.rename_id] at still moved
    cases rank with
    | false => exact still
    | true => exact moved
  · have selected : ∀ visible : Rule → Bool, ∀ sink : Sink, sink.IsTolerant → Foretells
        (RuleTable.firstAccepted forest (context.toScene.under .aborting) top context.position
          (rules.rules.filter visible))
        (RuleTable.firstAccepted forest (context.toScene.under sink) top context.position
          (rules.rules.filter visible)) := by
      intro visible sink tolerant
      exact (lockstep_policy context.toScene tolerant).firstAccepted forest top _ _
        fun _ _ _ _ => trivial
    constructor
    · exact context.onePolicy_of_foretells (fun scene => RuleTable.firstAccepted forest scene top
        context.position (rules.rules.filter fun _ => true)) (fun _ => rfl) (selected _)
    · intro viewpoint
      exact context.onePolicy_of_foretells (fun scene => RuleTable.firstAccepted forest scene top
        context.position (rules.rules.filter fun rule =>
          RuleTable.isVisible context.groups viewpoint rule.group)) (fun _ => rfl) (selected _)

/-- Both operands of a union are bound nowhere. The strict run stops at the first, and the tolerant
one records it before the other. -/
theorem Forest.recorded_of_unbound_operands :
    let forest := (((Forest.empty.add (.var (.unqualified "x"))).2.add
      (.var (.unqualified "y"))).2.add (.union ⟨0⟩ ⟨1⟩)).2
    let first : Diagnostic := ⟨.undeclaredVariable (.unqualified "x"), {}⟩
    let kept := forest.evaluate ⟨2⟩ (({} : Context).under .collecting) 0
    (forest.evaluate ⟨2⟩ (({} : Context).under .aborting) 0).1 = .error first ∧
      first.isFatal = false ∧ [first] <+: kept.2.reported ∧ kept.1 = .ok [] ∧
      kept.2.reported.length = 2 := by
  intro forest first kept
  have policy := (forest.one_policy {} 0).1 ⟨2⟩
  have stops : (forest.evaluate ⟨2⟩ (({} : Context).under .aborting) 0).1 = .error first := rfl
  exact ⟨stops, rfl, policy.recorded first stops rfl, rfl, rfl⟩

end StreamPath
