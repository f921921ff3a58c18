import StreamPath.Proofs.Evaluation

/-!
# Where a failure leaves the position

Filters move the context position while they ask their conditions, and so do matches that are asked
for a rank. What ends well moves it back, but what fails does so at once, from wherever it is. So
after a failure the position need not be the one of before: it can be the place of an item of which
a filter was asking its condition, or the rank of a node that the base of a filter had matched.

* `Run.Strays` — where a computation may leave the position;
* `LeftAtItem`, `LeftAtRank` — what a failure interrupted;
* `Expr.strays_evaluate`, `Expr.strays_accepts` — evaluations and matches stray no further;
* `Forest.position_of_failure` — the position after a failure.
-/

namespace StreamPath

namespace Run

/-- A computation that ends well leaves the position where it was or at a place where it may be; one
that fails may lose it elsewhere. -/
def Strays {α : Type} (may : Nat → Prop) (lost : Diagnostic → Memory → Prop)
    (computation : Run α) : Prop :=
  ∀ memory,
    match computation memory with
    | .ok _ final => final.position = memory.position ∨ may final.position
    | .error failure final =>
      final.position = memory.position ∨ may final.position ∨ lost failure final

namespace Strays

variable {α β : Type} {may : Nat → Prop} {lost : Diagnostic → Memory → Prop}

theorem pure (a : α) : Strays may lost (Pure.pure a : Run α) := fun _ => .inl rfl

theorem position : Strays may lost Run.position := fun _ => .inl rfl

theorem report (scene : Scene) (cause : Cause) : Strays may lost (Run.report scene cause) := by
  intro memory
  rw [report_apply]
  cases scene.judge cause <;> exact .inl rfl

theorem abort (scene : Scene) (cause : Cause) :
    Strays may lost (Run.abort scene cause : Run α) := fun _ => .inl rfl

theorem readVariable (scene : Scene) (id : NodeId) (name : Name) :
    Strays may lost (scene.readVariable id name) := by
  intro memory
  rw [Scene.readVariable_apply]
  cases scene.locals.find? name with
  | some value => exact .inl rfl
  | none =>
    cases memory.scopes.find? id with
    | some group => exact .inl rfl
    | none =>
      cases scene.findScope name with
      | none => exact .inl rfl
      | some scope => cases scope <;> exact .inl rfl

theorem moveIf (asked : Bool) {place : Nat} (allowed : asked = true → may place) :
    Strays may lost (Run.moveIf asked place) := by
  intro memory
  cases asked with
  | false => exact .inl rfl
  | true => exact .inr (allowed rfl)

theorem bind {first : Run α} {next : α → Run β} (head : Strays may lost first)
    (tail : ∀ start a middle, first start = .ok a middle → Strays may lost (next a)) :
    Strays may lost (first >>= next) := by
  intro memory
  have one := head memory
  rw [bind_apply]
  cases ended : first memory with
  | error failure final =>
    rw [ended] at one
    exact one
  | ok a middle =>
    -- wherever the second part begins, it is where the first one may end
    have begun : middle.position = memory.position ∨ may middle.position := by
      rwa [ended] at one
    have two := tail memory a middle ended middle
    show match next a middle with | .ok _ final => _ | .error failure final => _
    cases rest : next a middle with
    | ok b final =>
      rw [rest] at two
      show final.position = memory.position ∨ may final.position
      rcases two with same | moved
      · rwa [same]
      · exact .inr moved
    | error failure final =>
      rw [rest] at two
      show final.position = memory.position ∨ may final.position ∨ lost failure final
      rcases two with same | elsewhere
      · rw [same]
        exact begun.imp_right .inl
      · exact .inr elsewhere

/-- What ends well between saving the position and moving back does not count. -/
theorem saved {first : Nat → Run α} {next : α → Run β}
    (head : ∀ memory failure final, first memory.position memory = .error failure final →
      final.position = memory.position ∨ may final.position ∨ lost failure final)
    (tail : ∀ a, Strays may lost (next a)) :
    Strays may lost (Run.position >>= fun place =>
      first place >>= fun a => Run.setPosition place >>= fun _ => next a) := by
  intro memory
  rw [bind_apply, position_apply]
  simp only [bind_apply, setPosition_apply]
  cases ended : first memory.position memory with
  | error failure final => exact head memory failure final ended
  | ok a middle => exact tail a { middle with position := memory.position }

/-- The rule of consequence. -/
theorem mono {may' : Nat → Prop} {lost' : Diagnostic → Memory → Prop} {computation : Run α}
    (strays : Strays may lost computation) (wider : ∀ place, may place → may' place)
    (worse : ∀ failure final, lost failure final → lost' failure final) :
    Strays may' lost' computation := by
  intro memory
  have ends := strays memory
  cases ended : computation memory with
  | ok a final =>
    rw [ended] at ends
    exact ends.imp_right (wider _)
  | error failure final =>
    rw [ended] at ends
    exact ends.imp_right (Or.imp (wider _) (worse _ _))

end Strays

end Run

open Run

/-- The steps of an evaluation other than a filter keep the position. -/
theorem routine_strays (scene : Scene) (lost : Diagnostic → Memory → Prop) :
    Routine scene (fun _ _ => True) (Strays (fun _ => False) lost) where
  pure := Strays.pure
  position := Strays.position
  report := Strays.report scene
  abort := Strays.abort scene
  read := fun id name _ => Strays.readVariable scene id name
  bind := fun head tail => head.bind fun _ a _ _ => tail a

/-! ## Evaluations -/

/-- A filter was asking its condition of an item when the condition failed, and the position is
still the place of the item. -/
inductive LeftAtItem (library : Library) (scene : Scene) (whole : Expr) (failure : Diagnostic)
    (final : Memory) : Prop
  | asked {base condition : Expr} {top index depth : Nat} {items : Sequence} {item : Item}
      {start middle reached : Memory} :
      whole.Contains (.filter false base condition) →
      base.evaluate library scene top start = .ok items middle →
      items[index]? = some item → scene.openDepth? item = some depth →
      reached.position = index + 1 →
      condition.evaluate library scene (depth + 1) reached = .error failure final →
      final.position = index + 1 → LeftAtItem library scene whole failure final

/-- A filtering that fails has moved back, or it leaves the position where its condition did. -/
theorem Scene.position_of_select {scene : Scene} {lost : Diagnostic → Memory → Prop}
    {condition : Nat → Run Sequence}
    (holds : ∀ height, Strays (fun _ => False) lost (condition height)) {saved position : Nat}
    {items : Sequence}
    (asked : ∀ index item depth reached failure final, items[index]? = some item →
      scene.openDepth? item = some depth → reached.position = position + index →
      condition (depth + 1) reached = .error failure final → final.position = position + index →
      lost failure final)
    {memory final : Memory} {failure : Diagnostic}
    (failed : scene.select condition saved position items memory = .error failure final) :
    final.position = saved ∨ lost failure final := by
  induction items generalizing position memory with
  | nil => cases failed
  | cons item rest ih =>
    unfold Scene.select at failed
    cases isOpen : scene.openDepth? item with
    | none =>
      rw [isOpen] at failed
      left
      simp only [Run.bind_apply, setPosition_apply, report_apply] at failed
      cases judged : scene.judge (.filterOffStack item.type) <;> rw [judged] at failed <;>
        cases failed
      rfl
    | some depth =>
      rw [isOpen] at failed
      simp only [Run.bind_apply, setPosition_apply] at failed
      have here := holds (depth + 1) { memory with position }
      cases ended : condition (depth + 1) { memory with position } with
      | error fault stopped =>
        rw [ended] at failed here
        cases failed
        rcases here with same | ⟨⟨⟩⟩ | lost
        · exact .inr (asked 0 item depth _ failure final rfl isOpen rfl ended same)
        · exact .inr lost
      | ok value middle =>
        rw [ended] at failed
        simp only at failed
        cases more : scene.select condition saved (position + 1) rest middle with
        | ok kept _ =>
          rw [more] at failed
          cases failed
        | error fault stopped =>
          rw [more] at failed
          cases failed
          refine ih (fun index item depth reached failure final there opens starts asks ends => ?_)
            more
          have shift : position + 1 + index = position + (index + 1) := by omega
          rw [shift] at starts ends
          exact asked (index + 1) item depth reached failure final there opens starts asks ends

namespace Expr

variable (library : Library) (scene : Scene) {whole : Expr}

/-- An evaluation keeps the position, unless a condition fails that a filter is asking of an item.
-/
theorem strays_evaluate (expr : Expr) (within : whole.Contains expr) (top : Nat) :
    Strays (fun _ => False) (LeftAtItem library scene whole) (expr.evaluate library scene top) := by
  refine (routine_strays scene _).evaluate library ?_ expr within (fun _ _ => trivial) top
  intro base condition inside holdsBase holdsCondition top
  rw [evaluate]
  refine (holdsBase top).bind fun start items middle based => ?_
  refine Strays.saved (fun memory failure final failed => ?_) fun _ => Strays.pure _
  have asked : ∀ index item depth reached failure final, items[index]? = some item →
      scene.openDepth? item = some depth → reached.position = 1 + index →
      condition.evaluate library scene (depth + 1) reached = .error failure final →
      final.position = 1 + index → LeftAtItem library scene whole failure final := by
    intro index item depth reached failure final there isOpen starts failed ends
    rw [Nat.add_comm] at starts ends
    exact .asked inside based there isOpen starts failed ends
  exact (Scene.position_of_select holdsCondition asked failed).imp_right .inr

end Expr

/-! ## Matches -/

/-- A test in a pattern gives the innermost of `top` open nodes, which it selects, a rank. -/
inductive Ranks (scene : Scene) (pattern : Expr) : (top place : Nat) → Prop
  | root : pattern.Contains .root → Ranks scene pattern 1 1
  | nodeTest {test : NodeTest} {depth : Nat} {innermost : Occurrence} :
      pattern.Contains (.nodeTest test) →
      scene.stack.occurrence? (depth + 1) = some innermost →
      test.selects innermost.event = true →
      Ranks scene pattern (depth + 2) (scene.stack.positionOf (depth + 1) test)

/-- The base of a filter in a pattern gives a node within `top` open ones a rank. -/
inductive LeftAtRank (scene : Scene) (whole : Expr) (top place : Nat) : Prop
  | asked {once : Bool} {base condition : Expr} {height : Nat} :
      whole.Contains (.filter once base condition) → height ≤ top →
      Ranks scene base height place → LeftAtRank scene whole top place

theorem Expr.Contains.trans {whole outer inner : Expr} (first : whole.Contains outer)
    (second : outer.Contains inner) : whole.Contains inner := by
  induction second with
  | self => exact first
  | operand _ mem ih => exact ih.operand mem

theorem Ranks.within {scene : Scene} {outer inner : Expr} {top place : Nat}
    (ranks : Ranks scene inner top place) (contains : outer.Contains inner) :
    Ranks scene outer top place := by
  cases ranks with
  | root inside => exact .root (contains.trans inside)
  | nodeTest inside there selects => exact .nodeTest (contains.trans inside) there selects

/-- A failing match loses the position at an item or at a rank. -/
def Lost (library : Library) (scene : Scene) (whole : Expr) (top : Nat) (failure : Diagnostic)
    (final : Memory) : Prop :=
  LeftAtItem library scene whole failure final ∨ LeftAtRank scene whole top final.position

namespace Expr

variable (library : Library) (scene : Scene) {whole : Expr} {limit : Nat}

/-- A match keeps the position, unless it is asked to move it to a rank, or a condition fails, or a
match that must not move it fails where the base of a filter did move it. -/
theorem strays_accepts (expr : Expr) (within : whole.Contains expr) {top : Nat} (le : top ≤ limit)
    (rank : Bool) :
    Strays (fun place => rank = true ∧ Ranks scene expr top place) (Lost library scene whole limit)
      (expr.accepts library scene top rank) := by
  -- what is not asked to move the position has no place to move it to
  have still : ∀ {may : Nat → Prop} {expr : Expr} {height : Nat} {computation : Run Bool},
      Strays (fun place => false = true ∧ Ranks scene expr height place)
        (Lost library scene whole limit) computation →
      Strays may (Lost library scene whole limit) computation := by
    intro may expr height computation strays
    exact strays.mono (fun place moved => absurd moved.1 Bool.false_ne_true) fun _ _ => id
  induction expr using Expr.induct generalizing top rank with
  | root =>
    rw [accepts_root]
    split
    · next document =>
      obtain ⟨rfl, -⟩ : top = 1 ∧ _ := by simpa using document
      exact (Strays.moveIf rank fun asked => ⟨asked, .root .self⟩).bind fun _ _ _ _ => Strays.pure _
    · exact Strays.pure false
  | step axis base next ihBase ihNext =>
    obtain ⟨inBase, inNext⟩ := within.pair rfl
    have inside := Contains.self.pair (rfl : (Expr.step axis base next).operands = [base, next])
    have last := (ihNext inNext le rank).mono
      (fun place moved => moved.imp_right fun ranks => ranks.within inside.2) fun _ _ => id
    cases axis with
    | child =>
      cases top with
      | zero => exact Strays.pure false
      | succ below =>
        refine last.bind fun _ matched _ _ => ?_
        split
        · exact still (ihBase inBase (Nat.le_of_succ_le le) false)
        · exact Strays.pure false
    | descendant =>
      have around := ((routine_strays scene (Lost library scene whole limit)).sequencing.anyBelow
        fun height (lt : height < top) =>
          ⟨rfl, still (ihBase inBase (Nat.le_trans (Nat.le_of_lt lt) le) false)⟩).2
      refine last.bind fun _ matched _ _ => ?_
      split
      · exact around.mono (fun _ => False.elim) fun _ _ => id
      · exact Strays.pure false
  | union left right ihLeft ihRight =>
    obtain ⟨inLeft, inRight⟩ := within.pair rfl
    have inside := Contains.self.pair (rfl : (Expr.union left right).operands = [left, right])
    have first := (ihLeft inLeft le rank).mono
      (fun place moved => moved.imp_right fun ranks => ranks.within inside.1) fun _ _ => id
    refine first.bind fun _ matched _ _ => ?_
    split
    · exact Strays.pure true
    · exact (ihRight inRight le rank).mono
        (fun place moved => moved.imp_right fun ranks => ranks.within inside.2) fun _ _ => id
  | filter once base condition ihBase ihCondition =>
    obtain ⟨inBase, inCondition⟩ := within.pair rfl
    have inside := (Contains.self.pair
      (rfl : (Expr.filter once base condition).operands = [base, condition])).1
    have asks := (ihBase inBase le true).bind fun _ matched _ _ =>
      show Strays _ _ (if matched then
        condition.evaluate library scene top >>= fun value =>
          Run.position >>= fun position => pure (holdsAt value position)
        else pure false) by
      split
      · have evaluates := strays_evaluate library scene condition inCondition top
        refine (evaluates.mono (fun _ => False.elim) fun _ _ => .inl).bind fun _ value _ _ => ?_
        exact Strays.position.bind fun _ position _ _ => Strays.pure _
      · exact Strays.pure false
    cases rank with
    | true =>
      rw [accepts_filter_ranked]
      exact asks.mono (fun place moved => ⟨rfl, moved.2.within inside⟩) fun _ _ => id
    | false =>
      rw [accepts_filter]
      refine Strays.saved (fun memory failure final failed => ?_) fun _ => Strays.pure _
      have ends := asks memory
      rw [failed] at ends
      rcases ends with same | ⟨-, ranks⟩ | lost
      · exact .inl same
      · exact .inr (.inr (.inr (.asked within le ranks)))
      · exact .inr (.inr lost)
  | nodeTest test =>
    obtain _ | _ | depth := top
    · exact Strays.pure false
    · exact Strays.pure false
    · rw [accepts_nodeTest]
      split
      · next selected =>
        obtain ⟨innermost, there, selects⟩ := Option.any_eq_true _ _ |>.mp selected
        refine (Strays.moveIf rank fun asked => ⟨asked, ?_⟩).bind fun _ _ _ _ => Strays.pure _
        exact .nodeTest .self there selects
      · exact Strays.pure false
  | attributeTest test =>
    obtain _ | _ | _ | depth := top
    · exact Strays.pure false
    · exact Strays.pure false
    · exact Strays.pure false
    · exact Strays.pure _
  | call | literal | arithmetic | negate | logic | compare | sequence | list | template | var
  | contextItem | parent => exact Strays.abort scene _

end Expr

/-! ## Failures -/

/-- A selection that fails does so with one of its rules. -/
theorem RuleTable.position_of_firstAccepted (forest : Forest) (scene : Scene) (top saved : Nat)
    {rules : List Rule} {memory final : Memory} {failure : Diagnostic}
    (failed : firstAccepted forest scene top saved rules memory = .error failure final) :
    final.position = saved ∨ ∃ rule ∈ rules,
      Ranks scene (forest.expression rule.pattern) top final.position ∨
        Lost forest.library scene (forest.expression rule.pattern) top failure final := by
  induction rules generalizing memory with
  | nil => cases failed
  | cons rule rest ih =>
    unfold firstAccepted at failed
    rw [bind_apply, setPosition_apply] at failed
    rcases bind_eq_error.mp failed with asked | ⟨matched, middle, -, ended⟩
    · have ends := Expr.strays_accepts forest.library scene (forest.expression rule.pattern) .self
        (Nat.le_refl top) true { memory with position := saved }
      rw [asked] at ends
      rcases ends with same | ⟨-, ranks⟩ | lost
      · exact .inl same
      · exact .inr ⟨rule, List.mem_cons_self, .inl ranks⟩
      · exact .inr ⟨rule, List.mem_cons_self, .inr lost⟩
    · cases matched with
      | true => cases ended
      | false =>
        refine (ih ended).imp_right ?_
        rintro ⟨other, mem, astray⟩
        exact ⟨other, List.mem_cons_of_mem rule mem, astray⟩

/-- A run that fails is one of the computation, with the memory that it leaves. -/
theorem Context.eq_error_of_run {α : Type} {context final : Context} {computation : Scene → Run α}
    {failure : Diagnostic} (failed : context.run computation = (.error failure, final)) :
    computation context.toScene context.toMemory = .error failure final.toMemory := by
  obtain ⟨memory, ended⟩ := exists_of_run_error (congrArg Prod.fst failed)
  rw [run_of_error ended] at failed
  cases failed
  exact ended

theorem RuleTable.position_of_bestAmong (table : RuleTable) (visible : Rule → Bool)
    {forest : Forest} {context final : Context} {top : Nat} {failure : Diagnostic}
    (failed : table.bestAmong visible forest context top = (.error failure, final)) :
    final.position = context.position ∨ ∃ rule ∈ table.rules, visible rule = true ∧
      (Ranks context.toScene (forest.expression rule.pattern) top final.position ∨
        Lost forest.library context.toScene (forest.expression rule.pattern) top failure
          final.toMemory) := by
  have ended := Context.eq_error_of_run failed
  refine (position_of_firstAccepted forest _ _ _ ended).imp_right ?_
  rintro ⟨rule, mem, astray⟩
  obtain ⟨declared, passes⟩ := List.mem_filter.mp mem
  exact ⟨rule, declared, passes, astray⟩

namespace Forest

/-- A failed evaluation leaves the position where it was, unless a condition failed that a filter
was asking of an item; then it leaves it at the place of the item. A failed match that was not asked
to move the position can also leave it at a rank that the base of a filter set for its condition. A
failed selection can leave it at either, or at the rank that a test of one of the rules' patterns
gives the innermost node. -/
theorem position_of_failure (forest : Forest) (context : Context) (top : Nat) :
    (∀ id failure final, forest.evaluate id context top = (.error failure, final) →
      final.position = context.position ∨
        LeftAtItem forest.library context.toScene (forest.expression id) failure final.toMemory) ∧
    (∀ id failure final, forest.accepts id context top false = (.error failure, final) →
      final.position = context.position ∨
        Lost forest.library context.toScene (forest.expression id) top failure final.toMemory) ∧
    (∀ (rules : RuleTable) failure final, rules.best forest context top = (.error failure, final) →
      final.position = context.position ∨ ∃ rule ∈ rules.rules,
        Ranks context.toScene (forest.expression rule.pattern) top final.position ∨
          Lost forest.library context.toScene (forest.expression rule.pattern) top failure
            final.toMemory) ∧
    ∀ (rules : RuleTable) viewpoint failure final,
      rules.bestVisible viewpoint forest context top = (.error failure, final) →
      final.position = context.position ∨ ∃ rule ∈ rules.rules,
        RuleTable.isVisible context.groups viewpoint rule.group = true ∧
        (Ranks context.toScene (forest.expression rule.pattern) top final.position ∨
          Lost forest.library context.toScene (forest.expression rule.pattern) top failure
            final.toMemory) := by
  refine ⟨?_, ?_, ?_, ?_⟩
  · intro id failure final failed
    have ends := Expr.strays_evaluate forest.library context.toScene (forest.expression id) .self
      top context.toMemory
    rw [Context.eq_error_of_run failed] at ends
    exact ends.imp_right fun elsewhere => elsewhere.resolve_left not_false
  · intro id failure final failed
    have ends := Expr.strays_accepts forest.library context.toScene (forest.expression id) .self
      (Nat.le_refl top) false context.toMemory
    rw [Context.eq_error_of_run failed] at ends
    exact ends.imp_right fun elsewhere =>
      elsewhere.resolve_left fun moved => Bool.false_ne_true moved.1
  · intro rules failure final failed
    refine (rules.position_of_bestAmong (fun _ => true) failed).imp_right ?_
    rintro ⟨rule, declared, -, astray⟩
    exact ⟨rule, declared, astray⟩
  · intro rules viewpoint failure final failed
    exact rules.position_of_bestAmong _ failed

end Forest

/-! ## A condition that fails -/

namespace Undeclared

/-- A filter of the context node and one of any child node, each with a variable as its condition.
-/
def forest : Forest :=
  let items := ((Forest.empty.add .contextItem).2.add (.var (.unqualified "v"))).2
  let children := ((items.add (.filter ⟨0⟩ ⟨1⟩)).2.add (.nodeTest .anyNode)).2
  (children.add (.filter ⟨3⟩ ⟨1⟩)).2

def rules : RuleTable := (RuleTable.empty.add forest ⟨4⟩ none .root).2

/-- The variable is declared nowhere, and the position is not that of the only child. -/
def context : Context :=
  { Context.push (Context.push {} ⟨.document, []⟩) ⟨.text "b", []⟩ with position := 7 }

/-- What the failure is. -/
def failure : Diagnostic := context.diagnose (.undeclaredVariable (.unqualified "v"))

/-- What is left of the context. -/
def displaced : Context := { context with position := 1 }

/-- The variable is read at the first item, or at the rank of the child, and the position stays
there. -/
theorem position_of_undeclared :
    forest.evaluate ⟨2⟩ context 2 = (.error failure, displaced) ∧
    LeftAtItem forest.library context.toScene (forest.expression ⟨2⟩) failure displaced.toMemory ∧
    forest.accepts ⟨4⟩ context 2 false = (.error failure, displaced) ∧
    Lost forest.library context.toScene (forest.expression ⟨4⟩) 2 failure displaced.toMemory ∧
    rules.best forest context 2 = (.error failure, displaced) ∧
    ∃ rule ∈ rules.rules, Ranks context.toScene (forest.expression rule.pattern) 2 1 ∨
      Lost forest.library context.toScene (forest.expression rule.pattern) 2 failure
        displaced.toMemory := by
  have moved : displaced.position ≠ context.position := by decide
  obtain ⟨evaluated, matched, selected, -⟩ := forest.position_of_failure context 2
  have evaluates : forest.evaluate ⟨2⟩ context 2 = (.error failure, displaced) := rfl
  have accepts : forest.accepts ⟨4⟩ context 2 false = (.error failure, displaced) := rfl
  have selects : rules.best forest context 2 = (.error failure, displaced) := rfl
  exact ⟨evaluates, (evaluated _ _ _ evaluates).resolve_left moved, accepts,
    (matched _ _ _ accepts).resolve_left moved, selects,
    (selected _ _ _ selects).resolve_left moved⟩

/-- So no failed operation can be relied on to give the position back. -/
theorem position_not_given_back :
    (¬∀ (forest : Forest) (context : Context) (top : Nat) id failure final,
      forest.evaluate id context top = (.error failure, final) →
        final.position = context.position) ∧
    (¬∀ (forest : Forest) (context : Context) (top : Nat) id failure final,
      forest.accepts id context top false = (.error failure, final) →
        final.position = context.position) ∧
    (¬∀ (rules : RuleTable) (forest : Forest) (context : Context) (top : Nat) failure final,
      rules.best forest context top = (.error failure, final) →
        final.position = context.position) ∧
    ¬∀ (rules : RuleTable) (viewpoint : GroupId) (forest : Forest) (context : Context) (top : Nat)
      failure final, rules.bestVisible viewpoint forest context top = (.error failure, final) →
        final.position = context.position := by
  have moved : displaced.position ≠ context.position := by decide
  refine ⟨fun kept => ?_, fun kept => ?_, fun kept => ?_, fun kept => ?_⟩
  · exact moved (kept forest context 2 ⟨2⟩ failure displaced rfl)
  · exact moved (kept forest context 2 ⟨4⟩ failure displaced rfl)
  · exact moved (kept rules forest context 2 failure displaced rfl)
  · exact moved (kept rules .root forest context 2 failure displaced rfl)

end Undeclared

end StreamPath
