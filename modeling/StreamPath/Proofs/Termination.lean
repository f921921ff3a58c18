import StreamPath.Proofs.ExactFlags

/-!
# Recursion along the operands ends

What walks through a forest goes from nodes to their operands: collecting arguments and alternatives,
folding, copying, and evaluating and matching what a node stands for. The walks here count their steps
and stop when a number of them is used up. Every operand comes before its node, so the number that is
allowed never is: any greater number gives the same. This holds even where the walk itself changes the
forest, since what folding and copying leave is as well-founded as what they found.

* `Forest.chained_eq`, `Forest.alternativesWithin_eq`, `Forest.foldWithin_eq`, `Forest.copyWithin_eq` —
  the number of steps does not matter, if it is enough;
* `Forest.nestsWithin_expression` — expressions are no deeper than their nodes have nodes before them;
* `Forest.Compiled.forest_invariant` — what holds of every compiled forest.
-/

namespace StreamPath

namespace Form

variable {σ α β : Type}

/-- Two ways of treating operands, one state after another, come to the same if they do on the states
that are reached. -/
theorem mapM_congr {form : Form α} {f g : α → StateM σ β} (reached : σ → Prop)
    (same : ∀ operand ∈ form.operands, ∀ state, reached state →
      f operand state = g operand state ∧ reached (g operand state).2) {state : σ}
    (start : reached state) : form.mapM f state = form.mapM g state := by
  have one : ∀ operand (shape : β → Form β), operand ∈ form.operands →
      (f operand >>= fun only => pure (shape only) : StateM σ (Form β)) state =
        (g operand >>= fun only => pure (shape only) : StateM σ (Form β)) state := by
    intro operand shape mem
    show (shape (f operand state).1, (f operand state).2) = (shape (g operand state).1, _)
    rw [(same operand mem state start).1]
  have two : ∀ left right (shape : β → β → Form β), left ∈ form.operands → right ∈ form.operands →
      (f left >>= fun one => f right >>= fun two => pure (shape one two) : StateM σ (Form β)) state =
        (g left >>= fun one => g right >>= fun two => pure (shape one two)) state := by
    intro left right shape isLeft isRight
    obtain ⟨first, onward⟩ := same left isLeft state start
    show (shape (f left state).1 (f right (f left state).2).1, (f right (f left state).2).2) =
      (shape (g left state).1 (g right (g left state).2).1, _)
    rw [first, (same right isRight _ onward).1]
  cases form with
  | root | nodeTest | attributeTest | literal | var | contextItem | parent => rfl
  | step axis left right | union left right | filter left right | arithmetic op left right
  | logic op left right | compare op left right | sequence left right | list left right =>
    exact two left right _ List.mem_cons_self (List.mem_cons_of_mem _ List.mem_cons_self)
  | negate operand => exact one operand _ List.mem_cons_self
  | call function arguments =>
    cases arguments with
    | none => rfl
    | some chain => exact one chain (fun only => .call function (some only)) List.mem_cons_self
  | template before part =>
    cases before with
    | none =>
      cases part with
      | none => rfl
      | some right => exact one right (fun only => .template none (some only)) List.mem_cons_self
    | some left =>
      cases part with
      | none => exact one left (fun only => .template (some only) none) List.mem_cons_self
      | some right =>
        exact two left right (fun one two => .template (some one) (some two)) List.mem_cons_self
          (List.mem_cons_of_mem _ List.mem_cons_self)

end Form

namespace Forest

variable {forest : Forest}

/-! ## Arguments and alternatives -/

theorem chained_eq (founded : forest.WellFounded) {id : NodeId} {steps : Nat}
    (enough : id.index ≤ steps) : forest.chained steps id = forest.arguments (some id) := by
  cases found : forest.form? id with
  | some form => exact chained_eq_arguments founded (lt_size_of_form? found) enough
  | none =>
    have alone : ∀ steps, forest.chained steps id = [id] := by
      intro steps
      cases steps with
      | zero => rfl
      | succ steps => rw [chained, found]
    rw [arguments, alone, alone]

theorem alternativesWithin_of_union {id left right : NodeId}
    (found : forest.form? id = some (.union left right)) (steps : Nat) :
    forest.alternativesWithin (steps + 1) id =
      forest.alternativesWithin steps left ++ forest.alternativesWithin steps right := by
  rw [alternativesWithin, found]

theorem alternativesWithin_of_not_union {id : NodeId}
    (noUnion : ∀ left right, forest.form? id ≠ some (.union left right)) (steps : Nat) :
    forest.alternativesWithin steps id = [id] := by
  cases steps with
  | zero => rfl
  | succ steps =>
    rw [alternativesWithin]
    split
    · next left right found => exact absurd found (noUnion left right)
    · rfl

theorem alternativesWithin_eq (founded : forest.WellFounded) {id : NodeId} {steps more : Nat}
    (enough : id.index ≤ steps) (enough' : id.index ≤ more) :
    forest.alternativesWithin steps id = forest.alternativesWithin more id := by
  have earlier : ∀ {id left right : NodeId}, forest.form? id = some (.union left right) →
      left.index < id.index ∧ right.index < id.index := fun found =>
    ⟨founded _ _ found _ List.mem_cons_self,
      founded _ _ found _ (List.mem_cons_of_mem _ List.mem_cons_self)⟩
  induction steps generalizing id more with
  | zero =>
    have noUnion : ∀ left right, forest.form? id ≠ some (.union left right) := fun left right found =>
      absurd (earlier found).1 (by omega)
    rw [alternativesWithin_of_not_union noUnion, alternativesWithin_of_not_union noUnion]
  | succ steps ih =>
    by_cases isUnion : ∃ left right, forest.form? id = some (.union left right)
    · obtain ⟨left, right, found⟩ := isUnion
      obtain ⟨first, second⟩ := earlier found
      obtain ⟨fewer, rfl⟩ : ∃ fewer, more = fewer + 1 := ⟨more - 1, by omega⟩
      have leftSame : forest.alternativesWithin steps left = forest.alternativesWithin fewer left :=
        ih (by omega) (by omega)
      have rightSame : forest.alternativesWithin steps right = forest.alternativesWithin fewer right :=
        ih (by omega) (by omega)
      rw [alternativesWithin_of_union found, alternativesWithin_of_union found, leftSame, rightSame]
    · have noUnion : ∀ left right, forest.form? id ≠ some (.union left right) := by simpa using isUnion
      rw [alternativesWithin_of_not_union noUnion, alternativesWithin_of_not_union noUnion]

/-! ## Folding -/

/-- Folding one node after another comes to the same with other numbers of steps if folding each of
them does, whatever the nodes before it have left. -/
theorem foldEach_congr {steps more : Nat} {ids : List NodeId} {counted : Nat × Forest}
    (founded : counted.2.WellFounded)
    (same : ∀ id ∈ ids, ∀ forest : Forest, forest.WellFounded →
      foldWithin steps id forest = foldWithin more id forest) :
    foldEach steps ids counted = foldEach more ids counted := by
  induction ids generalizing counted with
  | nil => rfl
  | cons id rest ih =>
    obtain ⟨first, others⟩ := List.forall_mem_cons.mp same
    have path : FoldSteps (fun _ => True) counted _ :=
      foldSteps_foldWithin more id counted fun _ _ => trivial
    rw [foldEach, foldEach, List.foldl_cons, List.foldl_cons, first counted.2 founded]
    exact ih (path.wellFounded founded) others

theorem foldWithin_eq (founded : forest.WellFounded) {id : NodeId} {steps more : Nat}
    (enough : id.index < steps) (enough' : id.index < more) :
    foldWithin steps id forest = foldWithin more id forest := by
  induction steps generalizing forest id more with
  | zero => exact absurd enough (Nat.not_lt_zero _)
  | succ steps ih =>
    obtain ⟨fewer, rfl⟩ : ∃ fewer, more = fewer + 1 := ⟨more - 1, by omega⟩
    rw [foldWithin, foldWithin]
    cases found : forest.node? id with
    | none => rfl
    | some node =>
      have isForm : forest.form? id = some node.form := by
        rw [form?, found]
        rfl
      have operands : foldEach steps node.form.operands (0, forest) =
          foldEach fewer node.form.operands (0, forest) :=
        foldEach_congr founded fun operand mem other otherFounded => by
          have earlier := founded id node.form isForm operand mem
          exact ih otherFounded (by omega) (by omega)
      unfold foldEach at operands
      simp only [operands]

/-! ## Copying -/

theorem copyWithin_eq {base : Forest} (founded : base.WellFounded) {id : NodeId} {steps more : Nat}
    (enough : id.index < steps) (enough' : id.index < more) (inside : id.index < base.size)
    {state : CopyState} (sound : state.Sound) (grown : Extends base state.1) :
    copyWithin steps id state = copyWithin more id state := by
  induction steps generalizing id more state with
  | zero => exact absurd enough (Nat.not_lt_zero _)
  | succ steps ih =>
    obtain ⟨fewer, rfl⟩ : ∃ fewer, more = fewer + 1 := ⟨more - 1, by omega⟩
    obtain ⟨node, here⟩ : ∃ node, base.node? id = some node := ⟨_, Array.getElem?_eq_getElem inside⟩
    have isForm : base.form? id = some node.form := by
      rw [form?, here]
      rfl
    have operands : node.form.mapM (copyWithin steps) state =
        node.form.mapM (copyWithin fewer) state := by
      refine Form.mapM_congr (fun state : CopyState => state.Sound ∧ Extends base state.1)
        (fun operand mem state reached => ?_) ⟨sound, grown⟩
      have earlier := founded id node.form isForm operand mem
      have within : operand.index < base.size := Nat.lt_trans earlier inside
      obtain ⟨path, -⟩ := copies_copyWithin founded (by omega : operand.index < fewer) within state
        reached.1 reached.2
      exact ⟨ih (by omega) (by omega) within reached.1 reached.2, path.sound reached.1,
        reached.2.trans path.grows.forest⟩
    rw [copyWithin_succ, copyWithin_succ, grown.node here]
    cases state.2.node? id with
    | some copy => rfl
    | none => simp only [operands]

theorem copyWithin_eq_deepCopy {copies : CopyRecord} (sound : CopyState.Sound (forest, copies))
    {id : NodeId} {steps : Nat} (enough : id.index < steps) :
    (copyWithin steps id).run (forest, copies) = forest.deepCopy copies id := by
  by_cases inside : id.index < forest.size
  · exact copyWithin_eq sound.founded enough (Nat.lt_succ_self _) inside sound (.refl forest)
  · -- a node that is not there has no operands to go on with
    have missing : forest.node? id = none := Array.getElem?_eq_none (Nat.le_of_not_lt inside)
    obtain ⟨fewer, rfl⟩ : ∃ fewer, steps = fewer + 1 := ⟨steps - 1, by omega⟩
    show copyWithin (fewer + 1) id (forest, copies) = copyWithin (id.index + 1) id (forest, copies)
    rw [copyWithin_succ, copyWithin_succ, missing]
    cases copies.node? id <;> rfl

end Forest

/-! ## Expressions -/

/-- An expression is nested at most so many levels deep. -/
inductive Expr.NestsWithin : Nat → Expr → Prop
  | operands {levels : Nat} {expr : Expr} :
      (∀ operand ∈ expr.operands, NestsWithin levels operand) → NestsWithin (levels + 1) expr

theorem Expr.NestsWithin.mono {levels more : Nat} {expr : Expr} (nests : expr.NestsWithin levels)
    (le : levels ≤ more) : expr.NestsWithin more := by
  induction nests generalizing more with
  | operands _ ih =>
    obtain ⟨fewer, rfl⟩ : ∃ fewer, more = fewer + 1 := ⟨more - 1, by omega⟩
    exact .operands fun operand mem => ih operand mem (by omega)

namespace Forest

/-- Evaluating and matching go down what a node stands for. That is no deeper than there are nodes
before it, but for what stands for a missing part of a template. -/
theorem nestsWithin_expression {forest : Forest} (founded : forest.WellFounded) (id : NodeId) :
    (forest.expression id).NestsWithin (id.index + 2) := by
  have leaf : ∀ id levels, (Expr.nothing id).NestsWithin (levels + 1) := fun _ _ => .operands nofun
  obtain ⟨index⟩ := id
  induction index using Nat.strongRecOn with
  | ind index ih =>
    cases found : forest.form? ⟨index⟩ with
    | none =>
      rw [expression_of_missing found]
      exact leaf _ _
    | some form =>
      rw [expression_eq_assemble founded found]
      refine .operands fun inner mem => ?_
      rcases operands_assemble mem with ⟨part, isPart, rfl⟩ | rfl
      · have earlier : part.index < index := ((((Extends.refl forest).relocates founded).parts
          (lt_size_of_form? found) found).2 part isPart).2.1
        have fewer : part.index + 2 ≤ index + 1 := Nat.succ_le_succ earlier
        exact (ih part.index earlier).mono fewer
      · exact leaf _ _

/-! ## What holds of every compiled forest -/

/-- Operands come before their nodes, so that recursion along them ends, and flags are exact. -/
structure Invariant (library : Library) (forest : Forest) (records : List CopyRecord) : Prop where
  earlier : ∀ id form, forest.form? id = some form → ∀ operand ∈ form.operands,
    operand.index < id.index
  flag_iff : ∀ id form, forest.form? id = some form → (forest.isConstant id = true ↔
    ContextFree library forest form ∧ ∀ operand ∈ form.operands, forest.isConstant operand = true)
  arguments : ∀ id steps, id.index ≤ steps →
    forest.chained steps id = forest.arguments (some id)
  alternatives : ∀ id steps, id.index ≤ steps →
    forest.alternativesWithin steps id = forest.alternatives id
  folding : ∀ id steps, id.index < steps → foldWithin steps id forest = forest.foldConstants id
  /-- In a new copy operation, or in one that goes on from an earlier record. -/
  copying : ∀ copies : CopyRecord,
    (copies.nodes = .empty ∨ ∃ earlier ∈ records, copies.nodes = earlier.nodes) →
    ∀ id steps, id.index < steps →
      (copyWithin steps id).run (forest, copies) = forest.deepCopy copies id
  /-- What is evaluated and matched for a node is what its form makes of its operands. -/
  assembled : ∀ id form, forest.form? id = some form →
    forest.expression id = forest.assemble forest.expression id form
  nested : ∀ id, (forest.expression id).NestsWithin (id.index + 2)

/-- However nodes are added, copied and folded, operands come before their nodes, a node is flagged
exactly if its form and its operands depend on nothing outside, and no walk along the operands is cut
short by the number of steps it may take. -/
theorem Compiled.forest_invariant (library : Library) (forest : Forest) (records : List CopyRecord)
    (compiled : Compiled library forest records) : Invariant library forest records := by
  have consistent := compiled.consistent
  have founded := consistent.founded
  refine ⟨founded, fun id form found => ?_, fun id steps => chained_eq founded,
    fun id steps enough => alternativesWithin_eq founded enough (Nat.le_refl _),
    fun id steps enough => foldWithin_eq founded enough (Nat.lt_succ_self _),
    fun copies known id steps => copyWithin_eq_deepCopy ?_,
    fun id form => expression_eq_assemble founded, nestsWithin_expression founded⟩
  · rw [consistent.exact id form found, infersConstant_iff, consistent.library]
  · exact (mirrors_of_known consistent.mirrors known).sound founded

/-- A call that was copied with its argument, which was then replaced by a value: the copied call is
still flagged. -/
theorem forest_invariant_copied_call :
    let base := (((empty.add (.literal (.computed (.ofBoolean true)))).2.add
      (.logic .and ⟨0⟩ ⟨0⟩)).2.add (.call (.unqualified "not") (some ⟨1⟩))).2
    let (copy, copied, record) := base.deepCopy {} ⟨2⟩
    let folded := (copied.foldConstants ⟨4⟩).2
    Compiled .core folded [record] ∧ copy = ⟨5⟩ ∧
      folded.form? ⟨4⟩ = some (.literal (.computed (.ofBoolean true))) ∧
      folded.form? copy = some (.call (.unqualified "not") (some ⟨4⟩)) ∧
      folded.isConstant copy = true ∧ Invariant .core folded [record] := by
  intro base
  have compiled : Compiled .core base [] := by
    refine .add (.add (.add (.start {}) ?_) ?_) ?_
    · exact nofun
    · decide
    · decide
  have copied := @Compiled.copy .core base [] {} ⟨2⟩ compiled (by decide) (.inl rfl)
  have folded := copied.fold ⟨4⟩
  exact ⟨folded, rfl, rfl, rfl, rfl, Compiled.forest_invariant .core _ _ folded⟩

end Forest

end StreamPath
