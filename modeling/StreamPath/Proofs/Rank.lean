import StreamPath.Proofs.Recall
import StreamPath.Proofs.SiblingCount

/-!
# The rank that a match sets

A match that is asked to set the position asks the last test first, which moves the position to the
rank of the innermost node, and nothing after it moves the position for good. What the position was
before is never read: until the last test has moved it, no condition is asked.

* `Decides` — the node test that decides a match;
* `Expr.related_accepts_top` — what a match does from two positions;
* `Expr.decided_of_accepts` — a match sets the position counted for the test that decides it;
* `Forest.position_of_accepts` — that position is a rank among siblings.
-/

namespace StreamPath

open Run

/-! ## From two positions -/

namespace Memory

/-- Two memories are related once they are given the same position. -/
def Level (R : Memory → Memory → Prop) (m n : Memory) : Prop :=
  ∀ place, R { m with position := place } { n with position := place }

/-- Two memories are related after a match; after a refusal they may still differ in position. -/
def Settled (R : Memory → Memory → Prop) (matched : Bool) (m n : Memory) : Prop :=
  if matched then R m n else Level R m n

/-- Any two positions become the same. -/
theorem level_position (memory : Memory) (place : Nat) :
    Level Eq memory { memory with position := place } := fun _ => rfl

end Memory

/-- Equality is kept by every computation. -/
theorem simulation_eq (scene : Scene) (known : NodeId → Name → Prop) : Simulation scene known Eq where
  position := fun m n related => by rw [related]
  move := fun m n place related => by rw [related]
  note := fun m n cause diagnostic _ related => by rw [related]
  read := by
    intro id name _ m n related
    subst related
    cases scene.readVariable id name m <;> exact ⟨rfl, rfl⟩

section Settled

variable {scene : Scene} {known : NodeId → Name → Prop} {R : Memory → Memory → Prop}

theorem Simulation.settled (simulation : Simulation scene known R) {m n : Memory} (related : R m n)
    (matched : Bool) : Memory.Settled R matched m n := by
  cases matched with
  | true => exact related
  | false => exact fun place => simulation.move m n place related

/-- Two computations that agree leave their memories settled. -/
theorem Simulation.settled_of_agree (simulation : Simulation scene known R) {first second : Run Bool}
    (agree : Agree R first second) :
    Related R (Memory.Settled R) (fun d e m n => d = e ∧ Memory.Level R m n) first second :=
  agree.weaken (fun _ _ related => related) (fun matched _ _ related =>
    simulation.settled related matched) fun _ _ m n failed =>
      ⟨failed.1, fun place => simulation.move m n place failed.2⟩

/-- Whatever the positions were, a match of a node that is no attribute answers the same and leaves
the same position. A refusal may leave the positions as they were. -/
theorem Expr.related_accepts_top (simulation : Simulation scene known R) (library : Library)
    (expr : Expr) (read : ∀ entry ∈ expr.references, known entry.1 entry.2) (top : Nat)
    (notAttr : ∀ depth innermost, top = depth + 2 →
      scene.stack.occurrence? (depth + 1) = some innermost → innermost.event.kind ≠ .attr) :
    Related (Memory.Level R) (Memory.Settled R) (fun d e m n => d = e ∧ Memory.Level R m n)
      (expr.accepts library scene top true) (expr.accepts library scene top true) := by
  have refuse : Related (Memory.Level R) (Memory.Settled R)
      (fun d e m n => d = e ∧ Memory.Level R m n) (pure false) (pure false) :=
    Related.pure false fun _ _ level => level
  -- after a match the memories are related, so what is asked then simply agrees
  have andThen : ∀ {rest : Run Bool}, Agree R rest rest → ∀ matched : Bool,
      Related (Memory.Settled R matched) (Memory.Settled R)
        (fun d e m n => d = e ∧ Memory.Level R m n)
        (if matched then rest else pure false) (if matched then rest else pure false) := by
    intro rest agree matched
    cases matched with
    | true => exact simulation.settled_of_agree agree
    | false => exact refuse
  induction expr using Expr.induct with
  | root =>
    rw [accepts_root]
    refine Related.ite _ (fun _ => ?_) fun _ => refuse
    intro m n level
    exact ⟨rfl, level _⟩
  | step axis base next ihBase ihNext =>
    rw [references, List.forall_mem_append] at read
    cases axis with
    | child =>
      cases top with
      | zero => exact refuse
      | succ below =>
        have around := agree_accepts simulation library base read.1 below false
        exact (ihNext read.2).bind fun matched => andThen around matched
    | descendant =>
      have around := simulation.lockstep.anyBelow fun height (_ : height < top) =>
        agree_accepts simulation library base read.1 height false
      exact (ihNext read.2).bind fun matched => andThen around matched
  | union left right ihLeft ihRight =>
    rw [references, List.forall_mem_append] at read
    refine (ihLeft read.1).bind fun matched => ?_
    cases matched with
    | true => exact Related.pure true fun _ _ related => related
    | false => exact ihRight read.2
  | filter once base condition ihBase ihCondition =>
    rw [references, List.forall_mem_append] at read
    have asks := simulation.lockstep.asks library condition read.2 top
    rw [rename_id] at asks
    rw [accepts_filter_ranked]
    exact (ihBase read.1).bind fun matched => andThen asks matched
  | nodeTest test =>
    rcases top with _ | _ | depth
    · exact refuse
    · exact refuse
    · rw [accepts_nodeTest]
      refine Related.ite _ (fun _ => ?_) fun _ => refuse
      intro m n level
      exact ⟨rfl, level _⟩
  | attributeTest test =>
    rcases top with _ | _ | _ | depth
    · exact refuse
    · exact refuse
    · exact refuse
    · have no : (scene.stack.occurrence? (depth + 2)).any (fun innermost =>
          innermost.event.kind = .attr && innermost.event.name?.any test.selects) = false := by
        cases there : scene.stack.occurrence? (depth + 2) with
        | none => rfl
        | some innermost => simp [notAttr (depth + 1) innermost rfl there]
      show Related _ _ _ (pure _) (pure _)
      rw [no]
      exact refuse
  | call | literal | arithmetic | negate | logic | compare | sequence | list | template | var
  | contextItem | parent => exact fun _ _ level => ⟨rfl, level⟩

/-- So does a match of a node that is not the outermost one. -/
theorem Expr.related_accepts (simulation : Simulation scene known R) (library : Library)
    (expr : Expr) (read : ∀ entry ∈ expr.references, known entry.1 entry.2) (depth : Nat)
    (notAttr : ∀ innermost, scene.stack.occurrence? (depth + 1) = some innermost →
      innermost.event.kind ≠ .attr) :
    Related (Memory.Level R) (Memory.Settled R) (fun d e m n => d = e ∧ Memory.Level R m n)
      (expr.accepts library scene (depth + 2) true)
      (expr.accepts library scene (depth + 2) true) := by
  refine related_accepts_top simulation library expr read (depth + 2) ?_
  rintro _ innermost ⟨⟩
  exact notAttr innermost

end Settled

/-! ## The test that decides -/

/-- A pattern matches, or does not match, when it is asked alone from a memory. -/
def Expr.Answers (library : Library) (scene : Scene) (top : Nat) (start : Memory) (expr : Expr)
    (matched : Bool) : Prop :=
  ∃ final, expr.accepts library scene top true start = .ok matched final

/-- A node test decides a match: it is reached by the last step of a path, by the base of a filter and
by the first alternative of a union that matches. -/
inductive Decides (library : Library) (scene : Scene) (top : Nat) (start : Memory) :
    Expr → NodeTest → Prop
  | nodeTest (test : NodeTest) : Decides library scene top start (.nodeTest test) test
  | step {axis : Axis} {base next : Expr} {test : NodeTest} :
      Decides library scene top start next test →
      Decides library scene top start (.step axis base next) test
  | filter {once : Bool} {base condition : Expr} {test : NodeTest} :
      Decides library scene top start base test →
      Decides library scene top start (.filter once base condition) test
  | left {left right : Expr} {test : NodeTest} : left.Answers library scene top start true →
      Decides library scene top start left test →
      Decides library scene top start (.union left right) test
  | right {left right : Expr} {test : NodeTest} : left.Answers library scene top start false →
      right.Answers library scene top start true →
      Decides library scene top start right test →
      Decides library scene top start (.union left right) test

section Decided

variable {library : Library} {scene : Scene} {known : NodeId → Name → Prop}
  (unique : ∀ id name other, known id name → known id other → name = other)
  {depth : Nat} {innermost : Occurrence}
  (there : scene.stack.occurrence? (depth + 1) = some innermost)
  (notAttr : innermost.event.kind ≠ .attr)

include unique there notAttr

/-- What a pattern answers after others were asked is what it answers alone. -/
theorem Expr.answers_of_grown {expr : Expr}
    (read : ∀ entry ∈ expr.references, known entry.1 entry.2) {start memory final : Memory}
    {matched : Bool} (grown : Memory.Grown scene known start memory)
    (answered : expr.accepts library scene (depth + 2) true memory = .ok matched final) :
    expr.Answers library scene (depth + 2) start matched := by
  have level : Memory.Level (Memory.Alike scene known) memory start := by
    intro place
    exact ⟨rfl, fun id name named => Memory.Grown.consulted grown unique named⟩
  have same := Expr.related_accepts (Memory.simulation_alike unique) library expr read depth
    (by rw [there]; rintro _ ⟨⟩; exact notAttr)
  obtain ⟨rest, alone, -⟩ := same.ok level answered
  exact ⟨rest, alone⟩

/-- A match of a node that is no attribute is decided by a test that selects the node, and it leaves
the position that is counted for this test. -/
theorem Expr.decided_of_accepts {expr : Expr}
    (read : ∀ entry ∈ expr.references, known entry.1 entry.2) {start memory final : Memory}
    (grown : Memory.Grown scene known start memory)
    (accepted : expr.accepts library scene (depth + 2) true memory = .ok true final) :
    ∃ test, Decides library scene (depth + 2) start expr test ∧
      test.selects innermost.event = true ∧
      final.position = scene.stack.positionOf (depth + 1) test := by
  induction expr using Expr.induct generalizing memory final with
  | root =>
    rw [accepts_root] at accepted
    simp [pure_apply] at accepted
  | step axis base next ihBase ihNext =>
    rw [references, List.forall_mem_append] at read
    -- the steps before the last one only look
    have last : ∀ {rest : Run Bool}, Restores rest →
        (next.accepts library scene (depth + 2) true >>= fun matched =>
          if matched then rest else pure false) memory = .ok true final →
        ∃ test, Decides library scene (depth + 2) start (.step axis base next) test ∧
          test.selects innermost.event = true ∧
          final.position = scene.stack.positionOf (depth + 1) test := by
      intro rest restores ended
      obtain ⟨matched, middle, first, ended⟩ := bind_eq_ok.mp ended
      cases matched with
      | false => cases ended
      | true =>
        obtain ⟨test, decides, selects, position⟩ := ihNext read.2 grown first
        refine ⟨test, .step decides, selects, ?_⟩
        rw [restores middle true final ended, position]
    cases axis with
    | child => exact last (restores_accepts library scene base (depth + 1)) accepted
    | descendant =>
      have around := (discipline_restores scene).anyBelow
        (fun height => restores_accepts library scene base height) (depth + 2)
      exact last around accepted
  | union left right ihLeft ihRight =>
    rw [references, List.forall_mem_append] at read
    obtain ⟨matched, middle, first, ended⟩ := bind_eq_ok.mp accepted
    have answer := Expr.answers_of_grown unique there notAttr read.1 grown first
    cases matched with
    | true =>
      obtain ⟨test, decides, selects, position⟩ := ihLeft read.1 grown first
      cases ended
      exact ⟨test, .left answer decides, selects, position⟩
    | false =>
      have keeps := Keeps.of_agree (agree_accepts (Memory.simulation_grown start) library left
        read.1 (depth + 2) true) memory grown
      rw [first] at keeps
      obtain ⟨test, decides, selects, position⟩ := ihRight read.2 keeps ended
      have second := Expr.answers_of_grown unique there notAttr read.2 keeps ended
      exact ⟨test, .right answer second decides, selects, position⟩
  | filter once base condition ihBase ihCondition =>
    rw [references, List.forall_mem_append] at read
    rw [accepts_filter_ranked] at accepted
    obtain ⟨matched, middle, first, ended⟩ := bind_eq_ok.mp accepted
    cases matched with
    | false => cases ended
    | true =>
      obtain ⟨test, decides, selects, position⟩ := ihBase read.1 grown first
      refine ⟨test, .filter decides, selects, ?_⟩
      have restores := (discipline_restores scene).asks library condition (fun _ _ => trivial)
        (depth + 2)
      rw [restores middle true final ended, position]
  | nodeTest test =>
    rw [accepts_nodeTest, there] at accepted
    by_cases selects : test.selects innermost.event = true
    · simp only [Option.any_some, selects, if_true] at accepted
      cases accepted
      exact ⟨test, .nodeTest test, selects, rfl⟩
    · simp only [Option.any_some, selects] at accepted
      cases accepted
  | attributeTest test =>
    cases depth with
    | zero => cases accepted
    | succ depth =>
      change (pure _ : Run Bool) memory = .ok true final at accepted
      rw [there] at accepted
      simp [pure_apply, notAttr] at accepted
  | call | literal | arithmetic | negate | logic | compare | sequence | list | template | var
  | contextItem | parent => cases accepted

end Decided

/-! ## Ranks -/

/-- After any run of the stack, a match that is asked to set the position sets it to a rank among
siblings: the number of children of the same parent, the node itself the latest of them, that the
deciding test selects. It is the same whatever the position was before. Attributes have no rank, so a
match of one leaves the position. -/
theorem Forest.position_of_accepts (forest : Forest) (id : NodeId) (context : Context)
    (moves : List Move) (reached : context.stack = Ancestors.play moves) (depth : Nat)
    (innermost : Occurrence) (there : context.stack.occurrence? (depth + 1) = some innermost)
    (accepted : (forest.accepts id context (depth + 2) true).1 = .ok true) :
    (innermost.event.kind ≠ .attr →
      (∃ test, Decides forest.library context.toScene (depth + 2) context.toMemory
          (forest.expression id) test ∧
        test.selects innermost.event = true ∧
        (forest.accepts id context (depth + 2) true).2.position =
          (childrenOf depth moves).countP test.selects) ∧
      (childrenOf depth moves).head? = some innermost.event ∧
      1 ≤ (forest.accepts id context (depth + 2) true).2.position ∧
      ∀ place, forest.accepts id { context with position := place } (depth + 2) true =
        forest.accepts id context (depth + 2) true) ∧
    (innermost.event.kind = .attr →
      (forest.accepts id context (depth + 2) true).2.position = context.position) := by
  obtain ⟨final, ended⟩ := Context.exists_of_run_ok accepted
  have run : forest.accepts id context (depth + 2) true =
      (.ok true, { context with toMemory := final }) := Context.run_of_ok ended
  rw [run]
  constructor
  · intro notAttr
    have latest : (childrenOf depth moves).head? = some innermost.event :=
      Ancestors.head?_childrenOf moves depth innermost (by rw [← reached]; exact there)
    obtain ⟨test, decides, selects, position⟩ := Expr.decided_of_accepts forest.refers_unique there
      notAttr (forest.refers_of_mem_references id) (Memory.Grown.refl context.toMemory) ended
    have counted : final.position = (childrenOf depth moves).countP test.selects := by
      rw [position, reached, Ancestors.positionOf_play]
    refine ⟨⟨test, decides, selects, counted⟩, latest, ?_, ?_⟩
    · show 1 ≤ final.position
      rw [counted]
      exact List.countP_pos_iff.mpr ⟨_, List.mem_of_head? latest, selects⟩
    · intro place
      have same := Expr.related_accepts (simulation_eq context.toScene forest.Refers) forest.library
        (forest.expression id) (forest.refers_of_mem_references id) depth
        (by rw [there]; rintro _ ⟨⟩; exact notAttr) _ _
        (Memory.level_position context.toMemory place)
      rw [ended] at same
      cases other : (forest.expression id).accepts forest.library context.toScene (depth + 2) true
          { context.toMemory with position := place } with
      | ok answer rest =>
        rw [other] at same
        obtain ⟨rfl, rfl⟩ := same
        exact Context.run_of_ok other
      | error failure rest =>
        rw [other] at same
        exact same.elim
  · intro attr
    refine Expr.restores_accepts_attr forest.library context.toScene (forest.expression id) depth ?_
      context.toMemory true final ended
    intro other isOpen
    have same : some innermost = some other := there.symm.trans isOpen
    cases same
    exact attr

/-- The second of two children that are not elements is at position two among all children. -/
theorem position_of_second_child :
    let forest := (Forest.empty.add (.nodeTest .anyNode)).2
    let moves : List Move :=
      [.push ⟨.text "b", []⟩, .pop, .push ⟨.comment "a", []⟩, .push ⟨.document, []⟩]
    let context : Context := { stack := Ancestors.play moves, position := 7 }
    (forest.accepts ⟨0⟩ context 2 true).1 = .ok true ∧
      1 ≤ (forest.accepts ⟨0⟩ context 2 true).2.position ∧
      (forest.accepts ⟨0⟩ context 2 true).2.position = 2 ∧
      (childrenOf 0 moves).countP NodeTest.anyNode.selects = 2 := by
  intro forest moves context
  have there : context.stack.occurrence? 1 = some ⟨2, ⟨.text "b", []⟩⟩ := rfl
  have accepted : (forest.accepts ⟨0⟩ context 2 true).1 = .ok true := rfl
  have found := (Forest.position_of_accepts forest ⟨0⟩ context moves rfl 0 _ there accepted).1
    (by decide)
  exact ⟨accepted, found.2.2.1, rfl, rfl⟩

end StreamPath
