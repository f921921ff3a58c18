import StreamPath.Proofs.Splitting

/-!
# The position before a match

A match begins at whatever context position earlier work has left. Predicates read the position, but
by then the base of the predicate has moved it to the rank of the node, and what it was before is
forgotten. Attributes have no rank, so a predicate that is asked of one reads the position that was
left.

* `Expr.filters` — the predicates of a pattern;
* `Expr.Impartial` — no predicate of a pattern that is asked of an attribute tells two positions
  apart;
* `Forest.accepts_ok_iff_of_impartial` — then a match answers the same from both positions.
-/

namespace StreamPath

open Run

/-! ## Predicates of a pattern -/

namespace Expr

/-- The predicates of a pattern, each with the base that it is asked behind. -/
def filters : Expr → List (Expr × Expr)
  | step _ base next => base.filters ++ next.filters
  | union left right => left.filters ++ right.filters
  | filter _ base condition => (base, condition) :: base.filters
  | _ => []

variable (library : Library) (scene : Scene)

/-- Whether the value of a condition selects the innermost of `top` open nodes at the present
position. -/
def asks (condition : Expr) (top : Nat) : Run Bool := do
  let value ← condition.evaluate library scene top
  let position ← Run.position
  return holdsAt value position

end Expr

/-- The value that a computation gives from a memory, if it ends well. -/
def Run.answer? {α : Type} (computation : Run α) (memory : Memory) : Option α :=
  match computation memory with
  | .ok value _ => some value
  | .error _ _ => none

/-- Behind a base that matches an attribute among `limit` open nodes, no predicate of the pattern
tells the position of the memory from another one: it selects the attribute from both, or from
neither, or it fails from both. -/
def Expr.Impartial (library : Library) (scene : Scene) (pattern : Expr) (memory : Memory)
    (place limit : Nat) : Prop :=
  ∀ base condition, (base, condition) ∈ pattern.filters → ∀ depth innermost, depth < limit →
    scene.stack.occurrence? depth = some innermost → innermost.event.kind = .attr →
    (base.accepts library scene (depth + 1) true).answer? memory = some true →
    (condition.asks library scene (depth + 1)).answer? memory =
      (condition.asks library scene (depth + 1)).answer? { memory with position := place }

theorem Expr.Impartial.of_subset {library : Library} {scene : Scene} {outer inner : Expr}
    {memory : Memory} {place limit : Nat}
    (impartial : outer.Impartial library scene memory place limit)
    (subset : inner.filters ⊆ outer.filters) : inner.Impartial library scene memory place limit :=
  fun base condition mem => impartial base condition (subset mem)

namespace Run

variable {α : Type} {before : Memory → Memory → Prop} {after : α → Memory → Memory → Prop}
  {failed : Diagnostic → Diagnostic → Memory → Memory → Prop}

/-- Related computations answer alike. -/
theorem Related.answer?_eq {first second : Run α}
    (related : Related before after failed first second) {m n : Memory} (start : before m n) :
    first.answer? m = second.answer? n := by
  unfold answer?
  cases ended : first m with
  | ok a m' =>
    obtain ⟨n', ended', -⟩ := related.ok start ended
    rw [ended']
  | error d m' =>
    obtain ⟨e, n', ended', -⟩ := related.error start ended
    rw [ended']

/-- A search is related to itself if each of its tests is. -/
theorem Related.anyBelow {R : Memory → Memory → Prop} {test : Nat → Run Bool} {top : Nat}
    (holds : ∀ height < top, Related R (fun _ => R) failed (test height) (test height)) :
    Related R (fun _ => R) failed (anyBelow test top) (anyBelow test top) := by
  induction top with
  | zero => exact Related.pure false fun _ _ related => related
  | succ highest ih =>
    unfold StreamPath.anyBelow
    refine (holds highest (Nat.lt_succ_self highest)).bind fun matched => ?_
    split
    · exact Related.pure true fun _ _ related => related
    · exact ih fun height lt => holds height (Nat.lt_succ_of_lt lt)

end Run

/-! ## Two runs from two positions -/

/-- The memories of two runs of one pattern that began at two positions. Each has gained nothing but
scopes where they are found, and the positions are now the same or still those of the beginning. -/
structure Memory.Begun (scene : Scene) (known : NodeId → Name → Prop) (start : Memory) (place : Nat)
    (m n : Memory) : Prop where
  first : Memory.Grown scene known start m
  second : Memory.Grown scene known start n
  positions : m.position = n.position ∨ m.position = start.position ∧ n.position = place

section Begun

variable {scene : Scene} {known : NodeId → Name → Prop}
  (unique : ∀ id name other, known id name → known id other → name = other)
  {start : Memory} {place : Nat} {m n : Memory}

namespace Memory.Begun

theorem refl (start : Memory) (place : Nat) :
    Begun scene known start place start { start with position := place } :=
  ⟨.refl start, .refl start, .inr ⟨rfl, rfl⟩⟩

/-- Both runs are moved to one place. -/
theorem move (begun : Begun scene known start place m n) (rank : Nat) :
    Begun scene known start place { m with position := rank } { n with position := rank } :=
  ⟨begun.first, begun.second, .inl rfl⟩

include unique in
theorem level (begun : Begun scene known start place m n) :
    Memory.Level (Memory.Alike scene known) m n := by
  intro rank
  refine ⟨rfl, fun id name named => ?_⟩
  exact (begun.first.consulted unique named).trans (begun.second.consulted unique named).symm

include unique in
theorem alike (begun : Begun scene known start place m n) (same : m.position = n.position) :
    Memory.Alike scene known m n :=
  ⟨same, (begun.level unique 0).consulted⟩

end Memory.Begun

/-- Run from both positions, a computation gives the same value and memories of this kind, or it
fails both times. -/
def Run.Abreast {α : Type} (scene : Scene) (known : NodeId → Name → Prop) (start : Memory)
    (place : Nat) (computation : Run α) : Prop :=
  Related (Memory.Begun scene known start place) (fun _ => Memory.Begun scene known start place)
    (fun _ _ _ _ => True) computation computation

include unique in
/-- A memory that has only grown is alike to the one at the beginning. -/
theorem Memory.Grown.alike (grown : Memory.Grown scene known start m) (rank : Nat)
    (same : m.position = rank) : Memory.Alike scene known m { start with position := rank } :=
  ⟨same, fun _ _ named => grown.consulted unique named⟩

variable (library : Library)

/-- Asking a condition adds scopes where they are found, and moves back from wherever it went. -/
theorem Expr.asks_ended {condition : Expr}
    (read : ∀ entry ∈ condition.references, known entry.1 entry.2) {top : Nat}
    {memory final : Memory} {answer : Bool} (grown : Memory.Grown scene known start memory)
    (ended : condition.asks library scene top memory = .ok answer final) :
    Memory.Grown scene known start final ∧ final.position = memory.position := by
  constructor
  · have simulation : Simulation scene known _ := Memory.simulation_grown start
    have asks := simulation.lockstep.asks library condition read top
    rw [rename_id] at asks
    have kept := Keeps.of_agree asks memory grown
    unfold Expr.asks at ended
    rw [ended] at kept
    exact kept
  · have restores := (discipline_restores scene).asks library condition (fun _ _ => trivial) top
    exact restores memory answer final ended

include unique in
/-- Asked at two positions, a condition answers alike if the positions are the same, or if it does
not tell those of the beginning apart. -/
theorem Expr.related_asks {condition : Expr}
    (read : ∀ entry ∈ condition.references, known entry.1 entry.2) (top : Nat) :
    Related (fun m n => Memory.Begun scene known start place m n ∧ (m.position ≠ n.position →
        (condition.asks library scene top).answer? start =
          (condition.asks library scene top).answer? { start with position := place }))
      (fun _ => Memory.Begun scene known start place) (fun _ _ _ _ => True)
      (condition.asks library scene top) (condition.asks library scene top) := by
  rintro m n ⟨begun, fair⟩
  have simulation : Simulation scene known _ := Memory.simulation_alike unique
  have agree := simulation.lockstep.asks library condition read top
  rw [rename_id] at agree
  have answers : ∀ {one two : Memory}, Memory.Alike scene known one two →
      (condition.asks library scene top).answer? one =
        (condition.asks library scene top).answer? two := agree.answer?_eq
  have same : (condition.asks library scene top).answer? m =
      (condition.asks library scene top).answer? n := by
    by_cases level : m.position = n.position
    · exact answers (begun.alike unique level)
    · obtain ⟨atStart, atPlace⟩ := begun.positions.resolve_left level
      calc (condition.asks library scene top).answer? m
        _ = (condition.asks library scene top).answer? start :=
          answers (begun.first.alike unique _ atStart)
        _ = (condition.asks library scene top).answer? { start with position := place } := fair level
        _ = (condition.asks library scene top).answer? n :=
          (answers (begun.second.alike unique _ atPlace)).symm
  unfold answer? at same
  cases endedM : condition.asks library scene top m <;>
    cases endedN : condition.asks library scene top n <;> rw [endedM, endedN] at same
  · have afterM := asks_ended library read begun.first endedM
    have afterN := asks_ended library read begun.second endedN
    refine ⟨Option.some.inj same, afterM.1, afterN.1, ?_⟩
    rw [afterM.2, afterN.2]
    exact begun.positions
  · cases same
  · cases same
  · trivial

include unique in
/-- A match that is asked to set the position and leaves two runs at different ones has matched an
attribute, and does so from the beginning, too. -/
theorem Expr.attr_of_apart {base : Expr}
    (read : ∀ entry ∈ base.references, known entry.1 entry.2) {top : Nat}
    (begun : Memory.Begun scene known start place m n) {m' n' : Memory}
    (endedM : base.accepts library scene top true m = .ok true m')
    (endedN : base.accepts library scene top true n = .ok true n')
    (after : Memory.Begun scene known start place m' n') (apart : m'.position ≠ n'.position) :
    ∃ depth innermost, top = depth + 2 ∧ scene.stack.occurrence? (depth + 1) = some innermost ∧
      innermost.event.kind = .attr ∧
      (base.accepts library scene top true).answer? start = some true := by
  have simulation : Simulation scene known _ := Memory.simulation_alike unique
  by_cases attr : RuleTable.AtAttribute scene top
  · obtain ⟨depth, innermost, rfl, there, isAttr⟩ := attr
    have stayed := restores_accepts_attr library scene base depth
      (by rw [there]; rintro _ ⟨⟩; exact isAttr) m true m' endedM
    obtain ⟨atStart, -⟩ := after.positions.resolve_left apart
    have alike := begun.first.alike unique _ (stayed.symm.trans atStart)
    have answered := (agree_accepts simulation library base read (depth + 2) true).answer?_eq alike
    refine ⟨depth, innermost, rfl, there, isAttr, ?_⟩
    calc (base.accepts library scene (depth + 2) true).answer? start
      _ = (base.accepts library scene (depth + 2) true).answer? m := answered.symm
      _ = some true := by rw [answer?, endedM]
  · -- at any other node the match would have moved both to its rank
    have settled := related_accepts_top simulation library base read top
      (fun depth innermost isTop there isAttr => attr ⟨depth, innermost, isTop, there, isAttr⟩)
      m n (begun.level unique)
    rw [endedM, endedN] at settled
    exact absurd settled.2.position apart

include unique in
/-- Behind a base that has just matched, an impartial predicate answers alike in both runs. -/
theorem Expr.abreast_filter {once : Bool} {base condition : Expr} {limit top : Nat}
    (le : top ≤ limit)
    (read : ∀ entry ∈ (filter once base condition).references, known entry.1 entry.2)
    (impartial : (filter once base condition).Impartial library scene start place limit)
    (asked : Abreast scene known start place (base.accepts library scene top true)) :
    Abreast scene known start place
      ((filter once base condition).accepts library scene top true) := by
  rw [references, List.forall_mem_append] at read
  have behind : Related (Memory.Begun scene known start place)
      (fun matched m n => Memory.Begun scene known start place m n ∧
        (matched = true → m.position ≠ n.position →
          (condition.asks library scene top).answer? start =
            (condition.asks library scene top).answer? { start with position := place }))
      (fun _ _ _ _ => True)
      (base.accepts library scene top true) (base.accepts library scene top true) := by
    intro m n begun
    cases endedM : base.accepts library scene top true m with
    | ok matched m' =>
      obtain ⟨n', endedN, after⟩ := asked.ok begun endedM
      rw [endedN]
      refine ⟨rfl, after, ?_⟩
      rintro rfl apart
      obtain ⟨depth, innermost, rfl, there, attr, answered⟩ :=
        attr_of_apart unique library read.1 begun endedM endedN after apart
      exact impartial base condition List.mem_cons_self (depth + 1) innermost le there attr answered
    | error d m' =>
      obtain ⟨e, n', endedN, -⟩ := asked.error begun endedM
      rw [endedN]
      trivial
  rw [accepts_filter_ranked]
  refine behind.bind fun matched => ?_
  cases matched with
  | false => exact Related.pure false fun _ _ after => after.1
  | true =>
    refine (related_asks unique library read.2 top).weaken ?_ (fun _ _ _ ended => ended)
      fun _ _ _ _ failed => failed
    exact fun m n after => ⟨after.1, after.2 rfl⟩

/-- Moving back to the positions before, two runs are where they began. -/
theorem Run.Abreast.saved {α : Type} {computation : Run α}
    (abreast : Abreast scene known start place computation) :
    Abreast scene known start place (Run.position >>= fun saved => computation >>= fun a =>
      Run.moveIf true saved >>= fun _ => pure a) := by
  intro m n begun
  simp only [bind_apply, position_apply]
  cases endedM : computation m with
  | ok a m' =>
    obtain ⟨n', endedN, after⟩ := abreast.ok begun endedM
    rw [endedN]
    exact ⟨rfl, after.first, after.second, begun.positions⟩
  | error d m' =>
    obtain ⟨e, n', endedN, -⟩ := abreast.error begun endedM
    rw [endedN]
    trivial

include unique in
/-- Two runs of a pattern from two positions answer alike if its predicates do not tell them apart
at attributes. -/
theorem Expr.abreast_accepts (expr : Expr)
    (read : ∀ entry ∈ expr.references, known entry.1 entry.2) {limit : Nat}
    (impartial : expr.Impartial library scene start place limit) {top : Nat} (le : top ≤ limit)
    (rank : Bool) :
    Abreast scene known start place (expr.accepts library scene top rank) := by
  have refuse : Abreast scene known start place (pure false) :=
    Related.pure false fun _ _ begun => begun
  have moved : ∀ asked further, Abreast scene known start place
      (Run.moveIf asked further >>= fun _ => pure true) := by
    intro asked further m n begun
    cases asked with
    | true => exact ⟨rfl, begun.move further⟩
    | false => exact ⟨rfl, begun⟩
  induction expr using Expr.induct generalizing top rank with
  | root =>
    rw [accepts_root]
    exact Related.ite _ (fun _ => moved rank 1) fun _ => refuse
  | step axis base next ihBase ihNext =>
    rw [references, List.forall_mem_append] at read
    have around : base.Impartial library scene start place limit :=
      impartial.of_subset (List.subset_append_left _ _)
    have last : next.Impartial library scene start place limit :=
      impartial.of_subset (List.subset_append_right _ _)
    cases axis with
    | child =>
      cases top with
      | zero => exact refuse
      | succ below =>
        refine (ihNext read.2 last le rank).bind fun matched => Related.ite _ (fun _ => ?_)
          fun _ => refuse
        exact ihBase read.1 around (Nat.le_of_succ_le le) false
    | descendant =>
      refine (ihNext read.2 last le rank).bind fun matched => Related.ite _ (fun _ => ?_)
        fun _ => refuse
      exact Related.anyBelow fun height lt =>
        ihBase read.1 around (Nat.le_trans (Nat.le_of_lt lt) le) false
  | union left right ihLeft ihRight =>
    rw [references, List.forall_mem_append] at read
    have first : left.Impartial library scene start place limit :=
      impartial.of_subset (List.subset_append_left _ _)
    have second : right.Impartial library scene start place limit :=
      impartial.of_subset (List.subset_append_right _ _)
    refine (ihLeft read.1 first le rank).bind fun matched => Related.ite _ (fun _ => ?_) fun _ => ?_
    · exact Related.pure true fun _ _ begun => begun
    · exact ihRight read.2 second le rank
  | filter once base condition ihBase ihCondition =>
    have inside := read
    rw [references, List.forall_mem_append] at inside
    have asked := ihBase inside.1 (impartial.of_subset (List.subset_cons_self _ _)) le true
    have ranked := abreast_filter unique library le read impartial asked
    cases rank with
    | true => exact ranked
    | false =>
      rw [accepts_filter_ranked] at ranked
      rw [accepts_filter]
      exact Run.Abreast.saved ranked
  | nodeTest test =>
    rcases top with _ | _ | depth
    · exact refuse
    · exact refuse
    · rw [accepts_nodeTest]
      exact Related.ite _ (fun _ => moved rank _) fun _ => refuse
  | attributeTest test =>
    rcases top with _ | _ | _ | depth
    · exact refuse
    · exact refuse
    · exact refuse
    · exact Related.pure _ fun _ _ begun => begun
  | call | literal | arithmetic | negate | logic | compare | sequence | list | template | var
  | contextItem | parent => exact fun _ _ _ => trivial

end Begun

/-! ## Matches from two positions -/

/-- From any two positions, a match answers the same, or fails both times, if no predicate that is
asked of an attribute tells the two apart. Where a predicate is asked of any other node, its base has
moved the position by then. -/
theorem Forest.accepts_ok_iff_of_impartial (forest : Forest) (id : NodeId) (context : Context)
    (place top : Nat) (rank : Bool)
    (impartial : (forest.expression id).Impartial forest.library context.toScene context.toMemory
      place top) (matched : Bool) :
    (forest.accepts id context top rank).1 = .ok matched ↔
      (forest.accepts id { context with position := place } top rank).1 = .ok matched := by
  have abreast := Expr.abreast_accepts forest.refers_unique forest.library (forest.expression id)
    (forest.refers_of_mem_references id) impartial (Nat.le_refl top) rank
    context.toMemory { context.toMemory with position := place } (.refl _ place)
  unfold Forest.accepts
  cases endedM : (forest.expression id).accepts forest.library context.toScene top rank
      context.toMemory <;>
    cases endedN : (forest.expression id).accepts forest.library context.toScene top rank
      { context.toMemory with position := place } <;> rw [endedM, endedN] at abreast
  · rw [Context.run_of_ok endedM, Context.run_of_ok endedN, abreast.1]
  · exact abreast.elim
  · exact abreast.elim
  · rw [Context.run_of_error endedM, Context.run_of_error endedN]
    exact ⟨nofun, nofun⟩

/-- The first element or any attribute that has a value, asked of an attribute: the positions one and
five are told apart by the first predicate, but not at an attribute. -/
theorem accepts_attribute_from_five :
    let forest := [.nodeTest .anyElement, .literal (.number 1), .filter ⟨0⟩ ⟨1⟩,
      .attributeTest .any, .contextItem, .filter ⟨3⟩ ⟨4⟩, .union ⟨2⟩ ⟨5⟩].foldl
        (fun forest form => (Forest.add forest form).2) Forest.empty
    let stack := ((Ancestors.empty.push ⟨.document, []⟩).push ⟨.element (.unqualified "a"), []⟩).push
      ⟨.attr (.unqualified "id") "7", []⟩
    let context : Context := { stack }
    (forest.expression ⟨6⟩).Impartial forest.library context.toScene context.toMemory 5 3 ∧
      (forest.accepts ⟨6⟩ { context with position := 5 } 3 true).1 = .ok true := by
  intro forest stack context
  have impartial : (forest.expression ⟨6⟩).Impartial forest.library context.toScene
      context.toMemory 5 3 := by
    intro base condition mem depth innermost lt there attr matched
    obtain rfl : depth = 2 := by
      match depth with
      | 0 | 1 => cases there; cases attr
      | 2 => rfl
    rcases List.mem_pair.mp mem with ⟨rfl, rfl⟩ | ⟨rfl, rfl⟩
    · cases matched
    · rfl
  have same := Forest.accepts_ok_iff_of_impartial forest ⟨6⟩ context 5 3 true impartial true
  exact ⟨impartial, same.mp rfl⟩

/-- A predicate on attributes reads the position that was left: the attribute is the first one when
it is asked from position one, but not from position two. -/
theorem first_attribute_from_two :
    let forest := [.attributeTest .any, .literal (.number 1), .filter ⟨0⟩ ⟨1⟩].foldl
        (fun forest form => (Forest.add forest form).2) Forest.empty
    let stack := ((Ancestors.empty.push ⟨.document, []⟩).push ⟨.element (.unqualified "a"), []⟩).push
      ⟨.attr (.unqualified "id") "7", []⟩
    let context : Context := { stack, position := 1 }
    (forest.accepts ⟨2⟩ context 3 false).1 = .ok true ∧
      (forest.accepts ⟨2⟩ { context with position := 2 } 3 false).1 = .ok false := by
  decide +kernel

end StreamPath
