import StreamPath.Proofs.Rank
import StreamPath.Proofs.Selection

/-!
# Splitting a union into rules

A declaration whose pattern is a union gives one rule for each alternative. A match of the union asks
its operands one after the other and lets a refusal leave the position where it is; a selection asks
the alternatives of all nested unions, and moves the position back before each of them. No difference
can be seen: the position that a refusal leaves is never read by the next alternative.

* `Forest.anyAccepts_alternatives` — a match asks the alternatives from left to right;
* `RuleTable.rules_of_single` — a single declaration has a rule for each, in that order;
* `RuleTable.related_firstAccepted` — moving the position back makes no difference;
* `RuleTable.best_of_single` — a selection answers as the match of the whole pattern does.
-/

namespace StreamPath

open Run

/-- Memories that differ in position have the same reports. -/
theorem Memory.Level.reported {m n : Memory} (level : Level Eq m n) : m.reported = n.reported :=
  show ({ m with position := 0 } : Memory).reported = _ by rw [level 0]

/-- They remember the same scopes, too. -/
theorem Memory.Level.scopes {m n : Memory} (level : Level Eq m n) : m.scopes = n.scopes :=
  show ({ m with position := 0 } : Memory).scopes = _ by rw [level 0]

/-! ## Alternatives one after the other -/

namespace Forest

variable (forest : Forest) (scene : Scene) (top : Nat)

/-- Whether one of some patterns is satisfied. Each is asked from the position that the refusals
before it have left. -/
def anyAccepts : List NodeId → Run Bool
  | [] => return false
  | id :: rest => do
    if ← (forest.expression id).accepts forest.library scene top true then return true
    else anyAccepts rest

theorem anyAccepts_append (first second : List NodeId) :
    forest.anyAccepts scene top (first ++ second) =
      forest.anyAccepts scene top first >>= fun matched =>
        if matched then pure true else forest.anyAccepts scene top second := by
  induction first with
  | nil => rfl
  | cons id rest ih =>
    rw [List.cons_append, anyAccepts, anyAccepts, ih, bind_assoc]
    congr 1
    funext matched
    cases matched <;> rfl

theorem anyAccepts_singleton (id : NodeId) :
    forest.anyAccepts scene top [id] =
      (forest.expression id).accepts forest.library scene top true := by
  have answer : ∀ matched : Bool,
      (if matched then pure true else pure false : Run Bool) = pure matched := by
    intro matched
    cases matched <;> rfl
  simp only [anyAccepts, answer, bind_pure]

/-- To match a pattern is to ask its alternatives from left to right. -/
theorem anyAccepts_alternatives {forest : Forest} (founded : forest.WellFounded) (scene : Scene)
    (top : Nat) (id : NodeId) :
    forest.anyAccepts scene top (forest.alternatives id) =
      (forest.expression id).accepts forest.library scene top true := by
  have within : ∀ steps id, id.index ≤ steps →
      forest.anyAccepts scene top (forest.alternativesWithin steps id) =
        (forest.expression id).accepts forest.library scene top true := by
    intro steps
    induction steps with
    | zero => exact fun id _ => forest.anyAccepts_singleton scene top id
    | succ steps ih =>
      intro id le
      unfold alternativesWithin
      split
      · next left right found =>
        have first := founded id _ found left List.mem_cons_self
        have second := founded id _ found right (List.mem_cons_of_mem _ List.mem_cons_self)
        rw [anyAccepts_append, ih left (by omega), ih right (by omega), expression_of_form? found]
        simp only [assemble, if_pos first, if_pos second, Expr.accepts]
      · exact forest.anyAccepts_singleton scene top id
  exact within id.index id (Nat.le_refl _)

end Forest

/-! ## The rules of a single declaration -/

namespace RuleTable

/-- A single declaration has one rule for each alternative, from left to right. -/
theorem rules_of_single (forest : Forest) (pattern : NodeId) (priority : Priority)
    (group : GroupId) :
    (empty.add forest pattern (some priority) group).2.rules =
      (forest.alternatives pattern).map fun alternative => ⟨alternative, priority, group, 0⟩ := by
  refine Ranking.arrange_of_not_precedes _ ?_
  intro a memA b memB
  obtain ⟨alternative, -, rfl⟩ := List.mem_map.mp memA
  obtain ⟨other, -, rfl⟩ := List.mem_map.mp memB
  simp [Rule.precedes]

/-! ## Moving the position back -/

section Position

variable (forest : Forest) (scene : Scene) (top saved : Nat)

/-- The innermost node in view is an attribute, which has no position of its own. -/
def AtAttribute : Prop :=
  ∃ depth innermost, top = depth + 2 ∧ scene.stack.occurrence? (depth + 1) = some innermost ∧
    innermost.event.kind = .attr

/-- Two memories differ in the position only, and at an attribute the second has the saved one. -/
def Beside (m n : Memory) : Prop :=
  Memory.Level Eq m n ∧ (AtAttribute scene top → n.position = saved)

/-- One rule, asked at the saved position and at another one that earlier refusals may have left. -/
theorem related_ask (rule : Rule) :
    Related (fun m n => Beside scene top saved m n ∧ m.position = saved)
      (fun matched m n => if matched then m = n else Beside scene top saved m n)
      (fun d e m n => d = e ∧ Memory.Level Eq m n)
      (ask forest scene top rule) (ask forest scene top rule) := by
  by_cases attr : AtAttribute scene top
  · -- the position cannot have been moved, so both memories are the same
    rintro m n ⟨⟨level, stays⟩, isSaved⟩
    have same : m = n := by
      have := level saved
      obtain ⟨_, _, _⟩ := m
      obtain ⟨_, _, _⟩ := n
      simp_all
    subst same
    cases ended : ask forest scene top rule m with
    | error failure final => exact ⟨rfl, fun _ => rfl⟩
    | ok matched final =>
      refine ⟨rfl, ?_⟩
      cases matched with
      | true => exact rfl
      | false =>
        obtain ⟨depth, innermost, rfl, there, isAttr⟩ := attr
        refine ⟨fun _ => rfl, fun _ => ?_⟩
        rw [← isSaved]
        refine Expr.restores_accepts_attr forest.library scene _ depth ?_ m false final ended
        intro other isOpen
        cases there.symm.trans isOpen
        exact isAttr
  · have notAttr : ∀ depth innermost, top = depth + 2 →
        scene.stack.occurrence? (depth + 1) = some innermost → innermost.event.kind ≠ .attr :=
      fun depth innermost isTop there isAttr => attr ⟨depth, innermost, isTop, there, isAttr⟩
    refine (Expr.related_accepts_top (simulation_eq scene fun _ _ => True) forest.library
      (forest.expression rule.pattern) (fun _ _ => trivial) top notAttr).weaken
      (fun _ _ start => start.1.1) (fun matched m n settled => ?_) fun _ _ _ _ failed => failed
    cases matched with
    | true => exact settled
    | false => exact ⟨settled, fun isAttr => absurd isAttr attr⟩

/-- Asking rules each from the saved position comes to the same as asking their patterns one after
the other, and after a match the memories are equal. -/
theorem related_firstAccepted (rules : List Rule) :
    Related (Beside scene top saved) (Memory.Settled Eq)
      (fun d e m n => d = e ∧ Memory.Level Eq m n)
      (firstAccepted forest scene top saved rules >>= fun found? => pure found?.isSome)
      (forest.anyAccepts scene top (rules.map Rule.pattern)) := by
  induction rules with
  | nil => exact fun m n start => ⟨rfl, start.1⟩
  | cons rule rest ih =>
    have asked : Related (fun m n => Beside scene top saved m n ∧ m.position = saved)
        (Memory.Settled Eq) (fun d e m n => d = e ∧ Memory.Level Eq m n)
        (ask forest scene top rule >>= fun matched =>
          if matched then pure true
          else firstAccepted forest scene top saved rest >>= fun found? => pure found?.isSome)
        (ask forest scene top rule >>= fun matched =>
          if matched then pure true else forest.anyAccepts scene top (rest.map Rule.pattern)) := by
      refine (related_ask forest scene top saved rule).bind fun matched => ?_
      cases matched with
      | true => exact Related.pure true fun _ _ same => same
      | false => exact ih
    have unfolded : (firstAccepted forest scene top saved (rule :: rest) >>= fun found? =>
          (pure found?.isSome : Run Bool)) =
        setPosition saved >>= fun _ => ask forest scene top rule >>= fun matched =>
          if matched then pure true
          else firstAccepted forest scene top saved rest >>= fun found? => pure found?.isSome := by
      rw [firstAccepted]
      simp only [bind_assoc]
      congr 1
      funext _
      congr 1
      funext matched
      cases matched <;> rfl
    intro m n start
    rw [unfolded, bind_apply, setPosition_apply]
    exact asked { m with position := saved } n ⟨⟨fun place => start.1 place, start.2⟩, rfl⟩

end Position

/-! ## Selection and match -/

/-- A selection among rules answers as a match of the pattern does that they come from. -/
structure AnswersAlike (forest : Forest) (pattern : NodeId) (context : Context) (top : Nat)
    (selected : Except Diagnostic (Option Rule) × Context)
    (matched : Except Diagnostic Bool × Context) : Prop where
  chosen : (∃ rule, selected.1 = .ok (some rule)) ↔ matched.1 = .ok true
  refused : selected.1 = .ok none ↔ matched.1 = .ok false
  failed : ∀ failure, selected.1 = .error failure ↔ matched.1 = .error failure
  /-- The selected rule is that of the leftmost alternative that matches. -/
  leftmost : ∀ rule, selected.1 = .ok (some rule) → ∃ before after,
    forest.alternatives pattern = before ++ rule.pattern :: after ∧
    (∀ other ∈ before, (forest.accepts other context top true).1 = .ok false) ∧
    (forest.accepts rule.pattern context top true).1 = .ok true
  position : ∀ rule, selected.1 = .ok (some rule) → selected.2.position = matched.2.position
  reported : selected.2.reported = matched.2.reported
  scopes : selected.2.scopes = matched.2.scopes

section Outcomes

variable {forest : Forest} {pattern : NodeId} {context : Context} {top : Nat} {m n : Memory}

/-- Both end with one failure. -/
theorem AnswersAlike.of_failed (failure : Diagnostic) (level : Memory.Level Eq m n) :
    AnswersAlike forest pattern context top (.error failure, { context with toMemory := m })
      (.error failure, { context with toMemory := n }) where
  chosen := ⟨nofun, nofun⟩
  refused := ⟨nofun, nofun⟩
  failed := fun _ => ⟨fun same => by cases same; rfl, fun same => by cases same; rfl⟩
  leftmost := nofun
  position := nofun
  reported := level.reported
  scopes := level.scopes

/-- No rule is selected, and the pattern does not match. -/
theorem AnswersAlike.of_refused (level : Memory.Level Eq m n) :
    AnswersAlike forest pattern context top (.ok none, { context with toMemory := m })
      (.ok false, { context with toMemory := n }) where
  chosen := ⟨nofun, nofun⟩
  refused := ⟨fun _ => rfl, fun _ => rfl⟩
  failed := fun _ => ⟨nofun, nofun⟩
  leftmost := nofun
  position := nofun
  reported := level.reported
  scopes := level.scopes

/-- A rule is selected, and the pattern matches and leaves the same memory. -/
theorem AnswersAlike.of_matched {rule : Rule} {before after : List NodeId}
    (split : forest.alternatives pattern = before ++ rule.pattern :: after)
    (refused : ∀ other ∈ before, (forest.accepts other context top true).1 = .ok false)
    (accepted : (forest.accepts rule.pattern context top true).1 = .ok true) :
    AnswersAlike forest pattern context top (.ok (some rule), { context with toMemory := m })
      (.ok true, { context with toMemory := m }) where
  chosen := ⟨fun _ => rfl, fun _ => ⟨rule, rfl⟩⟩
  refused := ⟨nofun, nofun⟩
  failed := fun _ => ⟨nofun, nofun⟩
  leftmost := fun _ same => by
    cases same
    exact ⟨before, after, split, refused, accepted⟩
  position := fun _ _ => rfl
  reported := rfl
  scopes := rfl

end Outcomes

/-- With a single declaration, of any pattern at any priority, a selection answers as a match of the
pattern does. -/
theorem best_of_single (forest : Forest) (founded : forest.WellFounded) (pattern : NodeId)
    (priority : Priority) (group : GroupId) (context : Context) (top : Nat) :
    AnswersAlike forest pattern context top
      ((empty.add forest pattern (some priority) group).2.best forest context top)
      (forest.accepts pattern context top true) := by
  let rules : List Rule := (forest.alternatives pattern).map fun alternative =>
    ⟨alternative, priority, group, 0⟩
  have selection :
      (empty.add forest pattern (some priority) group).2.best forest context top =
        context.run fun scene => firstAccepted forest scene top context.position rules := by
    rw [best, bestAmong, rules_of_single, List.filter_true]
  have patterns : rules.map Rule.pattern = forest.alternatives pattern := by
    rw [List.map_map]
    exact List.map_id' _
  have compared := related_firstAccepted forest context.toScene top context.position rules
    context.toMemory context.toMemory ⟨fun _ => rfl, fun _ => rfl⟩
  have outcome := firstAccepted_spec forest context.toScene top context.toMemory context.toMemory
    rules (Memory.Grown.refl _)
  rw [patterns, Forest.anyAccepts_alternatives founded, bind_apply] at compared
  rw [selection]
  cases asked : firstAccepted forest context.toScene top context.toMemory.position rules
      context.toMemory with
  | error failure final =>
    rw [asked] at compared
    rw [@Context.run_of_error _ _ (fun scene => firstAccepted forest scene top _ _) _ _ asked]
    cases matched : (forest.expression pattern).accepts forest.library context.toScene top true
        context.toMemory with
    | ok answer rest =>
      rw [matched] at compared
      exact compared.elim
    | error fault rest =>
      rw [matched] at compared
      obtain ⟨rfl, level⟩ := compared
      rw [Forest.accepts, Context.run_of_error matched]
      exact .of_failed failure level
  | ok found? final =>
    rw [asked] at compared outcome
    rw [@Context.run_of_ok _ _ (fun scene => firstAccepted forest scene top _ _) _ _ asked]
    cases matched : (forest.expression pattern).accepts forest.library context.toScene top true
        context.toMemory with
    | error fault rest =>
      rw [matched] at compared
      exact compared.elim
    | ok answer rest =>
      rw [matched] at compared
      obtain ⟨rfl, settled⟩ := compared
      rw [Forest.accepts, Context.run_of_ok matched]
      cases found? with
      | none => exact .of_refused settled
      | some rule =>
        obtain rfl : final = rest := settled
        obtain ⟨before, after, alone, split, refuse, accepted, -⟩ := outcome
        have inOrder : forest.alternatives pattern =
            before.map Rule.pattern ++ rule.pattern :: after.map Rule.pattern := by
          rw [← patterns, split, List.map_append, List.map_cons]
        refine .of_matched inOrder ?_ ?_
        · intro other mem
          obtain ⟨one, isBefore, rfl⟩ := List.mem_map.mp mem
          obtain ⟨end', refused⟩ := refuse one isBefore
          rw [Forest.accepts, Context.run_of_ok refused]
        · rw [Forest.accepts, Context.run_of_ok accepted]

/-- Of the alternatives of a nested union, two match an element, and the left one of them is
selected. An alternative before it is refused by its condition, at a position moved for it. -/
theorem best_of_single_nested :
    let forest := [.nodeTest (.element (.unqualified "b")), .nodeTest .anyElement,
      .literal (.computed []), .filter ⟨1⟩ ⟨2⟩, .nodeTest (.element (.unqualified "a")),
      .union ⟨3⟩ ⟨4⟩, .union ⟨0⟩ ⟨5⟩, .union ⟨6⟩ ⟨1⟩].foldl
        (fun forest form => (Forest.add forest form).2) Forest.empty
    let stack := (Ancestors.empty.push ⟨.document, []⟩).push ⟨.element (.unqualified "a"), []⟩
    let context : Context := { stack, position := 7 }
    let selected := (empty.add forest ⟨7⟩ (some (.ofNumber 2)) .root).2.best forest context 2
    forest.WellFounded ∧ forest.alternatives ⟨7⟩ = [⟨0⟩, ⟨3⟩, ⟨4⟩, ⟨1⟩] ∧
      (∃ rule, selected.1 = .ok (some rule) ∧ rule.pattern = ⟨4⟩) ∧ selected.2.position = 1 := by
  intro forest stack context selected
  have founded : forest.WellFounded := by
    refine Forest.wellFounded_add (Forest.wellFounded_add (Forest.wellFounded_add
      (Forest.wellFounded_add (Forest.wellFounded_add (Forest.wellFounded_add
        (Forest.wellFounded_add (Forest.wellFounded_add Forest.wellFounded_empty ?_) ?_) ?_) ?_) ?_)
          ?_) ?_) ?_ <;> decide
  have alike := best_of_single forest founded ⟨7⟩ (.ofNumber 2) .root context 2
  obtain ⟨rule, chosen⟩ := alike.chosen.mpr rfl
  have position : (forest.accepts ⟨7⟩ context 2 true).2.position = 1 := rfl
  have placed : selected.2.position = 1 := by
    rw [show selected = (empty.add forest ⟨7⟩ (some (.ofNumber 2)) .root).2.best forest context 2 from rfl,
      alike.position rule chosen, position]
  refine ⟨founded, rfl, ⟨rule, chosen, ?_⟩, placed⟩
  obtain ⟨before, after, split, refused, accepted⟩ := alike.leftmost rule chosen
  change [⟨0⟩, ⟨3⟩, ⟨4⟩, ⟨1⟩] = before ++ rule.pattern :: after at split
  have refusedFirst : (forest.accepts ⟨4⟩ context 2 true).1 ≠ .ok false := nofun
  generalize rule.pattern = chosen at split accepted
  match before with
  | [] | [_] =>
    cases split
    cases accepted
  | [_, _] =>
    cases split
    rfl
  | _ :: _ :: third :: rest =>
    obtain ⟨rfl, -⟩ := List.cons_eq_cons.mp (List.cons_eq_cons.mp (List.cons_eq_cons.mp split).2).2
    exact absurd (refused ⟨4⟩ (by simp)) refusedFirst

end RuleTable

end StreamPath
