import StreamPath.Proofs.Declaration
import StreamPath.Proofs.Lineage
import StreamPath.Proofs.Recall

/-!
# Rule selection

A selection asks one rule after the other, and every match may move the position and remember
scopes. The position is moved back between two rules, and a scope that was remembered is the one that
would be found anyway, so a rule is as good after others as it is alone. What is selected is then
determined by the order of rules and by what each of them says alone.

* `Optimal` — an answer is the best one, each rule being asked alone from the same context;
* `RuleTable.firstAccepted_spec` — the run of a selection, invariant and outcome;
* `RuleTable.optimal_selection` — what `best` and `bestVisible` answer.
-/

namespace StreamPath

open Run

/-! ## The best answer -/

/-- The rules of a group are visible from a viewpoint if the group is the viewpoint or a static
ancestor of it, or has it as parent. -/
def Visible (groups : GroupTable) (viewpoint group : GroupId) : Prop :=
  groups.Ancestor viewpoint group ∨ groups.parent? group = some viewpoint

theorem isVisible_iff {groups : GroupTable} {viewpoint group : GroupId} :
    RuleTable.isVisible groups viewpoint group = true ↔ Visible groups viewpoint group := by
  unfold RuleTable.isVisible Visible
  rw [Bool.or_eq_true, GroupTable.isWithin_iff, decide_eq_true_eq]

instance (groups : GroupTable) (viewpoint group : GroupId) :
    Decidable (Visible groups viewpoint group) :=
  decidable_of_iff _ isVisible_iff

/-- An answer is the best one among some candidates, each of them asked alone from the context: the
first that matches, with the position that its match sets, or none if none of them matches. A
selection fails only if a candidate does that is asked before any match. -/
structure Optimal (candidate : RankedRule → Prop) (forest : Forest) (context : Context) (top : Nat)
    (answer : Except Diagnostic (Option Rule) × Context) : Prop where
  chosen : ∀ rule, answer.1 = .ok (some rule) → ∃ place, candidate (rule, place) ∧
    (forest.accepts rule.pattern context top true).1 = .ok true ∧
    answer.2.position = (forest.accepts rule.pattern context top true).2.position ∧
    ∀ other, candidate other → Before other (rule, place) →
      (forest.accepts other.1.pattern context top true).1 = .ok false
  refused : answer.1 = .ok none → answer.2.position = context.position ∧
    ∀ other, candidate other → (forest.accepts other.1.pattern context top true).1 = .ok false
  failed : ∀ failure, answer.1 = .error failure → ∃ entry, candidate entry ∧
    (forest.accepts entry.1.pattern context top true).1 = .error failure ∧
    ∀ other, candidate other → Before other entry →
      (forest.accepts other.1.pattern context top true).1 = .ok false

namespace RuleTable

/-- The table with some of its rules only. -/
def restrict (table : RuleTable) (wanted : Rule → Prop) [DecidablePred wanted] : RuleTable :=
  { table with rules := table.rules.filter fun rule => wanted rule }

section Selection

variable (forest : Forest) (scene : Scene) (top : Nat)

/-- One rule asked on its own. -/
def ask (rule : Rule) : Run Bool :=
  (forest.expression rule.pattern).accepts forest.library scene top true

theorem agree_ask (rule : Rule) : Agree (Memory.Alike scene forest.Refers)
    (ask forest scene top rule) (ask forest scene top rule) :=
  forest.agree_accepts_alike scene rule.pattern top true

theorem keeps_ask (start : Memory) (rule : Rule) :
    Keeps (Memory.Grown scene forest.Refers start) (ask forest scene top rule) :=
  forest.keeps_accepts_grown scene rule.pattern top true start

/-- A rule does not match when it is asked from a memory. -/
def Refuses (start : Memory) (rule : Rule) : Prop :=
  ∃ alone, ask forest scene top rule start = .ok false alone

/-- What a selection from a memory comes to, in terms of what each rule says alone. -/
def Outcome (start : Memory) (rules : List Rule) :
    EStateM.Result Diagnostic Memory (Option Rule) → Prop
  | .ok (some rule) final => ∃ before after alone, rules = before ++ rule :: after ∧
      (∀ other ∈ before, Refuses forest scene top start other) ∧
      ask forest scene top rule start = .ok true alone ∧ final.position = alone.position
  | .ok none final =>
      (∀ other ∈ rules, Refuses forest scene top start other) ∧ final.position = start.position
  | .error failure _ => ∃ before rule after alone, rules = before ++ rule :: after ∧
      (∀ other ∈ before, Refuses forest scene top start other) ∧
      ask forest scene top rule start = .error failure alone

/-- Asking one more rule first, which refuses, changes nothing. -/
theorem Outcome.cons {start : Memory} {rule : Rule} {rules : List Rule}
    {result : EStateM.Result Diagnostic Memory (Option Rule)}
    (refuses : Refuses forest scene top start rule)
    (outcome : Outcome forest scene top start rules result) :
    Outcome forest scene top start (rule :: rules) result := by
  match result with
  | .ok (some _) _ =>
    obtain ⟨before, after, alone, rfl, all, accepted⟩ := outcome
    exact ⟨rule :: before, after, alone, rfl, List.forall_mem_cons.mpr ⟨refuses, all⟩, accepted⟩
  | .ok none _ => exact ⟨List.forall_mem_cons.mpr ⟨refuses, outcome.1⟩, outcome.2⟩
  | .error _ _ =>
    obtain ⟨before, found, after, alone, rfl, all, failed⟩ := outcome
    exact ⟨rule :: before, found, after, alone, rfl, List.forall_mem_cons.mpr ⟨refuses, all⟩, failed⟩

/-- From a memory that earlier attempts left, a selection comes to what the rules say alone. What the
attempts leave is that the memory has grown from the first one. -/
theorem firstAccepted_spec (start memory : Memory) (rules : List Rule)
    (grown : Memory.Grown scene forest.Refers start memory) :
    Outcome forest scene top start rules
      (firstAccepted forest scene top start.position rules memory) := by
  induction rules generalizing memory with
  | nil => exact ⟨nofun, rfl⟩
  | cons rule rest ih =>
    -- the position is moved back, so only the remembered scopes differ from the first memory
    let asked : Memory := { memory with position := start.position }
    have alike : Memory.Alike scene forest.Refers asked start :=
      ⟨rfl, fun id name named => Memory.Grown.consulted grown forest.refers_unique named⟩
    have same := agree_ask forest scene top rule
    have stillGrown := keeps_ask forest scene top start rule asked grown
    rw [firstAccepted, bind_apply, setPosition_apply]
    show Outcome forest scene top start (rule :: rest) ((ask forest scene top rule >>= _) asked)
    rw [bind_apply]
    cases here : ask forest scene top rule asked with
    | ok matched final =>
      obtain ⟨alone, there, after⟩ := same.ok alike here
      cases matched with
      | true => exact ⟨[], rest, alone, rfl, nofun, there, after.position⟩
      | false =>
        rw [here] at stillGrown
        exact Outcome.cons forest scene top ⟨alone, there⟩ (ih final stillGrown)
    | error failure final =>
      obtain ⟨_, alone, there, rfl, -⟩ := same.error alike here
      exact ⟨[], rule, rest, alone, rfl, nofun, there⟩

end Selection

/-- In a ranked list, what is to be asked before an entry stands before it. -/
theorem mem_front_of_before {front back : List RankedRule} {entry other : RankedRule}
    (ordered : (front ++ entry :: back).Pairwise Before) (mem : other ∈ front ++ entry :: back)
    (before : Before other entry) : other ∈ front := by
  rcases List.mem_append.mp mem with there | there
  · exact there
  · rcases List.mem_cons.mp there with rfl | behind
    · exact absurd before before.asymm
    · have ahead := (List.pairwise_cons.mp (List.pairwise_append.mp ordered).2.1).1 other behind
      exact absurd before ahead.asymm

/-- A rule of a ranked table has a place there, and the rules to be asked before it are those that
stand before it. -/
theorem exists_place {entries : List RankedRule} {before after : List Rule} {rule : Rule}
    (ordered : entries.Pairwise Before) (split : entries.map Prod.fst = before ++ rule :: after) :
    ∃ place, (rule, place) ∈ entries ∧
      ∀ other ∈ entries, Before other (rule, place) → other.1 ∈ before := by
  obtain ⟨front, others, rfl, rfl, rest⟩ := List.map_eq_append_iff.mp split
  obtain ⟨⟨_, place⟩, back, rfl, rfl, -⟩ := List.map_eq_cons_iff.mp rest
  refine ⟨place, List.mem_append_right front List.mem_cons_self, ?_⟩
  intro other mem earlier
  exact List.mem_map_of_mem (mem_front_of_before ordered mem earlier)

/-- The first rule of a ranked list that matches is the best answer there is. -/
theorem optimal_firstAccepted (forest : Forest) (context : Context) (top : Nat)
    {entries : List RankedRule} (ordered : entries.Pairwise Before) :
    Optimal (· ∈ entries) forest context top (context.run fun scene =>
      firstAccepted forest scene top context.position (entries.map Prod.fst)) := by
  have refuses : ∀ rule, Refuses forest context.toScene top context.toMemory rule →
      (forest.accepts rule.pattern context top true).1 = .ok false := by
    rintro rule ⟨alone, asked⟩
    rw [Forest.accepts, Context.run_of_ok asked]
  have outcome := firstAccepted_spec forest context.toScene top context.toMemory context.toMemory
    (entries.map Prod.fst) (Memory.Grown.refl _)
  cases ended : firstAccepted forest context.toScene top context.toMemory.position
      (entries.map Prod.fst) context.toMemory with
  | ok found final =>
    rw [@Context.run_of_ok _ _ (fun scene => firstAccepted forest scene top _ _) _ _ ended]
    rw [ended] at outcome
    refine ⟨fun rule isChosen => ?_, fun isNone => ?_, fun failure isFailure => ?_⟩
    · cases Except.ok.inj isChosen
      obtain ⟨before, after, alone, split, all, asked, position⟩ := outcome
      obtain ⟨place, mem, ahead⟩ := exists_place ordered split
      refine ⟨place, mem, ?_, ?_, fun other isOne earlier => ?_⟩
      · rw [Forest.accepts, Context.run_of_ok asked]
      · rw [Forest.accepts, Context.run_of_ok asked]
        exact position
      · exact refuses other.1 (all other.1 (ahead other isOne earlier))
    · cases Except.ok.inj isNone
      obtain ⟨all, position⟩ := outcome
      refine ⟨position, fun other isOne => ?_⟩
      exact refuses other.1 (all other.1 (List.mem_map_of_mem isOne))
    · cases isFailure
  | error failure final =>
    rw [@Context.run_of_error _ _ (fun scene => firstAccepted forest scene top _ _) _ _ ended]
    rw [ended] at outcome
    refine ⟨nofun, nofun, fun found isFailure => ?_⟩
    cases Except.error.inj isFailure
    obtain ⟨before, rule, after, alone, split, all, asked⟩ := outcome
    obtain ⟨place, mem, ahead⟩ := exists_place ordered split
    refine ⟨(rule, place), mem, ?_, fun other isOne earlier => ?_⟩
    · rw [Forest.accepts, Context.run_of_error asked]
    · exact refuses other.1 (all other.1 (ahead other isOne earlier))

/-- The best rule among the wanted ones is the best answer there is. -/
theorem optimal_bestAmong (declarations : List Declaration) (wanted : Rule → Bool)
    (forest : Forest) (context : Context) (top : Nat) :
    Optimal (fun entry => Declared declarations entry ∧ wanted entry.1 = true) forest context top
      ((ofDeclarations declarations).bestAmong wanted forest context top) := by
  obtain ⟨ranked, rules, ordered, complete⟩ := exists_ranked declarations
  have listed : (ofDeclarations declarations).rules.filter wanted =
      (ranked.filter fun entry => wanted entry.1).map Prod.fst := by
    rw [rules, List.filter_map]
    rfl
  have candidate : (fun entry => Declared declarations entry ∧ wanted entry.1 = true) =
      (· ∈ ranked.filter fun entry => wanted entry.1) := by
    funext entry
    rw [List.mem_filter, complete]
  unfold bestAmong
  rw [candidate, listed]
  exact optimal_firstAccepted forest context top (ordered.filter _)

/-- A selection gives the best answer among all declared rules, and one from a viewpoint gives the
best answer among the visible ones, just as if the table had no others. -/
theorem optimal_selection (declarations : List Declaration) (forest : Forest) (context : Context)
    (top : Nat) :
    Optimal (Declared declarations) forest context top
        ((ofDeclarations declarations).best forest context top) ∧
      ∀ viewpoint,
        (ofDeclarations declarations).bestVisible viewpoint forest context top =
          ((ofDeclarations declarations).restrict fun rule =>
            Visible context.groups viewpoint rule.group).best forest context top ∧
        Optimal (fun entry => Declared declarations entry ∧
            Visible context.groups viewpoint entry.1.group) forest context top
          ((ofDeclarations declarations).bestVisible viewpoint forest context top) := by
  refine ⟨?_, fun viewpoint => ⟨?_, ?_⟩⟩
  · have every := optimal_bestAmong declarations (fun _ => true) forest context top
    simp only [and_true] at every
    exact every
  · have visible : ∀ rule : Rule, decide (Visible context.groups viewpoint rule.group) =
        isVisible context.groups viewpoint rule.group := by
      intro rule
      rw [Bool.eq_iff_iff, decide_eq_true_eq, isVisible_iff]
    unfold bestVisible best bestAmong restrict
    simp only [visible, List.filter_true]
  · have seen := optimal_bestAmong declarations
      (fun rule => isVisible context.groups viewpoint rule.group) forest context top
    simp only [isVisible_iff] at seen
    exact seen

/-- A test whose priority is no number and has a sign bit is asked last, so an element is left to the
test for all nodes. -/
example :
    let forest := [.nodeTest (.element (.unqualified "a")), .nodeTest .anyNode].foldl
      (fun forest form => (Forest.add forest form).2) Forest.empty
    let stack := (Ancestors.empty.push ⟨.document, []⟩).push ⟨.element (.unqualified "a"), []⟩
    let table := ofDeclarations [⟨forest, ⟨0⟩, some ⟨0xfff8000000000000⟩, .root⟩,
      ⟨forest, ⟨1⟩, some (.ofNumber 0), .root⟩]
    ∃ rule, (table.best forest { stack } 2).1 = .ok (some rule) ∧ rule.index = 1 :=
  ⟨_, rfl, rfl⟩

end RuleTable

end StreamPath
