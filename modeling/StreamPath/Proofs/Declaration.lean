import Mathlib.Data.List.Induction
import StreamPath.Rule

/-!
# Declarations and the order of rules

A rule table is filled by declarations, one after the other. Its rules are exactly the declared ones,
and they stand in the order in which they are to be asked: by priority, then the later declaration
first, then the alternatives of one union from left to right.

* `Declared` — a rule is an alternative of one of the declarations;
* `Before` — the order of rules;
* `RuleTable.exists_ranked` — the table holds the declared rules in that order.
-/

namespace StreamPath

/-- What a rule is declared with, and the forest at that time. -/
structure Declaration where
  forest : Forest
  pattern : NodeId
  priority? : Option Priority
  group : GroupId

/-- The rules of a declaration at a place, one for each alternative from left to right. -/
def Declaration.rules (declaration : Declaration) (index : Nat) : List Rule :=
  (declaration.forest.alternatives declaration.pattern).map fun alternative =>
    { pattern := alternative
      priority := declaration.priority?.getD (declaration.forest.priority alternative)
      group := declaration.group
      index }

/-- A rule together with its place among the alternatives of its declaration. -/
abbrev RankedRule := Rule × Nat

/-- A rule is an alternative of one of the declarations. -/
def Declared (declarations : List Declaration) (entry : RankedRule) : Prop :=
  ∃ declaration, declarations[entry.1.index]? = some declaration ∧
    (declaration.rules entry.1.index)[entry.2]? = some entry.1

/-- One rule is to be asked before another: it has the higher priority in the total order of all bit
patterns, or the same priority and the later declaration, or it is an earlier alternative of the same
declaration. -/
def Before (a b : RankedRule) : Prop :=
  b.1.priority.orderKey < a.1.priority.orderKey ∨
    a.1.priority.orderKey = b.1.priority.orderKey ∧
      (b.1.index < a.1.index ∨ a.1.index = b.1.index ∧ a.2 < b.2)

theorem Before.trans {a b c : RankedRule} (first : Before a b) (second : Before b c) :
    Before a c := by
  unfold Before at *
  omega

theorem Before.asymm {a b : RankedRule} (first : Before a b) : ¬Before b a := by
  unfold Before at *
  omega

/-- All declared rules in the order of declaration. -/
def arrivals (declarations : List Declaration) : List RankedRule :=
  declarations.zipIdx.flatMap fun entry => (entry.1.rules entry.2).zipIdx

/-- One rule was declared before another, or further left in the same union. -/
def Earlier (a b : RankedRule) : Prop :=
  a.1.index < b.1.index ∨ a.1.index = b.1.index ∧ a.2 < b.2

theorem index_of_mem_rules {declaration : Declaration} {index : Nat} {rule : Rule}
    (mem : rule ∈ declaration.rules index) : rule.index = index := by
  obtain ⟨alternative, -, rfl⟩ := List.mem_map.mp mem
  rfl

theorem mem_arrivals_iff {declarations : List Declaration} {entry : RankedRule} :
    entry ∈ arrivals declarations ↔ Declared declarations entry := by
  unfold arrivals Declared
  rw [List.mem_flatMap]
  constructor
  · rintro ⟨⟨declaration, index⟩, there, mem⟩
    rw [List.mem_zipIdx_iff_getElem?] at there mem
    have same : entry.1.index = index := index_of_mem_rules (List.mem_of_getElem? mem)
    rw [same]
    exact ⟨declaration, there, mem⟩
  · rintro ⟨declaration, there, mem⟩
    exact ⟨(declaration, entry.1.index), List.mem_zipIdx_iff_getElem?.mpr there,
      List.mem_zipIdx_iff_getElem?.mpr mem⟩

/-- Numbering a list gives increasing numbers. -/
theorem pairwise_zipIdx {α : Type} (items : List α) :
    items.zipIdx.Pairwise fun a b => a.2 < b.2 := by
  rw [← List.pairwise_map , List.zipIdx_map_snd]
  exact List.pairwise_lt_range'

theorem pairwise_arrivals (declarations : List Declaration) :
    (arrivals declarations).Pairwise Earlier := by
  unfold arrivals
  rw [List.pairwise_flatMap]
  have place : ∀ {declaration : Declaration} {index : Nat} {entry : RankedRule},
      entry ∈ (declaration.rules index).zipIdx → entry.1.index = index := by
    intro declaration index entry mem
    exact index_of_mem_rules (List.mem_of_getElem? (List.mem_zipIdx_iff_getElem?.mp mem))
  constructor
  · intro numbered _
    refine (pairwise_zipIdx _).imp_of_mem fun memA memB lt => .inr ⟨?_, lt⟩
    rw [place memA, place memB]
  · refine (pairwise_zipIdx declarations).imp fun lt a memA b memB => .inl ?_
    rw [place memA, place memB]
    exact lt

namespace RuleTable

/-- The table after one more declaration. -/
def declare (table : RuleTable) (declaration : Declaration) : RuleTable :=
  (table.add declaration.forest declaration.pattern declaration.priority? declaration.group).2

/-- The table that declarations fill. -/
def ofDeclarations (declarations : List Declaration) : RuleTable := declarations.foldl declare empty

/-- The table holds the declared rules, ranked as they arrived. -/
theorem rules_ofDeclarations (declarations : List Declaration) :
    (ofDeclarations declarations).declarations = declarations.length ∧
      (ofDeclarations declarations).rules =
        Ranking.arrange Rule.precedes ((arrivals declarations).map Prod.fst) := by
  induction declarations using List.reverseRecOn with
  | nil => exact ⟨rfl, rfl⟩
  | append_singleton declarations declaration ih =>
    obtain ⟨count, rules⟩ := ih
    have last : arrivals (declarations ++ [declaration]) =
        arrivals declarations ++ (declaration.rules declarations.length).zipIdx := by
      simp [arrivals, List.zipIdx_append]
    have grown : ofDeclarations (declarations ++ [declaration]) =
        (ofDeclarations declarations).declare declaration := by
      rw [ofDeclarations, List.foldl_append]
      rfl
    rw [grown, last, List.map_append, List.zipIdx_map_fst, Ranking.arrange, List.foldl_append,
      List.length_append]
    refine ⟨congrArg (· + 1) count, ?_⟩
    rw [← Ranking.arrange, ← rules, ← count]
    rfl

/-- The rules of the table are the declared ones, each after all that are to be asked before it. -/
theorem exists_ranked (declarations : List Declaration) :
    ∃ ranked : List RankedRule, (ofDeclarations declarations).rules = ranked.map Prod.fst ∧
      ranked.Pairwise Before ∧ ∀ entry, entry ∈ ranked ↔ Declared declarations entry := by
  refine ⟨Ranking.arrange (fun a b => a.1.precedes b.1) (arrivals declarations), ?_, ?_, ?_⟩
  · rw [(rules_ofDeclarations declarations).2, Ranking.map_arrange]
  · refine Ranking.pairwise_arrange_stable (fun _ _ _ first second => first.trans second)
      ?_ ?_ (pairwise_arrivals declarations)
    · intro a b earlier asked
      unfold Rule.precedes at asked
      unfold Before
      simp only [Bool.or_eq_true, Bool.and_eq_true, decide_eq_true_eq] at asked
      omega
    · intro a b earlier asked
      unfold Rule.precedes at asked
      unfold Earlier at earlier
      unfold Before
      simp only [Bool.or_eq_false_iff, Bool.and_eq_false_iff, decide_eq_false_iff_not] at asked
      omega
  · intro entry
    rw [Ranking.mem_arrange, mem_arrivals_iff]

end RuleTable

end StreamPath
