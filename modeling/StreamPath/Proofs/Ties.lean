import StreamPath.Proofs.NumberOrder
import StreamPath.Proofs.Selection

/-!
# Ties between rules

Of rules with numerically equal priorities the one declared last is selected, with one exception: the
table ranks `0` above `-0`, however late a rule of priority `-0` is declared.

* `RuleTable.best_of_ties` — no rule that matches has a higher priority than the selected one, and
  one that was declared later has the same priority only as `-0` against `0`;
* `RuleTable.Tie.tie_of_zeros` — a rule of priority `0` is selected before a later one of `-0`.
-/

namespace StreamPath

/-- Two rules stand in the order of their priorities, as long as these are numbers. -/
theorem before_of_priority_lt {a b : RankedRule} (number : a.1.priority.number.isNaN = false)
    (other : b.1.priority.number.isNaN = false)
    (less : b.1.priority.number < a.1.priority.number) : Before a b :=
  .inl (Priority.orderKey_lt_of_lt other number less)

/-- Of equal priorities the later declaration comes first, or that of `0` against `-0`. -/
theorem before_of_priority_beq {a b : RankedRule} (number : a.1.priority.number.isNaN = false)
    (other : b.1.priority.number.isNaN = false)
    (equal : (b.1.priority.number == a.1.priority.number) = true)
    (later : b.1.index < a.1.index) :
    Before a b ∨ b.1.priority.number = 0 ∧ a.1.priority.number = -0.0 := by
  rcases Priority.orderKey_eq_of_beq other number equal with same | ⟨zero, minus, -⟩ | ⟨-, -, less⟩
  · exact .inl (.inr ⟨same.symm, .inl later⟩)
  · exact .inr ⟨zero, minus⟩
  · exact .inl (.inl less)

/-- If every declaration states a priority, each declared rule has one of these. -/
theorem exists_priority {declarations : List Declaration} {entry : RankedRule}
    (declared : Declared declarations entry)
    (stated : ∀ declaration ∈ declarations, declaration.priority?.isSome = true) :
    ∃ declaration ∈ declarations, declaration.priority? = some entry.1.priority := by
  obtain ⟨declaration, there, isRule⟩ := declared
  have mem := List.mem_of_getElem? there
  obtain ⟨priority, isStated⟩ := Option.isSome_iff_exists.mp (stated declaration mem)
  obtain ⟨alternative, -, same⟩ := List.mem_map.mp (List.mem_of_getElem? isRule)
  refine ⟨declaration, mem, ?_⟩
  rw [← same, isStated, Option.getD_some]

namespace RuleTable

/-- If no declared rule has an undefined priority and a rule is selected, then no rule that matches
has a greater priority. One that was declared later and matches does not have an equal priority,
unless the selected rule has the priority `0` and the later one `-0`. -/
theorem best_of_ties (declarations : List Declaration)
    (numbers : ∀ entry, Declared declarations entry → entry.1.priority.number.isNaN = false)
    (forest : Forest) (context : Context) (top : Nat) (rule : Rule)
    (selected : ((ofDeclarations declarations).best forest context top).1 = .ok (some rule))
    (other : Rule) (place : Nat) (declared : Declared declarations (other, place))
    (accepted : (forest.accepts other.pattern context top true).1 = .ok true) :
    ¬rule.priority.number < other.priority.number ∧
      ((rule.priority.number == other.priority.number) = true → rule.index < other.index →
        rule.priority.number = 0 ∧ other.priority.number = -0.0) := by
  have best := optimal_bestAmong declarations (fun _ => true) forest context top
  obtain ⟨own, ⟨ruleDeclared, -⟩, -, -, ahead⟩ := best.chosen rule selected
  -- what matches is not among the rules that are asked before the selected one
  have notBefore : ¬Before (other, place) (rule, own) := by
    intro before
    have refused := ahead (other, place) ⟨declared, rfl⟩ before
    rw [accepted] at refused
    cases refused
  have number : rule.priority.number.isNaN = false := numbers (rule, own) ruleDeclared
  have otherNumber : other.priority.number.isNaN = false := numbers (other, place) declared
  refine ⟨fun less => notBefore ?_, fun equal later => ?_⟩
  · exact @before_of_priority_lt (other, place) (rule, own) otherNumber number less
  · rcases @before_of_priority_beq (other, place) (rule, own) otherNumber number equal later with
      before | zeros
    · exact absurd before notBefore
    · exact zeros

/-! ## Two declarations of one pattern -/

namespace Tie

/-- An element below a document, where every test for nodes is satisfied. -/
def context : Context :=
  (({} : Context).push ⟨.document, []⟩).push ⟨.element (.unqualified "a"), []⟩

def forest : Forest := (Forest.empty.add (.nodeTest .anyNode)).2

/-- One test declared at one priority and then at another one. -/
def declarations (first second : Float) : List Declaration :=
  [⟨forest, ⟨0⟩, some (.ofNumber first), .root⟩, ⟨forest, ⟨0⟩, some (.ofNumber second), .root⟩]

theorem isNaN_of_declared {first second : Float} (one : first.isNaN = false)
    (two : second.isNaN = false) {entry : RankedRule}
    (declared : Declared (declarations first second) entry) :
    entry.1.priority.number.isNaN = false := by
  obtain ⟨declaration, mem, isStated⟩ := exists_priority declared (by simp [declarations])
  simp only [declarations, List.mem_cons, List.not_mem_nil, or_false] at mem
  rcases mem with rfl | rfl
  · rwa [← Option.some.inj isStated, Priority.number_ofNumber]
  · rwa [← Option.some.inj isStated, Priority.number_ofNumber]

/-- Of two declarations at the same priority the later one is selected. The earlier one matches too,
and its priority is not greater. -/
theorem best_of_equal :
    ∃ (rule other : Rule) (place : Nat),
      ((ofDeclarations (declarations 2 2)).best forest context 2).1 = .ok (some rule) ∧
      Declared (declarations 2 2) (other, place) ∧ other.index < rule.index ∧
      (forest.accepts other.pattern context 2 true).1 = .ok true ∧
      ¬rule.priority.number < other.priority.number := by
  have numbers : ∀ entry, Declared (declarations 2 2) entry →
      entry.1.priority.number.isNaN = false :=
    fun _ => isNaN_of_declared (by decide +kernel) (by decide +kernel)
  have declared : Declared (declarations 2 2) (⟨⟨0⟩, .ofNumber 2, .root, 0⟩, 0) := ⟨_, rfl, rfl⟩
  have selected : ((ofDeclarations (declarations 2 2)).best forest context 2).1 =
      .ok (some ⟨⟨0⟩, .ofNumber 2, .root, 1⟩) := rfl
  exact ⟨_, _, 0, selected, declared, by decide, rfl,
    (best_of_ties _ numbers forest context 2 _ selected _ 0 declared rfl).1⟩

/-- Of `0` and a later `-0`, which are numerically equal, the earlier declaration is selected, though
the later one matches. -/
theorem tie_of_zeros :
    (∀ entry, Declared (declarations 0 (-0.0)) entry → entry.1.priority.number.isNaN = false) ∧
    ∃ (rule other : Rule) (place : Nat),
      ((ofDeclarations (declarations 0 (-0.0))).best forest context 2).1 = .ok (some rule) ∧
      Declared (declarations 0 (-0.0)) (other, place) ∧
      (forest.accepts other.pattern context 2 true).1 = .ok true ∧
      (rule.priority.number == other.priority.number) = true ∧ rule.index < other.index := by
  refine ⟨fun _ => isNaN_of_declared (by decide +kernel) (by decide +kernel), ?_⟩
  exact ⟨⟨⟨0⟩, .ofNumber 0, .root, 0⟩, ⟨⟨0⟩, .ofNumber (-0.0), .root, 1⟩, 0, rfl,
    ⟨_, rfl, rfl⟩, rfl, by decide +kernel, by decide⟩

end Tie

end RuleTable

end StreamPath
