import StreamPath.Ancestors

/-!
# Counting siblings

An entry of the stack does not remember its children, only how many of each class there were. Here
the children are read off the moves that led to the stack, and the counts are shown to be right.

* `childrenOf` — the children opened directly below an entry since that entry was opened;
* `Ancestors.positionOf_play` — the position of an open node is the number of these children that the
  test selects.
-/

namespace StreamPath

/-- A move that changes the stack of open nodes. -/
inductive Move
  | push (event : Event)
  | pushOccurrence (occurrence : Occurrence)
  | pop

namespace Ancestors

/-- The stack after a move. -/
def move (stack : Ancestors) : Move → Ancestors
  | .push event => stack.push event
  | .pushOccurrence occurrence => stack.pushOccurrence occurrence
  | .pop => stack.pop

/-- The stack after some moves, the latest of which comes first. -/
def play : List Move → Ancestors
  | [] => empty
  | latest :: before => (play before).move latest

end Ancestors

/-- The event of the node that a move opens. -/
def Move.opened? : Move → Option Event
  | push event => some event
  | pushOccurrence occurrence => some occurrence.event
  | pop => none

/-- The children opened directly below the entry at a depth since that entry was opened, the latest
first; the moves are given in that order too. -/
def childrenOf (depth : Nat) : List Move → List Event
  | [] => []
  | latest :: before =>
    let height := (Ancestors.play before).height
    match latest.opened? with
    | some event =>
      -- the entry itself is opened, or a child of it, or something further up or down
      if depth = height then []
      else if depth + 1 = height then event :: childrenOf depth before
      else childrenOf depth before
    | none => if depth + 1 < height then childrenOf depth before else []

/-! ## Counts -/

/-- Adding one at each of some keys, all different, adds one at exactly these keys. -/
theorem find?_foldl_insert {κ : Type} [DecidableEq κ] (keys : List κ) (nodup : keys.Nodup)
    (table : Table κ Nat) (key : κ) :
    ((keys.foldl (fun counts k => counts.insert k ((counts.find? k).getD 0 + 1)) table).find?
      key).getD 0 = (table.find? key).getD 0 + if key ∈ keys then 1 else 0 := by
  induction keys generalizing table with
  | nil => simp
  | cons head rest ih =>
    obtain ⟨fresh, nodup⟩ := List.nodup_cons.mp nodup
    rw [List.foldl_cons, ih nodup, Table.find?_insert]
    by_cases same : head = key
    · subst same
      rw [if_pos rfl, if_neg fresh, if_pos List.mem_cons_self]
      rfl
    · rw [if_neg same]
      simp only [List.mem_cons, Ne.symm same, false_or]

/-- An entry counts a child in the class of a test exactly if the test selects the child. -/
theorem Entry.find?_countChild (entry : Entry) (event : Event) (test : NodeTest) :
    ((entry.countChild event).counts.find? test.siblingClass).getD 0 =
      (entry.counts.find? test.siblingClass).getD 0 + if test.selects event then 1 else 0 := by
  have counted := find?_foldl_insert (SiblingClass.classes event) (SiblingClass.nodup_classes event)
    entry.counts test.siblingClass
  simp only [SiblingClass.mem_classes_iff] at counted
  exact counted

namespace Ancestors

theorem count_eq_zero_of_le {stack : Ancestors} {depth : Nat} (above : stack.height ≤ depth)
    (kin : SiblingClass) : stack.count depth kin = 0 := by
  have none : stack.entries[depth]? = none := by
    apply Array.getElem?_eq_none
    exact above
  rw [count, none]
  rfl

/-- Opening a node counts it below the innermost entry, and starts without counts of its own. -/
theorem count_pushOccurrence (stack : Ancestors) (occurrence : Occurrence) (depth : Nat)
    (test : NodeTest) :
    (stack.pushOccurrence occurrence).count depth test.siblingClass =
      if depth = stack.height then 0
      else if depth + 1 = stack.height then
        stack.count depth test.siblingClass + if test.selects occurrence.event then 1 else 0
      else stack.count depth test.siblingClass := by
  by_cases top : depth = stack.height
  · subst top
    simp [count, pushOccurrence, height, Array.getElem_push]
  · have ne : depth ≠ stack.entries.size := top
    rw [if_neg top]
    simp only [count, pushOccurrence, Array.getElem?_push, Array.size_modify, ne, if_false,
      Array.getElem?_modify]
    by_cases parent : depth + 1 = stack.height
    · have inside : depth < stack.entries.size := by
        have : stack.height = stack.entries.size := rfl
        omega
      rw [if_pos parent, if_pos (by omega), Array.getElem?_eq_getElem inside]
      exact Entry.find?_countChild stack.entries[depth] occurrence.event test
    · rw [if_neg parent]
      by_cases innermost : stack.height - 1 = depth
      · -- only the empty stack has no innermost entry to count a child
        have empty : stack.entries.size ≤ depth := by
          have : stack.height = stack.entries.size := rfl
          omega
        rw [if_pos innermost, Array.getElem?_eq_none empty]
        rfl
      · rw [if_neg innermost]

/-- Closing a node leaves the counts of the entries below it. -/
theorem count_pop (stack : Ancestors) (depth : Nat) (kin : SiblingClass) :
    stack.pop.count depth kin = if depth + 1 < stack.height then stack.count depth kin else 0 := by
  by_cases below : depth + 1 < stack.height
  · have inside : depth < stack.entries.size - 1 := by
      have : stack.height = stack.entries.size := rfl
      omega
    rw [if_pos below, count, pop, Array.getElem?_pop, if_pos inside]
    rfl
  · rw [if_neg below]
    apply count_eq_zero_of_le
    rw [height_pop]
    omega

/-! ## Runs -/

/-- After every run, each entry has counted in the class of a test the children that the test
selects. -/
theorem count_play (moves : List Move) (depth : Nat) (test : NodeTest) :
    (play moves).count depth test.siblingClass = (childrenOf depth moves).countP test.selects := by
  have opens : ∀ (before : List Move) (occurrence : Occurrence),
      (play before).count depth test.siblingClass = (childrenOf depth before).countP test.selects →
      ((play before).pushOccurrence occurrence).count depth test.siblingClass =
        (childrenOf depth (.pushOccurrence occurrence :: before)).countP test.selects := by
    intro before occurrence ih
    rw [count_pushOccurrence, ih]
    simp only [childrenOf, Move.opened?]
    split
    · rfl
    · split
      · rw [List.countP_cons]
      · rfl
  induction moves with
  | nil => simp [play, childrenOf, count, empty]
  | cons latest before ih =>
    cases latest with
    | push event => exact opens before ⟨(play before).nextSerial, event⟩ ih
    | pushOccurrence occurrence => exact opens before occurrence ih
    | pop =>
      show (play before).pop.count depth test.siblingClass = _
      rw [count_pop, ih]
      simp only [childrenOf, Move.opened?]
      split <;> rfl

/-- After every run, a node that is open below another one is the latest child of that one. -/
theorem head?_childrenOf (moves : List Move) (depth : Nat) (occurrence : Occurrence)
    (there : (play moves).occurrence? (depth + 1) = some occurrence) :
    (childrenOf depth moves).head? = some occurrence.event := by
  have opens : ∀ (before : List Move) (latest : Occurrence),
      ((play before).occurrence? (depth + 1) = some occurrence →
        (childrenOf depth before).head? = some occurrence.event) →
      ((play before).pushOccurrence latest).occurrence? (depth + 1) = some occurrence →
      (childrenOf depth (.pushOccurrence latest :: before)).head? = some occurrence.event := by
    intro before latest ih there
    rw [occurrence?_pushOccurrence] at there
    simp only [childrenOf, Move.opened?]
    by_cases parent : depth + 1 = (play before).height
    · rw [if_pos parent] at there
      cases there
      rw [if_neg (by omega), if_pos parent]
      rfl
    · rw [if_neg parent] at there
      -- the entry above this depth was open before, so the depth itself was
      have inside := lt_height_of_occurrence? there
      rw [if_neg (by omega), if_neg parent]
      exact ih there
  induction moves with
  | nil => simp [play, occurrence?, empty] at there
  | cons latest before ih =>
    cases latest with
    | push event => exact opens before ⟨(play before).nextSerial, event⟩ ih there
    | pushOccurrence other => exact opens before other ih there
    | pop =>
      change (play before).pop.occurrence? (depth + 1) = some occurrence at there
      rw [occurrence?_pop] at there
      simp only [childrenOf, Move.opened?]
      split at there
      · rw [if_pos (by omega)]
        exact ih there
      · cases there

/-- After every run, the position of an open node among the siblings of a test is the number of
children that the test selects below the same parent, itself the latest of them. -/
theorem positionOf_play (moves : List Move) (depth : Nat) (test : NodeTest) :
    (play moves).positionOf (depth + 1) test = (childrenOf depth moves).countP test.selects :=
  count_play moves depth test

end Ancestors

end StreamPath
