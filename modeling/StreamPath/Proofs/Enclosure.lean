import StreamPath.Proofs.Activations
import StreamPath.Proofs.OpenPrefix

/-!
# A body below a node

A body can run below a node that is opened for it. Whatever it does there, as long as it never closes
this node, nothing but one count of the innermost node open before can be told from the stack when the
body has ended: the node is closed, with everything that the body left open above it.

* `KeepsOpen` — a run during which a number of nodes stay open;
* `KeepsOpen.perform`, `KeepsOpen.withGroup`, `KeepsOpen.withEntry` — what such a run can consist of;
* `KeepsOpen.given_or_new` — where an occurrence comes from that is opened during the run;
* `Context.withEntry_restores` — what a body below a node leaves behind.
-/

namespace StreamPath

/-! ## Stacks -/

/-- Every class of siblings is the one of a test. -/
theorem SiblingClass.exists_test (kin : SiblingClass) : ∃ test : NodeTest, test.siblingClass = kin := by
  cases kin with
  | anyNode => exact ⟨.anyNode, rfl⟩
  | anyElement => exact ⟨.anyElement, rfl⟩
  | element name => exact ⟨.element name, rfl⟩
  | elementIn uri => exact ⟨.elementIn uri, rfl⟩
  | elementNamed localPart => exact ⟨.elementNamed localPart, rfl⟩
  | text => exact ⟨.text, rfl⟩
  | cdata => exact ⟨.cdata, rfl⟩
  | comment => exact ⟨.comment, rfl⟩
  | anyInstruction => exact ⟨.instruction none, rfl⟩
  | instruction target => exact ⟨.instruction (some target), rfl⟩

namespace Ancestors

variable {stack : Ancestors} {height : Nat}

theorem getElem?_truncate (stack : Ancestors) (height depth : Nat) :
    (stack.truncate height).entries[depth]? = if depth < height then stack.entries[depth]? else none := by
  show (stack.entries.extract 0 height)[depth]? = _
  rw [Array.getElem?_extract]
  by_cases inside : depth < stack.entries.size
  · simp [inside]
  · have none : stack.entries[depth]? = none := Array.getElem?_eq_none (Nat.not_lt.mp inside)
    simp [none]

/-- Closing nodes down to a height leaves the ones below it where they are. -/
theorem occurrence?_truncate (stack : Ancestors) (height depth : Nat) :
    (stack.truncate height).occurrence? depth =
      if depth < height then stack.occurrence? depth else none := by
  unfold occurrence?
  rw [getElem?_truncate]
  split <;> rfl

theorem count_truncate (stack : Ancestors) (height depth : Nat) (kin : SiblingClass) :
    (stack.truncate height).count depth kin =
      if depth < height then stack.count depth kin else 0 := by
  unfold count
  rw [getElem?_truncate]
  split <;> rfl

/-- Where no more nodes are open, none are closed. -/
theorem truncate_of_le (le : stack.height ≤ height) : stack.truncate height = stack := by
  have whole : stack.entries.take height = stack.entries := Array.extract_eq_self_of_le le
  rw [truncate, whole]

/-- Where more nodes are open, the innermost one can be closed first. -/
theorem truncate_pop (lt : height < stack.height) :
    stack.pop.truncate height = stack.truncate height := by
  have most : stack.entries.pop.take height = stack.entries.take height := by
    have fits : min height (stack.entries.size - 1) = height := by
      have : height < stack.entries.size := lt
      omega
    rw [← Array.extract_eq_pop rfl]
    show (stack.entries.extract 0 _).extract 0 height = stack.entries.extract 0 height
    rw [Array.extract_extract, Nat.zero_add, Nat.zero_add, fits]
  rw [truncate, truncate, pop, most]

theorem nextSerial_le_move (stack : Ancestors) (next : Move) :
    stack.nextSerial ≤ (stack.move next).nextSerial := by
  cases next with
  | push event => exact Nat.le_max_left _ _
  | pushOccurrence occurrence => exact Nat.le_max_left _ _
  | pop => exact Nat.le_refl _

/-- What is open after a move was open before, or is new, or was given to the move. -/
theorem given_or_new_move {next : Move} {depth : Nat} {occurrence : Occurrence}
    (there : (stack.move next).occurrence? depth = some occurrence) :
    stack.occurrence? depth = some occurrence ∨ stack.nextSerial ≤ occurrence.serial ∨
      next = .pushOccurrence occurrence := by
  cases next with
  | push event =>
    change (stack.pushOccurrence ⟨stack.nextSerial, event⟩).occurrence? depth = _ at there
    rw [occurrence?_pushOccurrence] at there
    split at there
    · cases there
      exact .inr (.inl (Nat.le_refl _))
    · exact .inl there
  | pushOccurrence given =>
    change (stack.pushOccurrence given).occurrence? depth = _ at there
    rw [occurrence?_pushOccurrence] at there
    split at there
    · cases there
      exact .inr (.inr rfl)
    · exact .inl there
  | pop =>
    change stack.pop.occurrence? depth = _ at there
    rw [occurrence?_pop] at there
    split at there
    · exact .inl there
    · cases there

/-- What is live depends on where which occurrences are open. -/
theorem isLive_congr {other : Ancestors}
    (same : ∀ depth, other.occurrence? depth = stack.occurrence? depth) (node : Node) :
    other.isLive node = stack.isLive node := by
  cases node with
  | entry depth occurrence => rw [isLive, isLive, same]
  | attr owner index =>
    rw [Bool.eq_iff_iff, isLive_attr_iff, isLive_attr_iff]
    simp only [same]

/-- The serial numbers of the open occurrences have all been given out. -/
def Numbered (stack : Ancestors) : Prop :=
  ∀ depth occurrence, stack.occurrence? depth = some occurrence →
    occurrence.serial < stack.nextSerial

theorem numbered_empty : empty.Numbered := by
  intro depth occurrence there
  cases there

theorem Numbered.pushOccurrence (numbered : stack.Numbered) (occurrence : Occurrence) :
    (stack.pushOccurrence occurrence).Numbered := by
  intro depth other there
  rw [occurrence?_pushOccurrence] at there
  split at there
  · cases there
    exact Nat.le_max_right _ _
  · exact Nat.lt_of_lt_of_le (numbered depth other there) (Nat.le_max_left _ _)

theorem Numbered.move (numbered : stack.Numbered) (next : Move) : (stack.move next).Numbered := by
  cases next with
  | push event => exact numbered.pushOccurrence ⟨stack.nextSerial, event⟩
  | pushOccurrence occurrence => exact numbered.pushOccurrence occurrence
  | pop =>
    intro depth occurrence there
    change stack.pop.occurrence? depth = _ at there
    rw [occurrence?_pop] at there
    split at there
    · exact numbered depth occurrence there
    · cases there

/-- An entry is not live above the open nodes. -/
theorem isLive_entry_of_le {depth : Nat} (above : stack.height ≤ depth) (occurrence : Occurrence) :
    stack.isLive (.entry depth occurrence) = false := by
  have none : stack.occurrence? depth = none := by
    rw [Option.eq_none_iff_forall_ne_some]
    intro other there
    exact absurd (lt_height_of_occurrence? there) (Nat.not_lt.mpr above)
  rw [isLive, none]
  rfl

/-- An attribute is not live if the number of its owner has not been given out. -/
theorem Numbered.isLive_attr (numbered : stack.Numbered) {owner : Occurrence}
    (new : stack.nextSerial ≤ owner.serial) (index : Nat) :
    stack.isLive (.attr owner index) = false := by
  rw [Bool.eq_false_iff]
  intro live
  obtain ⟨depth, same⟩ := isLive_attr_iff.mp live
  obtain ⟨other, isOpen, same⟩ := (Option.any_eq_true _ _).mp same
  have older := numbered depth other isOpen
  have equal : owner.serial = other.serial := of_decide_eq_true same
  omega

end Ancestors

/-! ## Runs -/

/-- A run from one context to another during which at least `floor` nodes are open at every time, told
by the moves of its stack, the latest first. Anything that is not a move leaves the stack as it is. -/
inductive KeepsOpen (floor : Nat) (start : Context) : List Move → Context → Prop
  | rest : KeepsOpen floor start [] start
  | move {moves : List Move} {before after : Context} (next : Move) :
      KeepsOpen floor start moves before → after.stack = before.stack.move next →
      floor ≤ after.stack.height → KeepsOpen floor start (next :: moves) after
  | other {moves : List Move} {before after : Context} : KeepsOpen floor start moves before →
      after.stack = before.stack → KeepsOpen floor start moves after

/-- An occurrence is open at a depth at some moment of a run. -/
def OpenDuring (floor : Nat) (start : Context) (moves : List Move) (depth : Nat)
    (occurrence : Occurrence) : Prop :=
  ∃ later earlier moment, moves = later ++ earlier ∧ KeepsOpen floor start earlier moment ∧
    moment.stack.occurrence? depth = some occurrence

@[simp] theorem Context.height_push (context : Context) (event : Event) :
    (context.push event).stack.height = context.stack.height + 1 :=
  Ancestors.height_push context.stack event

namespace KeepsOpen

variable {floor : Nat} {start context : Context} {moves : List Move}

theorem trans {final : Context} {more : List Move} (first : KeepsOpen floor start moves context)
    (second : KeepsOpen floor context more final) : KeepsOpen floor start (more ++ moves) final := by
  induction second with
  | rest => exact first
  | move next _ moved above ih => exact ih.move next moved above
  | other _ same ih => exact ih.other same

theorem reachedAbove (run : KeepsOpen floor start moves context)
    (enough : floor ≤ start.stack.height) :
    Ancestors.ReachedAbove floor start.stack context.stack := by
  induction run with
  | rest => exact .start enough
  | move next _ moved above ih =>
    rw [moved] at above ⊢
    exact ih.move next above
  | other _ same ih => rwa [same]

theorem height_le (run : KeepsOpen floor start moves context)
    (enough : floor ≤ start.stack.height) : floor ≤ context.stack.height :=
  (run.reachedAbove enough).height_le

/-! ## What a run can consist of -/

/-- Opening a node leaves enough nodes open. -/
theorem push (run : KeepsOpen floor start moves context) (enough : floor ≤ start.stack.height)
    (event : Event) : KeepsOpen floor start (.push event :: moves) (context.push event) := by
  refine run.move (.push event) rfl ?_
  rw [Context.height_push]
  exact Nat.le_succ_of_le (run.height_le enough)

/-- An operation that leaves enough nodes open is such a run, of one move at most. -/
theorem perform (forest : Forest) (operation : Operation) (context : Context)
    (above : floor ≤ (operation.perform forest context).2.stack.height) :
    ∃ next? : Option Move,
      KeepsOpen floor context next?.toList (operation.perform forest context).2 := by
  rcases operation.outcome forest context with
    same | ⟨next, moved⟩ | ⟨locals, replaced⟩ | ⟨name, value, assigned⟩
  · exact ⟨none, rest.other (congrArg Scene.stack same)⟩
  · exact ⟨some next, rest.move next (by rw [moved]) above⟩
  · exact ⟨none, rest.other (by rw [replaced])⟩
  · exact ⟨none, rest.other (by rw [assigned, Context.attempt_assign_frame])⟩

/-- Nodes can be closed down to any height at which enough are open. -/
theorem closeAbove {height : Nat} (run : KeepsOpen floor start moves context)
    (enough : floor ≤ height) :
    KeepsOpen floor start (List.replicate (context.stack.height - height) .pop ++ moves)
      (context.closeAbove height) := by
  induction surplus : context.stack.height - height generalizing context moves with
  | zero =>
    exact run.other (Ancestors.truncate_of_le (Nat.sub_eq_zero_iff_le.mp surplus))
  | succ surplus' ih =>
    have lower : context.pop.stack.height = context.stack.height - 1 :=
      Ancestors.height_pop context.stack
    have popped : KeepsOpen floor start (.pop :: moves) context.pop :=
      run.move .pop rfl (by omega)
    have closed := ih popped (by omega)
    have same : context.pop.closeAbove height = context.closeAbove height := by
      unfold Context.closeAbove
      rw [show context.pop.stack = context.stack.pop from rfl, Ancestors.truncate_pop (by omega)]
      rfl
    rw [same] at closed
    rw [List.replicate_succ', List.append_assoc]
    exact closed

/-- A body that runs in a group makes a run together with entering the group and leaving it. -/
theorem withGroup {α : Type} {group : GroupId} {body : Context → Except Diagnostic α × Context}
    (run : KeepsOpen floor (start.enter group) moves (body (start.enter group)).2) :
    KeepsOpen floor start moves (start.withGroup (m := Id) group body).2 := by
  have entered : KeepsOpen floor start [] (start.enter group) := rest.other rfl
  have ran := entered.trans run
  rw [List.append_nil] at ran
  refine ran.other ?_
  obtain ⟨_, _, finished⟩ := (body (start.enter group)).2.finishGroup_frame
    start.activations.length group (body (start.enter group)).1
  show (Context.finishGroup _ _ _ _).2.stack = _
  rw [finished]

/-- So does a body below a node, which closes at its end as many nodes as the body left open. -/
theorem withEntry {ρ : Type} {event : Event} {body : Context → ρ × Context} {left : Nat}
    (enough : floor ≤ start.stack.height)
    (run : KeepsOpen floor (start.push event) moves (body (start.push event)).2)
    (leaves : (body (start.push event)).2.stack.height - start.stack.height = left) :
    KeepsOpen floor start (List.replicate left .pop ++ (moves ++ [.push event]))
      (start.withEntry (m := Id) event body).2 := by
  have closed := ((rest.push enough event).trans run).closeAbove enough
  rwa [leaves] at closed

/-! ## What is opened -/

/-- All serial numbers are given out by the stack, at every moment of a run. -/
theorem numbered (run : KeepsOpen floor start moves context) (before : start.stack.Numbered) :
    context.stack.Numbered := by
  induction run with
  | rest => exact before
  | move next _ moved _ ih =>
    rw [moved]
    exact ih.move next
  | other _ same ih => rwa [same]

theorem nextSerial_le (run : KeepsOpen floor start moves context) :
    start.stack.nextSerial ≤ context.stack.nextSerial := by
  induction run with
  | rest => exact Nat.le_refl _
  | move next _ moved _ ih =>
    rw [moved]
    exact Nat.le_trans ih (Ancestors.nextSerial_le_move _ next)
  | other _ same ih => rwa [same]

/-- What is open at the end was open at the beginning, or is new, or was given to the run. -/
theorem given_or_new (run : KeepsOpen floor start moves context) {depth : Nat}
    {occurrence : Occurrence} (there : context.stack.occurrence? depth = some occurrence) :
    start.stack.occurrence? depth = some occurrence ∨ start.stack.nextSerial ≤ occurrence.serial ∨
      Move.pushOccurrence occurrence ∈ moves := by
  induction run with
  | rest => exact .inl there
  | move next before moved _ ih =>
    rw [moved] at there
    rcases Ancestors.given_or_new_move there with before? | new | given
    · rcases ih before? with first | new | given
      · exact .inl first
      · exact .inr (.inl new)
      · exact .inr (.inr (List.mem_cons_of_mem _ given))
    · exact .inr (.inl (Nat.le_trans before.nextSerial_le new))
    · exact .inr (.inr (given ▸ List.mem_cons_self))
  | other _ same ih =>
    rw [same] at there
    exact ih there

/-- What is open at the depth of a new node or above it, and was not given to the run, has a number
that was not given out before the node. -/
theorem nextSerial_le_serial {event : Event}
    (run : KeepsOpen floor (start.push event) moves context) {depth : Nat} {occurrence : Occurrence}
    (inside : start.stack.height ≤ depth)
    (there : context.stack.occurrence? depth = some occurrence)
    (own : Move.pushOccurrence occurrence ∉ moves) :
    start.stack.nextSerial ≤ occurrence.serial := by
  rcases run.given_or_new there with first | new | given
  · change (start.stack.pushOccurrence ⟨start.stack.nextSerial, event⟩).occurrence? depth = _ at first
    rw [Ancestors.occurrence?_pushOccurrence] at first
    split at first
    · cases first
      exact Nat.le_refl _
    · exact absurd (Ancestors.lt_height_of_occurrence? first) (Nat.not_lt.mpr inside)
  · exact Nat.le_trans (Ancestors.nextSerial_le_move start.stack (.push event)) new
  · exact absurd given own

end KeepsOpen

namespace Context

section Body

variable {ρ : Type} {context after : Context} {event : Event} {body : Context → ρ × Context}
  {result : ρ} {moves : List Move}

theorem withEntry_eq (ended : body (context.push event) = (result, after)) :
    context.withEntry (m := Id) event body = (result, after.closeAbove context.stack.height) := by
  show ((body (context.push event)).1, (body (context.push event)).2.closeAbove _) = _
  rw [ended]

/-- What a run above a new node has not closed is what was there before the node. -/
theorem occurrence?_closeAbove
    (run : KeepsOpen (context.stack.height + 1) (context.push event) moves after) (depth : Nat) :
    (after.closeAbove context.stack.height).stack.occurrence? depth =
      context.stack.occurrence? depth := by
  have agree := (run.reachedAbove (height_push context event).ge).agree
  show (after.stack.truncate _).occurrence? depth = _
  rw [Ancestors.occurrence?_truncate]
  by_cases below : depth < context.stack.height
  · rw [if_pos below, agree.occurrences depth (Nat.lt_succ_of_lt below)]
    show (context.stack.pushOccurrence _).occurrence? depth = _
    rw [Ancestors.occurrence?_pushOccurrence, if_neg (Nat.ne_of_lt below)]
  · rw [if_neg below]
    cases there : context.stack.occurrence? depth with
    | none => rfl
    | some occurrence => exact absurd (Ancestors.lt_height_of_occurrence? there) below

/-- The node itself is what the innermost node before it has counted. -/
theorem count_closeAbove
    (run : KeepsOpen (context.stack.height + 1) (context.push event) moves after) (depth : Nat)
    (kin : SiblingClass) :
    (after.closeAbove context.stack.height).stack.count depth kin = context.stack.count depth kin +
      if depth + 1 = context.stack.height ∧ kin ∈ SiblingClass.classes event then 1 else 0 := by
  obtain ⟨test, rfl⟩ := kin.exists_test
  have agree := (run.reachedAbove (height_push context event).ge).agree
  show (after.stack.truncate _).count depth _ = _
  rw [Ancestors.count_truncate]
  by_cases below : depth < context.stack.height
  · rw [if_pos below, agree.counts depth (Nat.succ_lt_succ below)]
    show (context.stack.pushOccurrence _).count depth _ = _
    rw [Ancestors.count_pushOccurrence, if_neg (Nat.ne_of_lt below)]
    by_cases innermost : depth + 1 = context.stack.height <;>
      simp [innermost, SiblingClass.mem_classes_iff]
  · have above : context.stack.height ≤ depth := Nat.not_lt.mp below
    rw [if_neg below, Ancestors.count_eq_zero_of_le above, if_neg fun innermost => by omega]

/-- A body that runs below a new node, and never closes this node or one that was open before, gives
the stack back, whatever its result is and whatever it leaves open: the same occurrences are open at
the same depths, every entry has counted the same children, but for the new node itself, which the
innermost entry has counted in each of its classes, and the same references are live. No reference to
an entry that was opened inside is live, nor one to an attribute of such an entry, unless the entry was
given to the body as an occurrence from elsewhere. -/
theorem withEntry_restores (ended : body (context.push event) = (result, after))
    (run : KeepsOpen (context.stack.height + 1) (context.push event) moves after) :
    let done := context.withEntry (m := Id) event body
    done.1 = result ∧ done.2 = { after with stack := done.2.stack } ∧
    done.2.stack.height = context.stack.height ∧
    (∀ depth, done.2.stack.occurrence? depth = context.stack.occurrence? depth) ∧
    (∀ depth kin, done.2.stack.count depth kin = context.stack.count depth kin +
      if depth + 1 = context.stack.height ∧ kin ∈ SiblingClass.classes event then 1 else 0) ∧
    (∀ node, done.2.stack.isLive node = context.stack.isLive node) ∧
    ∀ depth occurrence, context.stack.height ≤ depth →
      OpenDuring (context.stack.height + 1) (context.push event) moves depth occurrence →
      done.2.stack.isLive (.entry depth occurrence) = false ∧
      (context.stack.Numbered → Move.pushOccurrence occurrence ∉ moves →
        ∀ index, done.2.stack.isLive (.attr occurrence index) = false) := by
  intro done
  have isDone : done = (result, after.closeAbove context.stack.height) := withEntry_eq ended
  have live : ∀ node, (after.closeAbove context.stack.height).stack.isLive node =
      context.stack.isLive node := Ancestors.isLive_congr (occurrence?_closeAbove run)
  rw [isDone]
  refine ⟨rfl, rfl, ?_, occurrence?_closeAbove run, count_closeAbove run, live, ?_⟩
  · have above := run.height_le (height_push context event).ge
    show (after.stack.truncate _).height = _
    rw [Ancestors.height_truncate]
    omega
  · rintro depth occurrence inside ⟨later, earlier, moment, rfl, ran, there⟩
    constructor
    · rw [live, Ancestors.isLive_entry_of_le inside]
    · intro numbered own index
      have given : Move.pushOccurrence occurrence ∉ earlier :=
        fun given => own (List.mem_append_right _ given)
      rw [live, numbered.isLive_attr (ran.nextSerial_le_serial inside there given)]

end Body

end Context

/-! ## A body that fails -/

namespace Unbalanced

def element : Event := ⟨.element (.unqualified "a"), [⟨.unqualified "x", "1"⟩]⟩

/-- A document and an element are open. -/
def start : Context := (Context.push {} ⟨.document, []⟩).push element

/-- From the very beginning to this context. -/
theorem keepsOpen_start : KeepsOpen 0 {} [.push element, .push ⟨.document, []⟩] start :=
  (KeepsOpen.rest.push (Nat.zero_le _) ⟨.document, []⟩).push (Nat.zero_le _) element

/-- A body that opens a node and fails. -/
def failing (context : Context) : Except Diagnostic Unit × Context :=
  (.error (context.diagnose (.undeclaredVariable (.unqualified "x"))), context.push ⟨.text "t", []⟩)

/-- In a group, that body runs below a node. -/
def grouped (context : Context) : Except Diagnostic Unit × Context :=
  context.withGroup (m := Id) ⟨0⟩ fun inner => inner.withEntry (m := Id) element failing

/-- A body that does this above a node of its own, and then opens the element at depth one again. -/
def body (context : Context) : Except Diagnostic Unit × Context :=
  let done := grouped (context.push ⟨.comment "c", []⟩)
  (done.1, done.2.pushOccurrence ⟨1, element⟩)

/-- The moves of that body. -/
def moves : List Move :=
  [.pushOccurrence ⟨1, element⟩, .pop, .pop, .push ⟨.text "t", []⟩, .push element,
    .push ⟨.comment "c", []⟩]

variable {floor : Nat} {context : Context}

theorem keepsOpen_grouped (enough : floor ≤ context.stack.height) :
    KeepsOpen floor context [.pop, .pop, .push ⟨.text "t", []⟩, .push element]
      (grouped context).2 := by
  let entered := context.enter ⟨0⟩
  have above : floor ≤ (entered.push element).stack.height := by
    rw [Context.height_push]
    exact Nat.le_succ_of_le enough
  have leaves : (failing (entered.push element)).2.stack.height - entered.stack.height = 2 := by
    simp [failing, Nat.add_assoc]
  have failed : KeepsOpen floor (entered.push element) [.push ⟨.text "t", []⟩]
      (failing (entered.push element)).2 := KeepsOpen.rest.push above ⟨.text "t", []⟩
  have below : KeepsOpen floor entered _ (entered.withEntry (m := Id) element failing).2 :=
    KeepsOpen.withEntry enough failed leaves
  exact KeepsOpen.withGroup below

/-- The body closes no node that was open before it. -/
theorem keepsOpen_body (enough : floor ≤ context.stack.height) :
    KeepsOpen floor context moves (body context).2 := by
  have first := KeepsOpen.rest.push enough ⟨.comment "c", []⟩
  have nested := first.trans (keepsOpen_grouped (first.height_le enough))
  refine nested.move (.pushOccurrence ⟨1, element⟩) rfl ?_
  show floor ≤ (Ancestors.pushOccurrence _ _).height
  rw [Ancestors.height_pushOccurrence]
  exact Nat.le_succ_of_le (nested.height_le enough)

/-- The body fails and leaves two nodes open. Afterwards one more element has been counted, references
to the element of before are live, and there is none to the one that was opened for the body. -/
theorem restored_after_failure :
    let done := start.withEntry (m := Id) element body
    (∃ failure, done.1 = .error failure) ∧ (body (start.push element)).2.stack.height = 5 ∧
    done.2.stack.height = 2 ∧
    (start.stack.count 1 .anyElement = 0 ∧ done.2.stack.count 1 .anyElement = 1) ∧
    done.2.stack.isLive (.attr ⟨1, element⟩ 0) = true ∧
    done.2.stack.isLive (.entry 2 ⟨2, element⟩) = false ∧
    done.2.stack.isLive (.attr ⟨2, element⟩ 0) = false := by
  intro done
  have ended : body (start.push element) = (_, (body (start.push element)).2) := rfl
  obtain ⟨result, -, height, -, counts, live, closed⟩ :=
    Context.withEntry_restores ended (keepsOpen_body (by decide))
  obtain ⟨entry, attr⟩ := closed 2 ⟨2, element⟩ (Nat.le_refl 2)
    ⟨moves, [], start.push element, rfl, .rest, rfl⟩
  have numbered : start.stack.Numbered := keepsOpen_start.numbered Ancestors.numbered_empty
  have own : Move.pushOccurrence ⟨2, element⟩ ∉ moves := by simp [moves]
  refine ⟨⟨_, result⟩, by decide, height, ⟨by decide, ?_⟩, ?_, entry, attr numbered own 0⟩
  · exact (counts 1 .anyElement).trans (by decide)
  · exact (live (.attr ⟨1, element⟩ 0)).trans (by decide)

end Unbalanced

end StreamPath
