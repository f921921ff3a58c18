import StreamPath.Proofs.SiblingCount

/-!
# How long a reference is live

A reference to an open node is taken at one moment of a run and asked about at a later one. As long
as no occurrence is opened twice, the answer is decided by the moves in between: the reference is
live until a move closes the very entry that it was taken from, and never again after that.

* `occurrence?_of_not_closedSince` — an entry that no move has closed is where it was;
* `not_open_of_closedSince` — an occurrence that a move has closed is open nowhere;
* `isLive_play_iff` — a reference is live exactly as long as its entry has not been closed.
-/

namespace StreamPath

namespace Ancestors

/-- The occurrences that some moves open, the latest first. -/
def opened : List Move → List Occurrence
  | [] => []
  | .push event :: before => ⟨(play before).nextSerial, event⟩ :: opened before
  | .pushOccurrence occurrence :: before => occurrence :: opened before
  | .pop :: before => opened before

/-- No occurrence is opened twice. -/
def Fresh (moves : List Move) : Prop :=
  (opened moves).Pairwise fun late early => late.same early = false

/-- A reference to the entry open at a depth, or to an attribute of that entry. -/
inductive Taken (stack : Ancestors) (depth : Nat) : Node → Prop
  | entry {node : Node} (taken : stack.node? depth = some node) : Taken stack depth node
  | attr {owner : Occurrence} (index : Nat) (taken : stack.occurrence? depth = some owner) :
    Taken stack depth (.attr owner index)

/-- One of the later moves has closed the entry at a depth: it came when that entry was the innermost
one. -/
def ClosedSince (earlier : List Move) (depth : Nat) (later : List Move) : Prop :=
  ∃ after before, later = after ++ .pop :: before ∧ (play (before ++ earlier)).height = depth + 1

/-! ## One move -/

/-- What a move comes to: one occurrence is opened, or the innermost entry is closed. -/
inductive Outcome (before : List Move) : Move → Prop
  | opens {latest : Move} (occurrence : Occurrence)
    (play_eq : play (latest :: before) = (play before).pushOccurrence occurrence)
    (opened_eq : opened (latest :: before) = occurrence :: opened before)
    (noPop : latest ≠ .pop) : Outcome before latest
  | closes : Outcome before .pop

theorem outcome (before : List Move) (latest : Move) : Outcome before latest := by
  cases latest with
  | push event => exact .opens ⟨(play before).nextSerial, event⟩ rfl rfl Move.noConfusion
  | pushOccurrence occurrence => exact .opens occurrence rfl rfl Move.noConfusion
  | pop => exact .closes

theorem Fresh.tail {latest : Move} {before : List Move} (fresh : Fresh (latest :: before)) :
    Fresh before := by
  cases outcome before latest with
  | opens occurrence _ opened_eq =>
    rw [Fresh, opened_eq] at fresh
    exact (List.pairwise_cons.mp fresh).2
  | closes => exact fresh

theorem Fresh.of_append {later earlier : List Move} (fresh : Fresh (later ++ earlier)) :
    Fresh earlier := by
  induction later with
  | nil => exact fresh
  | cons latest before ih => exact ih fresh.tail

/-- A move closes the entry at a depth if it closes an entry and that one is the innermost. -/
theorem closedSince_cons {earlier later : List Move} {depth : Nat} {latest : Move} :
    ClosedSince earlier depth (latest :: later) ↔
      ClosedSince earlier depth later ∨
        latest = .pop ∧ (play (later ++ earlier)).height = depth + 1 := by
  constructor
  · rintro ⟨_ | ⟨_, after⟩, before, split, innermost⟩
    · cases split
      exact .inr ⟨rfl, innermost⟩
    · cases split
      exact .inl ⟨after, before, rfl, innermost⟩
  · rintro (⟨after, before, rfl, innermost⟩ | ⟨rfl, innermost⟩)
    · exact ⟨latest :: after, before, rfl, innermost⟩
    · exact ⟨[], later, rfl, innermost⟩

/-- What has been closed stays closed, whatever moves follow. -/
theorem ClosedSince.append {earlier soon : List Move} {depth : Nat}
    (closed : ClosedSince earlier depth soon) (late : List Move) :
    ClosedSince earlier depth (late ++ soon) := by
  obtain ⟨after, before, rfl, innermost⟩ := closed
  exact ⟨late ++ after, before, by simp only [List.append_assoc], innermost⟩

/-! ## Opened occurrences -/

/-- A new serial number exceeds the number of every occurrence opened before. -/
theorem serial_lt_nextSerial {moves : List Move} {occurrence : Occurrence}
    (there : occurrence ∈ opened moves) : occurrence.serial < (play moves).nextSerial := by
  induction moves with
  | nil => cases there
  | cons latest before ih =>
    cases outcome before latest with
    | opens newest play_eq opened_eq =>
      have next : (play (latest :: before)).nextSerial =
        max (play before).nextSerial (newest.serial + 1) := by rw [play_eq]; rfl
      rw [opened_eq] at there
      cases there with
      | head => omega
      | tail _ there => have := ih there; omega
    | closes => exact ih there

/-- If every move opens a node of its own or closes one, then no occurrence is opened twice. -/
theorem fresh_of_push {moves : List Move}
    (own : ∀ occurrence, Move.pushOccurrence occurrence ∉ moves) : Fresh moves := by
  induction moves with
  | nil => exact .nil
  | cons latest before ih =>
    have rest : Fresh before :=
      ih fun occurrence there => own occurrence (List.mem_cons_of_mem _ there)
    cases latest with
    | push event =>
      refine List.pairwise_cons.mpr ⟨fun occurrence there => ?_, rest⟩
      have older := serial_lt_nextSerial there
      exact decide_eq_false (Nat.ne_of_gt older)
    | pushOccurrence occurrence => exact absurd List.mem_cons_self (own occurrence)
    | pop => exact rest

/-- Later moves do not change what was opened before them. -/
theorem mem_opened_append {earlier : List Move} {occurrence : Occurrence}
    (there : occurrence ∈ opened earlier) (later : List Move) :
    occurrence ∈ opened (later ++ earlier) := by
  induction later with
  | nil => exact there
  | cons latest before ih =>
    cases outcome (before ++ earlier) latest with
    | opens newest _ opened_eq =>
      rw [List.cons_append, opened_eq]
      exact List.mem_cons_of_mem _ ih
    | closes => exact ih

/-- What is open was opened by one of the moves. -/
theorem mem_opened_of_occurrence? {moves : List Move} {depth : Nat} {occurrence : Occurrence}
    (there : (play moves).occurrence? depth = some occurrence) : occurrence ∈ opened moves := by
  induction moves with
  | nil => simp [play, occurrence?, empty] at there
  | cons latest before ih =>
    cases outcome before latest with
    | opens newest play_eq opened_eq =>
      rw [play_eq, occurrence?_pushOccurrence] at there
      rw [opened_eq]
      split at there
      · cases there
        exact List.mem_cons_self
      · exact List.mem_cons_of_mem _ (ih there)
    | closes =>
      rw [play, move, occurrence?_pop] at there
      split at there
      · exact ih there
      · cases there

/-- If no occurrence is opened twice, then none is open at two depths. -/
theorem depth_eq_of_same {moves : List Move} (fresh : Fresh moves) {depth other : Nat}
    {a b : Occurrence} (first : (play moves).occurrence? depth = some a)
    (second : (play moves).occurrence? other = some b) (same : a.same b = true) :
    depth = other := by
  induction moves with
  | nil => simp [play, occurrence?, empty] at first
  | cons latest before ih =>
    have unopened := fresh
    cases outcome before latest with
    | opens newest play_eq opened_eq =>
      rw [Fresh, opened_eq] at unopened
      have differs := (List.pairwise_cons.mp unopened).1
      rw [play_eq, occurrence?_pushOccurrence] at first second
      split at first <;> split at second
      · omega
      · cases first
        rw [differs b (mem_opened_of_occurrence? second)] at same
        cases same
      · cases second
        rw [Occurrence.same_comm, differs a (mem_opened_of_occurrence? first)] at same
        cases same
      · exact ih fresh.tail first second
    | closes =>
      rw [play, move, occurrence?_pop] at first second
      split at first <;> split at second
      · exact ih fresh.tail first second
      all_goals first | cases first | cases second

/-! ## From one moment to a later one -/

variable {earlier later : List Move} {depth : Nat} {occurrence : Occurrence}

/-- An entry that no move has closed is where it was. -/
theorem occurrence?_of_not_closedSince
    (there : (play earlier).occurrence? depth = some occurrence)
    (lasting : ¬ClosedSince earlier depth later) :
    (play (later ++ earlier)).occurrence? depth = some occurrence := by
  induction later with
  | nil => exact there
  | cons latest before ih =>
    rw [closedSince_cons, not_or] at lasting
    have still := ih lasting.1
    have inside := lt_height_of_occurrence? still
    cases outcome (before ++ earlier) latest with
    | opens newest play_eq =>
      rw [List.cons_append, play_eq, occurrence?_pushOccurrence, if_neg (by omega)]
      exact still
    | closes =>
      have deeper : (play (before ++ earlier)).height ≠ depth + 1 :=
        fun innermost => lasting.2 ⟨rfl, innermost⟩
      rw [List.cons_append, play, move, occurrence?_pop, if_pos (by omega)]
      exact still

/-- An occurrence that a move has closed is open nowhere, and stays so. -/
theorem not_open_of_closedSince (fresh : Fresh (later ++ earlier))
    (there : (play earlier).occurrence? depth = some occurrence)
    (closed : ClosedSince earlier depth later) (anywhere : Nat) :
    ((play (later ++ earlier)).occurrence? anywhere).any occurrence.same = false := by
  induction later with
  | nil =>
    obtain ⟨after, before, split, -⟩ := closed
    cases after <;> cases split
  | cons latest before ih =>
    have older := mem_opened_append (mem_opened_of_occurrence? there) before
    have unopened := fresh
    rw [List.cons_append] at unopened ⊢
    cases outcome (before ++ earlier) latest with
    | opens newest play_eq opened_eq noPop =>
      rw [play_eq, occurrence?_pushOccurrence]
      split
      · rw [Fresh, opened_eq] at unopened
        rw [Option.any_some, Occurrence.same_comm]
        exact (List.pairwise_cons.mp unopened).1 occurrence older
      · obtain closed | ⟨pops, -⟩ := closedSince_cons.mp closed
        · exact ih unopened.tail closed
        · exact absurd pops noPop
    | closes =>
      rw [play, move, occurrence?_pop]
      split
      · next below =>
        by_cases before? : ClosedSince earlier depth before
        · exact ih unopened.tail before?
        · -- this move closes the entry, the only place where the occurrence was open
          have still := occurrence?_of_not_closedSince there before?
          obtain closed | ⟨-, innermost⟩ := closedSince_cons.mp closed
          · exact absurd closed before?
          · cases other : (play (before ++ earlier)).occurrence? anywhere with
            | none => rfl
            | some found =>
              rw [Option.any_some, Bool.eq_false_iff]
              intro same
              have := depth_eq_of_same unopened.tail still other same
              omega
      · rfl

/-! ## References -/

/-- A reference is live after some moves exactly if none of them has closed the entry that it was
taken from. -/
theorem Taken.isLive_iff {node : Node} (taken : Taken (play earlier) depth node)
    (fresh : Fresh (later ++ earlier)) :
    (play (later ++ earlier)).isLive node = true ↔ ¬ClosedSince earlier depth later := by
  cases taken with
  | entry taken =>
    obtain ⟨occurrence, there, rfl⟩ := Option.map_eq_some_iff.mp taken
    constructor
    · intro live closed
      rw [isLive, not_open_of_closedSince fresh there closed] at live
      cases live
    · intro lasting
      rw [isLive, occurrence?_of_not_closedSince there lasting, Option.any_some,
        Occurrence.same_self]
  | attr index there =>
    rw [isLive_attr_iff]
    constructor
    · rintro ⟨anywhere, live⟩ closed
      rw [not_open_of_closedSince fresh there closed] at live
      cases live
    · intro lasting
      refine ⟨depth, ?_⟩
      rw [occurrence?_of_not_closedSince there lasting, Option.any_some, Occurrence.same_self]

/-- A reference taken at one moment of a run is live at a later one exactly if no move in between has
closed the entry that it was taken from; and once it is stale, it is never live again. -/
theorem isLive_play_iff {node : Node} (fresh : Fresh (later ++ earlier))
    (taken : Taken (play earlier) depth node) :
    ((play (later ++ earlier)).isLive node = true ↔ ¬ClosedSince earlier depth later) ∧
      ∀ late soon, later = late ++ soon → (play (soon ++ earlier)).isLive node = false →
        (play (later ++ earlier)).isLive node = false := by
  refine ⟨taken.isLive_iff fresh, ?_⟩
  rintro late soon rfl stale
  have soonFresh : Fresh (soon ++ earlier) := by
    rw [List.append_assoc] at fresh
    exact fresh.of_append
  have closed : ClosedSince earlier depth soon := by
    refine Classical.byContradiction fun lasting => ?_
    rw [(taken.isLive_iff soonFresh).mpr lasting] at stale
    cases stale
  rw [Bool.eq_false_iff]
  exact fun live => (taken.isLive_iff fresh).mp live (closed.append late)

/-- An element is opened, closed and opened again at the same depth: references to the first one and
to its attribute are live as long as it is open, and the equal second one does not revive them. -/
theorem isLive_play_iff_reopened :
    let element : Event := ⟨.element (.unqualified "a"), [⟨.unqualified "x", "1"⟩]⟩
    let earlier := [.push element, .push ⟨.document, []⟩]
    let nodes : List Node := [.entry 1 ⟨1, element⟩, .attr ⟨1, element⟩ 0]
    ∀ node ∈ nodes,
      (play ([.pop, .push element] ++ earlier)).isLive node = true ∧
        (play ([.pop] ++ earlier)).isLive node = false ∧
        (play ([.push element, .pop] ++ earlier)).isLive node = false := by
  intro element earlier nodes node member
  have own : ∀ moves : List Move, (∀ move ∈ moves, move = .pop ∨ move = .push element) →
      Fresh (moves ++ earlier) := by
    intro moves plain
    refine fresh_of_push fun occurrence there => ?_
    rcases List.mem_append.mp there with there | there
    · rcases plain _ there with eq | eq <;> cases eq
    · simp [earlier] at there
  have taken : Taken (play earlier) 1 node := by
    simp only [nodes, List.mem_cons, List.not_mem_nil, or_false] at member
    rcases member with rfl | rfl
    · exact .entry rfl
    · exact .attr 0 rfl
  have open? : ¬ClosedSince earlier 1 [.pop, .push element] := by
    rw [closedSince_cons, closedSince_cons]
    rintro ((⟨after, before, split, -⟩ | ⟨pops, -⟩) | ⟨-, innermost⟩)
    · cases after <;> cases split
    · cases pops
    · exact absurd innermost (by decide)
  have closed : ClosedSince earlier 1 [.pop] := ⟨[], [], rfl, rfl⟩
  have stale : (play ([.pop] ++ earlier)).isLive node = false := by
    rw [Bool.eq_false_iff]
    exact fun live => (isLive_play_iff (own _ (by simp)) taken).1.mp live closed
  exact ⟨(isLive_play_iff (own _ (by simp)) taken).1.mpr open?, stale,
    (isLive_play_iff (own _ (by simp)) taken).2 [.push element] [.pop] rfl stale⟩

end Ancestors

end StreamPath
