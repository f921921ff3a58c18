import Mathlib.Logic.Function.Basic
import Mathlib.Tactic.Choose
import StreamPath.Proofs.PathStep
import StreamPath.Proofs.Recall

/-!
# Embeddings of a path

A path of steps matches a node if its patterns can be placed at open nodes, each connected to the
one before it by the axis in between. The matcher looks for the places from the inside out and
settles for the first that fits, asking many patterns on the way; it misses no placement all the
same, and what was asked before changes no answer.

* `Forest.IsPath` — the patterns of a path, from left to right;
* `Forest.Embeds` — a placement of these patterns;
* `Forest.yields_accepts` — a pattern answers after others as it does alone;
* `Forest.accepts_path_iff` — a path matches exactly if it has a placement.
-/

namespace StreamPath

open Run

/-- A memory that other patterns may have left: from the same position, with scopes added where
their variables are found. -/
structure Memory.Near (forest : Forest) (context : Context) (memory : Memory) : Prop where
  position : memory.position = context.position
  grown : Memory.Grown context.toScene forest.Refers context.toMemory memory

namespace Forest

/-- A node is a path of steps: a first pattern, and further ones behind an axis each. -/
inductive IsPath (forest : Forest) (first : NodeId) : NodeId → List (Axis × NodeId) → Prop
  | first : IsPath forest first first []
  | step {id base next : NodeId} {axis : Axis} {links : List (Axis × NodeId)} :
      forest.form? id = some (.step axis base next) → IsPath forest first base links →
      IsPath forest first id (links ++ [(axis, next)])

/-- A pattern matches alone: asked with the given context, before anything else. -/
def Matches (forest : Forest) (context : Context) (id : NodeId) (height : Nat) : Prop :=
  (forest.accepts id context height false).1 = .ok true

/-- The patterns of a path are placed at ascending heights, with nothing left out at a child step.
The last one is at the top, and each matches alone where it is placed. -/
structure Embeds (forest : Forest) (context : Context) (first : NodeId)
    (links : List (Axis × NodeId)) (heights : Nat → Nat) (top : Nat) : Prop where
  last : heights links.length = top
  ascending : ∀ place < links.length, heights place < heights (place + 1)
  adjacent : ∀ place id, links[place]? = some (.child, id) → heights (place + 1) = heights place + 1
  first : forest.Matches context first (heights 0)
  next : ∀ place axis id, links[place]? = some (axis, id) →
    forest.Matches context id (heights (place + 1))

variable {forest : Forest} {context : Context}

/-! ## Patterns after others -/

/-- A pattern that answers at all answers after others as it does alone. -/
theorem yields_accepts {id : NodeId} {height : Nat} {matched : Bool}
    (alone : (forest.accepts id context height false).1 = .ok matched) :
    Yields (Memory.Near forest context)
      ((forest.expression id).accepts forest.library context.toScene height false) matched := by
  intro memory near
  obtain ⟨rest, ended⟩ := Context.exists_of_run_ok alone
  have alike : Memory.Alike context.toScene forest.Refers context.toMemory memory :=
    ⟨near.position.symm, fun _ _ named => (near.grown.consulted forest.refers_unique named).symm⟩
  obtain ⟨final, asked, -⟩ :=
    (forest.agree_accepts_alike context.toScene id height false).ok alike ended
  have grown := forest.keeps_accepts_grown context.toScene id height false context.toMemory memory
    near.grown
  rw [asked] at grown
  have restored := (forest.expression id).restores_accepts forest.library context.toScene height
    memory matched final asked
  exact ⟨final, asked, restored.trans near.position, grown⟩

/-! ## Placements, step by step -/

section Embeds

variable {first : NodeId} {links : List (Axis × NodeId)} {heights : Nat → Nat} {top : Nat}

/-- Each axis connects the heights on both sides of it. -/
theorem Embeds.spans (embeds : forest.Embeds context first links heights top) {place : Nat}
    {axis : Axis} {id : NodeId} (isNext : links[place]? = some (axis, id)) :
    axis.Spans (heights place) (heights (place + 1)) := by
  cases axis with
  | child => exact embeds.adjacent place id isNext
  | descendant => exact embeds.ascending place (List.getElem?_eq_some_iff.mp isNext).1

/-- Heights that the axes connect are ascending, with nothing left out at a child step. -/
theorem Embeds.of_spans (last : heights links.length = top)
    (begins : forest.Matches context first (heights 0))
    (next : ∀ place axis id, links[place]? = some (axis, id) →
      axis.Spans (heights place) (heights (place + 1)) ∧
        forest.Matches context id (heights (place + 1))) :
    forest.Embeds context first links heights top where
  last := last
  ascending := fun place lt => (next place _ _ (List.getElem?_eq_getElem lt)).1.lt
  adjacent := fun place id isNext => (next place .child id isNext).1
  first := begins
  next := fun place axis id isNext => (next place axis id isNext).2

end Embeds

/-- The only placement of a single pattern is at the top. -/
theorem exists_embeds_first {first : NodeId} {top : Nat} :
    (∃ heights, forest.Embeds context first [] heights top) ↔ forest.Matches context first top := by
  constructor
  · rintro ⟨heights, embeds⟩
    have last : heights 0 = top := embeds.last
    have holds := embeds.first
    rwa [last] at holds
  · intro holds
    refine ⟨fun _ => top, .of_spans rfl holds ?_⟩
    intro place axis id isNext
    cases isNext

/-- A placement of a path is one of the path before its last step, and a place for the last
pattern. -/
theorem exists_embeds_step {first next : NodeId} {axis : Axis} {links : List (Axis × NodeId)}
    {top : Nat} :
    (∃ heights, forest.Embeds context first (links ++ [(axis, next)]) heights top) ↔
      forest.Matches context next top ∧ ∃ start, axis.Spans start top ∧
        ∃ heights, forest.Embeds context first links heights start := by
  constructor
  · rintro ⟨heights, embeds⟩
    have last : heights (links.length + 1) = top := by
      have last := embeds.last
      rwa [List.length_append] at last
    have isLast : (links ++ [(axis, next)])[links.length]? = some (axis, next) := by simp
    have spans := embeds.spans isLast
    have holds := embeds.next links.length axis next isLast
    rw [last] at spans holds
    refine ⟨holds, heights links.length, spans, heights, .of_spans rfl embeds.first ?_⟩
    intro place other id isNext
    have still : (links ++ [(axis, next)])[place]? = some (other, id) := by
      rw [List.getElem?_append_left (List.getElem?_eq_some_iff.mp isNext).1]
      exact isNext
    exact ⟨embeds.spans still, embeds.next place other id still⟩
  · rintro ⟨holds, start, spans, heights, embeds⟩
    -- the heights of the shorter path, and the top behind them
    have shorter : ∀ place ≤ links.length,
        Function.update heights (links.length + 1) top place = heights place := by
      intro place le
      exact Function.update_of_ne (by omega) _ _
    have behind : Function.update heights (links.length + 1) top (links.length + 1) = top :=
      Function.update_self _ _ _
    refine ⟨Function.update heights (links.length + 1) top, .of_spans ?_ ?_ ?_⟩
    · rw [List.length_append]
      exact behind
    · rw [shorter 0 (Nat.zero_le _)]
      exact embeds.first
    · intro place other id isNext
      by_cases inside : place < links.length
      · rw [List.getElem?_append_left inside] at isNext
        rw [shorter place (by omega), shorter (place + 1) (by omega)]
        exact ⟨embeds.spans isNext, embeds.next place other id isNext⟩
      · have atEnd : place = links.length := by
          have bound := (List.getElem?_eq_some_iff.mp isNext).1
          rw [List.length_append, List.length_singleton] at bound
          omega
        subst atEnd
        rw [List.getElem?_append_right (Nat.le_refl _), Nat.sub_self] at isNext
        cases isNext
        rw [shorter links.length (Nat.le_refl _), behind, embeds.last]
        exact ⟨spans, holds⟩

/-! ## Paths -/

/-- A step is made up of the part before it and its last pattern. -/
theorem expression_of_step (founded : forest.WellFounded) {id base next : NodeId} {axis : Axis}
    (found : forest.form? id = some (.step axis base next)) :
    forest.expression id = .step axis (forest.expression base) (forest.expression next) :=
  expression_eq_assemble founded found

/-- A path whose patterns answer alone answers, whatever was asked before, and it matches exactly if
it has a placement. -/
theorem yields_path (founded : forest.WellFounded) {first id : NodeId}
    {links : List (Axis × NodeId)} (path : forest.IsPath first id links) {top : Nat}
    (answers : ∀ pattern ∈ first :: links.map Prod.snd, ∀ height ≤ top,
      ∃ matched, (forest.accepts pattern context height false).1 = .ok matched) :
    ∃ matched, Yields (Memory.Near forest context)
        ((forest.expression id).accepts forest.library context.toScene top false) matched ∧
      (matched = true ↔ ∃ heights, forest.Embeds context first links heights top) := by
  induction path generalizing top with
  | first =>
    obtain ⟨matched, alone⟩ := answers first List.mem_cons_self top (Nat.le_refl top)
    refine ⟨matched, yields_accepts alone, ?_⟩
    rw [exists_embeds_first, Matches, alone]
    simp
  | @step id base next axis links found path ih =>
    obtain ⟨last, alone⟩ := answers next (by simp) top (Nat.le_refl top)
    -- the path before the last step is asked at smaller heights only
    have before : ∀ start, ∃ around, axis.Spans start top →
        Yields (Memory.Near forest context)
          ((forest.expression base).accepts forest.library context.toScene start false) around ∧
        (around = true ↔ ∃ heights, forest.Embeds context first links heights start) := by
      intro start
      by_cases spans : axis.Spans start top
      · have lt := spans.lt
        have below : ∀ pattern ∈ first :: links.map Prod.snd, ∀ height ≤ start,
            ∃ matched, (forest.accepts pattern context height false).1 = .ok matched := by
          intro pattern mem height le
          have isPattern : pattern ∈ first :: (links ++ [(axis, next)]).map Prod.snd := by
            rw [List.map_append]
            exact List.mem_append_left _ mem
          exact answers pattern isPattern height (by omega)
        obtain ⟨around, asked, iff⟩ := ih below
        exact ⟨around, fun _ => ⟨asked, iff⟩⟩
      · exact ⟨false, fun spans' => absurd spans' spans⟩
    choose around asked using before
    obtain ⟨matched, answered, iff⟩ := Expr.yields_step forest.library context.toScene
      (yields_accepts alone) fun start spans => (asked start spans).1
    rw [expression_of_step founded found]
    refine ⟨matched, answered, ?_⟩
    rw [iff, exists_embeds_step, Matches, alone]
    constructor
    · rintro ⟨rfl, start, spans, holds⟩
      exact ⟨rfl, start, spans, (asked start spans).2.mp holds⟩
    · rintro ⟨holds, start, spans, embedding⟩
      cases holds
      exact ⟨rfl, start, spans, (asked start spans).2.mpr embedding⟩

/-- A path whose patterns answer alone at every height in question answers as well, and it matches
exactly if its patterns can be placed, each where it matches alone. -/
theorem accepts_path_iff (forest : Forest) (founded : forest.WellFounded) (context : Context)
    (first id : NodeId) (links : List (Axis × NodeId)) (path : forest.IsPath first id links)
    (top : Nat)
    (answers : ∀ pattern ∈ first :: links.map Prod.snd, ∀ height ≤ top, ∀ failure,
      (forest.accepts pattern context height false).1 ≠ .error failure) :
    (∃ matched, (forest.accepts id context top false).1 = .ok matched) ∧
      ((forest.accepts id context top false).1 = .ok true ↔
        ∃ heights, forest.Embeds context first links heights top) := by
  have alone : ∀ pattern ∈ first :: links.map Prod.snd, ∀ height ≤ top,
      ∃ matched, (forest.accepts pattern context height false).1 = .ok matched := by
    intro pattern mem height le
    cases asked : (forest.accepts pattern context height false).1 with
    | ok matched => exact ⟨matched, rfl⟩
    | error failure => exact absurd asked (answers pattern mem height le failure)
  obtain ⟨matched, answered, iff⟩ := yields_path founded path alone
  obtain ⟨final, ended, -⟩ := answered context.toMemory ⟨rfl, .refl _⟩
  have run : (forest.accepts id context top false).1 = .ok matched := by
    unfold accepts
    rw [Context.run_of_ok ended]
  refine ⟨⟨matched, run⟩, ?_⟩
  rw [run, Except.ok.injEq]
  exact iff

/-- An element below an element of another name, with one element between them: the path from the
outer to the inner one matches, because there is room for it. -/
theorem embeds_around_element :
    let forest := (((((Forest.empty.add (.nodeTest (.element (.unqualified "a")))).2.add
      (.nodeTest (.element (.unqualified "b")))).2.add (.literal (.string "yes"))).2.add
      (.filter ⟨1⟩ ⟨2⟩)).2.add (.step .descendant ⟨0⟩ ⟨3⟩)).2
    let stack := (((Ancestors.empty.push ⟨.document, []⟩).push
      ⟨.element (.unqualified "a"), []⟩).push
      ⟨.element (.unqualified "b"), []⟩).push ⟨.element (.unqualified "b"), []⟩
    let context : Context := { stack }
    forest.IsPath ⟨0⟩ ⟨4⟩ [(.descendant, ⟨3⟩)] ∧ (forest.accepts ⟨4⟩ context 4 false).1 = .ok true ∧
      ∃ heights, forest.Embeds context ⟨0⟩ [(.descendant, ⟨3⟩)] heights 4 := by
  intro forest stack context
  have founded : forest.WellFounded := by
    refine Forest.wellFounded_add (Forest.wellFounded_add (Forest.wellFounded_add
      (Forest.wellFounded_add (Forest.wellFounded_add Forest.wellFounded_empty ?_) ?_) ?_) ?_) ?_
      <;> decide
  have path : forest.IsPath ⟨0⟩ ⟨4⟩ [(.descendant, ⟨3⟩)] := .step rfl .first
  have accepted : (forest.accepts ⟨4⟩ context 4 false).1 = .ok true := rfl
  obtain ⟨-, iff⟩ := accepts_path_iff forest founded context ⟨0⟩ ⟨4⟩ _ path 4 (by
    intro pattern mem height le failure failed
    have pattern_eq : pattern = ⟨0⟩ ∨ pattern = ⟨3⟩ := by simpa using mem
    have height_eq : height = 0 ∨ height = 1 ∨ height = 2 ∨ height = 3 ∨ height = 4 := by omega
    rcases pattern_eq with rfl | rfl <;> rcases height_eq with rfl | rfl | rfl | rfl | rfl <;>
      cases failed)
  exact ⟨path, accepted, iff.mp accepted⟩

end Forest

end StreamPath
