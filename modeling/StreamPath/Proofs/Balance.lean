import StreamPath.Proofs.Activations
import StreamPath.Proofs.Scoping

/-!
# Bodies in a group

When the body of a group ends, what it left active is left, and then the group. A body that never
leaves the activation made for it, or one below, gives the activations back however it ends. A body
that does leave it can get an answer nevertheless: the group is left once more at the end, and an
older activation of the same group passes for the one that was made for the body.

* `Context.finishGroup_eq_ok_iff` — when the end of a body gives an answer;
* `Context.withGroup_of_stays` — a body that stays gives the activations back;
* `Context.withGroup_restores` — its result, and what remains of its bindings;
* `Context.withGroup_eq_ok_iff` — which bodies get an answer, and which answers are balanced.
-/

namespace StreamPath

/-- Two scenes show the same groups active, in the same order and as often, and the same group as
the current one. -/
structure Balanced (before after : Scene) : Prop where
  trail : after.trail = before.trail
  current : after.current = before.current
  depth : ∀ group, after.activationDepth group = before.activationDepth group

/-- A group is active as often as it is on the trail. -/
theorem activationDepth_eq_countP (scene : Scene) (group : GroupId) :
    scene.activationDepth group = scene.trail.countP fun entry => entry.1 = group := by
  rw [Scene.trail, List.countP_map]
  rfl

theorem balanced_iff {before after : Scene} :
    Balanced before after ↔ after.trail = before.trail ∧ after.current = before.current := by
  constructor
  · rintro ⟨trail, current, -⟩
    exact ⟨trail, current⟩
  · rintro ⟨trail, current⟩
    refine ⟨trail, current, fun group => ?_⟩
    rw [activationDepth_eq_countP, activationDepth_eq_countP, trail]

namespace Context

variable {α : Type} {context after final : Context} {group : GroupId} {count : Nat}

/-! ## The end of a body -/

theorem fst_unwind_eq_none_iff :
    (context.unwind count).1 = none ↔ context.activations.length ≤ count := by
  have none : (context.unwind count).1 = none ↔
      (context.activations.take (context.activations.length - count)).getLast? = none := by
    unfold unwind
    simp only
    cases (context.activations.take _).getLast? <;> simp
  rw [none, List.getLast?_eq_none_iff, List.take_eq_nil_iff]
  constructor
  · rintro (fits | empty)
    · omega
    · simp [empty]
  · intro fits
    exact .inl (by omega)

theorem unwind_of_le (fits : context.activations.length ≤ count) :
    context.unwind count = (none, context) := by
  unfold unwind
  rw [Nat.sub_eq_zero_of_le fits]
  rfl

/-- Once what came later is left, the activation that was made for a body can be left too. -/
theorem exit_unwind {previous : Option GroupId} {bindings : Bindings} {older : List Activation}
    (oldest : context.oldest count = ⟨group, previous, bindings⟩ :: older) :
    (context.unwind count).2.exit group =
      .ok { context with activations := older, current := previous } := by
  refine exit_eq_ok_iff.mpr ⟨⟨group, previous, bindings⟩, older, ?_, rfl, ?_⟩
  · rw [activations_unwind]
    exact oldest
  · unfold unwind
    simp only
    cases (context.activations.take _).getLast? <;> rfl

/-- The failure of a body is never replaced. -/
theorem fst_finishGroup_of_error (context : Context) (count : Nat) (group : GroupId)
    (failure : Diagnostic) :
    (context.finishGroup (α := α) count group (.error failure)).1 = .error failure := by
  unfold finishGroup
  simp only
  cases (context.unwind (count + 1)).2.exit group <;> rfl

/-- The end of a body gives an answer if the body did, if nothing is active above the activation
that was made for it, and if the newest activation is one of its group. -/
theorem finishGroup_eq_ok_iff {result : Except Diagnostic α} {value : α} :
    context.finishGroup count group result = (.ok value, final) ↔
      result = .ok value ∧ context.activations.length ≤ count + 1 ∧
        context.exit group = .ok final := by
  constructor
  · intro ended
    unfold finishGroup at ended
    cases left : (context.unwind (count + 1)).2.exit group with
    | error fault => cases result <;> simp [left] at ended
    | ok reached =>
      cases result with
      | error failure => simp [left] at ended
      | ok answer =>
        cases leftover : (context.unwind (count + 1)).1 with
        | some inner => simp [left, leftover] at ended
        | none =>
          have fits := fst_unwind_eq_none_iff.mp leftover
          rw [unwind_of_le fits] at left
          simp only [unwind_of_le fits, left, Prod.mk.injEq, Except.ok.injEq] at ended
          obtain ⟨rfl, rfl⟩ := ended
          exact ⟨rfl, fits, left⟩
  · rintro ⟨rfl, fits, left⟩
    unfold finishGroup
    rw [unwind_of_le fits]
    simp only [left]

/-- What a body leaves active is a fatal failure, unless the body failed already. -/
theorem finishGroup_of_lt (value : α) (surplus : count + 1 < context.activations.length)
    (left : (context.unwind (count + 1)).2.exit group = .ok final) :
    ∃ inner, context.finishGroup count group (.ok value) =
      (.error (final.diagnose (.leftActive inner group)), final) := by
  cases leftover : (context.unwind (count + 1)).1 with
  | none => exact absurd (fst_unwind_eq_none_iff.mp leftover) (Nat.not_le.mpr surplus)
  | some inner =>
    refine ⟨inner, ?_⟩
    unfold finishGroup
    simp only [left, leftover]

/-! ## Bodies that stay -/

section Stay

variable {body : Context → Except Diagnostic α × Context} {acts : List Act}
  {result : Except Diagnostic α}

theorem withGroup_eq (ended : body (context.enter group) = (result, after)) :
    context.withGroup (m := Id) group body =
      after.finishGroup context.activations.length group result := by
  show (body (context.enter group)).2.finishGroup _ group _ = _
  rw [ended]

/-- A body that stays gives the activations and the current group back, and changes nothing in them
but what it binds. -/
theorem withGroup_of_stays (ended : body (context.enter group) = (result, after))
    (run : Stays (context.activations.length + 1) (context.enter group) acts after) :
    (context.withGroup (m := Id) group body).2 =
      { after with
        activations := rebind acts context.activations
        current := context.current } := by
  rw [withGroup_eq ended, snd_finishGroup]
  simp only [exit_unwind run.oldest_enter]
  rfl

theorem balanced_withGroup (ended : body (context.enter group) = (result, after))
    (run : Stays (context.activations.length + 1) (context.enter group) acts after) :
    Balanced context.toScene (context.withGroup (m := Id) group body).2.toScene := by
  rw [withGroup_of_stays ended run]
  exact balanced_iff.mpr ⟨trail_rebind acts context.activations, rfl⟩

/-- A body that runs in a group, and never leaves the activation that was made for it or one that
was there before, gives the activations back, whether it fails or not and whatever it leaves active:
the same groups are active in the same order and as often, the same group is current, and in the
activations there are the bindings of before, with what the body bound in each of them. The body's
own failure is the result if it failed; if it gave a value and left something active, a fatal
failure is; otherwise the value is. -/
theorem withGroup_restores (ended : body (context.enter group) = (result, after))
    (run : Stays (context.activations.length + 1) (context.enter group) acts after) :
    Balanced context.toScene (context.withGroup (m := Id) group body).2.toScene ∧
    (context.withGroup (m := Id) group body).2.activations = rebind acts context.activations ∧
    (∀ failure, result = .error failure →
      (context.withGroup (m := Id) group body).1 = .error failure) ∧
    ∀ value, result = .ok value →
      (after.activations.length = context.activations.length + 1 →
        (context.withGroup (m := Id) group body).1 = .ok value) ∧
      (after.activations.length ≠ context.activations.length + 1 →
        ∃ failure, (context.withGroup (m := Id) group body).1 = .error failure ∧
          (∃ inner, failure.cause = .leftActive inner group) ∧ failure.cause.isFatal = true) := by
  have finished := withGroup_eq ended
  have left := exit_unwind run.oldest_enter
  refine ⟨balanced_withGroup ended run, ?_, ?_, ?_⟩
  · rw [withGroup_of_stays ended run]
  · rintro failure rfl
    rw [finished]
    exact fst_finishGroup_of_error _ _ _ failure
  · rintro value rfl
    have enough : context.activations.length + 1 ≤ after.activations.length :=
      run.le_length (Nat.le_refl _)
    rw [finished]
    constructor
    · intro level
      rw [unwind_of_le level.le] at left
      rw [finishGroup_eq_ok_iff.mpr ⟨rfl, level.le, left⟩]
    · intro above
      obtain ⟨inner, refused⟩ := finishGroup_of_lt value (by omega) left
      rw [refused]
      exact ⟨_, rfl, ⟨inner, rfl⟩, rfl⟩

end Stay

end Context

/-! ## A body that enters its group again -/

namespace Reentrant

open Shadowing

/-- A body that fails: it leaves a group that is not the newest one. -/
def failing (context : Context) : Except Diagnostic Unit × Context :=
  context.attempt (context.exit ⟨2⟩)

/-- The variable of the outer group is bound anew. -/
def rebound (context : Context) : Context :=
  (context.attempt (context.declare ⟨1⟩ name (.ofString "changed"))).2

/-- In a group below the outer one, that variable is bound anew, a body in a second activation of
the outer group fails, no group is made the current one, and then the group is entered once more and
left open. -/
def body (context : Context) : Except Diagnostic Unit × Context :=
  let nested := ((rebound context).withGroup (m := Id) ⟨1⟩ failing).2
  (.ok (), Context.enter { nested with current := none } ⟨2⟩)

/-- The context in which it ends. -/
def ended : Context := (body (declared.enter ⟨2⟩)).2

def acts : List Act :=
  [.bind ⟨1⟩ (some 0) name (.ofString "changed"), .enter ⟨1⟩, .exit ⟨2⟩, .finish 2 ⟨1⟩,
    .setCurrent none, .enter ⟨2⟩]

theorem stays_ended : Stays 2 (declared.enter ⟨2⟩) acts ended := by
  have bound := (@Stays.rest 2 (declared.enter ⟨2⟩)).step
    (.declare _ ⟨1⟩ name (.ofString "changed")) (Nat.le_refl 2)
  have inner := (@Stays.rest 2 ((rebound (declared.enter ⟨2⟩)).enter ⟨1⟩)).step
    (.exit _ ⟨2⟩) (Nat.le_succ 2)
  have nested := bound.trans
    (@Stays.withGroup 2 _ _ Unit ⟨1⟩ failing (Nat.le_refl 2) inner (Nat.le_refl 2))
  exact (nested.step (.setCurrent _ none) (Nat.le_refl 2)).step (.enter _ ⟨2⟩) (Nat.le_succ 2)

/-- The activations are those of before, with the new binding in the outer one; that the group was
left open is a fatal failure. -/
theorem restored :
    Balanced declared.toScene (declared.withGroup (m := Id) ⟨2⟩ body).2.toScene ∧
    (declared.withGroup (m := Id) ⟨2⟩ body).2.activations = rebind acts declared.activations ∧
    (rebind acts declared.activations).map Activation.bindings =
      [Table.empty.insert name (.ofString "changed")] ∧
    ∃ failure, (declared.withGroup (m := Id) ⟨2⟩ body).1 = .error failure ∧
      failure.cause.isFatal = true := by
  have gave : body (declared.enter ⟨2⟩) = (.ok (), ended) := rfl
  obtain ⟨balanced, activations, -, answer⟩ := Context.withGroup_restores gave stays_ended
  obtain ⟨failure, refused, -, fatal⟩ := (answer () rfl).2 (by decide)
  exact ⟨balanced, activations, rfl, failure, refused, fatal⟩

end Reentrant

/-! ## Answers -/

namespace Context

/-- A body in a group gets an answer if it gives one, and its group is the newest on the trail,
above no more entries than before. The answer is balanced if the trail is the one with which the
body began, and it always is if the body never left the activation that was made for it or one
below. -/
theorem withGroup_eq_ok_iff {α : Type} {context after : Context} {group : GroupId}
    {body : Context → Except Diagnostic α × Context} {result : Except Diagnostic α} {value : α}
    (ended : body (context.enter group) = (result, after)) :
    ((∃ final, context.withGroup (m := Id) group body = (.ok value, final)) ↔
      result = .ok value ∧ ∃ previous older, after.trail = (group, previous) :: older ∧
        older.length ≤ context.trail.length) ∧
    ∀ final, context.withGroup (m := Id) group body = (.ok value, final) →
      after.trail = (group, final.current) :: final.trail ∧
      (Balanced context.toScene final.toScene ↔ after.trail = (context.enter group).trail) ∧
      ∀ acts, Stays (context.activations.length + 1) (context.enter group) acts after →
        Balanced context.toScene final.toScene := by
  have finished := withGroup_eq ended
  have leaves : ∀ {final}, after.exit group = .ok final →
      after.trail = (group, final.current) :: final.trail := by
    intro final left
    obtain ⟨newest, older, split, rfl, rfl⟩ := exit_eq_ok_iff.mp left
    exact trail_of_cons split
  refine ⟨⟨?_, ?_⟩, fun final answered => ⟨?_, ?_, fun acts run => ?_⟩⟩
  · rintro ⟨final, answered⟩
    obtain ⟨given, fits, left⟩ := finishGroup_eq_ok_iff.mp (finished.symm.trans answered)
    refine ⟨given, final.current, final.trail, leaves left, ?_⟩
    rw [← length_trail, leaves left, List.length_cons] at fits
    rw [length_trail context.toScene]
    omega
  · rintro ⟨given, previous, older, trail, few⟩
    obtain ⟨newest, below, split, entry, rfl⟩ := List.map_eq_cons_iff.mp trail
    have left := exit_eq_ok_iff.mpr ⟨newest, below, split, (Prod.mk.inj entry).1, rfl⟩
    refine ⟨_, finished.trans (finishGroup_eq_ok_iff.mpr ⟨given, ?_, left⟩)⟩
    rw [List.length_map, length_trail] at few
    rw [split, List.length_cons]
    omega
  · exact leaves (finishGroup_eq_ok_iff.mp (finished.symm.trans answered)).2.2
  · have trail := leaves (finishGroup_eq_ok_iff.mp (finished.symm.trans answered)).2.2
    show _ ↔ after.trail = (group, context.current) :: context.trail
    rw [balanced_iff, trail, List.cons.injEq, Prod.mk.injEq]
    tauto
  · have balanced := balanced_withGroup ended run
    rwa [answered] at balanced

end Context

namespace Reentrant

open Shadowing

/-- A body that leaves the group in which it runs. -/
def leaving (context : Context) : Except Diagnostic Unit × Context :=
  context.attempt (context.exit ⟨1⟩)

/-- Where the group was active before, there is an answer, and the older activation is left too. -/
theorem answer_of_leaving :
    leaving (declared.enter ⟨1⟩) = (.ok (), declared) ∧
    ∃ final, declared.withGroup (m := Id) ⟨1⟩ leaving = (.ok (), final) ∧
      declared.trail = (⟨1⟩, final.current) :: final.trail ∧
      ¬Balanced declared.toScene final.toScene := by
  have left : leaving (declared.enter ⟨1⟩) = (.ok (), declared) := rfl
  obtain ⟨answered, gives⟩ := Context.withGroup_eq_ok_iff left
  obtain ⟨final, answer⟩ := answered.mpr ⟨rfl, none, [], rfl, Nat.zero_le _⟩
  obtain ⟨trail, balanced, -⟩ := gives final answer
  refine ⟨rfl, final, answer, trail, fun isBalanced => ?_⟩
  have lengths := congrArg List.length (balanced.mp isBalanced)
  exact absurd lengths (by decide)

/-- So not every answer is balanced, even of bodies that only do what contexts can do. -/
theorem answers_not_balanced :
    ¬∀ (context : Context) (group : GroupId) (body : Context → Except Diagnostic Unit × Context),
      (∀ entered, ∃ acts, Stays 0 entered acts (body entered).2) →
      ∀ final, context.withGroup (m := Id) group body = (.ok (), final) →
        Balanced context.toScene final.toScene := by
  intro always
  have built : ∀ entered, ∃ acts, Stays 0 entered acts (leaving entered).2 := fun entered =>
    ⟨_, Stays.rest.step (.exit entered ⟨1⟩) (Nat.zero_le _)⟩
  have balanced := always declared ⟨1⟩ leaving built { declared with
    activations := [], current := none } rfl
  exact absurd balanced.current (by decide)

end Reentrant

end StreamPath
