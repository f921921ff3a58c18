import StreamPath.Proofs.Activations
import StreamPath.Proofs.Scoping

/-!
# The trail and the frames

The activations of a run can be kept in two structures: a trail of the groups that were entered, and
for every group a stack of frames with its bindings. Each operation updates both on its own, and the
end of a body takes the surplus off them entry by entry. A ledger is kept in this way from the acts
of a run alone, and it always shows the activations of the context: they nest strictly.

* `Ledger` — the two structures, and what each act makes of them;
* `Context.ledger_exit`, `Context.ledger_declare` — operations on both sides fail alike;
* `Stays.ledger` — a ledger kept along a run shows the activations at its end;
* `Context.activations_nest` — entries and frames belong together, and leaving a group goes back to
  where it was entered.
-/

namespace StreamPath

/-- The activations of a run in two structures, both newest first. -/
structure Ledger where
  current : Option GroupId := none
  /-- The groups that were entered and not left, each with the group that was current before. -/
  trail : List (GroupId × Option GroupId) := []
  /-- The bindings of the activations of each group. -/
  frames : GroupId → List Bindings := fun _ => []

namespace Ledger

/-- Replace the frames of a group. -/
def withFrames (ledger : Ledger) (group : GroupId) (frames : List Bindings) : Ledger :=
  { ledger with frames := fun other => if other = group then frames else ledger.frames other }

/-- Put an entry on the trail and a frame on the group. -/
def enter (ledger : Ledger) (group : GroupId) : Ledger :=
  { ledger.withFrames group (.empty :: ledger.frames group) with
    trail := (group, ledger.current) :: ledger.trail
    current := some group }

/-- Take the newest entry off the trail and a frame off its group. -/
def leave (ledger : Ledger) : Ledger :=
  match ledger.trail with
  | [] => ledger
  | (group, previous) :: older =>
    { ledger.withFrames group (ledger.frames group).tail with trail := older, current := previous }

/-- Leave a group, which must be the one of the newest entry. -/
def exit (ledger : Ledger) (group : GroupId) : Except Cause Unit × Ledger :=
  match ledger.trail with
  | [] => (.error (.exitWithoutEntry group), ledger)
  | (innermost, _) :: _ =>
    if innermost = group then (.ok (), ledger.leave)
    else (.error (.exitNotInnermost group innermost), ledger)

/-- Leave a number of entries, one after the other. -/
def leaveMany : (count : Nat) → Ledger → Ledger
  | 0, ledger => ledger
  | count + 1, ledger => ledger.leave.leaveMany count

/-- End a group that was entered above `count` entries. -/
def finish (ledger : Ledger) (count : Nat) (group : GroupId) : Ledger :=
  ((ledger.leaveMany (ledger.trail.length - (count + 1))).exit group).2

/-- Bind a variable in the newest frame of a group. -/
def declare (ledger : Ledger) (group : GroupId) (name : Name) (value : Sequence) :
    Except Cause Unit × Ledger :=
  match ledger.frames group with
  | [] => (.error (.bindInactive group name), ledger)
  | newest :: older => (.ok (), ledger.withFrames group (newest.insert name value :: older))

end Ledger

/-- What an act makes of a ledger. -/
def Act.note (ledger : Ledger) : Act → Ledger
  | enter group => ledger.enter group
  | exit group => (ledger.exit group).2
  | finish count group => ledger.finish count group
  | setCurrent current => { ledger with current }
  | bind group _ name value => (ledger.declare group name value).2
  | other => ledger

/-- A ledger that is kept along some acts. -/
def Ledger.keep (ledger : Ledger) (acts : List Act) : Ledger :=
  acts.foldl (fun kept act => act.note kept) ledger

/-- The activations of a context as a ledger. -/
def Context.ledger (context : Context) : Ledger where
  current := context.current
  trail := context.trail
  frames := fun group => framesOf group context.activations

/-! ## Operations on both sides -/

namespace Context

variable (context : Context) (group : GroupId)

theorem ledger_enter : (context.enter group).ledger = context.ledger.enter group := by
  refine congrArg (Ledger.mk _ _) (funext fun other => ?_)
  show framesOf other ({ group, previous := context.current } :: context.activations) =
    if other = group then .empty :: framesOf group context.activations
    else framesOf other context.activations
  rw [framesOf_cons]
  by_cases same : other = group
  · simp [same]
  · simp [same, Ne.symm same]

/-- To leave the newest activation is to take an entry and a frame. -/
theorem ledger_leave {context : Context} {newest : Activation} {older : List Activation}
    (split : context.activations = newest :: older) :
    Context.ledger { context with activations := older, current := newest.previous } =
      context.ledger.leave := by
  have trail : context.ledger.trail = newest.entry :: older.map Activation.entry :=
    trail_of_cons split
  unfold Ledger.leave
  rw [trail]
  refine congrArg (Ledger.mk _ _) (funext fun other => ?_)
  show framesOf other older =
    if other = newest.group then (framesOf newest.group context.activations).tail
    else framesOf other context.activations
  rw [split, framesOf_cons, framesOf_cons]
  by_cases same : other = newest.group
  · simp [same]
  · simp [same, Ne.symm same]

/-- Leaving a group succeeds or fails on both sides, with the same cause, and a failure leaves the
ledger as it is. -/
theorem ledger_exit : context.ledger.exit group =
    match context.exit group with
    | .ok after => (.ok (), after.ledger)
    | .error failure => (.error failure.cause, context.ledger) := by
  cases split : context.activations with
  | nil =>
    have trail : context.ledger.trail = [] := trail_of_nil split
    unfold Ledger.exit Context.exit
    rw [trail, split]
    rfl
  | cons newest older =>
    have trail : context.ledger.trail = newest.entry :: older.map Activation.entry :=
      trail_of_cons split
    unfold Ledger.exit Context.exit
    rw [trail, split]
    by_cases own : newest.group = group
    · simp only [Activation.entry, own, if_true]
      rw [← ledger_leave split]
    · simp only [Activation.entry, own, if_false]
      rfl

theorem ledger_attempt_exit :
    (context.attempt (context.exit group)).2.ledger = (context.ledger.exit group).2 := by
  rw [ledger_exit]
  cases context.exit group <;> rfl

/-- Binding a variable succeeds or fails on both sides in the same way. -/
theorem ledger_declare (name : Name) (value : Sequence) :
    context.ledger.declare group name value =
      match context.declare group name value with
      | .ok after => (.ok (), after.ledger)
      | .error failure => (.error failure.cause, context.ledger) := by
  have isFrame : context.frame? group = (context.ledger.frames group).head? := by
    show _ = ((context.activations.filter _).map _).head?
    rw [List.head?_map, List.head?_filter]
    rfl
  unfold Ledger.declare Context.declare
  rw [isFrame]
  cases frames : context.ledger.frames group with
  | nil => rfl
  | cons newest older =>
    simp only [List.head?_cons, Prod.mk.injEq, true_and]
    unfold Ledger.withFrames Context.ledger Scene.trail
    simp only [trail_updateFrame, Ledger.mk.injEq, true_and]
    funext other
    rw [framesOf_updateFrame]
    by_cases same : other = group
    · subst same
      have own : framesOf other context.activations = newest :: older := frames
      simp [own]
    · simp [same]

/-- Taking several activations at once comes to the same as taking them one after the other. -/
theorem ledger_leaveMany (surplus : Nat) :
    context.ledger.leaveMany surplus =
      match (context.activations.take surplus).getLast? with
      | none => context.ledger
      | some oldest => Context.ledger { context with
          activations := context.activations.drop surplus
          current := oldest.previous } := by
  induction surplus generalizing context with
  | zero => rfl
  | succ surplus ih =>
    cases split : context.activations with
    | nil =>
      have stays : context.ledger.leave = context.ledger := by
        have trail : context.ledger.trail = [] := trail_of_nil split
        unfold Ledger.leave
        rw [trail]
      rw [Ledger.leaveMany, stays, ih, split, List.take_nil, List.take_nil]
      rfl
    | cons newest older =>
      rw [Ledger.leaveMany, ← ledger_leave split, ih]
      simp only [List.take_succ_cons, List.drop_succ_cons, List.getLast?_cons]
      cases taken : (older.take surplus).getLast? with
      | some oldest => rfl
      | none =>
        show _ = Context.ledger { context with
          activations := older.drop surplus, current := newest.previous }
        rw [drop_eq_self_of_getLast?_take taken]

theorem ledger_unwind (count : Nat) :
    (context.unwind count).2.ledger =
      context.ledger.leaveMany (context.ledger.trail.length - count) := by
  have length : context.ledger.trail.length = context.activations.length := length_trail _
  rw [ledger_leaveMany, length]
  unfold unwind
  simp only
  cases (context.activations.take (context.activations.length - count)).getLast? <;> rfl

theorem ledger_finishGroup {α : Type} (count : Nat) (result : Except Diagnostic α) :
    (context.finishGroup count group result).2.ledger = context.ledger.finish count group := by
  rw [snd_finishGroup]
  simp only [ledger_attempt_exit, ledger_unwind]
  rfl

theorem ledger_attempt_declare (name : Name) (value : Sequence) :
    (context.attempt (context.declare group name value)).2.ledger =
      (context.ledger.declare group name value).2 := by
  rw [ledger_declare]
  cases context.declare group name value <;> rfl

end Context

/-! ## Runs -/

/-- A step does to the ledger of a context what its act does. -/
theorem Change.ledger {before after : Context} {act : Act} (change : Change before act after) :
    after.ledger = act.note before.ledger := by
  cases change with
  | enter _ group => exact before.ledger_enter group
  | exit _ group => exact before.ledger_attempt_exit group
  | finish _ count group result => exact before.ledger_finishGroup group count result
  | setCurrent => rfl
  | declare _ group name value => exact before.ledger_attempt_declare group name value
  | @assign _ group name value found =>
    -- the search found a frame, so this is a declaration there
    obtain ⟨-, _, _, _, _, _, ⟨_, bound⟩, -⟩ := Scene.findScope_eq_group_iff.mp found
    obtain ⟨bindings, isFrame, -⟩ := Option.bind_eq_some_iff.mp bound
    show _ = (before.ledger.declare group name value).2
    rw [← Context.ledger_attempt_declare]
    unfold Context.assign Context.declare
    rw [found, isFrame]
  | other activations current =>
    show Ledger.mk _ _ _ = Ledger.mk _ _ _
    unfold Scene.trail
    rw [activations, current]

/-- A ledger that is kept along a run shows the activations of the context at the end. -/
theorem Stays.ledger {floor : Nat} {start context : Context} {acts : List Act}
    (run : Stays floor start acts context) : start.ledger.keep acts = context.ledger := by
  induction run with
  | rest => rfl
  | @step acts act _ _ _ change _ ih =>
    rw [change.ledger, ← ih]
    exact List.foldl_append

/-! ## Entries and frames -/

theorem framesOf_append (group : GroupId) (newer older : List Activation) :
    framesOf group (newer ++ older) = framesOf group newer ++ framesOf group older := by
  simp [framesOf]

/-- There are as many frames of a group as entries. -/
theorem length_framesOf (group : GroupId) (activations : List Activation) :
    (framesOf group activations).length =
      (activations.map Activation.entry).countP fun entry => entry.1 = group := by
  rw [framesOf, List.length_map, ← List.countP_eq_length_filter, List.countP_map]
  rfl

theorem frame?_eq_head? (scene : Scene) (group : GroupId) :
    scene.frame? group = (framesOf group scene.activations).head? := by
  rw [framesOf, List.head?_map, List.head?_filter]
  rfl

/-- At some moment of a run a group is entered, by an activation that is not left since. -/
structure Entered (start : Context) (acts : List Act) (context : Context) (group : GroupId)
    (moment : Context) (since : List Act) : Prop where
  before : ∃ earlier, acts = earlier ++ .enter group :: since ∧ Stays 0 start earlier moment
  after : Stays (moment.trail.length + 1) (moment.enter group) since context

namespace Entered

variable {start context moment : Context} {acts since : List Act} {group : GroupId}

/-- The activation is found where it was put, with what was bound in it since, and above those that
were there before it. -/
theorem oldest (entered : Entered start acts context group moment since) :
    context.oldest (moment.trail.length + 1) =
      ⟨group, moment.current, boundAt moment.trail.length since .empty⟩ ::
        rebind since moment.activations := by
  have run := entered.after
  rw [length_trail] at run ⊢
  exact run.oldest_enter

end Entered

/-- Leaving a group in a context goes back to the moment when it was entered: the newest entry and
its frame are taken away, and nothing else, the group that was current then is current again, and
every older activation of the group has the bindings that it had then. -/
structure Closes (context : Context) (group : GroupId) (moment after : Context) : Prop where
  entry : context.trail = (group, moment.current) :: after.trail
  frame : ∃ newest, framesOf group context.activations =
    newest :: framesOf group after.activations
  others : ∀ other, other ≠ group →
    framesOf other after.activations = framesOf other context.activations
  rest : after = { context with activations := after.activations, current := after.current }
  trail : after.trail = moment.trail
  current : after.current = moment.current
  older : framesOf group after.activations = framesOf group moment.activations
  visible : after.frame? group = moment.frame? group

/-- To leave a group is to close the activation that was entered last. -/
theorem Entered.closes {start context moment after : Context} {acts since : List Act}
    {group : GroupId} (entered : Entered start acts context group moment since)
    (trail : context.trail = (group, moment.current) :: moment.trail)
    (left : context.exit group = .ok after) : Closes context group moment after := by
  obtain ⟨newest, older, split, own, rfl⟩ := Context.exit_eq_ok_iff.mp left
  obtain ⟨head, tail⟩ := List.cons.inj ((trail_of_cons split).symm.trans trail)
  have previous : newest.previous = moment.current := (Prod.mk.inj head).2
  have olderFrames : framesOf group older = framesOf group moment.activations := by
    have begun : (moment.enter group).activations =
      ⟨group, moment.current, .empty⟩ :: moment.activations := rfl
    have run := entered.after
    rw [length_trail] at run
    obtain ⟨newer', newest', older', split', length, -, frames⟩ := Stays.framesOf_below begun run
    have alone : newer' = [] := by
      have lengths := congrArg List.length split'
      have below := congrArg List.length tail
      rw [split, List.length_cons, List.length_append, List.length_cons] at lengths
      rw [List.length_map, length_trail] at below
      exact List.eq_nil_of_length_eq_zero (by omega)
    rw [alone, split] at split'
    cases split'
    exact frames
  refine ⟨?_, ⟨newest.bindings, ?_⟩, fun other differs => ?_, rfl, tail, previous, olderFrames, ?_⟩
  · exact trail.trans (congrArg _ tail.symm)
  · rw [split, framesOf_cons, if_pos own]
  · rw [split, framesOf_cons, if_neg (by rw [own]; exact differs.symm)]
  · rw [frame?_eq_head?, frame?_eq_head?]
    exact congrArg List.head? olderFrames

/-- The activations of a run that begins without any nest strictly. A trail and frames that are kept
along the run, each on its own, show them at its end, with as many frames of every group as entries.
Each entry was made at a moment of the run, with the group that was current then, above the trail of
then; the frame of its group at the same place holds what was bound in it since. A group can be left
exactly if the newest entry is one of it, and leaving it closes what was entered last. If a group
cannot be left, or is not active where a variable is to be bound, nothing changes. A run with an
initial group is one that begins by entering it (`Stays.of_start`). -/
theorem Context.activations_nest {start context : Context} {acts : List Act}
    (bare : start.activations = []) (run : Stays 0 start acts context) :
    (Ledger.keep { current := start.current } acts = context.ledger ∧
      ∀ group, context.activationDepth group = (context.ledger.frames group).length ∧
        (context.ledger.frames group).length =
          context.ledger.trail.countP fun entry => entry.1 = group) ∧
    (∀ newer group previous older, context.ledger.trail = newer ++ (group, previous) :: older →
      ∃ moment since, Entered start acts context group moment since ∧
        moment.current = previous ∧ moment.trail = older ∧
        (context.ledger.frames group)[newer.countP fun entry => entry.1 = group]? =
          some (boundAt older.length since .empty)) ∧
    (∀ group, (∃ after, context.exit group = .ok after) ↔
      ∃ previous older, context.ledger.trail = (group, previous) :: older) ∧
    (∀ group after, context.exit group = .ok after →
      ∃ moment since, Entered start acts context group moment since ∧
        Closes context group moment after) ∧
    (∀ group failure, context.exit group = .error failure →
      context.attempt (context.exit group) = (.error failure, context) ∧
      context.ledger.exit group = (.error failure.cause, context.ledger)) ∧
    ∀ group name value failure, context.declare group name value = .error failure →
      context.attempt (context.declare group name value) = (.error failure, context) ∧
      context.ledger.declare group name value = (.error failure.cause, context.ledger) := by
  have entered : ∀ {newer group previous older},
      context.trail = newer ++ (group, previous) :: older → ∃ moment since,
        Entered start acts context group moment since ∧ moment.trail = older ∧
        moment.current = previous := by
    intro newer group previous older split
    obtain ⟨moment, earlier, since, acts, first, last, rfl, current⟩ := run.entered bare split
    exact ⟨moment, since, ⟨⟨earlier, acts, first⟩, last⟩, rfl, current⟩
  refine ⟨⟨?_, fun group => ⟨?_, length_framesOf group _⟩⟩, ?_, ?_, ?_, ?_, ?_⟩
  · have begun : start.ledger = { current := start.current } := by
      unfold Context.ledger Scene.trail framesOf
      rw [bare]
      rfl
    rw [← begun, run.ledger]
  · show context.activations.countP _ = (framesOf group context.activations).length
    rw [framesOf, List.length_map, List.countP_eq_length_filter]
  · intro newer group previous older split
    obtain ⟨moment, since, isEntered, rfl, current⟩ := entered split
    refine ⟨moment, since, isEntered, current, rfl, ?_⟩
    obtain ⟨above, here, cut, trails, rest⟩ := List.map_eq_append_iff.mp split
    obtain ⟨activation, below, rfl, -, under⟩ := List.map_eq_cons_iff.mp rest
    have found := isEntered.oldest
    have beyond : context.activations.length - (moment.trail.length + 1) = above.length := by
      rw [cut, ← under]
      simp
    unfold Scene.oldest at found
    rw [beyond, cut, List.drop_left] at found
    obtain ⟨rfl, -⟩ := List.cons.inj found
    show (framesOf group context.activations)[_]? = _
    have place : (newer.countP fun entry => entry.1 = group) = (framesOf group above).length := by
      rw [length_framesOf, trails]
    rw [place, cut, framesOf_append, framesOf_cons, if_pos rfl]
    simp
  · intro group
    constructor
    · rintro ⟨after, left⟩
      obtain ⟨newest, older, split, rfl, -⟩ := exit_eq_ok_iff.mp left
      exact ⟨newest.previous, _, trail_of_cons split⟩
    · rintro ⟨previous, older, split⟩
      obtain ⟨newest, below, cut, head, -⟩ := List.map_eq_cons_iff.mp split
      exact ⟨_, exit_eq_ok_iff.mpr ⟨newest, below, cut, (Prod.mk.inj head).1, rfl⟩⟩
  · intro group after left
    obtain ⟨newest, older, split, rfl, -⟩ := exit_eq_ok_iff.mp left
    have trail : context.trail = [] ++ (newest.group, newest.previous) ::
        older.map Activation.entry := trail_of_cons split
    obtain ⟨moment, since, isEntered, below, current⟩ := entered trail
    exact ⟨moment, since, isEntered, isEntered.closes (by rw [trail, below, current]; rfl) left⟩
  · intro group failure refused
    rw [ledger_exit, refused]
    exact ⟨rfl, rfl⟩
  · intro group name value failure refused
    rw [ledger_declare, refused]
    exact ⟨rfl, rfl⟩

/-! ## A group that is entered again -/

namespace Reentry

open Shadowing

/-- Below a group that declared a variable, the same group was entered again; another group was made
the current one, and then the variable was declared again. -/
def inside : Context :=
  { declared with
    current := some ⟨2⟩
    activations := ⟨⟨1⟩, some ⟨1⟩, Table.empty.insert name (.ofString "inner")⟩ ::
      declared.activations }

def acts : List Act :=
  [.enter ⟨1⟩, .bind ⟨1⟩ (some 0) name (.ofString "outer"), .enter ⟨1⟩, .setCurrent (some ⟨2⟩),
    .bind ⟨1⟩ (some 1) name (.ofString "inner")]

theorem stays_inside : Stays 0 start acts inside := by
  have first := Stays.of_start groups .aborting {} (some ⟨1⟩)
  have outer := first.step (.declare _ ⟨1⟩ name (.ofString "outer")) (Nat.zero_le _)
  have again := outer.step (.enter _ ⟨1⟩) (Nat.zero_le _)
  have moved := again.step (.setCurrent _ (some ⟨2⟩)) (Nat.zero_le _)
  exact moved.step (.declare _ ⟨1⟩ name (.ofString "inner")) (Nat.zero_le _)

/-- Leaving the inner activation goes back to the outer one, its binding and its current group. The
group that was made the current one cannot be left. -/
theorem exit_inside :
    (∃ moment since, Entered start acts inside ⟨1⟩ moment since ∧
      Closes inside ⟨1⟩ moment declared) ∧
    inside.ledger.trail = [(⟨1⟩, some ⟨1⟩), (⟨1⟩, none)] ∧
    (∃ moment since, Entered start acts inside ⟨1⟩ moment since ∧ moment.current = none ∧
      (inside.ledger.frames ⟨1⟩)[1]? = some (boundAt 0 since .empty)) ∧
    (∃ failure, inside.attempt (inside.exit ⟨2⟩) = (.error failure, inside)) ∧
    declared.boundIn? ⟨1⟩ name = some (.ofString "outer") ∧
    declared.current = some ⟨1⟩ ∧ declared.activationDepth ⟨1⟩ = 1 := by
  obtain ⟨-, entries, -, leaving, refusing, -⟩ := Context.activations_nest rfl stays_inside
  obtain ⟨moment, since, entered, previous, -, frame⟩ := entries [(⟨1⟩, some ⟨1⟩)] ⟨1⟩ none [] rfl
  exact ⟨leaving ⟨1⟩ declared rfl, rfl, ⟨moment, since, entered, previous, frame⟩,
    ⟨_, (refusing ⟨2⟩ _ rfl).1⟩, rfl, rfl, rfl⟩

end Reentry

end StreamPath
