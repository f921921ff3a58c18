import StreamPath.Proofs.CorePurity
import StreamPath.Proofs.Footprint
import StreamPath.Proofs.Openness

/-!
# Values of open nodes

No core function makes up a node: `item-at` picks one from its argument, and all others give numbers,
strings and booleans. So if the variables and the values stored in an expression refer to open nodes
only, its value does too, and no closed node is ever met.

* `Core.Plain` — a function that gives no nodes at all;
* `Library.core_passesOpen` — the core functions give no closed node for open ones;
* `Library.core_returnsGiven` — the nodes that they give are among their arguments;
* `Forest.evaluate_among_open` — evaluation over open nodes gives open nodes, and no diagnostic is
  about a closed one.
-/

namespace StreamPath

open Run

/-! ## The core functions -/

namespace Core

/-- A function never gives a node, and if it fails, then not because of a closed one. -/
def Plain (body : Body) : Prop :=
  ∀ site arguments, match body site arguments with
    | .ok value => ∀ item ∈ value, item.node? = none
    | .error cause => cause.concernsClosed = false

theorem plain_number (f : CallSite → List Sequence → Float) :
    Plain fun site arguments => number (f site arguments) :=
  fun _ _ => List.forall_mem_singleton.mpr rfl

theorem plain_string (f : CallSite → List Sequence → String) :
    Plain fun site arguments => string (f site arguments) :=
  fun _ _ => List.forall_mem_singleton.mpr rfl

theorem plain_boolean (f : CallSite → List Sequence → Bool) :
    Plain fun site arguments => boolean (f site arguments) :=
  fun _ _ => List.forall_mem_singleton.mpr rfl

theorem plain_level : Plain level := by
  intro site arguments
  unfold level
  cases site.top with
  | zero => exact fun _ mem => nomatch mem
  | succ depth => exact List.forall_mem_singleton.mpr rfl

/-- An accessor that is refused its argument has been given something that is not a node. -/
theorem concernsClosed_of_nodeOf {function : String} {site : CallSite} {arguments : List Sequence}
    {cause : Cause} (refused : nodeOf function site arguments = .error cause) :
    cause.concernsClosed = false := by
  unfold nodeOf at refused
  split at refused <;> cases refused
  rfl

theorem plain_nodeKind : Plain nodeKind := by
  intro site arguments
  unfold nodeKind
  cases asked : nodeOf "node-kind" site arguments with
  | error cause => exact concernsClosed_of_nodeOf asked
  | ok node? =>
    cases node? with
    | none => exact fun _ mem => nomatch mem
    | some node => exact List.forall_mem_singleton.mpr rfl

theorem plain_nameText (function : String) (part : Name → String) :
    Plain (nameText function part) := by
  intro site arguments
  unfold nameText
  cases asked : nodeOf function site arguments with
  | error cause => exact concernsClosed_of_nodeOf asked
  | ok node? => exact List.forall_mem_singleton.mpr rfl

theorem plain_toNumber : Plain toNumber := by
  intro site arguments
  cases arguments <;> exact List.forall_mem_singleton.mpr rfl

theorem plain_numeric (f : Float → Float) : Plain (numeric f) := by
  intro site arguments
  simp only [numeric]
  cases (argument arguments 0).isEmpty with
  | true => exact fun _ mem => nomatch mem
  | false => exact List.forall_mem_singleton.mpr rfl

theorem node?_of_mem_placesOf {searched item : Item} {items : Sequence} {place : Nat}
    (mem : item ∈ placesOf searched place items) : item.node? = none := by
  induction items generalizing place with
  | nil => cases mem
  | cons head rest ih =>
    unfold placesOf at mem
    split at mem
    · rcases List.mem_cons.mp mem with rfl | later
      · rfl
      · exact ih later
    · exact ih mem

theorem plain_indexOf : Plain indexOf := by
  intro site arguments
  unfold indexOf
  cases argument arguments 1 with
  | nil => rfl
  | cons searched _ => exact fun _ mem => node?_of_mem_placesOf mem

/-- What `item-at` gives is among the items that it was given. -/
theorem mem_of_itemAt {site : CallSite} {arguments : List Sequence} {value : Sequence}
    (given : itemAt site arguments = .ok value) {item : Item} (mem : item ∈ value) :
    item ∈ argument arguments 0 := by
  simp only [itemAt] at given
  split at given
  · split at given
    · cases given
      cases mem
    · cases given
      exact List.mem_of_getElem? (Option.mem_toList.mp mem)
  · cases given
    cases mem

theorem itemAt_ne_error (site : CallSite) (arguments : List Sequence) (cause : Cause) :
    itemAt site arguments ≠ .error cause := by
  intro refused
  simp only [itemAt] at refused
  split at refused
  · split at refused <;> cases refused
  · cases refused

/-- A function makes up no node: it gives none at all, or picks one from its argument. -/
def GivesGiven (overload : Overload) : Prop := Plain overload.body ∨ overload.body = itemAt

/-- None of some functions makes up a node. -/
def GiveGiven (entries : List (Name × Overload)) : Prop := ∀ entry ∈ entries, GivesGiven entry.2

theorem GiveGiven.append {first second : List (Name × Overload)} (one : GiveGiven first)
    (two : GiveGiven second) : GiveGiven (first ++ second) :=
  List.forall_mem_append.mpr ⟨one, two⟩

theorem giveGiven_of_plain (name : Name) {overload : Overload} (plain : Plain overload.body) :
    GiveGiven [(name, overload)] :=
  List.forall_mem_singleton.mpr (.inl plain)

theorem giveGiven_exact (name : String) (arity : Nat) {body : Body} (plain : Plain body) :
    GiveGiven (exact name arity body) :=
  giveGiven_of_plain _ plain

theorem giveGiven_context (name : String) {body : Body} (plain : Plain body) :
    GiveGiven (context name body) :=
  giveGiven_of_plain _ plain

theorem giveGiven_accessor (name : String) {body : Body} (plain : Plain body) :
    GiveGiven (accessor name body) :=
  (giveGiven_context name plain).append (giveGiven_exact name 1 plain)

theorem giveGiven_itemAt : GiveGiven (exact "item-at" 2 itemAt) :=
  List.forall_mem_singleton.mpr (.inr rfl)

/-- No core function makes up a node. -/
theorem giveGiven_functions : GiveGiven functions :=
  (giveGiven_context "position" (plain_number _))
    |>.append (giveGiven_context "level" plain_level)
    |>.append (giveGiven_accessor "node-kind" plain_nodeKind)
    |>.append (giveGiven_accessor "name" (plain_nameText _ _))
    |>.append (giveGiven_accessor "local-name" (plain_nameText _ _))
    |>.append (giveGiven_accessor "namespace-uri" (plain_nameText _ _))
    |>.append (giveGiven_accessor "string" (plain_string _))
    |>.append (giveGiven_accessor "number" plain_toNumber)
    |>.append (giveGiven_exact "boolean" 1 (plain_boolean _))
    |>.append (giveGiven_exact "not" 1 (plain_boolean _))
    |>.append (giveGiven_exact "true" 0 (plain_boolean _))
    |>.append (giveGiven_exact "false" 0 (plain_boolean _))
    |>.append (giveGiven_of_plain _ (plain_string _))
    |>.append (giveGiven_exact "string-join" 2 (plain_string _))
    |>.append (giveGiven_accessor "string-length" (plain_number _))
    |>.append (giveGiven_accessor "normalize-space" (plain_string _))
    |>.append (giveGiven_exact "contains" 2 (plain_boolean _))
    |>.append (giveGiven_exact "starts-with" 2 (plain_boolean _))
    |>.append (giveGiven_exact "ends-with" 2 (plain_boolean _))
    |>.append (giveGiven_of_plain _ (plain_string _))
    |>.append (giveGiven_exact "substring-before" 2 (plain_string _))
    |>.append (giveGiven_exact "substring-after" 2 (plain_string _))
    |>.append (giveGiven_exact "translate" 3 (plain_string _))
    |>.append (giveGiven_exact "upper-case" 1 (plain_string _))
    |>.append (giveGiven_exact "lower-case" 1 (plain_string _))
    |>.append (giveGiven_exact "floor" 1 (plain_numeric _))
    |>.append (giveGiven_exact "ceiling" 1 (plain_numeric _))
    |>.append (giveGiven_exact "round" 1 (plain_numeric _))
    |>.append (giveGiven_exact "sum" 1 (plain_number _))
    |>.append (giveGiven_exact "count" 1 (plain_number _))
    |>.append (giveGiven_exact "empty" 1 (plain_boolean _))
    |>.append (giveGiven_exact "exists" 1 (plain_boolean _))
    |>.append giveGiven_itemAt
    |>.append (giveGiven_exact "index-of" 2 plain_indexOf)

end Core

/-- A function that makes up no node passes open nodes on. -/
theorem Overload.passesOpen_of_givesGiven {overload : Overload} (gives : Core.GivesGiven overload) :
    overload.PassesOpen := by
  intro site arguments areOpen
  show match overload.body site arguments with
    | .ok value => _
    | .error cause => _
  rcases gives with plain | picks
  · have given := plain site arguments
    cases result : overload.body site arguments with
    | error cause =>
      rw [result] at given
      exact given
    | ok value =>
      rw [result] at given
      exact Ancestors.allOpen_of_noNode given
  · rw [picks]
    cases result : Core.itemAt site arguments with
    | error cause => exact absurd result (Core.itemAt_ne_error site arguments cause)
    | ok value =>
      have isOpen : site.stack.AllOpen (Core.argument arguments 0) := by
        cases arguments with
        | nil => exact Ancestors.allOpen_nil
        | cons first rest => exact areOpen first List.mem_cons_self
      exact isOpen.of_subset fun item mem => Core.mem_of_itemAt result mem

theorem Library.all_core_givesGiven : Library.core.All Core.GivesGiven :=
  all_core Core.giveGiven_functions

theorem Library.core_passesOpen : Library.core.PassesOpen :=
  fun _ _ _ resolved => Overload.passesOpen_of_givesGiven (all_core_givesGiven.of_resolve resolved)

/-- The nodes that a pure function gives are among its arguments. -/
def Library.ReturnsGiven (library : Library) : Prop :=
  ∀ name arity overload, library.resolve name arity = .ok overload → overload.purity = .pure →
    ∀ arguments : List Sequence, arguments.length = arity → ∀ site value,
      overload.body site arguments = .ok value →
        ∀ node ∈ value.nodes, ∃ argument ∈ arguments, node ∈ argument.nodes

theorem Library.core_returnsGiven : Library.core.ReturnsGiven := by
  intro name arity overload resolved _ arguments _ site value result node mem
  rw [Sequence.mem_nodes] at mem
  rcases all_core_givesGiven.of_resolve resolved with plain | picks
  · have given := plain site arguments
    rw [result] at given
    cases given _ mem
  · rw [picks] at result
    have picked := Core.mem_of_itemAt result mem
    cases arguments with
    | nil => cases picked
    | cons first rest => exact ⟨first, List.mem_cons_self, Sequence.mem_nodes.mpr picked⟩

/-! ## Evaluation -/

namespace Forest

/-- If all that an evaluation is given refers to open nodes, the bindings of the rule, of the newest
activation of each group, and the values stored below the node, then its value refers to open nodes,
no diagnostic that it reports is about a closed one, and neither is the one that may end it. The same
holds in its course, so a filter that refuses an item has not met a closed node either. -/
theorem evaluate_among_open (forest : Forest) (core : forest.library = .core) (context : Context)
    (id : NodeId) (binds : context.BindsOpen)
    (stored : ∀ inner value, forest.Below id inner →
      forest.form? inner = some (.literal (.computed value)) → context.stack.AllOpen value)
    (top : Nat) :
    (∀ value, (forest.evaluate id context top).1 = .ok value → context.stack.AllOpen value) ∧
    (∀ failure, (forest.evaluate id context top).1 = .error failure →
      EndsOpen context.toScene failure) ∧
    ReportsOpen context.toMemory (forest.evaluate id context top).2.toMemory ∧
    ∀ expr, (forest.expression id).Contains expr → ∀ height,
      Clean context.toScene context.stack.AllOpen
        (expr.evaluate forest.library context.toScene height) := by
  have literals : ∀ inner value, (forest.expression id).Contains (.literal inner value) →
      context.stack.AllOpen value.value := by
    intro inner value within
    rcases form?_of_contains_literal within with ⟨node, below, found⟩ | rfl
    · cases value with
      | number value => exact Ancestors.allOpen_ofNumber value
      | string value => exact Ancestors.allOpen_ofString value
      | computed value => exact stored node value below found
    · exact Ancestors.allOpen_nil
  have passes : forest.library.PassesOpen := by
    rw [core]
    exact Library.core_passesOpen
  have clean : ∀ expr, (forest.expression id).Contains expr → ∀ height,
      Clean context.toScene context.stack.AllOpen
        (expr.evaluate forest.library context.toScene height) :=
    fun expr within height => Expr.clean_evaluate passes binds literals expr within height
  obtain ⟨values, failures, reports⟩ := Clean.run
    (fun scene => (forest.expression id).evaluate forest.library scene top) (clean _ .self top)
  exact ⟨values, failures, reports, clean⟩

/-- An element is bound in a group and stored in a node. The union of its attributes, found through
the variable, with the stored reference has both for its value, and both are open. -/
theorem evaluate_among_open_element :
    let element : Event := ⟨.element (.unqualified "a"), [⟨.unqualified "x", "1"⟩]⟩
    let opened := (({} : Context).push ⟨.document, []⟩).push element
    let held := opened.entryAt 1
    let context := { opened with
      activations := [⟨.root, none, Table.empty.insert (.unqualified "v") held⟩]
      current := some .root }
    let forest := [.var (.unqualified "v"), .attributeTest .any, .step .child ⟨0⟩ ⟨1⟩,
      .literal (.computed held), .union ⟨2⟩ ⟨3⟩].foldl (fun forest form => (forest.add form).2) empty
    ∃ value, (forest.evaluate ⟨4⟩ context 2).1 = .ok value ∧ value.length = 2 ∧
      context.stack.AllOpen value := by
  intro element opened held context forest
  have isOpen : context.stack.AllOpen held := Scene.allOpen_entryAt 1
  have binds : context.BindsOpen := by
    refine ⟨nofun, fun group bindings isFrame name value found => ?_⟩
    obtain ⟨activation, active, rfl⟩ := Option.map_eq_some_iff.mp isFrame
    rw [List.mem_singleton.mp (List.mem_of_find?_eq_some active)] at found
    rw [← (Table.eq_of_find?_insert_empty found).2]
    exact isOpen
  have stored : ∀ inner value, forest.Below ⟨4⟩ inner →
      forest.form? inner = some (.literal (.computed value)) → context.stack.AllOpen value := by
    rintro ⟨index⟩ value - found
    match index with
    | 0 | 1 | 2 | 4 => cases found
    | 3 =>
      cases found
      exact isOpen
    | index + 5 => cases found
  obtain ⟨value, found, both⟩ : ∃ value, (forest.evaluate ⟨4⟩ context 2).1 = .ok value ∧
      value.length = 2 := ⟨[.node (.entry 1 ⟨1, element⟩), .node (.attr ⟨1, element⟩ 0)], rfl, rfl⟩
  exact ⟨value, found, both,
    (evaluate_among_open forest rfl context ⟨4⟩ binds stored 2).1 value found⟩

end Forest

end StreamPath
