import StreamPath.Proofs.Constancy

/-!
# Pure core functions

The core functions that are registered as pure read nothing but their arguments. Some of them look at
the context node too, but only when they are called without an argument, and then another overload is
taken.

* `Library.dependsOnArguments_of_all` — it is enough to look at the registered overloads;
* `Library.core_dependsOnArguments` — the core library is as pure as it says.
-/

namespace StreamPath

/-- If an overload is registered as pure, its result depends on nothing but the arguments, of which
there are as many as it takes. -/
def Overload.DependsOnArguments (overload : Overload) : Prop :=
  overload.purity = .pure → ∀ arguments : List Sequence,
    overload.accepts arguments.length = true →
      ∀ site other, overload.body site arguments = overload.body other arguments

namespace Library

/-- Every registered overload has a property. -/
def All (P : Overload → Prop) (library : Library) : Prop :=
  ∀ name overloads, library.functions.find? name = some overloads → ∀ overload ∈ overloads, P overload

theorem all_register {P : Overload → Prop} {library : Library} (all : library.All P) {name : Name}
    {overload : Overload} (holds : P overload) : (library.register name overload).All P := by
  intro other overloads found candidate mem
  rw [register, Table.find?_insert] at found
  by_cases same : name = other
  · subst same
    rw [if_pos rfl] at found
    cases found
    rcases (Ranking.mem_place _).mp mem with rfl | before
    · exact holds
    · cases old : library.functions.find? name with
      | none =>
        rw [old] at before
        cases before
      | some overloads =>
        rw [old] at before
        exact all name overloads old candidate before
  · rw [if_neg same] at found
    exact all other overloads found candidate mem

/-- What a name resolves to is a registered overload. -/
theorem All.of_resolve {P : Overload → Prop} {library : Library} (all : library.All P) {name : Name}
    {arity : Nat} {overload : Overload} (resolved : library.resolve name arity = .ok overload) :
    P overload := by
  unfold resolve at resolved
  split at resolved
  · cases resolved
  · next overloads found =>
    split at resolved
    · next first taken =>
      cases resolved
      exact all name overloads found overload (List.mem_of_find?_eq_some taken)
    · cases resolved

/-- The core library has registered the core functions and nothing else. -/
theorem all_core {P : Overload → Prop} (holds : ∀ entry ∈ Core.functions, P entry.2) :
    Library.core.All P := by
  have step : ∀ (entries : List (Name × Overload)) (library : Library),
      (∀ entry ∈ entries, P entry.2) → library.All P →
      (entries.foldl (fun library entry => library.register entry.1 entry.2) library).All P := by
    intro entries
    induction entries with
    | nil => exact fun _ _ all => all
    | cons entry rest ih =>
      intro library holds all
      obtain ⟨first, others⟩ := List.forall_mem_cons.mp holds
      exact ih _ others (all_register all first)
  exact step Core.functions .empty holds nofun

/-- A library depends on arguments alone if every registered overload does. -/
theorem dependsOnArguments_of_all {library : Library} (all : library.All Overload.DependsOnArguments) :
    library.DependsOnArguments := by
  intro name arity overload resolved isPure arguments count
  refine all.of_resolve resolved isPure arguments ?_
  rw [count]
  exact accepts_of_resolve resolved

end Library

namespace Core

/-- Some overloads depend on their arguments as they say. -/
def Honest (entries : List (Name × Overload)) : Prop :=
  ∀ entry ∈ entries, entry.2.DependsOnArguments

theorem Honest.append {first second : List (Name × Overload)} (one : Honest first)
    (two : Honest second) : Honest (first ++ second) :=
  List.forall_mem_append.mpr ⟨one, two⟩

/-- A body that does not look at the call site is honest under any entry. -/
theorem honest_of_blind (name : Name) (overload : Overload)
    (blind : ∀ site other, overload.body site = overload.body other) :
    Honest [(name, overload)] := by
  intro entry mem
  rw [List.mem_singleton.mp mem]
  intro _ arguments _ site other
  rw [blind site other]

theorem honest_exact (name : String) (arity : Nat) {body : Body}
    (blind : ∀ site other, body site = body other) : Honest (exact name arity body) :=
  honest_of_blind _ _ blind

/-- What is registered as contextual promises nothing. -/
theorem honest_context (name : String) (body : Body) : Honest (context name body) := by
  intro entry mem
  rw [List.mem_singleton.mp mem]
  intro isPure
  cases isPure

/-- An accessor may look at the call site if it has no argument. -/
theorem honest_accessor (name : String) {body : Body}
    (blind : ∀ subject site other, body site [subject] = body other [subject]) :
    Honest (accessor name body) := by
  refine (honest_context name body).append fun entry mem => ?_
  rw [List.mem_singleton.mp mem]
  intro _ arguments accepted site other
  have one : arguments.length = 1 := by
    simp only [Overload.accepts, Option.all_some, Bool.and_eq_true, decide_eq_true_eq] at accepted
    omega
  obtain ⟨subject, rfl⟩ := List.length_eq_one_iff.mp one
  exact blind subject site other

theorem nodeOf_one (function : String) (subject : Sequence) (site other : CallSite) :
    nodeOf function site [subject] = nodeOf function other [subject] := by
  unfold nodeOf
  cases subject with
  | nil => rfl
  | cons item rest => cases item <;> rfl

/-- Every core function that is registered as pure is. -/
theorem honest_functions : Honest functions := by
  have kind : ∀ subject site other, nodeKind site [subject] = nodeKind other [subject] := by
    intro subject site other
    unfold nodeKind
    rw [nodeOf_one _ subject site other]
  have named : ∀ function part subject site other,
      nameText function part site [subject] = nameText function part other [subject] := by
    intro function part subject site other
    unfold nameText
    rw [nodeOf_one _ subject site other]
  exact (honest_context "position" position)
    |>.append (honest_context "level" level)
    |>.append (honest_accessor "node-kind" kind)
    |>.append (honest_accessor "name" (named _ _))
    |>.append (honest_accessor "local-name" (named _ _))
    |>.append (honest_accessor "namespace-uri" (named _ _))
    |>.append (honest_accessor "string" fun _ _ _ => rfl)
    |>.append (honest_accessor "number" fun _ _ _ => rfl)
    |>.append (honest_exact "boolean" 1 fun _ _ => rfl)
    |>.append (honest_exact "not" 1 fun _ _ => rfl)
    |>.append (honest_exact "true" 0 fun _ _ => rfl)
    |>.append (honest_exact "false" 0 fun _ _ => rfl)
    |>.append (honest_of_blind _ _ fun _ _ => rfl)
    |>.append (honest_exact "string-join" 2 fun _ _ => rfl)
    |>.append (honest_accessor "string-length" fun _ _ _ => rfl)
    |>.append (honest_accessor "normalize-space" fun _ _ _ => rfl)
    |>.append (honest_exact "contains" 2 fun _ _ => rfl)
    |>.append (honest_exact "starts-with" 2 fun _ _ => rfl)
    |>.append (honest_exact "ends-with" 2 fun _ _ => rfl)
    |>.append (honest_of_blind _ _ fun _ _ => rfl)
    |>.append (honest_exact "substring-before" 2 fun _ _ => rfl)
    |>.append (honest_exact "substring-after" 2 fun _ _ => rfl)
    |>.append (honest_exact "translate" 3 fun _ _ => rfl)
    |>.append (honest_exact "upper-case" 1 fun _ _ => rfl)
    |>.append (honest_exact "lower-case" 1 fun _ _ => rfl)
    |>.append (honest_exact "floor" 1 fun _ _ => rfl)
    |>.append (honest_exact "ceiling" 1 fun _ _ => rfl)
    |>.append (honest_exact "round" 1 fun _ _ => rfl)
    |>.append (honest_exact "sum" 1 fun _ _ => rfl)
    |>.append (honest_exact "count" 1 fun _ _ => rfl)
    |>.append (honest_exact "empty" 1 fun _ _ => rfl)
    |>.append (honest_exact "exists" 1 fun _ _ => rfl)
    |>.append (honest_exact "item-at" 2 fun _ _ => rfl)
    |>.append (honest_exact "index-of" 2 fun _ _ => rfl)

end Core

/-- The core library depends on arguments alone where it says so. -/
theorem Library.core_dependsOnArguments : Library.core.DependsOnArguments :=
  dependsOnArguments_of_all (all_core Core.honest_functions)

end StreamPath
