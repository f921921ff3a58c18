import Mathlib.Data.List.Induction
import Mathlib.Data.List.Nodup
import Mathlib.Order.WithBot
import StreamPath.Function.Core
import StreamPath.Proofs.Declaration

/-!
# Overloads

A library is filled by registrations, one after the other. The overloads of a name stand in the order
in which a call asks them: the highest least arity first, then the range that ends first, then the
one that was registered first. So a call takes the most specific overload that accepts its arity, and
if no two overloads of a name have the same range, it makes no difference in which order they came.

* `Registered` — an overload is registered for a name, at a place among all registrations;
* `Preferred` — the order of overloads;
* `Library.exists_ranked` — a name holds its overloads in that order;
* `Library.resolution` — what a call resolves to, and what it fails with.
-/

namespace StreamPath

namespace Overload

/-- Where the range of arities ends; an unbounded one ends behind all others. -/
def last (overload : Overload) : WithTop Nat := overload.greatest

/-- An overload takes an arity that is within its range. -/
def Takes (overload : Overload) (arity : Nat) : Prop :=
  overload.least ≤ arity ∧ WithTop.some arity ≤ overload.last

theorem accepts_iff {overload : Overload} {arity : Nat} :
    overload.accepts arity = true ↔ overload.Takes arity := by
  unfold accepts Takes last
  rw [Bool.and_eq_true, decide_eq_true_eq]
  cases overload.greatest with
  | none => exact and_congr_right fun _ => ⟨fun _ => le_top, fun _ => rfl⟩
  | some greatest =>
    exact and_congr_right fun _ => decide_eq_true_iff.trans WithTop.coe_le_coe.symm

theorem precedes_iff {a b : Overload} :
    a.precedes b = true ↔ b.least < a.least ∨ a.least = b.least ∧ a.last < b.last := by
  unfold precedes last
  rw [Bool.or_eq_true, Bool.and_eq_true, decide_eq_true_eq, decide_eq_true_eq]
  refine or_congr_right (and_congr_right fun _ => ?_)
  cases a.greatest with
  | none => exact ⟨nofun, fun lt => absurd lt not_top_lt⟩
  | some x =>
    cases b.greatest with
    | none => exact ⟨fun _ => WithTop.coe_lt_top x, fun _ => rfl⟩
    | some y => exact decide_eq_true_iff.trans WithTop.coe_lt_coe.symm

theorem precedes_asymm (a b : Overload) (before : a.precedes b = true) :
    b.precedes a = false := by
  rw [← Bool.not_eq_true]
  rw [precedes_iff] at *
  grind

theorem precedes_cotrans (a b c : Overload) (notBefore : b.precedes a = false)
    (notBefore' : c.precedes b = false) : c.precedes a = false := by
  rw [← Bool.not_eq_true] at *
  rw [precedes_iff] at *
  grind

end Overload

/-- An overload together with its place among all registrations. -/
abbrev PlacedOverload := Overload × Nat

/-- An overload is registered for a name. -/
def Registered (registrations : List (Name × Overload)) (name : Name) (entry : PlacedOverload) :
    Prop :=
  registrations[entry.2]? = some (name, entry.1)

/-- One overload is to be asked before another: it has the higher least arity, or the same and a range
that ends before, or the same range and was registered first. -/
def Preferred (a b : PlacedOverload) : Prop :=
  b.1.least < a.1.least ∨ a.1.least = b.1.least ∧
    (a.1.last < b.1.last ∨ a.1.last = b.1.last ∧ a.2 < b.2)

theorem Preferred.trans {a b c : PlacedOverload} (first : Preferred a b) (second : Preferred b c) :
    Preferred a c := by
  unfold Preferred at *
  grind

theorem Preferred.asymm {a b : PlacedOverload} (first : Preferred a b) : ¬Preferred b a := by
  unfold Preferred at *
  grind

/-- The overloads registered for a name, in the order in which they came. -/
def overloadsFor (registrations : List (Name × Overload)) (name : Name) : List Overload :=
  (registrations.filter (·.1 = name)).map Prod.snd

/-- The same with their places. -/
def arrivalsFor (registrations : List (Name × Overload)) (name : Name) : List PlacedOverload :=
  (registrations.zipIdx.filter fun entry => entry.1.1 = name).map fun entry => (entry.1.2, entry.2)

theorem map_arrivalsFor (registrations : List (Name × Overload)) (name : Name) :
    (arrivalsFor registrations name).map Prod.fst = overloadsFor registrations name := by
  have places : registrations = registrations.zipIdx.map Prod.fst := (List.zipIdx_map_fst ..).symm
  unfold overloadsFor
  conv_rhs => rw [places, List.filter_map, List.map_map]
  unfold arrivalsFor
  rw [List.map_map]
  rfl

theorem mem_arrivalsFor_iff {registrations : List (Name × Overload)} {name : Name}
    {entry : PlacedOverload} :
    entry ∈ arrivalsFor registrations name ↔ Registered registrations name entry := by
  unfold arrivalsFor Registered
  rw [List.mem_map]
  constructor
  · rintro ⟨⟨⟨other, overload⟩, place⟩, mem, rfl⟩
    obtain ⟨there, same⟩ := List.mem_filter.mp mem
    rw [← of_decide_eq_true same]
    exact List.mem_zipIdx_iff_getElem?.mp there
  · intro there
    exact ⟨((name, entry.1), entry.2),
      List.mem_filter.mpr ⟨List.mem_zipIdx_iff_getElem?.mpr there, decide_eq_true rfl⟩, rfl⟩

theorem pairwise_arrivalsFor (registrations : List (Name × Overload)) (name : Name) :
    (arrivalsFor registrations name).Pairwise fun a b => a.2 < b.2 :=
  List.pairwise_map.mpr ((pairwise_zipIdx registrations).filter _)

namespace Library

/-- The library that registrations fill. -/
def ofRegistrations (registrations : List (Name × Overload)) : Library :=
  registrations.foldl (fun library entry => library.register entry.1 entry.2) .empty

/-- The core library is filled by the core functions. -/
theorem core_eq : core = ofRegistrations Core.functions := rfl

variable (registrations : List (Name × Overload)) (name : Name)

/-- A name holds the overloads registered for it, ranked as they arrived. -/
theorem find?_ofRegistrations :
    (ofRegistrations registrations).functions.find? name =
      if overloadsFor registrations name = [] then none
      else some (Ranking.arrange Overload.precedes (overloadsFor registrations name)) := by
  induction registrations using List.reverseRecOn with
  | nil => rfl
  | append_singleton earlier latest ih =>
    have grown : ofRegistrations (earlier ++ [latest]) =
        (ofRegistrations earlier).register latest.1 latest.2 := List.foldl_concat ..
    have arrived : overloadsFor (earlier ++ [latest]) name =
        overloadsFor earlier name ++ if latest.1 = name then [latest.2] else [] := by
      unfold overloadsFor
      rw [List.filter_append, List.map_append]
      by_cases same : latest.1 = name <;> simp [same]
    rw [grown, arrived, register, Table.find?_insert]
    by_cases same : latest.1 = name
    · have ranked : Ranking.arrange Overload.precedes (overloadsFor earlier name ++ [latest.2]) =
          Ranking.place Overload.precedes latest.2
            (Ranking.arrange Overload.precedes (overloadsFor earlier name)) := List.foldl_concat ..
      rw [if_pos same, if_pos same, if_neg (by simp), same, ih, ranked]
      split
      · next none =>
        rw [none]
        rfl
      · rfl
    · rw [if_neg same, if_neg same, List.append_nil, ih]

/-- A name holds what was registered for it, each overload after all that are to be asked before
it. -/
theorem exists_ranked : ∃ ranked : List PlacedOverload,
    ((ofRegistrations registrations).functions.find? name =
      if ranked = [] then none else some (ranked.map Prod.fst)) ∧
    ranked.Pairwise Preferred ∧ ∀ entry, entry ∈ ranked ↔ Registered registrations name entry := by
  let arrived := arrivalsFor registrations name
  have perm : (Ranking.arrange (fun a b : PlacedOverload => a.1.precedes b.1) arrived).Perm arrived :=
    Ranking.arrange_perm ..
  refine ⟨Ranking.arrange (fun a b => a.1.precedes b.1) arrived, ?_, ?_, fun entry => ?_⟩
  · have empty : overloadsFor registrations name = [] ↔
        Ranking.arrange (fun a b => a.1.precedes b.1) arrived = [] := by
      rw [← map_arrivalsFor, List.map_eq_nil_iff, ← List.length_eq_zero_iff, ← perm.length_eq,
        List.length_eq_zero_iff]
    rw [find?_ofRegistrations, Ranking.map_arrange, map_arrivalsFor]
    simp only [empty]
  · refine Ranking.pairwise_arrange_stable (fun _ _ _ first second => first.trans second)
      (fun a b _ before => ?_) (fun a b earlier notBefore => ?_)
      (pairwise_arrivalsFor registrations name)
    · rw [Overload.precedes_iff] at before
      exact before.imp_right (And.imp_right .inl)
    · rw [← Bool.not_eq_true, Overload.precedes_iff] at notBefore
      unfold Preferred
      grind
  · rw [perm.mem_iff, mem_arrivalsFor_iff]

/-! ## The arities on offer -/

theorem mem_dedup {arities : List Nat} {arity : Nat} : arity ∈ dedup arities ↔ arity ∈ arities := by
  fun_induction dedup arities with
  | case1 head rest ih => simp only [ih, List.mem_cons, or_self_left]
  | case2 head next rest _ ih => rw [List.mem_cons, ih, ← List.mem_cons]
  | case3 short _ => rfl

/-- Without its repetitions, an ascending list is strictly ascending. -/
theorem pairwise_dedup {arities : List Nat} (ascending : arities.Pairwise (· ≤ ·)) :
    (dedup arities).Pairwise (· < ·) := by
  fun_induction dedup arities with
  | case1 head rest ih => exact ih ascending.of_cons
  | case2 head next rest differs ih =>
    obtain ⟨least, ascending⟩ := List.pairwise_cons.mp ascending
    refine List.pairwise_cons.mpr ⟨fun arity mem => ?_, ih ascending⟩
    have below : head < next := Nat.lt_of_le_of_ne (least next List.mem_cons_self) differs
    rcases List.mem_cons.mp (mem_dedup.mp mem) with rfl | mem
    · exact below
    · exact below.trans_le (List.rel_of_pairwise_cons ascending mem)
  | case3 short shape =>
    match short with
    | [] => exact List.Pairwise.nil
    | [arity] => exact List.pairwise_singleton _ arity
    | a :: b :: rest => exact absurd rfl (shape a b rest)

theorem pairwise_available (overloads : List Overload) :
    (available overloads).Pairwise (· < ·) := by
  refine pairwise_dedup ((Ranking.pairwise_arrange _ ?_ ?_ _).imp ?_) <;>
    simp only [decide_eq_true_eq, decide_eq_false_iff_not] <;> omega

/-- The arities of an overload are those it takes, unless it takes arbitrarily many arguments. -/
theorem mem_arities_iff {overload : Overload} {arity : Nat} :
    arity ∈ overload.arities ↔ overload.greatest.isSome ∧ overload.Takes arity := by
  unfold Overload.arities Overload.Takes Overload.last
  cases overload.greatest with
  | none => exact ⟨nofun, fun ⟨bounded, _⟩ => nomatch bounded⟩
  | some greatest =>
    have within : WithTop.some arity ≤ WithTop.some greatest ↔ arity ≤ greatest :=
      WithTop.coe_le_coe
    rw [List.mem_range'_1, Option.isSome_some, eq_self, true_and]
    refine Iff.trans ?_ (and_congr_right' within).symm
    omega

theorem mem_available_iff {overloads : List Overload} {arity : Nat} :
    arity ∈ available overloads ↔
      ∃ overload ∈ overloads, overload.greatest.isSome ∧ overload.Takes arity := by
  unfold available
  rw [mem_dedup, Ranking.mem_arrange, List.mem_flatMap]
  simp only [mem_arities_iff]

/-! ## Resolution -/

/-- The overload that a call is to take: it takes the arity, and every other one that does so is to be
asked after it. -/
structure Best (chosen : PlacedOverload) (arity : Nat) : Prop where
  registered : Registered registrations name chosen
  takes : chosen.1.Takes arity
  preferred : ∀ other, Registered registrations name other → other.1.Takes arity →
    other = chosen ∨ Preferred chosen other

/-- No two overloads of a name have the same range of arities. -/
def DistinctRanges : Prop :=
  ((overloadsFor registrations name).map fun overload => (overload.least, overload.greatest)).Nodup

variable {registrations name} {arity : Nat}

theorem mem_names_iff :
    name ∈ registrations.map Prod.fst ↔ ∃ entry, Registered registrations name entry := by
  rw [List.mem_map]
  constructor
  · rintro ⟨⟨_, overload⟩, mem, rfl⟩
    obtain ⟨place, there⟩ := List.mem_iff_getElem?.mp mem
    exact ⟨(overload, place), there⟩
  · rintro ⟨entry, there⟩
    exact ⟨(name, entry.1), List.mem_of_getElem? there, rfl⟩

/-- A call takes the best overload there is; it fails if there is none, for a name that was never
registered, or with the arities on offer. -/
theorem resolve_cases (registrations : List (Name × Overload)) (name : Name) (arity : Nat) :
    (name ∉ registrations.map Prod.fst ∧
      (ofRegistrations registrations).resolve name arity = .error (.unknownFunction name)) ∨
    (∃ entry, Best registrations name entry arity ∧
      (ofRegistrations registrations).resolve name arity = .ok entry.1) ∨
    (name ∈ registrations.map Prod.fst ∧
      (∀ entry, Registered registrations name entry → ¬entry.1.Takes arity) ∧
      ∃ overloads, (∀ overload, overload ∈ overloads ↔
          ∃ place, Registered registrations name (overload, place)) ∧
        (ofRegistrations registrations).resolve name arity =
          .error (.wrongArity name (available overloads))) := by
  obtain ⟨ranked, holds, ordered, mem⟩ := exists_ranked registrations name
  unfold resolve
  by_cases none : ranked = []
  · subst none
    refine .inl ⟨fun known => ?_, by rw [holds, if_pos rfl]⟩
    obtain ⟨entry, there⟩ := mem_names_iff.mp known
    exact List.not_mem_nil ((mem entry).mpr there)
  · simp only [holds, if_neg none, List.find?_map]
    cases found : ranked.find? ((fun overload => overload.accepts arity) ∘ Prod.fst) with
    | some entry =>
      obtain ⟨accepts, before, after, split, refused⟩ := List.find?_eq_some_iff_append.mp found
      refine .inr (.inl ⟨entry, ⟨(mem entry).mp (List.mem_of_find?_eq_some found),
        Overload.accepts_iff.mp accepts, fun other there takes => ?_⟩, rfl⟩)
      rw [split] at ordered mem
      have place := (mem other).mpr there
      rw [List.mem_append, List.mem_cons] at place
      rcases place with earlier | rfl | later
      · have asked := refused other earlier
        rw [Function.comp_apply, Overload.accepts_iff.mpr takes] at asked
        cases asked
      · exact .inl rfl
      · exact .inr (List.rel_of_pairwise_cons (List.pairwise_append.mp ordered).2.1 later)
    | none =>
      rw [List.find?_eq_none] at found
      obtain ⟨first, there⟩ := List.exists_mem_of_ne_nil ranked none
      refine .inr (.inr ⟨mem_names_iff.mpr ⟨first, (mem first).mp there⟩, fun entry there takes => ?_,
        ranked.map Prod.fst, fun overload => ?_, rfl⟩)
      · exact found entry ((mem entry).mpr there) (Overload.accepts_iff.mpr takes)
      · simp only [List.mem_map, mem, Prod.exists, exists_and_right, exists_eq_right]

/-- If no two overloads have the same range, the order in which they came does not matter. -/
theorem find?_ofRegistrations_of_perm {others : List (Name × Overload)}
    (perm : others.Perm registrations) (distinct : DistinctRanges registrations name) :
    (ofRegistrations others).functions.find? name =
      (ofRegistrations registrations).functions.find? name := by
  have arrived : (overloadsFor others name).Perm (overloadsFor registrations name) :=
    (perm.filter _).map _
  have empty : overloadsFor others name = [] ↔ overloadsFor registrations name = [] := by
    rw [← List.length_eq_zero_iff, arrived.length_eq, List.length_eq_zero_iff]
  have ranked : Ranking.arrange Overload.precedes (overloadsFor others name) =
      Ranking.arrange Overload.precedes (overloadsFor registrations name) := by
    have ordered := Ranking.pairwise_arrange Overload.precedes Overload.precedes_asymm
      Overload.precedes_cotrans
    have level : ∀ a b : Overload, a ∈ Ranking.arrange Overload.precedes (overloadsFor others name) →
        b ∈ Ranking.arrange Overload.precedes (overloadsFor registrations name) →
        b.precedes a = false → a.precedes b = false → a = b := by
      intro a b first second notAfter notBefore
      have range : (a.least, a.greatest) = (b.least, b.greatest) := by
        rw [← Bool.not_eq_true, Overload.precedes_iff] at notAfter notBefore
        have least : a.least = b.least := by grind
        have last : a.last = b.last := by grind
        exact Prod.ext least last
      rw [Ranking.mem_arrange] at first second
      exact List.inj_on_of_nodup_map distinct (arrived.mem_iff.mp first) second range
    exact List.Perm.eq_of_pairwise level (ordered _) (ordered _)
      (((Ranking.arrange_perm ..).trans arrived).trans (Ranking.arrange_perm ..).symm)
  rw [find?_ofRegistrations, find?_ofRegistrations, ranked]
  simp only [empty]

/-- What a call of a name with so many arguments resolves to, in the library that registrations
fill. -/
structure Resolution (registrations : List (Name × Overload)) (name : Name) (arity : Nat) : Prop where
  succeeds_iff : (∃ overload, (ofRegistrations registrations).resolve name arity = .ok overload) ↔
    ∃ entry, Registered registrations name entry ∧ entry.1.Takes arity
  best : ∀ overload, (ofRegistrations registrations).resolve name arity = .ok overload →
    ∃ place, Best registrations name (overload, place) arity
  pure_iff : (ofRegistrations registrations).isPure name arity = true ↔
    ∃ overload, (ofRegistrations registrations).resolve name arity = .ok overload ∧
      overload.purity = .pure
  unknown_iff : (ofRegistrations registrations).resolve name arity = .error (.unknownFunction name) ↔
    name ∉ registrations.map Prod.fst
  wrongArity : ∀ cause, (ofRegistrations registrations).resolve name arity = .error cause →
    cause ≠ .unknownFunction name → ∃ arities, cause = .wrongArity name arities ∧
      arities.Pairwise (· < ·) ∧ ∀ other, other ∈ arities ↔
        ∃ entry, Registered registrations name entry ∧ entry.1.greatest.isSome ∧ entry.1.Takes other
  permuted : ∀ others : List (Name × Overload), others.Perm registrations →
    DistinctRanges registrations name →
    (ofRegistrations others).resolve name arity = (ofRegistrations registrations).resolve name arity ∧
    (ofRegistrations others).isPure name arity = (ofRegistrations registrations).isPure name arity

/-- A call takes the most specific overload that accepts its arity, in whatever order the overloads were
registered. -/
theorem resolution (registrations : List (Name × Overload)) (name : Name) (arity : Nat) :
    Resolution registrations name arity where
  succeeds_iff := by
    rcases resolve_cases registrations name arity with
      ⟨unknown, failed⟩ | ⟨entry, best, resolved⟩ | ⟨_, refused, _, _, failed⟩
    · rw [failed]
      exact ⟨nofun, fun ⟨entry, there, _⟩ => absurd (mem_names_iff.mpr ⟨entry, there⟩) unknown⟩
    · exact ⟨fun _ => ⟨entry, best.registered, best.takes⟩, fun _ => ⟨entry.1, resolved⟩⟩
    · rw [failed]
      exact ⟨nofun, fun ⟨entry, there, takes⟩ => absurd takes (refused entry there)⟩
  best overload resolved := by
    rcases resolve_cases registrations name arity with
      ⟨_, failed⟩ | ⟨entry, best, taken⟩ | ⟨_, _, _, _, failed⟩
    · exact nomatch failed.symm.trans resolved
    · cases taken.symm.trans resolved
      exact ⟨entry.2, best⟩
    · exact nomatch failed.symm.trans resolved
  pure_iff := by
    unfold isPure
    cases (ofRegistrations registrations).resolve name arity with
    | error cause => exact ⟨nofun, nofun⟩
    | ok overload =>
      exact decide_eq_true_iff.trans
        ⟨fun same => ⟨overload, rfl, same⟩, fun ⟨_, rfl, same⟩ => same⟩
  unknown_iff := by
    rcases resolve_cases registrations name arity with
      ⟨unknown, failed⟩ | ⟨entry, best, resolved⟩ | ⟨known, _, _, _, failed⟩
    · exact ⟨fun _ => unknown, fun _ => failed⟩
    · rw [resolved]
      exact ⟨nofun, fun unknown => absurd (mem_names_iff.mpr ⟨entry, best.registered⟩) unknown⟩
    · rw [failed]
      exact ⟨nofun, fun unknown => absurd known unknown⟩
  wrongArity cause failed other := by
    rcases resolve_cases registrations name arity with
      ⟨_, same⟩ | ⟨entry, _, resolved⟩ | ⟨_, _, overloads, mem, same⟩
    · cases same.symm.trans failed
      exact absurd rfl other
    · exact nomatch resolved.symm.trans failed
    · cases same.symm.trans failed
      refine ⟨available overloads, rfl, pairwise_available overloads, fun arity => ?_⟩
      rw [mem_available_iff]
      constructor
      · rintro ⟨overload, among, bounded⟩
        obtain ⟨place, there⟩ := (mem overload).mp among
        exact ⟨(overload, place), there, bounded⟩
      · rintro ⟨entry, there, bounded⟩
        exact ⟨entry.1, (mem entry.1).mpr ⟨entry.2, there⟩, bounded⟩
  permuted others perm distinct := by
    have same := find?_ofRegistrations_of_perm perm distinct
    have resolved : (ofRegistrations others).resolve name arity =
        (ofRegistrations registrations).resolve name arity := by
      unfold resolve
      rw [same]
    exact ⟨resolved, by rw [isPure, isPure, resolved]⟩

end Library

end StreamPath
