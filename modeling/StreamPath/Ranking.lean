/-!
# Ranked lists

A ranked list is kept in order while elements arrive one by one: `place` puts an element behind
everything it does not strictly precede, so elements of equal rank stay in order of arrival.
Rules, overloads and the nodes of a union are ranked lists.

* `place_perm`, `arrange_perm` — nothing is lost and nothing is invented;
* `pairwise_place`, `pairwise_arrange` — the result is in order;
* `map_arrange` — what is ranked may carry more than is compared;
* `pairwise_arrange_stable` — elements of equal rank keep their order.
-/

namespace StreamPath.Ranking

variable {α : Type}

/-- Put an element in front of the first one that it strictly precedes. -/
def place (precedes : α → α → Bool) (item : α) : List α → List α
  | [] => [item]
  | head :: rest =>
    if precedes item head then item :: head :: rest else head :: place precedes item rest

/-- Rank a list, elements of equal rank in their given order. -/
def arrange (precedes : α → α → Bool) (items : List α) : List α :=
  items.foldl (fun ranked item => place precedes item ranked) []

variable (precedes : α → α → Bool)

theorem place_perm (item : α) (ranked : List α) :
    (place precedes item ranked).Perm (item :: ranked) := by
  induction ranked with
  | nil => exact List.Perm.refl _
  | cons head rest ih =>
    by_cases first : precedes item head
    · simp [place, first]
    · simp only [place, first]
      exact (ih.cons head).trans (List.Perm.swap item head rest)

theorem mem_place {item other : α} {ranked : List α} :
    other ∈ place precedes item ranked ↔ other = item ∨ other ∈ ranked := by
  rw [(place_perm precedes item ranked).mem_iff, List.mem_cons]

theorem foldl_place_perm (items ranked : List α) :
    (items.foldl (fun acc item => place precedes item acc) ranked).Perm (items ++ ranked) := by
  induction items generalizing ranked with
  | nil => exact List.Perm.refl _
  | cons item rest ih =>
    refine (ih (place precedes item ranked)).trans ?_
    exact ((place_perm precedes item ranked).append_left rest).trans List.perm_middle

/-- Ranking reorders and does nothing else. -/
theorem arrange_perm (items : List α) : (arrange precedes items).Perm items := by
  simpa [arrange] using foldl_place_perm precedes items []

theorem mem_arrange {items : List α} {item : α} : item ∈ arrange precedes items ↔ item ∈ items :=
  (arrange_perm precedes items).mem_iff

/-- Placing keeps a list ordered, for a strict order given by a transitive, asymmetric test whose
negation is transitive too. -/
theorem pairwise_place (asymmetric : ∀ a b, precedes a b = true → precedes b a = false)
    (cotransitive : ∀ a b c, precedes b a = false → precedes c b = false → precedes c a = false)
    (item : α) (ranked : List α)
    (ordered : ranked.Pairwise fun a b => precedes b a = false) :
    (place precedes item ranked).Pairwise fun a b => precedes b a = false := by
  induction ranked with
  | nil => simp [place]
  | cons head rest ih =>
    rw [List.pairwise_cons] at ordered
    by_cases first : precedes item head = true
    · have back := asymmetric item head first
      simp only [place, first, if_true]
      refine List.pairwise_cons.mpr ⟨fun b mem => ?_, List.pairwise_cons.mpr ordered⟩
      rcases List.mem_cons.mp mem with rfl | mem
      · exact back
      · exact cotransitive item head b back (ordered.1 b mem)
    · have keep : precedes item head = false := by simpa using first
      simp only [place, keep, Bool.false_eq_true, if_false]
      refine List.pairwise_cons.mpr ⟨fun b mem => ?_, ih ordered.2⟩
      rcases (mem_place precedes).mp mem with rfl | mem
      · exact keep
      · exact ordered.1 b mem

/-- The ranked list is in order. -/
theorem pairwise_arrange (asymmetric : ∀ a b, precedes a b = true → precedes b a = false)
    (cotransitive : ∀ a b c, precedes b a = false → precedes c b = false → precedes c a = false)
    (items : List α) : (arrange precedes items).Pairwise fun a b => precedes b a = false := by
  have step : ∀ (items ranked : List α), (ranked.Pairwise fun a b => precedes b a = false) →
      (items.foldl (fun acc item => place precedes item acc) ranked).Pairwise
        fun a b => precedes b a = false := by
    intro items
    induction items with
    | nil => exact fun _ ordered => ordered
    | cons item rest ih =>
      exact fun ranked ordered =>
        ih _ (pairwise_place precedes asymmetric cotransitive item ranked ordered)
  exact step items [] List.Pairwise.nil

/-! ## Stability -/

/-- An element that precedes no other goes behind them. -/
theorem place_of_not_precedes {item : α} {ranked : List α}
    (behind : ∀ other ∈ ranked, precedes item other = false) :
    place precedes item ranked = ranked ++ [item] := by
  induction ranked with
  | nil => rfl
  | cons head rest ih =>
    obtain ⟨first, others⟩ := List.forall_mem_cons.mp behind
    rw [place, first, if_neg Bool.false_ne_true, ih others]
    rfl

/-- Elements of equal rank stay as they are. -/
theorem arrange_of_not_precedes {items : List α}
    (level : ∀ a ∈ items, ∀ b ∈ items, precedes a b = false) : arrange precedes items = items := by
  have step : ∀ (later ranked : List α),
      (∀ a ∈ ranked ++ later, ∀ b ∈ ranked ++ later, precedes a b = false) →
      later.foldl (fun acc item => place precedes item acc) ranked = ranked ++ later := by
    intro later
    induction later with
    | nil => exact fun ranked _ => (List.append_nil ranked).symm
    | cons item rest ih =>
      intro ranked level
      have behind : ∀ other ∈ ranked, precedes item other = false := fun other mem =>
        level item (List.mem_append_right _ List.mem_cons_self) other (List.mem_append_left _ mem)
      rw [List.foldl_cons, place_of_not_precedes precedes behind, ih (ranked ++ [item])] <;>
        rw [List.append_assoc, List.singleton_append]
      exact level
  exact step items [] level

theorem map_place {β : Type} (f : β → α) (item : β) (ranked : List β) :
    (place (fun a b => precedes (f a) (f b)) item ranked).map f =
      place precedes (f item) (ranked.map f) := by
  induction ranked with
  | nil => rfl
  | cons head rest ih =>
    by_cases first : precedes (f item) (f head) = true
    · simp [place, first]
    · simp [place, first, ih]

/-- Ranking compares some part of the elements and takes the rest along. -/
theorem map_arrange {β : Type} (f : β → α) (items : List β) :
    (arrange (fun a b => precedes (f a) (f b)) items).map f = arrange precedes (items.map f) := by
  have step : ∀ (items ranked : List β),
      (items.foldl (fun acc item => place (fun a b => precedes (f a) (f b)) item acc) ranked).map f =
        (items.map f).foldl (fun acc item => place precedes item acc) (ranked.map f) := by
    intro items
    induction items with
    | nil => exact fun _ => rfl
    | cons item rest ih =>
      intro ranked
      rw [List.foldl_cons, ih, map_place]
      rfl
  exact step items []

variable {precedes} {before earlier : α → α → Prop}

/-- An element that came after all others goes to its place in any order that decides by rank first
and by arrival then. -/
theorem pairwise_place_stable (transitive : ∀ a b c, before a b → before b c → before a c)
    (first : ∀ a b, earlier a b → precedes b a = true → before b a)
    (last : ∀ a b, earlier a b → precedes b a = false → before a b)
    {item : α} {ranked : List α} (newest : ∀ other ∈ ranked, earlier other item)
    (ordered : ranked.Pairwise before) : (place precedes item ranked).Pairwise before := by
  induction ranked with
  | nil => exact List.pairwise_singleton before item
  | cons head rest ih =>
    rw [List.forall_mem_cons] at newest
    rw [List.pairwise_cons] at ordered
    cases asked : precedes item head with
    | true =>
      have ahead := first head item newest.1 asked
      simp only [place, asked, if_true, List.pairwise_cons]
      refine ⟨fun other mem => ?_, ordered⟩
      rcases List.mem_cons.mp mem with rfl | mem
      · exact ahead
      · exact transitive item head other ahead (ordered.1 other mem)
    | false =>
      simp only [place, asked, Bool.false_eq_true, if_false, List.pairwise_cons]
      refine ⟨fun other mem => ?_, ih newest.2 ordered.2⟩
      rcases (mem_place precedes).mp mem with rfl | mem
      · exact last head other newest.1 asked
      · exact ordered.1 other mem

/-- A ranked list is in any order that decides by rank first and by arrival then. -/
theorem pairwise_arrange_stable (transitive : ∀ a b c, before a b → before b c → before a c)
    (first : ∀ a b, earlier a b → precedes b a = true → before b a)
    (last : ∀ a b, earlier a b → precedes b a = false → before a b)
    {items : List α} (arrived : items.Pairwise earlier) :
    (arrange precedes items).Pairwise before := by
  have step : ∀ (items ranked : List α), items.Pairwise earlier →
      (∀ other ∈ ranked, ∀ item ∈ items, earlier other item) → ranked.Pairwise before →
      (items.foldl (fun acc item => place precedes item acc) ranked).Pairwise before := by
    intro items
    induction items with
    | nil => exact fun _ _ _ ordered => ordered
    | cons item rest ih =>
      intro ranked arrived newest ordered
      rw [List.pairwise_cons] at arrived
      refine ih _ arrived.2 (fun other mem next later => ?_) (pairwise_place_stable transitive
        first last (fun other mem => newest other mem item List.mem_cons_self) ordered)
      rcases (mem_place precedes).mp mem with rfl | mem
      · exact arrived.1 next later
      · exact newest other mem next (List.mem_cons_of_mem item later)
  exact step items [] arrived nofun List.Pairwise.nil

end StreamPath.Ranking
