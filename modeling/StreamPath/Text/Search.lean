/-!
# Finding text in text

One cut answers every question about an occurrence: `cut? needle text` gives what stands before and
after the first occurrence. An empty needle occurs at the start of every text.

* `append_of_cut?` — the two parts with the needle between them are the text;
* `cut?_isSome_iff` — there is a cut exactly when the needle occurs somewhere;
* `isPrefix_of_cut?` — the needle does not occur any earlier.
-/

namespace StreamPath.Text

/-- What stands before and after the first occurrence of a needle. -/
def cut? (needle : List Char) : List Char → Option (List Char × List Char)
  | [] => if needle.isEmpty then some ([], []) else none
  | c :: rest =>
    if needle.isPrefixOf (c :: rest) then some ([], (c :: rest).drop needle.length)
    else (cut? needle rest).map fun parts => (c :: parts.1, parts.2)

def contains (text needle : String) : Bool := (cut? needle.toList text.toList).isSome

/-- What stands before the first occurrence; empty if there is none. -/
def before (text needle : String) : String :=
  String.ofList (((cut? needle.toList text.toList).map Prod.fst).getD [])

/-- What stands after the first occurrence; empty if there is none. -/
def after (text needle : String) : String :=
  String.ofList (((cut? needle.toList text.toList).map Prod.snd).getD [])

def startsWith (text opening : String) : Bool := opening.toList.isPrefixOf text.toList

def endsWith (text ending : String) : Bool := ending.toList.isSuffixOf text.toList

/-- A cut loses nothing but the needle. -/
theorem append_of_cut? {needle text front back : List Char}
    (found : cut? needle text = some (front, back)) : front ++ needle ++ back = text := by
  induction text generalizing front with
  | nil =>
    cases needle with
    | nil => simp_all [cut?]
    | cons c rest => simp [cut?] at found
  | cons c rest ih =>
    by_cases here : needle.isPrefixOf (c :: rest) = true
    · rw [cut?, if_pos here, Option.some.injEq, Prod.mk.injEq] at found
      have start : needle <+: c :: rest := by simpa using here
      obtain ⟨tail, eq⟩ := start
      rw [← found.1, ← found.2, ← eq]
      simp
    · rw [cut?, if_neg here, Option.map_eq_some_iff] at found
      obtain ⟨⟨inner, last⟩, foundRest, eq⟩ := found
      simp only [Prod.mk.injEq] at eq
      obtain ⟨rfl, rfl⟩ := eq
      rw [List.cons_append, List.cons_append, ih foundRest]

/-- There is a cut exactly when the needle occurs in the text. -/
theorem cut?_isSome_iff {needle text : List Char} : (cut? needle text).isSome ↔ needle <:+: text := by
  constructor
  · intro some
    obtain ⟨⟨front, back⟩, found⟩ := Option.isSome_iff_exists.mp some
    exact ⟨front, back, append_of_cut? found⟩
  · intro occurs
    induction text with
    | nil => simp [cut?, List.infix_nil.mp occurs]
    | cons c rest ih =>
      by_cases here : needle.isPrefixOf (c :: rest) = true
      · simp [cut?, here]
      · rcases List.infix_cons_iff.mp occurs with start | later
        · exact absurd (by simpa using start) here
        · simp [cut?, here, ih later]

/-- The cut is made at the first occurrence: what stands before it stands before every other one. -/
theorem isPrefix_of_cut? {needle text front back earlier later : List Char}
    (found : cut? needle text = some (front, back)) (occurs : earlier ++ needle ++ later = text) :
    front <+: earlier := by
  induction text generalizing front earlier with
  | nil =>
    have nothing : front = [] := by
      have parts := append_of_cut? found
      simp_all
    exact nothing ▸ List.nil_prefix
  | cons c rest ih =>
    by_cases here : needle.isPrefixOf (c :: rest) = true
    · rw [cut?, if_pos here, Option.some.injEq, Prod.mk.injEq] at found
      exact found.1 ▸ List.nil_prefix
    · rw [cut?, if_neg here, Option.map_eq_some_iff] at found
      obtain ⟨⟨inner, last⟩, foundRest, eq⟩ := found
      simp only [Prod.mk.injEq] at eq
      obtain ⟨rfl, rfl⟩ := eq
      cases earlier with
      | nil => exact absurd (by simpa using ⟨later, occurs⟩) here
      | cons first others =>
        simp only [List.cons_append, List.cons.injEq] at occurs
        obtain ⟨rfl, occurs⟩ := occurs
        exact List.cons_prefix_cons.mpr ⟨rfl, ih foundRest occurs⟩

end StreamPath.Text
