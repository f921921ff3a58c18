/-!
# Finite tables

A `Table κ α` binds keys to values. Binding a key again replaces its value in place, so the
entries keep the order in which their keys were first bound. Variable frames, sibling counters,
scope caches and copy records are all tables.

* `find?_insert` — the whole meaning of `insert`, as seen by a reader of the table;
* `nodup_keys_insert` — a key is never bound twice;
* `find?_of_perm` — what a table binds does not depend on the order of its entries.
-/

namespace StreamPath

/-- An association of keys with values, oldest key first. -/
structure Table (κ α : Type) where
  entries : List (κ × α)
deriving Repr, DecidableEq

namespace Table

variable {κ α : Type}

def empty : Table κ α := ⟨[]⟩

instance : Inhabited (Table κ α) := ⟨empty⟩

/-- The bound keys, oldest first. -/
def keys (table : Table κ α) : List κ := table.entries.map Prod.fst

variable [DecidableEq κ]

/-- The value of the first entry with this key. -/
def lookup (key : κ) : List (κ × α) → Option α
  | [] => none
  | entry :: rest => if entry.1 = key then some entry.2 else lookup key rest

/-- Overwrite the entry with this key, or append one. -/
def store (key : κ) (value : α) : List (κ × α) → List (κ × α)
  | [] => [(key, value)]
  | entry :: rest => if entry.1 = key then (key, value) :: rest else entry :: store key value rest

def find? (table : Table κ α) (key : κ) : Option α := lookup key table.entries

def contains (table : Table κ α) (key : κ) : Bool := (table.find? key).isSome

/-- Bind a key, replacing what it was bound to. -/
def insert (table : Table κ α) (key : κ) (value : α) : Table κ α := ⟨store key value table.entries⟩

/-- Bind every pair of a list, the later ones winning. -/
def insertAll (table : Table κ α) (pairs : List (κ × α)) : Table κ α :=
  pairs.foldl (fun acc pair => acc.insert pair.1 pair.2) table

/-- The table with the pairs of a list, the later ones winning. -/
def ofList (pairs : List (κ × α)) : Table κ α := empty.insertAll pairs

/-! ## What a reader sees -/

@[simp] theorem find?_empty (key : κ) : (empty : Table κ α).find? key = none := rfl

theorem lookup_store (key other : κ) (value : α) (entries : List (κ × α)) :
    lookup other (store key value entries) =
      if key = other then some value else lookup other entries := by
  induction entries with
  | nil => simp [store, lookup]
  | cons entry rest ih =>
    by_cases same : entry.1 = key
    · by_cases eq : key = other <;> simp [store, lookup, same, eq]
    · by_cases eq : key = other
      · subst eq
        simp [store, lookup, same, ih]
      · simp [store, lookup, same, ih, eq]

/-- After binding a key, that key reads the new value and every other key reads as before. -/
@[grind =] theorem find?_insert (table : Table κ α) (key other : κ) (value : α) :
    (table.insert key value).find? other = if key = other then some value else table.find? other :=
  lookup_store key other value table.entries

@[simp] theorem find?_insert_self (table : Table κ α) (key : κ) (value : α) :
    (table.insert key value).find? key = some value := by simp [find?_insert]

theorem find?_insert_of_ne (table : Table κ α) {key other : κ} (value : α) (ne : key ≠ other) :
    (table.insert key value).find? other = table.find? other := by simp [find?_insert, ne]

/-- In a table with one entry, only that entry is found. -/
theorem eq_of_find?_insert_empty {key other : κ} {value found : α}
    (isFound : ((empty : Table κ α).insert key value).find? other = some found) :
    key = other ∧ value = found := by
  rw [find?_insert] at isFound
  split at isFound
  · next same => exact ⟨same, Option.some.inj isFound⟩
  · cases isFound

/-- Where no two keys have one value, a key bound to a value that no key has keeps it so. -/
theorem injective_insert {table : Table κ α} {key : κ} {value : α}
    (injective : ∀ one two shared, table.find? one = some shared →
      table.find? two = some shared → one = two)
    (fresh : ∀ other, table.find? other ≠ some value) {one two : κ} {shared : α}
    (found : (table.insert key value).find? one = some shared)
    (alsoFound : (table.insert key value).find? two = some shared) : one = two := by
  rw [find?_insert] at found alsoFound
  split at found <;> split at alsoFound
  · next same same' => exact same.symm.trans same'
  · cases found
    exact absurd alsoFound (fresh two)
  · cases alsoFound
    exact absurd found (fresh one)
  · exact injective one two shared found alsoFound

/-- Binding a key binds exactly that key in addition. -/
theorem contains_insert (table : Table κ α) (key other : κ) (value : α) :
    (table.insert key value).contains other = (decide (key = other) || table.contains other) := by
  by_cases eq : key = other <;> simp [contains, find?_insert, eq]

/-- Binding pairs leaves other keys alone. -/
theorem find?_insertAll_of_not_mem (table : Table κ α) {pairs : List (κ × α)} {key : κ}
    (absent : key ∉ pairs.map Prod.fst) : (table.insertAll pairs).find? key = table.find? key := by
  unfold insertAll
  induction pairs generalizing table with
  | nil => rfl
  | cons pair rest ih =>
    rw [List.map_cons, List.mem_cons, not_or] at absent
    rw [List.foldl_cons, ih _ absent.2, find?_insert_of_ne _ _ (Ne.symm absent.1)]

/-- Binding pairs binds every key of theirs, to its value if they agree on it. -/
theorem find?_insertAll_of_mem (table : Table κ α) {pairs : List (κ × α)} {key : κ} {value : α}
    (mem : key ∈ pairs.map Prod.fst) (agreed : ∀ pair ∈ pairs, pair.1 = key → pair.2 = value) :
    (table.insertAll pairs).find? key = some value := by
  induction pairs generalizing table with
  | nil => cases mem
  | cons pair rest ih =>
    rw [List.forall_mem_cons] at agreed
    show ((table.insert pair.1 pair.2).insertAll rest).find? key = some value
    by_cases later : key ∈ rest.map Prod.fst
    · exact ih _ later agreed.2
    · rw [List.map_cons, List.mem_cons] at mem
      have own : key = pair.1 := mem.resolve_right later
      rw [find?_insertAll_of_not_mem _ later, own, find?_insert_self, agreed.1 own.symm]

theorem lookup_isSome_iff (key : κ) (entries : List (κ × α)) :
    (lookup key entries).isSome ↔ key ∈ entries.map Prod.fst := by
  induction entries with
  | nil => simp [lookup]
  | cons entry rest ih =>
    by_cases same : entry.1 = key
    · simp [lookup, same]
    · simp [lookup, same, ih, Ne.symm same]

/-- What a reader finds is an entry. -/
theorem mem_entries_of_find? {table : Table κ α} {key : κ} {value : α}
    (found : table.find? key = some value) : (key, value) ∈ table.entries := by
  obtain ⟨entries⟩ := table
  change lookup key entries = some value at found
  induction entries with
  | nil => cases found
  | cons entry rest ih =>
    rw [lookup] at found
    split at found
    · next same =>
      cases found
      cases same
      exact List.mem_cons_self
    · exact List.mem_cons_of_mem _ (ih found)

/-- Where no key is bound twice, the entries are what a reader sees. -/
theorem mem_entries_iff {table : Table κ α} (nodup : table.keys.Nodup) {key : κ} {value : α} :
    (key, value) ∈ table.entries ↔ table.find? key = some value := by
  obtain ⟨entries⟩ := table
  change (key, value) ∈ entries ↔ lookup key entries = some value
  change (entries.map Prod.fst).Nodup at nodup
  induction entries with
  | nil => simp [lookup]
  | cons entry rest ih =>
    rw [List.map_cons, List.nodup_cons] at nodup
    rw [List.mem_cons, ih nodup.2, lookup]
    by_cases same : entry.1 = key
    · have absent : lookup key rest ≠ some value := by
        intro found
        have isKey := (lookup_isSome_iff key rest).mp (by rw [found]; rfl)
        exact nodup.1 (same ▸ isKey)
      rw [if_pos same]
      constructor
      · rintro (rfl | found)
        · rfl
        · exact absurd found absent
      · intro found
        exact .inl (Prod.ext same.symm (Option.some.inj found).symm)
    · have differs : (key, value) ≠ entry := by
        rintro rfl
        exact same rfl
      rw [if_neg same]
      simp [differs]

/-- A reader sees the same in a table that lists the same entries in another order. -/
theorem find?_of_perm {table other : Table κ α} (nodup : table.keys.Nodup)
    (perm : other.entries.Perm table.entries) (key : κ) : other.find? key = table.find? key := by
  have nodup' : other.keys.Nodup := (perm.map Prod.fst).nodup_iff.mpr nodup
  ext value
  rw [← mem_entries_iff nodup', ← mem_entries_iff nodup, perm.mem_iff]

theorem contains_iff_mem_keys (table : Table κ α) (key : κ) :
    table.contains key ↔ key ∈ table.keys := lookup_isSome_iff key table.entries

theorem store_of_not_mem {key : κ} (value : α) {entries : List (κ × α)}
    (absent : key ∉ entries.map Prod.fst) :
    store key value entries = entries ++ [(key, value)] := by
  induction entries with
  | nil => rfl
  | cons entry rest ih =>
    rw [List.map_cons, List.mem_cons, not_or] at absent
    rw [store, if_neg (Ne.symm absent.1), ih absent.2]
    rfl

/-- A key that was not bound gets the last entry. -/
theorem entries_insert_of_find?_none {table : Table κ α} {key : κ} (value : α)
    (unbound : table.find? key = none) :
    (table.insert key value).entries = table.entries ++ [(key, value)] := by
  apply store_of_not_mem
  rw [← lookup_isSome_iff, Option.not_isSome_iff_eq_none]
  exact unbound

theorem keys_store (key : κ) (value : α) (entries : List (κ × α)) :
    (store key value entries).map Prod.fst =
      if key ∈ entries.map Prod.fst then entries.map Prod.fst else entries.map Prod.fst ++ [key] := by
  induction entries with
  | nil => simp [store]
  | cons entry rest ih =>
    by_cases same : entry.1 = key
    · simp [store, same]
    · by_cases mem : key ∈ rest.map Prod.fst
      · rw [if_pos mem] at ih
        simp [store, same, ih, List.mem_cons, mem]
      · rw [if_neg mem] at ih
        rw [if_neg (by simpa [List.mem_cons, Ne.symm same] using mem)]
        simp [store, same, ih]

/-- A bound key keeps its place; a new one goes to the end. -/
theorem keys_insert (table : Table κ α) (key : κ) (value : α) :
    (table.insert key value).keys =
      if key ∈ table.keys then table.keys else table.keys ++ [key] :=
  keys_store key value table.entries

/-- No operation binds a key twice. -/
theorem nodup_keys_insert (table : Table κ α) (key : κ) (value : α) (nodup : table.keys.Nodup) :
    (table.insert key value).keys.Nodup := by
  rw [keys_insert]
  by_cases mem : key ∈ table.keys
  · rwa [if_pos mem]
  · rw [if_neg mem, List.nodup_append]
    refine ⟨nodup, by simp, fun a ha b hb => ?_⟩
    rw [List.mem_singleton.mp hb]
    exact fun eq => mem (eq ▸ ha)

end Table

end StreamPath
