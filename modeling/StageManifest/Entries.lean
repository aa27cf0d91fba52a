/-!
# Entries sorted by key

A finite map from text to values, kept as a list of pairs in strictly rising
order of the keys.  Text is ordered by its code points, which is the order of
its bytes in UTF-8.  Because the order is strict, two maps with the same entries
are equal as lists.  The main statements say that an insertion keeps the order
(`rising_insertPair`) and what it does to lookups (`lookup_insertPair`).
-/

set_option autoImplicit false

namespace StageManifest

/-- Pairs in strictly rising order of their keys. -/
structure Entries (α : Type) where
  toList : List (String × α)
  rising : toList.Pairwise (fun first second => first.1 < second.1)
deriving DecidableEq

namespace Entries

variable {α : Type}

/-- No entries. -/
def empty : Entries α := ⟨[], .nil⟩

/-- A pair put into its place among others; it replaces one with the same key. -/
def insertPair (key : String) (value : α) : List (String × α) → List (String × α)
  | [] => [(key, value)]
  | pair :: rest =>
      if key < pair.1 then (key, value) :: pair :: rest
      else if pair.1 < key then pair :: insertPair key value rest
      else (key, value) :: rest

/-- A pair after an insertion is the inserted one or was there before. -/
theorem mem_insertPair {key : String} {value : α} {pairs : List (String × α)}
    {pair : String × α} (h : pair ∈ insertPair key value pairs) :
    pair = (key, value) ∨ pair ∈ pairs := by
  induction pairs with
  | nil => simpa [insertPair] using h
  | cons head rest ih =>
      simp only [insertPair] at h
      split at h
      · simpa using h
      · split at h
        · rcases List.mem_cons.1 h with h | h
          · exact .inr (h ▸ List.mem_cons_self)
          · rcases ih h with h | h
            · exact .inl h
            · exact .inr (List.mem_cons_of_mem _ h)
        · rcases List.mem_cons.1 h with h | h
          · exact .inl h
          · exact .inr (List.mem_cons_of_mem _ h)

/-- An insertion keeps the order. -/
theorem rising_insertPair (key : String) (value : α) {pairs : List (String × α)}
    (h : pairs.Pairwise (fun first second => first.1 < second.1)) :
    (insertPair key value pairs).Pairwise (fun first second => first.1 < second.1) := by
  induction pairs with
  | nil => simp [insertPair]
  | cons head rest ih =>
      obtain ⟨hhead, hrest⟩ := List.pairwise_cons.1 h
      simp only [insertPair]
      split
      · rename_i hlt
        refine List.pairwise_cons.2 ⟨fun pair hpair => ?_, h⟩
        rcases List.mem_cons.1 hpair with rfl | hpair
        · exact hlt
        · exact String.lt_trans hlt (hhead pair hpair)
      · split
        · rename_i hgt
          refine List.pairwise_cons.2 ⟨fun pair hpair => ?_, ih hrest⟩
          rcases mem_insertPair hpair with rfl | hpair
          · exact hgt
          · exact hhead pair hpair
        · rename_i hlt hgt
          have heq : key = head.1 :=
            String.le_antisymm (String.not_lt.1 hgt) (String.not_lt.1 hlt)
          exact List.pairwise_cons.2 ⟨fun pair hpair => heq ▸ hhead pair hpair, hrest⟩

/-- After an insertion the inserted key has its value and every other key the value it had. -/
theorem lookup_insertPair (key other : String) (value : α) (pairs : List (String × α)) :
    (insertPair key value pairs).lookup other =
      if other = key then some value else pairs.lookup other := by
  induction pairs with
  | nil => simp only [insertPair, List.lookup_cons, List.lookup_nil]; grind
  | cons head rest ih =>
      obtain ⟨first, held⟩ := head
      simp only [insertPair]
      split
      · simp only [List.lookup_cons]; grind
      · split
        · rename_i hlt hgt
          have hne : first ≠ key := fun h => String.lt_irrefl _ (h ▸ hgt)
          simp only [List.lookup_cons, ih]; grind
        · rename_i hlt hgt
          have heq : key = first :=
            String.le_antisymm (String.not_lt.1 hgt) (String.not_lt.1 hlt)
          simp only [List.lookup_cons]; grind

/-- The entries with one more; it replaces an entry with the same key. -/
def insert (entries : Entries α) (key : String) (value : α) : Entries α :=
  ⟨insertPair key value entries.toList, rising_insertPair key value entries.rising⟩

/-- The entries of a list of pairs; of two pairs with one key the later wins. -/
def ofList (pairs : List (String × α)) : Entries α :=
  pairs.foldl (fun entries pair => entries.insert pair.1 pair.2) empty

/-- The value at a key. -/
def find? (entries : Entries α) (key : String) : Option α :=
  entries.toList.lookup key

/-- The keys in rising order. -/
def keys (entries : Entries α) : List String :=
  entries.toList.map (·.1)

/-- How many entries there are. -/
def size (entries : Entries α) : Nat :=
  entries.toList.length

theorem rising_keys (entries : Entries α) : entries.keys.Pairwise (· < ·) :=
  List.pairwise_map.mpr entries.rising

/-- Every key comes once. -/
theorem nodup_keys (entries : Entries α) : entries.keys.Nodup := by
  refine entries.rising_keys.imp fun {first second} less same => ?_
  exact String.lt_irrefl second (same ▸ less)

/-- A key with a value is one of the keys. -/
theorem mem_keys_of_find? {entries : Entries α} {key : String} {value : α}
    (found : entries.find? key = some value) : key ∈ entries.keys := by
  obtain ⟨before, after, same, _⟩ := List.lookup_eq_some_iff.mp found
  simp [keys, same]

/-- Each of the keys has a value. -/
theorem exists_find?_of_mem_keys {entries : Entries α} {key : String}
    (isKey : key ∈ entries.keys) : ∃ value, entries.find? key = some value := by
  obtain ⟨pair, isPair, rfl⟩ := List.mem_map.mp isKey
  cases found : entries.find? pair.1 with
  | some value => exact ⟨value, rfl⟩
  | none => exact absurd (List.lookup_eq_none_iff.mp found pair isPair) (by simp)

/-- An insertion gives the inserted key its value and keeps the values of the others. -/
theorem find?_insert (entries : Entries α) (key other : String) (value : α) :
    (entries.insert key value).find? other =
      if other = key then some value else entries.find? other :=
  lookup_insertPair key other value entries.toList

/-- Among the entries of a list of pairs, a key has the value of its last pair. -/
theorem find?_ofList (pairs : List (String × α)) (key : String) :
    (ofList pairs).find? key = pairs.reverse.lookup key := by
  rw [ofList, List.foldl_eq_foldr_reverse]
  induction pairs.reverse with
  | nil => rfl
  | cons pair rest ih =>
      rw [List.foldr_cons, find?_insert, ih, List.lookup_cons]
      by_cases same : key = pair.1
      · rw [if_pos same, beq_iff_eq.mpr same]
      · rw [if_neg same, beq_eq_false_iff_ne.mpr same]

end Entries

end StageManifest
