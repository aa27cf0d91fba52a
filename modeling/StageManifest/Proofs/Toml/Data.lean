import StageManifest.Proofs.Toml.Record
import StageManifest.Toml.Parse

/-!
# Data

What a text is parsed to is data (`isData_of_parse`): the entries of every table
are in rising order of their keys and every array has brackets.  Entries in rising order
with the same lookups are equal (`eq_of_lookup`).  A table that begins with the
private key of dates is read as a date; where a document has no such table, each
of its values is read on its own and stays where it is
(`Value.Undated.exists_table`).
-/

set_option autoImplicit false

namespace StageManifest.Toml

/-! ## Rising entries -/

/-- The keys of entries rise. -/
abbrev RisingKeys {α : Type} (entries : List (String × α)) : Prop :=
  entries.Pairwise fun first second => first.1 < second.1

section Entries

variable {α : Type} {key : String} {value : α}

theorem RisingKeys.distinctKeys {entries : List (String × α)} (rising : RisingKeys entries) :
    DistinctKeys entries := by
  have keys : (entries.map (·.1)).Pairwise (· < ·) := List.pairwise_map.mpr rising
  refine keys.imp fun {first second} less same => ?_
  subst same
  exact String.lt_irrefl _ less

/-- No key comes before the first one. -/
theorem RisingKeys.le_of_lookup {other : String} {held : α} {rest : List (String × α)}
    (rising : RisingKeys ((key, value) :: rest))
    (found : ((key, value) :: rest).lookup other = some held) : key ≤ other := by
  rcases List.mem_cons.mp (mem_of_lookup found) with same | member
  · exact (Prod.mk.inj same).1 ▸ String.le_refl _
  · exact String.not_lt.mp (String.lt_asymm ((List.pairwise_cons.mp rising).1 _ member))

/-- **Entries in rising order are known by their lookups.** -/
theorem eq_of_lookup {first second : List (String × α)} (risingFirst : RisingKeys first)
    (risingSecond : RisingKeys second) (same : ∀ key, first.lookup key = second.lookup key) :
    first = second := by
  induction first generalizing second with
  | nil =>
      cases second with
      | nil => rfl
      | cons entry rest =>
          have absent := same entry.1
          rw [List.lookup_cons_self] at absent
          cases absent
  | cons entry rest ih =>
      obtain ⟨key, value⟩ := entry
      cases second with
      | nil =>
          have absent := same key
          rw [List.lookup_cons_self] at absent
          cases absent
      | cons other others =>
          obtain ⟨otherKey, otherValue⟩ := other
          have foundSecond : ((otherKey, otherValue) :: others).lookup key = some value := by
            rw [← same, List.lookup_cons_self]
          have foundFirst : ((key, value) :: rest).lookup otherKey = some otherValue := by
            rw [same, List.lookup_cons_self]
          obtain rfl : key = otherKey := String.le_antisymm (risingFirst.le_of_lookup foundFirst)
            (risingSecond.le_of_lookup foundSecond)
          obtain rfl : otherValue = value := by simpa using foundSecond
          have sameRest : ∀ name, rest.lookup name = others.lookup name := by
            intro name
            by_cases isKey : name = key
            · have isNew (entries : List (String × α))
                  (rising : RisingKeys ((key, otherValue) :: entries)) :
                  entries.lookup key = none := by
                refine List.lookup_eq_none_iff.mpr fun pair member => ?_
                have less := (List.pairwise_cons.mp rising).1 pair member
                simpa using fun again : key = pair.1 => String.lt_irrefl _ (again ▸ less)
              rw [isKey, isNew rest risingFirst, isNew others risingSecond]
            · have found := same name
              rwa [List.lookup_cons, List.lookup_cons, beq_eq_false_iff_ne.mpr isKey] at found
          rw [ih (List.pairwise_cons.mp risingFirst).2 (List.pairwise_cons.mp risingSecond).2
            sameRest]

end Entries

/-! ## Insertions -/

namespace Value

variable {key : String} {value : Value} {entries : List (String × Value)}

theorem insertEntry_eq : insertEntry key value entries = Entries.insertPair key value entries := by
  induction entries with
  | nil => rfl
  | cons entry rest ih => rw [insertEntry, Entries.insertPair, ih]

/-- After an insertion the key has its new value and the other keys have theirs. -/
theorem lookup_insertEntry (key other : String) (value : Value) (entries : List (String × Value)) :
    (insertEntry key value entries).lookup other =
      if other = key then some value else entries.lookup other := by
  rw [insertEntry_eq, Entries.lookup_insertPair]

theorem risingKeys_insertEntry (rising : RisingKeys entries) :
    RisingKeys (insertEntry key value entries) := by
  rw [insertEntry_eq]
  exact Entries.rising_insertPair key value rising

theorem mem_insertEntry {entry : String × Value} (member : entry ∈ insertEntry key value entries) :
    entry = (key, value) ∨ entry ∈ entries := by
  rw [insertEntry_eq] at member
  exact Entries.mem_insertPair member

theorem risingKeys_sortEntries (entries : List (String × Value)) :
    RisingKeys (sortEntries entries) := by
  induction entries with
  | nil => exact .nil
  | cons entry rest ih => exact risingKeys_insertEntry ih

theorem mem_of_mem_sortEntries {entry : String × Value} (member : entry ∈ sortEntries entries) :
    entry ∈ entries := by
  induction entries with
  | nil => exact member
  | cons first rest ih =>
      rcases mem_insertEntry member with same | member
      · exact same ▸ List.mem_cons_self
      · exact List.mem_cons_of_mem _ (ih member)

/-- Sorting does not change what is found under a key. -/
theorem lookup_sortEntries (entries : List (String × Value)) (key : String) :
    (sortEntries entries).lookup key = entries.lookup key := by
  induction entries with
  | nil => rfl
  | cons entry rest ih =>
      have step : sortEntries (entry :: rest) =
        insertEntry entry.1 entry.2 (sortEntries rest) := rfl
      rw [step, lookup_insertEntry, ih, List.lookup_cons]
      by_cases same : key = entry.1
      · rw [if_pos same, beq_iff_eq.mpr same]
      · rw [if_neg same, beq_eq_false_iff_ne.mpr same]

end Value

/-! ## Data -/

/-- Entries of tables rise at every depth, and arrays have brackets. -/
inductive Value.IsData : Value → Prop where
  | string (text : String) : IsData (.string text)
  | integer (number : Int64) : IsData (.integer number)
  | float (number : Binary64) : IsData (.float number)
  | boolean (truth : Bool) : IsData (.boolean truth)
  | datetime (moment : DateTime) : IsData (.datetime moment)
  | array {items : List Value} : (∀ item ∈ items, item.IsData) → IsData (.array .brackets items)
  | table {entries : List (String × Value)} :
      RisingKeys entries → (∀ entry ∈ entries, entry.2.IsData) → IsData (.table entries)

namespace Value.IsData

variable {content : List (String × Value)}

theorem rising (data : (Value.table content).IsData) : RisingKeys content := by
  cases data with
  | table rising _ => exact rising

theorem entries (data : (Value.table content).IsData) : ∀ entry ∈ content, entry.2.IsData := by
  cases data with
  | table _ each => exact each

theorem of_lookup {key : String} {value : Value} (data : (Value.table content).IsData)
    (found : content.lookup key = some value) : value.IsData :=
  data.entries _ (mem_of_lookup found)

theorem distinct {value : Value} (data : value.IsData) : value.Distinct := by
  induction data with
  | array _ ih => exact .array ih
  | table rising _ ih => exact .table rising.distinctKeys ih
  | string text => exact .string text
  | integer number => exact .integer number
  | float number => exact .float number
  | boolean truth => exact .boolean truth
  | datetime moment => exact .datetime moment

theorem emptyTable : Value.emptyTable.IsData := .table .nil nofun

theorem insertEntry {key : String} {value : Value} (data : (Value.table content).IsData)
    (isData : value.IsData) : (Value.table (Value.insertEntry key value content)).IsData := by
  refine .table (risingKeys_insertEntry data.rising) fun entry member => ?_
  rcases mem_insertEntry member with rfl | member
  · exact isData
  · exact data.entries entry member

end Value.IsData

mutual
/-- What is read as data is data. -/
theorem isData_of_decodeData {dates : DateTable} {value data : Value}
    (decoded : decodeData dates value = .ok data) : data.IsData := by
  match value with
  | .string text =>
      cases decoded
      exact .string text
  | .integer number =>
      cases decoded
      exact .integer number
  | .float number =>
      cases decoded
      exact .float number
  | .boolean truth =>
      cases decoded
      exact .boolean truth
  | .datetime moment =>
      cases decoded
      exact .datetime moment
  | .array form items =>
      rw [decodeData] at decoded
      obtain ⟨results, isRead, rfl⟩ := map_eq_ok_iff.mp decoded
      exact .array (isData_of_decodeDataItems isRead)
  | .table [] =>
      cases decoded
      exact .emptyTable
  | .table ((key, value) :: rest) =>
      rw [decodeData] at decoded
      split at decoded
      · obtain ⟨moment, _, decoded⟩ := exists_of_bind_eq_ok decoded
        split at decoded
        · cases decoded
        · cases decoded
          exact .datetime moment
      · obtain ⟨first, isFirst, decoded⟩ := exists_of_bind_eq_ok decoded
        obtain ⟨others, isRest, same⟩ := exists_of_bind_eq_ok decoded
        cases same
        refine .table (Value.risingKeys_sortEntries _) fun entry member => ?_
        rcases List.mem_cons.mp (Value.mem_of_mem_sortEntries member) with rfl | member
        · exact isData_of_decodeData isFirst
        · exact isData_of_decodeDataEntries isRest entry member

theorem isData_of_decodeDataItems {dates : DateTable} {items data : List Value}
    (decoded : decodeDataItems dates items = .ok data) : ∀ item ∈ data, item.IsData := by
  match items with
  | [] =>
      cases decoded
      exact List.forall_mem_nil _
  | item :: rest =>
      rw [decodeDataItems] at decoded
      obtain ⟨first, isFirst, decoded⟩ := exists_of_bind_eq_ok decoded
      obtain ⟨others, isRest, same⟩ := exists_of_bind_eq_ok decoded
      cases same
      exact List.forall_mem_cons.mpr
        ⟨isData_of_decodeData isFirst, isData_of_decodeDataItems isRest⟩

theorem isData_of_decodeDataEntries {dates : DateTable} {entries data : List (String × Value)}
    (decoded : decodeDataEntries dates entries = .ok data) : ∀ entry ∈ data, entry.2.IsData := by
  match entries with
  | [] =>
      cases decoded
      exact List.forall_mem_nil _
  | (key, value) :: rest =>
      rw [decodeDataEntries] at decoded
      obtain ⟨first, isFirst, decoded⟩ := exists_of_bind_eq_ok decoded
      obtain ⟨others, isRest, same⟩ := exists_of_bind_eq_ok decoded
      cases same
      exact List.forall_mem_cons.mpr
        ⟨isData_of_decodeData isFirst, isData_of_decodeDataEntries isRest⟩
end

/-- A table that does not begin with the private key of dates is read entry by entry. -/
theorem decodeData_table_eq_ok_iff {dates : DateTable} {entries : List (String × Value)}
    (undated : ∀ entry ∈ entries.head?, entry.1 ≠ dateKey) {data : Value} :
    decodeData dates (.table entries) = .ok data ↔
      ∃ results, decodeDataEntries dates entries = .ok results ∧
        data = .table (Value.sortEntries results) := by
  cases entries with
  | nil =>
      constructor
      · rintro ⟨⟩
        exact ⟨[], rfl, rfl⟩
      · rintro ⟨_, ⟨⟩, rfl⟩
        rfl
  | cons entry rest =>
      have notDate : entry.1 ≠ dateKey := undated entry rfl
      rw [decodeData, if_neg notDate, decodeDataEntries]
      constructor
      · intro decoded
        obtain ⟨first, isFirst, decoded⟩ := exists_of_bind_eq_ok decoded
        obtain ⟨others, isRest, same⟩ := exists_of_bind_eq_ok decoded
        cases same
        exact ⟨_, by rw [isFirst, isRest]; rfl, rfl⟩
      · rintro ⟨results, decoded, rfl⟩
        obtain ⟨first, isFirst, decoded⟩ := exists_of_bind_eq_ok decoded
        obtain ⟨others, isRest, same⟩ := exists_of_bind_eq_ok decoded
        cases same
        rw [isFirst, isRest]
        rfl

/-- What is read from a table is a table, or a date. -/
theorem isTable_or_datetime_of_decodeData {dates : DateTable} {entries : List (String × Value)}
    {data : Value} (decoded : decodeData dates (.table entries) = .ok data) :
    data.isTable = true ∨ ∃ moment, data = .datetime moment := by
  by_cases undated : ∀ entry ∈ entries.head?, entry.1 ≠ dateKey
  · obtain ⟨_, _, rfl⟩ := (decodeData_table_eq_ok_iff undated).mp decoded
    exact .inl rfl
  · cases entries with
    | nil => exact absurd nofun undated
    | cons entry rest =>
        have isDate : entry.1 = dateKey := by simpa using undated
        rw [decodeData, if_pos isDate] at decoded
        obtain ⟨moment, _, decoded⟩ := exists_of_bind_eq_ok decoded
        split at decoded
        · cases decoded
        · cases decoded
          exact .inr ⟨moment, rfl⟩

/-- A text stands for what its document is read as. -/
theorem parseAs_eq_ok_iff {α : Type} {decode : Value → Decoded α} {text : String} {answer : α} :
    parseAs decode text = .ok answer ↔
      ∃ entries, readDocument text = some entries ∧ decode (.table entries) = .ok answer := by
  constructor
  · intro parsed
    unfold parseAs at parsed
    split at parsed
    · cases parsed
    next entries isDocument =>
      split at parsed
      · cases parsed
      next first decoded =>
        cases parsed
        exact ⟨entries, isDocument, decoded⟩
  · rintro ⟨entries, isDocument, decoded⟩
    simp only [parseAs, isDocument, decoded]

/-- **What a text is parsed to is data.** -/
theorem isData_of_parse {text : String} {data : Value} (parsed : parse text = .ok data) :
    data.IsData := by
  obtain ⟨entries, _, decoded⟩ := parseAs_eq_ok_iff.mp parsed
  exact isData_of_decodeData decoded

/-! ## Documents without tables of dates -/

/-- No table begins with the private key of dates. -/
inductive Value.Undated : Value → Prop where
  | string (text : String) : Undated (.string text)
  | integer (number : Int64) : Undated (.integer number)
  | float (number : Binary64) : Undated (.float number)
  | boolean (truth : Bool) : Undated (.boolean truth)
  | datetime (moment : DateTime) : Undated (.datetime moment)
  | array {form : ArrayForm} {items : List Value} :
      (∀ item ∈ items, item.Undated) → Undated (.array form items)
  | table {entries : List (String × Value)} :
      (∀ entry ∈ entries.head?, entry.1 ≠ dateKey) → (∀ entry ∈ entries, entry.2.Undated) →
        Undated (.table entries)

theorem exists_decodeDataItems {dates : DateTable} {items : List Value}
    (each : ∀ item ∈ items, ∃ data, decodeData dates item = .ok data) :
    ∃ data, decodeDataItems dates items = .ok data := by
  induction items with
  | nil => exact ⟨[], rfl⟩
  | cons item rest ih =>
      obtain ⟨⟨first, isFirst⟩, each⟩ := List.forall_mem_cons.mp each
      obtain ⟨others, isRest⟩ := ih each
      exact ⟨first :: others, by rw [decodeDataItems, isFirst, isRest]; rfl⟩

theorem exists_decodeDataEntries {dates : DateTable} {entries : List (String × Value)}
    (each : ∀ entry ∈ entries, ∃ data, decodeData dates entry.2 = .ok data) :
    ∃ data, decodeDataEntries dates entries = .ok data := by
  induction entries with
  | nil => exact ⟨[], rfl⟩
  | cons entry rest ih =>
      obtain ⟨⟨first, isFirst⟩, each⟩ := List.forall_mem_cons.mp each
      obtain ⟨others, isRest⟩ := ih each
      exact ⟨(entry.1, first) :: others, by rw [decodeDataEntries, isFirst, isRest]; rfl⟩

/-- What is read from entries under a key is what the entry with that key is read as. -/
theorem mapM_lookup_of_decodeDataEntries {dates : DateTable} {entries data : List (String × Value)}
    (decoded : decodeDataEntries dates entries = .ok data) (key : String) :
    (entries.lookup key).mapM (decodeData dates) = .ok (data.lookup key) := by
  induction entries generalizing data with
  | nil =>
      cases decoded
      rfl
  | cons entry rest ih =>
      obtain ⟨name, value⟩ := entry
      rw [decodeDataEntries] at decoded
      obtain ⟨first, isFirst, decoded⟩ := exists_of_bind_eq_ok decoded
      obtain ⟨others, isRest, same⟩ := exists_of_bind_eq_ok decoded
      cases same
      by_cases isName : key = name
      · rw [isName, List.lookup_cons_self, List.lookup_cons_self, Option.mapM_some, isFirst]
        rfl
      · rw [List.lookup_cons, List.lookup_cons, beq_eq_false_iff_ne.mpr isName]
        exact ih isRest

namespace Value.Undated

/-- Every undated value can be read as data. -/
theorem exists_data {value : Value} (undated : value.Undated) (dates : DateTable) :
    ∃ data, decodeData dates value = .ok data := by
  induction undated with
  | array _ ih =>
      obtain ⟨items, isRead⟩ := exists_decodeDataItems ih
      exact ⟨.array .brackets items, by rw [decodeData, isRead]; rfl⟩
  | table first _ ih =>
      obtain ⟨results, isRead⟩ := exists_decodeDataEntries ih
      exact ⟨_, (decodeData_table_eq_ok_iff first).mpr ⟨results, isRead, rfl⟩⟩
  | string text => exact ⟨.string text, rfl⟩
  | integer number => exact ⟨.integer number, rfl⟩
  | float number => exact ⟨.float number, rfl⟩
  | boolean truth => exact ⟨.boolean truth, rfl⟩
  | datetime moment => exact ⟨.datetime moment, rfl⟩

theorem of_lookup {entries : List (String × Value)} {key : String} {value : Value}
    (undated : (Value.table entries).Undated) (found : entries.lookup key = some value) :
    value.Undated := by
  cases undated with
  | table _ each => exact each _ (mem_of_lookup found)

/-- **The entries of an undated table are read each on its own.** -/
theorem exists_table {dates : DateTable} {entries : List (String × Value)} {data : Value}
    (undated : (Value.table entries).Undated)
    (decoded : decodeData dates (.table entries) = .ok data) :
    ∃ results, data = .table results ∧
      ∀ key, (entries.lookup key).mapM (decodeData dates) = .ok (results.lookup key) := by
  cases undated with
  | table first _ =>
      obtain ⟨results, isRead, rfl⟩ := (decodeData_table_eq_ok_iff first).mp decoded
      refine ⟨_, rfl, fun key => ?_⟩
      rw [lookup_sortEntries]
      exact mapM_lookup_of_decodeDataEntries isRead key

end Value.Undated

end StageManifest.Toml
