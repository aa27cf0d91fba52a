import StageManifest.Config.Layers
import StageManifest.Proofs.Toml.Data

/-!
# Paths through tables

A value is looked up along a path of keys (`Value.at?`), and tables that are
merged are known by what they hold along each path: what the overlay holds there
laid over what the base holds there (`at?_merge_of_some`), what the base holds
where the overlay holds nothing (`at?_merge_of_open`), and nothing below a value of
the overlay that is no table (`at?_merge_of_not_open`).  A second merge with the
same overlay changes nothing (`merge_merge`).
-/

set_option autoImplicit false

namespace StageManifest.Toml

/-! ## Paths -/

namespace Value

/-- What a table holds under a key. -/
def under? (key : String) : Value → Option Value
  | .table entries => entries.lookup key
  | _ => none

/-- What a value holds at a path of keys. -/
def at? : (path : List String) → Value → Option Value
  | [], value => some value
  | key :: path, value => (value.under? key).bind (at? path)

/-- Whatever a value holds above a path is a table. -/
def Open (value : Value) (path : List String) : Prop :=
  ∀ above held, above <+: path → above ≠ path → value.at? above = some held → held.isTable = true

variable {value held : Value} {key : String} {path : List String}

theorem under?_eq_none_of_not_table (plain : value.isTable = false) : value.under? key = none := by
  cases value with
  | table entries => cases plain
  | _ => rfl

theorem isTable_of_under? (found : value.under? key = some held) : value.isTable = true := by
  cases isTable : value.isTable with
  | true => rfl
  | false =>
      rw [under?_eq_none_of_not_table isTable] at found
      cases found

theorem at?_cons (key : String) (path : List String) (value : Value) :
    value.at? (key :: path) = (value.under? key).bind (at? path) :=
  rfl

theorem at?_cons_eq_some_iff :
    value.at? (key :: path) = some held ↔
      ∃ child, value.under? key = some child ∧ child.at? path = some held := by
  rw [at?_cons, Option.bind_eq_some_iff]

theorem open_nil (value : Value) : value.Open [] := by
  intro above held isPrefix different
  exact absurd (List.prefix_nil.mp isPrefix) different

theorem open_cons_iff :
    value.Open (key :: path) ↔
      value.isTable = true ∧ ∀ child, value.under? key = some child → child.Open path := by
  constructor
  · intro isOpen
    refine ⟨isOpen [] value List.nil_prefix (List.cons_ne_nil _ _).symm rfl, ?_⟩
    intro child isChild above held isPrefix different found
    refine isOpen (key :: above) held (List.cons_prefix_cons.mpr ⟨rfl, isPrefix⟩) ?_ ?_
    · simpa using different
    · exact at?_cons_eq_some_iff.mpr ⟨child, isChild, found⟩
  · rintro ⟨isTable, each⟩ above held isPrefix different found
    cases above with
    | nil =>
        cases found
        exact isTable
    | cons first above =>
        obtain ⟨rfl, isBelow⟩ := List.cons_prefix_cons.mp isPrefix
        obtain ⟨child, isChild, found⟩ := at?_cons_eq_some_iff.mp found
        exact each child isChild above held isBelow (by simpa using different) found

/-- Nothing is below a value that is no table. -/
theorem at?_eq_none_of_not_open (closed : ¬ value.Open path) : value.at? path = none := by
  induction path generalizing value with
  | nil => exact absurd (open_nil value) closed
  | cons key path ih =>
      rw [open_cons_iff] at closed
      rw [at?_cons]
      cases isChild : value.under? key with
      | none => rfl
      | some child =>
          refine ih fun isOpen => closed ⟨isTable_of_under? isChild, ?_⟩
          rintro other isOther
          cases isChild.symm.trans isOther
          exact isOpen

theorem Distinct.of_under? (distinct : value.Distinct) (found : value.under? key = some held) :
    held.Distinct := by
  cases distinct with
  | table _ each => exact each _ (mem_of_lookup found)
  | _ => cases found

theorem Distinct.of_at? (distinct : value.Distinct) (found : value.at? path = some held) :
    held.Distinct := by
  induction path generalizing value with
  | nil =>
      cases found
      exact distinct
  | cons key path ih =>
      obtain ⟨child, isChild, below⟩ := at?_cons_eq_some_iff.mp found
      exact ih (distinct.of_under? isChild) below

theorem IsData.of_at? (data : value.IsData) (found : value.at? path = some held) : held.IsData := by
  induction path generalizing value with
  | nil =>
      cases found
      exact data
  | cons key path ih =>
      obtain ⟨child, isChild, below⟩ := at?_cons_eq_some_iff.mp found
      cases value with
      | table entries => exact ih (data.of_lookup isChild) below
      | _ => cases isChild

end Value

/-! ## Merging -/

variable {base overlay held : Value} {key : String} {path : List String}

theorem merge_of_not_table (plain : overlay.isTable = false) : merge base overlay = overlay := by
  cases overlay with
  | table entries => cases plain
  | _ => rw [merge]; nofun

theorem merge_table (entries overlay : List (String × Value)) :
    merge (.table entries) (.table overlay) = .table (mergeEntries entries overlay) := by
  rw [merge]

theorem merge_table_of_not_table (plain : base.isTable = false) (overlay : List (String × Value)) :
    merge base (.table overlay) = .table overlay := by
  cases base with
  | table entries => cases plain
  | _ => rw [merge]; nofun

/-- An empty table changes no table. -/
theorem merge_emptyTable (isTable : base.isTable = true) : merge base .emptyTable = base := by
  cases base with
  | table entries => rw [Value.emptyTable, merge_table, mergeEntries]
  | _ => cases isTable

theorem isTable_merge (base overlay : Value) :
    (merge base overlay).isTable = overlay.isTable := by
  cases isTable : overlay.isTable with
  | false => rw [merge_of_not_table isTable, isTable]
  | true =>
      cases overlay with
      | table entries =>
          cases base with
          | table content => rw [merge_table]; rfl
          | _ => rw [merge_table_of_not_table rfl]; rfl
      | _ => cases isTable

/-- A key of the overlay has its value laid over what the base has there, and the other keys are
those of the base. -/
theorem lookup_mergeEntries {overlay : List (String × Value)} (distinct : DistinctKeys overlay)
    (base : List (String × Value)) (key : String) :
    (mergeEntries base overlay).lookup key =
      (overlay.lookup key).elim (base.lookup key) fun value =>
        some ((base.lookup key).elim value (merge · value)) := by
  induction overlay generalizing base with
  | nil => rw [mergeEntries]; rfl
  | cons entry rest ih =>
      obtain ⟨name, value⟩ := entry
      obtain ⟨notAgain, distinct⟩ := List.nodup_cons.mp distinct
      have merged : mergeEntries base ((name, value) :: rest) =
          mergeEntries (Value.insertEntry name ((base.lookup name).elim value (merge · value)) base)
            rest := by
        rw [mergeEntries]
        cases base.lookup name <;> rfl
      rw [merged, ih distinct, Value.lookup_insertEntry]
      by_cases isName : key = name
      · have isNew : rest.lookup key = none := by
          refine List.lookup_eq_none_iff.mpr fun pair member => ?_
          refine bne_iff_ne.mpr fun again => notAgain ?_
          exact List.mem_map.mpr ⟨pair, member, again.symm.trans isName⟩
        rw [if_pos isName, isNew, isName, List.lookup_cons_self]
        rfl
      · rw [if_neg isName, List.lookup_cons, beq_eq_false_iff_ne.mpr isName]

/-- A table laid over a value holds under each key its own value laid over the one below. -/
theorem under?_merge (distinct : overlay.Distinct) (isTable : overlay.isTable = true)
    (base : Value) (key : String) :
    (merge base overlay).under? key =
      (overlay.under? key).elim (base.under? key) fun value =>
        some ((base.under? key).elim value (merge · value)) := by
  cases overlay with
  | table entries =>
      cases isBase : base.isTable with
      | true =>
          cases base with
          | table content =>
              rw [merge_table]
              exact lookup_mergeEntries distinct.keys content key
          | _ => cases isBase
      | false =>
          rw [merge_table_of_not_table isBase, Value.under?_eq_none_of_not_table isBase]
          cases (Value.table entries).under? key <;> rfl
  | _ => cases isTable

/-! ## Merged values along paths -/

/-- **Where the overlay holds a value, it is laid over what the base holds there.** -/
theorem at?_merge_of_some (distinct : overlay.Distinct) (found : overlay.at? path = some held)
    (base : Value) :
    (merge base overlay).at? path = some ((base.at? path).elim held (merge · held)) := by
  induction path generalizing base overlay with
  | nil =>
      cases found
      rfl
  | cons key path ih =>
      obtain ⟨child, isChild, found⟩ := Value.at?_cons_eq_some_iff.mp found
      rw [Value.at?_cons, Value.at?_cons,
        under?_merge distinct (Value.isTable_of_under? isChild), isChild]
      cases base.under? key with
      | none => exact found
      | some existing => exact ih (distinct.of_under? isChild) found existing

/-- **Where the overlay holds nothing, not even a value above, there is what the base holds.** -/
theorem at?_merge_of_open (distinct : overlay.Distinct) (absent : overlay.at? path = none)
    (isOpen : overlay.Open path) (base : Value) :
    (merge base overlay).at? path = base.at? path := by
  induction path generalizing base overlay with
  | nil => cases absent
  | cons key path ih =>
      obtain ⟨isTable, each⟩ := Value.open_cons_iff.mp isOpen
      rw [Value.at?_cons] at absent
      rw [Value.at?_cons, Value.at?_cons, under?_merge distinct isTable]
      cases isChild : overlay.under? key with
      | none => rfl
      | some child =>
          rw [isChild] at absent
          cases base.under? key with
          | none => exact absent
          | some existing =>
              exact ih (distinct.of_under? isChild) absent (each child isChild) existing

/-- **Below a value of the overlay that is no table there is nothing.** -/
theorem at?_merge_of_not_open (distinct : overlay.Distinct) (closed : ¬ overlay.Open path)
    (base : Value) : (merge base overlay).at? path = none := by
  induction path generalizing base overlay with
  | nil => exact absurd (Value.open_nil overlay) closed
  | cons key path ih =>
      rw [Value.open_cons_iff] at closed
      rw [Value.at?_cons]
      cases isTable : overlay.isTable with
      | false => rw [merge_of_not_table isTable, Value.under?_eq_none_of_not_table isTable]; rfl
      | true =>
          obtain ⟨child, isChild, below⟩ : ∃ child, overlay.under? key = some child ∧
              ¬ child.Open path := by
            simpa [isTable] using closed
          rw [under?_merge distinct isTable, isChild]
          cases base.under? key with
          | none => exact Value.at?_eq_none_of_not_open below
          | some existing => exact ih (distinct.of_under? isChild) below existing

/-- **A path of merged values leads to a value that is no table exactly if it does so in the
overlay, or in the base while the overlay has nothing there and only tables above.** -/
theorem at?_merge_eq_some_iff (distinct : overlay.Distinct) (plain : held.isTable = false)
    (base : Value) :
    (merge base overlay).at? path = some held ↔
      overlay.at? path = some held ∨
        base.at? path = some held ∧ overlay.at? path = none ∧ overlay.Open path := by
  cases found : overlay.at? path with
  | some value =>
      have same : (base.at? path).elim value (merge · value) = held ↔ value = held := by
        cases base.at? path with
        | none => rfl
        | some existing =>
            cases isTable : value.isTable with
            | false => rw [Option.elim_some, merge_of_not_table isTable]
            | true =>
                constructor <;> rintro rfl
                · rw [Option.elim_some, isTable_merge, isTable] at plain
                  cases plain
                · rw [isTable] at plain
                  cases plain
      rw [at?_merge_of_some distinct found]
      simpa using same
  | none =>
      by_cases isOpen : overlay.Open path
      · simp [at?_merge_of_open distinct found isOpen, isOpen]
      · simp [at?_merge_of_not_open distinct isOpen, isOpen]

/-! ## Merged data -/

theorem isData_mergeEntries {base overlay : List (String × Value)}
    (data : (Value.table base).IsData) (each : ∀ entry ∈ overlay, entry.2.IsData ∧
      ∀ value, value.IsData → (merge value entry.2).IsData) :
    (Value.table (mergeEntries base overlay)).IsData := by
  induction overlay generalizing base with
  | nil =>
      rw [mergeEntries]
      exact data
  | cons entry rest ih =>
      obtain ⟨⟨isData, merges⟩, each⟩ := List.forall_mem_cons.mp each
      rw [mergeEntries]
      refine ih (data.insertEntry ?_) each
      split
      next existing found => exact merges existing (data.of_lookup found)
      next => exact isData

/-- Merged data is data. -/
theorem isData_merge (isBase : base.IsData) (isOverlay : overlay.IsData) :
    (merge base overlay).IsData := by
  induction isOverlay generalizing base with
  | @table entries rising each ih =>
      cases isTable : base.isTable with
      | true =>
          cases base with
          | table content =>
              rw [merge_table]
              exact isData_mergeEntries isBase fun entry member =>
                ⟨each entry member, fun value isValue => ih entry member isValue⟩
          | _ => cases isTable
      | false =>
          rw [merge_table_of_not_table isTable]
          exact .table rising each
  | array each => rw [merge_of_not_table rfl]; exact .array each
  | string text => exact .string text
  | integer number => exact .integer number
  | float number => exact .float number
  | boolean truth => exact .boolean truth
  | datetime moment => exact .datetime moment

/-- Data laid over itself is what it was. -/
theorem merge_self (data : held.IsData) : merge held held = held := by
  induction data with
  | @table entries rising each ih =>
      have data : (Value.table entries).IsData := .table rising each
      have merged := isData_merge data data
      rw [merge_table] at merged ⊢
      refine congrArg Value.table (eq_of_lookup merged.rising rising fun key => ?_)
      rw [lookup_mergeEntries rising.distinctKeys]
      cases found : entries.lookup key with
      | none => rfl
      | some value => exact congrArg some (ih _ (mem_of_lookup found))
  | _ => exact merge_of_not_table rfl

/-- **Laying data over a value once more changes nothing.** -/
theorem merge_merge (isBase : base.IsData) (isOverlay : overlay.IsData) :
    merge (merge base overlay) overlay = merge base overlay := by
  induction isOverlay generalizing base with
  | @table overlay rising each ih =>
      have isOverlay : (Value.table overlay).IsData := .table rising each
      cases isTable : base.isTable with
      | false => rw [merge_table_of_not_table isTable, merge_self isOverlay]
      | true =>
          cases base with
          | table entries =>
              have once := isData_merge isBase isOverlay
              have twice := isData_merge once isOverlay
              rw [merge_table] at once twice ⊢
              rw [merge_table] at twice ⊢
              refine congrArg Value.table (eq_of_lookup twice.rising once.rising fun key => ?_)
              rw [lookup_mergeEntries rising.distinctKeys]
              rw [lookup_mergeEntries rising.distinctKeys]
              cases found : overlay.lookup key with
              | none => rfl
              | some value =>
                  have member := mem_of_lookup found
                  refine congrArg some ?_
                  cases below : entries.lookup key with
                  | none => exact merge_self (each _ member)
                  | some existing => exact ih _ member (isBase.of_lookup below)
          | _ => cases isTable
  | _ => rw [merge_of_not_table rfl, merge_of_not_table rfl]

/-! ## Data of undated documents -/

namespace Value.Undated

variable {dates : DateTable} {value data : Value}

/-- What an undated value holds under a key is read on its own. -/
theorem mapM_under? (undated : value.Undated) (decoded : decodeData dates value = .ok data)
    (key : String) : (value.under? key).mapM (decodeData dates) = .ok (data.under? key) := by
  cases value with
  | table entries =>
      obtain ⟨results, rfl, each⟩ := undated.exists_table decoded
      exact each key
  | array form items =>
      rw [decodeData] at decoded
      obtain ⟨results, _, rfl⟩ := map_eq_ok_iff.mp decoded
      rfl
  | _ =>
      cases decoded
      rfl

theorem of_under? {held : Value} (undated : value.Undated) (found : value.under? key = some held) :
    held.Undated := by
  cases value with
  | table entries => exact undated.of_lookup found
  | _ => cases found

theorem of_at? {held : Value} (undated : value.Undated) (found : value.at? path = some held) :
    held.Undated := by
  induction path generalizing value with
  | nil =>
      cases found
      exact undated
  | cons key path ih =>
      obtain ⟨child, isChild, below⟩ := Value.at?_cons_eq_some_iff.mp found
      exact ih (undated.of_under? isChild) below

/-- **What an undated document holds at a path is read on its own.** -/
theorem mapM_at? (undated : value.Undated) (decoded : decodeData dates value = .ok data)
    (path : List String) : (value.at? path).mapM (decodeData dates) = .ok (data.at? path) := by
  induction path generalizing value data with
  | nil =>
      rw [Value.at?, Value.at?, Option.mapM_some, decoded]
      rfl
  | cons key path ih =>
      have read := undated.mapM_under? decoded key
      rw [Value.at?_cons, Value.at?_cons]
      cases isChild : value.under? key with
      | none =>
          rw [isChild] at read
          rw [← Except.ok.inj read]
          rfl
      | some child =>
          rw [isChild, Option.mapM_some] at read
          obtain ⟨result, isResult, same⟩ := exists_of_bind_eq_ok read
          rw [← Except.ok.inj same]
          exact ih (undated.of_under? isChild) isResult

end Value.Undated

end StageManifest.Toml
