import Mathlib
import StageManifest.Proofs.Config.ProjectEdit

/-!
# What an edit leaves as it was

All that an edit of a document can do is said once (`EditOutcome`).  Three refusals
are met before anything is changed: the key has no dot, the document is no table,
or the section of the key is none.  The fourth, of a text that is no truth value, is
met once the section is there, so it may leave an empty section behind, and nothing
else (`EditOutcome.ne_iff`, `EditOutcome.adds_section`).  An edit that succeeds
changes the value of its key alone (`EditOutcome.exists_written`).

In a project's file a setting is changed only if the configuration accepts it, which
excludes the fourth refusal (`EditOutcome.eq_of_set`).
-/

set_option autoImplicit false

namespace StageManifest

open Toml (Value)

variable {document edited : Value} {entries opened fields : List (String × Value)}
  {name field key value : String} {written : Value} {error : SettingError}

/-! ## Opening a section -/

/-- A section that cannot be opened is there and is no table. -/
theorem exists_of_openSection_eq_error
    (refused : openSection entries name = (opened, .error error)) :
    opened = entries ∧ error = .sectionNotATable name ∧
      ∃ held, entries.lookup name = some held ∧ held.isTable = false := by
  unfold openSection at refused
  split at refused <;> cases refused
  case h_3 held notTable found =>
    refine ⟨rfl, rfl, held, found, ?_⟩
    cases held with
    | table content => exact absurd rfl (notTable content)
    | _ => rfl

/-- A section is made only if there is nothing in its place. -/
theorem eq_or_eq_of_openSection {result : Except SettingError (List (String × Value))}
    (opens : openSection entries name = (opened, result)) :
    opened = entries ∨
      entries.lookup name = none ∧ opened = Value.insertEntry name .emptyTable entries := by
  unfold openSection at opens
  split at opens <;> cases opens
  case h_1 missing => exact .inr ⟨missing, rfl⟩
  all_goals exact .inl rfl

/-- A section that was opened was a table if it was there. -/
theorem isTable_of_openSection {held : Value}
    (opens : openSection entries name = (opened, .ok fields))
    (found : entries.lookup name = some held) : held.isTable = true := by
  unfold openSection at opens
  rw [found] at opens
  cases held with
  | table content => rfl
  | _ => cases opens

/-- Only a text for a truth value can be refused. -/
theorem documentValue_eq_error_iff :
    documentValue key value = .error error ↔
      key = "build.stable_cache_ids" ∧ parseBoolean value = .error error := by
  unfold documentValue
  split
  next isKey => rw [Toml.map_eq_error_iff, and_iff_right isKey]
  next other => exact ⟨nofun, fun both => absurd both.1 other⟩

/-! ## All that an edit can do -/

/-- What becomes of a document in an edit, and how the edit ends. -/
inductive EditOutcome (document : Value) (key value : String) :
    Value → Except SettingError Unit → Prop where
  | noDot {error : SettingError} (isNoKey : splitConfigKey key = .error error) :
      EditOutcome document key value document (.error error)
  | noTable (plain : document.isTable = false) :
      EditOutcome document key value document (.error .noTable)
  | noSection {entries : List (String × Value)} {name field : String} {held : Value}
      (isDocument : document = .table entries) (isKey : splitConfigKey key = .ok (name, field))
      (found : entries.lookup name = some held) (plain : held.isTable = false) :
      EditOutcome document key value document (.error (.sectionNotATable name))
  | refused {entries opened fields : List (String × Value)} {name field : String}
      {error : SettingError} (isDocument : document = .table entries)
      (isKey : splitConfigKey key = .ok (name, field)) (opens : Opens entries name opened fields)
      (isRefused : documentValue key value = .error error) :
      EditOutcome document key value (.table opened) (.error error)
  | written {entries opened fields : List (String × Value)} {name field : String}
      {written : Value} (isDocument : document = .table entries)
      (isKey : splitConfigKey key = .ok (name, field)) (opens : Opens entries name opened fields)
      (stands : documentValue key value = .ok written) :
      EditOutcome document key value (.table (Opens.withField name field written opened fields))
        (.ok ())

/-- **An edit does one of these things.** -/
theorem editOutcome (data : document.IsData) (key value : String) :
    EditOutcome document key value (setInDocument document key value).1
      (setInDocument document key value).2 := by
  unfold setInDocument
  split
  next error isNoKey => exact .noDot isNoKey
  next name field isKey =>
    split
    next entries =>
      split
      next opened error failed =>
        obtain ⟨rfl, rfl, held, found, plain⟩ := exists_of_openSection_eq_error failed
        exact .noSection rfl isKey found plain
      next opened fields isOpen =>
        obtain ⟨_, _, opens⟩ := exists_opens data fun held => isTable_of_openSection isOpen
        cases opens.opens.symm.trans isOpen
        split
        next error isRefused => exact .refused rfl isKey opens isRefused
        next written stands => exact .written rfl isKey opens stands
    next notTable =>
      refine .noTable ?_
      cases document with
      | table entries => exact absurd rfl (notTable entries)
      | _ => rfl

namespace EditOutcome

theorem splitConfigKey_stableCacheIds :
    splitConfigKey "build.stable_cache_ids" = .ok ("build", "stable_cache_ids") := by
  have isKey : Config.keyIn "build" "stable_cache_ids" = "build.stable_cache_ids" := by decide
  rw [← isKey]
  exact Config.splitConfigKey_keyIn (by decide) "stable_cache_ids"

/-- A document that was changed by a refused edit has an empty section more. -/
theorem adds_section (outcome : EditOutcome document key value edited (.error error))
    (changed : edited ≠ document) :
    key = "build.stable_cache_ids" ∧ parseBoolean value = .error error ∧
      ∃ entries, document = .table entries ∧ entries.lookup "build" = none ∧
        edited = .table (Value.insertEntry "build" .emptyTable entries) := by
  cases outcome with
  | noDot isNoKey => exact absurd rfl changed
  | noTable plain => exact absurd rfl changed
  | noSection isDocument isKey found plain => exact absurd rfl changed
  | refused isDocument isKey opens isRefused =>
      obtain ⟨rfl, isNoTruth⟩ := documentValue_eq_error_iff.mp isRefused
      cases splitConfigKey_stableCacheIds.symm.trans isKey
      rcases eq_or_eq_of_openSection opens.opens with rfl | ⟨missing, rfl⟩
      · exact absurd isDocument.symm changed
      · exact ⟨rfl, isNoTruth, _, isDocument, missing, rfl⟩

/-- **A refused edit changes a document exactly if** a text for a truth value is refused after the
section was made for it. -/
theorem ne_iff (outcome : EditOutcome document key value edited (.error error)) :
    edited ≠ document ↔
      key = "build.stable_cache_ids" ∧ parseBoolean value = .error error ∧
        ∃ entries, document = .table entries ∧ entries.lookup "build" = none := by
  constructor
  · intro changed
    obtain ⟨isKey, isNoTruth, entries, isDocument, missing, _⟩ := outcome.adds_section changed
    exact ⟨isKey, isNoTruth, entries, isDocument, missing⟩
  · rintro ⟨rfl, isNoTruth, entries, rfl, missing⟩
    cases outcome with
    | noDot isNoKey => cases splitConfigKey_stableCacheIds.symm.trans isNoKey
    | noTable plain => cases plain
    | noSection isDocument isKey found plain =>
        cases isDocument
        cases splitConfigKey_stableCacheIds.symm.trans isKey
        cases missing.symm.trans found
    | refused isDocument isKey opens isRefused =>
        cases isDocument
        cases splitConfigKey_stableCacheIds.symm.trans isKey
        intro same
        cases same
        -- The section is among the entries once it is open.
        have isOpen := opens.opens
        rw [openSection, missing] at isOpen
        have there := congrArg (fun outcome => outcome.1.lookup "build") isOpen
        simp only [Value.lookup_insertEntry, if_pos, missing] at there
        cases there

/-- The section that a refused edit leaves behind is all that it changed. -/
theorem sameBeside_section (outcome : EditOutcome document key value edited (.error error))
    (changed : edited ≠ document) :
    edited.at? ["build"] = some .emptyTable ∧ Value.SameBeside ["build"] edited document := by
  obtain ⟨_, _, entries, rfl, _, rfl⟩ := outcome.adds_section changed
  have lookups : ∀ other, (Value.table (Value.insertEntry "build" .emptyTable entries)).under? other =
      if other = "build" then some .emptyTable else (Value.table entries).under? other :=
    fun other => Value.lookup_insertEntry "build" other .emptyTable entries
  constructor
  · rw [Value.at?_cons, lookups, if_pos rfl, Option.bind_some, Value.at?]
  · intro path notAbove notBelow
    cases path with
    | nil => exact absurd List.nil_prefix notAbove
    | cons first path =>
        have different : first ≠ "build" := by
          rintro rfl
          exact notBelow (List.cons_prefix_cons.mpr ⟨rfl, List.nil_prefix⟩)
        rw [Value.at?_cons, lookups, if_neg different, Value.at?_cons]

/-- **A setting that the configuration accepts is not refused after the document changed.** -/
theorem eq_of_set {config changed : Config}
    (outcome : EditOutcome document key value edited (.error error))
    (isSet : config.set key value = .ok changed) : edited = document := by
  by_contra different
  obtain ⟨rfl, isNoTruth, _⟩ := outcome.adds_section different
  obtain ⟨written, stands, _⟩ := Config.exists_value?_set isSet
  cases (documentValue_eq_error_iff.mpr ⟨rfl, isNoTruth⟩).symm.trans stands

/-- **An edit that succeeds changes the value of its key and nothing beside it**, except that the
section of the key is made if it is missing. -/
theorem exists_written (outcome : EditOutcome document key value edited (.ok ())) :
    ∃ name field written, splitConfigKey key = .ok (name, field) ∧
      documentValue key value = .ok written ∧ written.isTable = false ∧
      edited.at? [name, field] = some written ∧
      Value.SameBeside [name, field] edited document ∧
      (∀ held, document.at? [name] = some held → held.isTable = true) ∧
      ∃ content, edited.at? [name] = some (.table content) := by
  cases outcome with
  | @written entries opened fields name field written isDocument isKey opens stands =>
      subst isDocument
      refine ⟨name, field, written, isKey, stands, (Config.isData_of_documentValue stands).2,
        Opens.at?_field, opens.sameBeside, ?_, Value.insertEntry field written fields, ?_⟩
      · intro held found
        obtain ⟨child, isChild, ⟨⟩⟩ := Value.at?_cons_eq_some_iff.mp found
        exact isTable_of_openSection opens.opens isChild
      · rw [Opens.at?_withField, Value.at?]

end EditOutcome

/-! ## Edits that fail and edits that succeed -/

/-- **An edit changes the value of its key alone, and a refused edit at most adds an empty section.**  A
refused edit leaves the document as it was unless it had to make a section for the text of a truth
value that was refused then; that empty section is all it adds.  It does not come to this for a
setting that the configuration accepts. -/
theorem edit_changes_key_alone (data : document.IsData) (key value : String) :
    (∀ edited error, setInDocument document key value = (edited, .error error) →
      (edited ≠ document ↔
        key = "build.stable_cache_ids" ∧ parseBoolean value = .error error ∧
          ∃ entries, document = .table entries ∧ entries.lookup "build" = none) ∧
      (edited ≠ document →
        edited.at? ["build"] = some .emptyTable ∧ Value.SameBeside ["build"] edited document) ∧
      ∀ config changed, Config.set config key value = .ok changed → edited = document) ∧
    ∀ edited, setInDocument document key value = (edited, .ok ()) →
      ∃ name field written, splitConfigKey key = .ok (name, field) ∧
        documentValue key value = .ok written ∧ written.isTable = false ∧
        edited.at? [name, field] = some written ∧
        Value.SameBeside [name, field] edited document ∧
        (∀ held, document.at? [name] = some held → held.isTable = true) ∧
        ∃ content, edited.at? [name] = some (.table content) := by
  have outcome := editOutcome data key value
  constructor
  · intro edited error isRefused
    rw [isRefused] at outcome
    exact ⟨outcome.ne_iff, outcome.sameBeside_section, fun _ _ => outcome.eq_of_set⟩
  · intro edited isEdited
    rw [isEdited] at outcome
    exact outcome.exists_written

open OwnedProject (ownedEntries) in
/-- A project gets a section for its engine and keeps its owner; a truth value that is refused leaves
the document as it is, because the section for it is there. -/
theorem edit_changes_key_alone_of_owned :
    (∃ edited, setInDocument (.table ownedEntries) "engine.project" "p1" = (edited, .ok ()) ∧
      edited.at? ["owner"] = some (.string "me")) ∧
    setInDocument (.table ownedEntries) "build.stable_cache_ids" "maybe" =
      (.table ownedEntries, .error (.invalidBoolean "maybe")) ∧
    ((Value.table ownedEntries).at? ["build"]).isSome = true := by
  have isSplit : splitConfigKey "engine.project" = .ok ("engine", "project") := by cbv
  have isEdited : setInDocument (.table ownedEntries) "engine.project" "p1" =
      (.table [("build", .table [("tag_prefix", .string "local")]),
        ("engine", .table [("project", .string "p1")]), ("owner", .string "me")], .ok ()) := by
    rw [setInDocument, isSplit]
    rfl
  have isRefused : setInDocument (.table ownedEntries) "build.stable_cache_ids" "maybe" =
      (.table ownedEntries, .error (.invalidBoolean "maybe")) := by
    rw [setInDocument, EditOutcome.splitConfigKey_stableCacheIds]
    rfl
  refine ⟨⟨_, isEdited, ?_⟩, isRefused, rfl⟩
  obtain ⟨name, field, written, isKey, _, _, _, beside, _⟩ :=
    (edit_changes_key_alone OwnedProject.isData_project "engine.project" "p1").2 _ isEdited
  cases isSplit.symm.trans isKey
  exact beside ["owner"] (by decide) (by decide)

/-- A truth value that is refused leaves a section behind in a document that had none. -/
theorem refused_edit_adds_section :
    setInDocument .emptyTable "build.stable_cache_ids" "maybe" =
        (.table [("build", .emptyTable)], .error (.invalidBoolean "maybe")) ∧
      Value.table [("build", .emptyTable)] ≠ .emptyTable := by
  refine ⟨?_, nofun⟩
  rw [setInDocument, EditOutcome.splitConfigKey_stableCacheIds]
  rfl

end StageManifest
