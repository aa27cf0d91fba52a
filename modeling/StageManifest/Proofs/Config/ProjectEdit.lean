import Mathlib
import StageManifest.Config.Files
import StageManifest.Host.Machine
import StageManifest.Proofs.Config.Decoding

/-!
# Edits of a project's file

A setting is changed in two ways: in the configuration that was loaded, and in
the document of the project's file.  The edited document holds the new value at the
path of the setting and what it held everywhere beside that path
(`exists_setInDocument`).  Laid over the global document it is read as the changed
configuration, because every other setting is read from what was there before
(`Config.exists_edited`).  What the one way refuses the other refuses before it
touches the file.
-/

set_option autoImplicit false

namespace StageManifest

open Toml (Value)

/-! ## Edited documents -/

namespace Toml.Value

/-- Two documents hold the same at each path that does not lead to the given one or through it. -/
def SameBeside (path : List String) (first second : Value) : Prop :=
  ∀ other, ¬ other <+: path → ¬ path <+: other → first.at? other = second.at? other

end Toml.Value

variable {config changed : Config} {name field key value : String} {written : Value}
  {entries fields opened : List (String × Value)}

/-- A section is open for changes: it holds the fields that a document had in it, and the other
entries of the document are there. -/
structure Opens (entries : List (String × Value)) (name : String)
    (opened fields : List (String × Value)) : Prop where
  opens : openSection entries name = (opened, .ok fields)
  openedData : (Value.table opened).IsData
  fieldsData : (Value.table fields).IsData
  others : ∀ other, other ≠ name → opened.lookup other = entries.lookup other
  held : ∀ other, fields.lookup other = (entries.lookup name).bind (Value.under? other)

/-- A section that is a table if it is there can be opened. -/
theorem exists_opens (data : (Value.table entries).IsData)
    (isTable : ∀ held, entries.lookup name = some held → held.isTable = true) :
    ∃ opened fields, Opens entries name opened fields := by
  cases found : entries.lookup name with
  | none =>
      refine ⟨Value.insertEntry name .emptyTable entries, [], ?_, data.insertEntry .emptyTable,
        .emptyTable, fun other isOther => ?_, fun other => ?_⟩
      · rw [openSection, found]
      · rw [Value.lookup_insertEntry, if_neg isOther]
      · rw [found]
        rfl
  | some held =>
      have heldTable := isTable held found
      cases held with
      | table fields =>
          refine ⟨entries, fields, ?_, data, data.of_lookup found, fun _ _ => rfl, fun other => ?_⟩
          · rw [openSection, found]
          · rw [found]
            rfl
      | _ => cases heldTable

namespace Opens

/-- The entries of the document in which the section holds a field. -/
def withField (name field : String) (written : Value) (opened fields : List (String × Value)) :
    List (String × Value) :=
  Value.insertEntry name (.table (Value.insertEntry field written fields)) opened

theorem lookup_withField (other : String) :
    (withField name field written opened fields).lookup other =
      if other = name then some (.table (Value.insertEntry field written fields))
      else opened.lookup other :=
  Value.lookup_insertEntry name other _ opened

theorem at?_withField (path : List String) :
    (Value.table (withField name field written opened fields)).at? (name :: path) =
      (Value.table (Value.insertEntry field written fields)).at? path := by
  rw [Value.at?_cons]
  refine (congrArg (Option.bind · _) (lookup_withField name)).trans ?_
  rw [if_pos rfl, Option.bind_some]

theorem at?_field :
    (Value.table (withField name field written opened fields)).at? [name, field] = some written := by
  rw [at?_withField, Value.at?_cons]
  refine (congrArg (Option.bind · _)
    (Value.lookup_insertEntry field field written fields)).trans ?_
  rw [if_pos rfl, Option.bind_some, Value.at?]

/-- Nothing changes beside the field. -/
theorem sameBeside (opens : Opens entries name opened fields) :
    Value.SameBeside [name, field] (.table (withField name field written opened fields))
      (.table entries) := by
  intro path notAbove notBelow
  cases path with
  | nil => exact absurd List.nil_prefix notAbove
  | cons first path =>
      by_cases isName : first = name
      · subst isName
        cases path with
        | nil => exact absurd (List.cons_prefix_cons.mpr ⟨rfl, List.nil_prefix⟩) notAbove
        | cons second path =>
            have different : second ≠ field := by
              rintro rfl
              exact notBelow (List.cons_prefix_cons.mpr
                ⟨rfl, List.cons_prefix_cons.mpr ⟨rfl, List.nil_prefix⟩⟩)
            rw [at?_withField, Value.at?_cons, Value.at?_cons]
            have kept : (Value.insertEntry field written fields).lookup second =
                (entries.lookup first).bind (Value.under? second) := by
              rw [Value.lookup_insertEntry, if_neg different, opens.held]
            refine (congrArg (Option.bind · _) kept).trans ?_
            rw [Option.bind_assoc]
            rfl
      · have kept : (withField name field written opened fields).lookup first =
            entries.lookup first := by
          rw [lookup_withField, if_neg isName, opens.others first isName]
        exact congrArg (Option.bind · (Value.at? path)) kept

end Opens

/-- **A text that stands for a value is set at the path of its key**, and beside that path the
document stays as it was. -/
theorem exists_setInDocument (isKey : splitConfigKey key = .ok (name, field))
    (stands : documentValue key value = .ok written) (isData : written.IsData)
    (data : (Value.table entries).IsData)
    (isTable : ∀ held, entries.lookup name = some held → held.isTable = true) :
    ∃ edited, setInDocument (.table entries) key value = (.table edited, .ok ()) ∧
      (Value.table edited).IsData ∧ (Value.table edited).at? [name, field] = some written ∧
      (∃ content, edited.lookup name = some (.table content)) ∧
      Value.SameBeside [name, field] (.table edited) (.table entries) := by
  obtain ⟨opened, fields, opens⟩ := exists_opens data isTable
  refine ⟨Opens.withField name field written opened fields, ?_, ?_, ?_,
    ⟨_, (Opens.lookup_withField name).trans (if_pos rfl)⟩, opens.sameBeside⟩
  · simp only [setInDocument, isKey, opens.opens, stands, Opens.withField]
  · exact opens.openedData.insertEntry (opens.fieldsData.insertEntry isData)
  · exact Opens.at?_field

/-! ## Typed and untyped edits -/

namespace Config

/-- What is written for a setting is no table, and is data. -/
theorem isData_of_documentValue (stands : documentValue key value = .ok written) :
    written.IsData ∧ written.isTable = false := by
  unfold documentValue at stands
  split at stands
  · obtain ⟨truth, _, rfl⟩ := Toml.map_eq_ok_iff.mp stands
    exact ⟨.boolean truth, rfl⟩
  · cases stands
    exact ⟨.string value, rfl⟩

/-- What is written for a setting is read again as the setting. -/
theorem readSetting_of_set (isSet : config.set key value = .ok changed)
    (stands : documentValue key value = .ok written) (mode : Toml.Mode) :
    readSetting mode key written = .ok written := by
  unfold documentValue at stands
  unfold readSetting
  split at stands
  next isKey =>
    obtain ⟨truth, _, rfl⟩ := Toml.map_eq_ok_iff.mp stands
    rw [if_pos isKey]
    rfl
  next notBoolean =>
    cases stands
    rw [if_neg notBoolean]
    split
    next isKey =>
      subst isKey
      obtain ⟨choice, parsed, _⟩ := Toml.exists_of_bind_eq_ok isSet
      have isKeyword := keyword_of_parseEngine parsed
      unfold parseEngine at parsed
      split at parsed
      next found =>
        cases parsed
        have decoded : Toml.decodeChoice mode engineCases (.string value) = .ok choice := by
          simp only [Toml.decodeChoice, Toml.decodeCase, bind, Except.bind, found]
          rfl
        rw [decoded, ← isKeyword]
        rfl
      · cases parsed
    · rfl

/-- Only a key of the configuration is accepted. -/
theorem mem_configKeyNames_of_set (isSet : config.set key value = .ok changed) :
    key ∈ configKeyNames := by
  unfold set at isSet
  split at isSet
  case h_8 => cases isSet
  all_goals decide

/-- Every key of the configuration is accepted with some value. -/
theorem exists_set_of_mem (isKey : key ∈ configKeyNames) (config : Config) :
    ∃ value changed, config.set key value = .ok changed := by
  simp only [configKeyNames, List.mem_cons, List.not_mem_nil, or_false] at isKey
  rcases isKey with rfl | rfl | rfl | rfl | rfl | rfl | rfl
  · exact ⟨"text", _, rfl⟩
  · exact ⟨"", _, rfl⟩
  · exact ⟨"", _, rfl⟩
  · exact ⟨"", _, rfl⟩
  · exact ⟨"true", _, rfl⟩
  · exact ⟨"docker", _, rfl⟩
  · exact ⟨"", _, rfl⟩

/-- A setting is refused for the same reason in every configuration. -/
theorem set_eq_error {error : SettingError} (refused : config.set key value = .error error)
    (other : Config) : other.set key value = .error error := by
  unfold set at refused ⊢
  split at refused
  case h_1 =>
    cases parsed : parseLogFormat value with
    | error failure => rw [parsed] at refused; exact refused
    | ok format => rw [parsed] at refused; cases refused
  case h_5 =>
    cases parsed : parseBoolean value with
    | error failure => rw [parsed] at refused; exact refused
    | ok truth => rw [parsed] at refused; cases refused
  case h_6 =>
    cases parsed : parseEngine value with
    | error failure => rw [parsed] at refused; exact refused
    | ok choice => rw [parsed] at refused; cases refused
  case h_8 => exact refused
  all_goals cases refused

/-- The sections of an edited document are tables if those of the document are. -/
theorem HasSections.edited {edited : List (String × Value)} {content : List (String × Value)}
    (sections : HasSections (.table entries))
    (isSection : edited.lookup name = some (.table content))
    (beside : Value.SameBeside [name, field] (.table edited) (.table entries)) :
    HasSections (.table edited) := by
  intro other isOther held found
  by_cases same : other = name
  · subst same
    cases found.symm.trans isSection
    rfl
  · have kept : (Value.table edited).at? [other] = (Value.table entries).at? [other] := by
      refine beside [other] (fun above => same ?_) (fun below => ?_)
      · exact (List.cons_prefix_cons.mp above).1
      · exact same (List.cons_prefix_cons.mp below).1.symm
    refine sections other isOther held ?_
    simpa [Value.at?_cons, Value.at?, found] using kept.symm

variable {base : Value}

/-- **An edit of the project's document is read as the change of the setting**, whatever document
it is laid over. -/
theorem exists_edited (baseData : base.IsData) (data : (Value.table entries).IsData)
    (sectionsBase : HasSections base) (sections : HasSections (.table entries))
    (decoded : decode .merged (Toml.merge base (.table entries)) = .ok config)
    (isSet : config.set key value = .ok changed) :
    ∃ edited written, setInDocument (.table entries) key value = (.table edited, .ok ()) ∧
      decode .merged (Toml.merge base (.table edited)) = .ok changed ∧
      (Value.table edited).IsData ∧ documentValue key value = .ok written ∧
      (Value.table edited).at? (settingPath key) = some written ∧
      Value.SameBeside (settingPath key) (.table edited) (.table entries) := by
  obtain ⟨written, stands, isSaid⟩ := exists_value?_set isSet
  obtain ⟨isData, plain⟩ := isData_of_documentValue stands
  have isKey := mem_configKeyNames_of_set isSet
  obtain ⟨name, isName, field, rfl, isSplit⟩ := exists_splitConfigKey isKey
  obtain ⟨edited, isEdited, editedData, holds, ⟨content, isSection⟩, beside⟩ :=
    exists_setInDocument isSplit stands isData data (sections name isName)
  have editedSections := sections.edited isSection beside
  rw [settingPath_eq isSplit]
  refine ⟨edited, written, isEdited, ?_, editedData, stands, holds, beside⟩
  rw [decode_eq_ok_iff (Toml.isData_merge baseData data).distinct (Toml.isTable_merge base _)
    (sectionsBase.merge sections data.distinct rfl)] at decoded
  rw [decode_eq_ok_iff (Toml.isData_merge baseData editedData).distinct (Toml.isTable_merge base _)
    (sectionsBase.merge editedSections editedData.distinct rfl)]
  intro other isOther
  by_cases same : other = keyIn name field
  · subst same
    rw [Follows, settingPath_eq isSplit,
      at?_merge_pair editedSections editedData.distinct rfl isName, holds, isSaid]
    have merged : ((base.at? [name, field]).elim written (Toml.merge · written)) = written := by
      cases base.at? [name, field] with
      | none => rfl
      | some existing => exact Toml.merge_of_not_table plain
    rw [Option.elim_some, merged, Option.elim_some, readSetting_of_set isSet stands]
    rfl
  · obtain ⟨otherName, isOtherName, otherField, rfl, isOtherSplit⟩ := exists_splitConfigKey isOther
    have kept : (Value.table edited).at? [otherName, otherField] =
        (Value.table entries).at? [otherName, otherField] := by
      refine beside _ (fun above => same ?_) (fun below => same ?_)
      · cases above.eq_of_length rfl
        rfl
      · cases below.eq_of_length rfl
        rfl
    have follows := decoded _ isOther
    rw [Follows, settingPath_eq isOtherSplit,
      at?_merge_pair sections data.distinct rfl isOtherName] at follows
    rw [Follows, settingPath_eq isOtherSplit,
      at?_merge_pair editedSections editedData.distinct rfl isOtherName, kept,
      value?_set_of_ne isSet same]
    exact follows

end Config

/-- **A setting that is refused leaves the machine as it is.** -/
theorem Machine.changeProjectSetting_refused {error : SettingError}
    (refused : config.set key value = .error error) (machine : Machine) (path : HostPath)
    (verbosity : Nat) :
    ((host.withVerbosity verbosity).changeProjectSetting path key value).run.run machine =
      (.error (.setting error), machine) := by
  rw [Host.changeProjectSetting, Config.set_eq_error refused {}]
  rfl

/-- **The two ways to change a setting agree.**  A project's document in which the setting was changed
is read, over any global document, as the configuration in which it was changed; it differs at the
path of the setting only.  A setting that is refused in the configuration is refused before the
project's file is touched, and the keys that are accepted with some value are the listed ones. -/
theorem Config.edit_of_project_follows_set {base : Value} (baseData : base.IsData)
    (data : (Value.table entries).IsData) (sectionsBase : HasSections base)
    (sections : HasSections (.table entries))
    (decoded : decode .merged (Toml.merge base (.table entries)) = .ok config)
    (key value : String) :
    (∀ changed, config.set key value = .ok changed →
      ∃ edited written, setInDocument (.table entries) key value = (.table edited, .ok ()) ∧
        decode .merged (Toml.merge base (.table edited)) = .ok changed ∧
        (Value.table edited).IsData ∧ documentValue key value = .ok written ∧
        (Value.table edited).at? (settingPath key) = some written ∧
        Value.SameBeside (settingPath key) (.table edited) (.table entries)) ∧
      (∀ error, config.set key value = .error error → ∀ machine path verbosity,
        ((Machine.host.withVerbosity verbosity).changeProjectSetting path key value).run.run machine =
          (.error (.setting error), machine)) ∧
      ((∃ value changed, config.set key value = .ok changed) ↔ key ∈ configKeyNames) := by
  refine ⟨?_, ?_, ?_, ?_⟩
  · intro changed isSet
    exact exists_edited baseData data sectionsBase sections decoded isSet
  · intro error refused machine path verbosity
    exact Machine.changeProjectSetting_refused refused machine path verbosity
  · rintro ⟨value, changed, isSet⟩
    exact mem_configKeyNames_of_set isSet
  · intro isKey
    exact exists_set_of_mem isKey config

end StageManifest

namespace StageManifest.OwnedProject

open Toml (Value)

def globalDocument : Value := .table [("build", .table [("syntax", .string "front")])]

def ownedEntries : List (String × Value) :=
  [("build", .table [("tag_prefix", .string "local")]), ("owner", .string "me")]

def config : Config := { build := { frontend := "front", tagPrefix := "local" } }

theorem parsed_global : Toml.parse "[build]\nsyntax=\"front\"\n" = .ok globalDocument := by cbv

theorem parsed_project :
    Toml.parse "owner=\"me\"\n[build]\ntag_prefix=\"local\"\n" = .ok (.table ownedEntries) := by
  cbv

theorem isData_global : globalDocument.IsData := Toml.isData_of_parse parsed_global

theorem isData_project : (Value.table ownedEntries).IsData := Toml.isData_of_parse parsed_project

theorem hasSections {source : Value}
    (isSource : source = globalDocument ∨ source = .table ownedEntries) :
    Config.HasSections source := by
  intro name isName held found
  rcases isSource with rfl | rfl <;>
    rcases Config.mem_sectionNames_iff.mp isName with rfl | rfl | rfl <;> cases found <;> rfl

theorem decoded :
    Config.decode .merged (Toml.merge globalDocument (.table ownedEntries)) = .ok config := by
  cbv

end StageManifest.OwnedProject

namespace StageManifest.Config

open Toml (Value)
open OwnedProject (globalDocument ownedEntries config)

/-- An engine is named in a project whose document has no section for it. -/
theorem edit_of_project_adds_engine :
    decode .merged (Toml.merge globalDocument (.table ownedEntries)) = .ok config ∧
      ∃ edited, setInDocument (.table ownedEntries) "engine.kind" "depot" = (.table edited, .ok ()) ∧
        decode .merged (Toml.merge globalDocument (.table edited)) =
          .ok { config with engine := { choice := .depot } } ∧
        (Value.table edited).at? ["owner"] = some (.string "me") := by
  refine ⟨OwnedProject.decoded, ?_⟩
  have isSet : config.set "engine.kind" "depot" =
      .ok { config with engine := { choice := .depot } } := rfl
  obtain ⟨edited, _, isEdited, reads, _, _, _, beside⟩ :=
    (edit_of_project_follows_set OwnedProject.isData_global OwnedProject.isData_project
      (OwnedProject.hasSections (.inl rfl)) (OwnedProject.hasSections (.inr rfl))
      OwnedProject.decoded "engine.kind" "depot").1 _ isSet
  refine ⟨edited, isEdited, reads, ?_⟩
  have kept := beside ["owner"] (by decide) (by decide)
  exact kept

end StageManifest.Config
