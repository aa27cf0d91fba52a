import Mathlib
import StageManifest.Proofs.Config.Documents

/-!
# Layers of settings

Where a configuration is loaded from two files, each setting is what the project's
file says, or else what the global file says, or else the default
(`Config.value?_of_load`); for this a setting that is read from merged values has
to be said by the upper one alone (`Config.readSetting_of_merge`).  With an empty
project file the settings of the global file are read from its data, but the
global file alone is read as a document.  The two agree unless a setting is a date
(`Config.load_over_nothing_iff`).
-/

set_option autoImplicit false

namespace StageManifest.Config

open Toml (Mode Value)

variable {mode : Mode} {base overlay source held read : Value} {config : Config} {key : String}

/-! ## Merged settings -/

/-- An entry of the overlay is an entry of merged tables. -/
theorem exists_mem_mergeEntries {entries : List (String × Value)} {word : String}
    (distinct : Toml.DistinctKeys entries) (member : (word, held) ∈ entries)
    (content : List (String × Value)) :
    ∃ merged, (word, merged) ∈ Toml.mergeEntries content entries ∧
      merged = (content.lookup word).elim held (Toml.merge · held) := by
  refine ⟨_, Toml.mem_of_lookup ?_, rfl⟩
  rw [Toml.lookup_mergeEntries distinct, Toml.lookup_of_mem distinct member, Option.elim_some]

/-- Only an empty table is merged into an empty table. -/
theorem eq_emptyTable_of_merge (distinct : overlay.Distinct) (isTable : overlay.isTable = true)
    (merged : Toml.merge base overlay = .emptyTable) : overlay = .emptyTable := by
  cases overlay with
  | table entries =>
      cases entries with
      | nil => rfl
      | cons entry rest =>
          cases isBase : base.isTable with
          | false =>
              rw [Toml.merge_table_of_not_table isBase] at merged
              cases merged
          | true =>
              cases base with
              | table content =>
                  rw [Toml.merge_table] at merged
                  obtain ⟨_, member, _⟩ :=
                    exists_mem_mergeEntries distinct.keys List.mem_cons_self content
                  rw [Toml.Value.table.inj merged] at member
                  cases member
              | _ => cases isBase
  | _ => cases isTable

/-- What is empty after a merge was empty before it. -/
theorem decodeNoPayload_of_merge (distinct : overlay.Distinct)
    (decoded : Toml.decodeNoPayload mode (some (Toml.merge base overlay)) = .ok ()) :
    Toml.decodeNoPayload mode (some overlay) = .ok () := by
  cases isTable : overlay.isTable with
  | false => exact Toml.merge_of_not_table isTable ▸ decoded
  | true =>
      rcases eq_empty_of_decodeNoPayload decoded with merged | ⟨form, merged⟩
      · rw [eq_emptyTable_of_merge distinct isTable merged]
        rfl
      · have plain := Toml.isTable_merge base overlay
        rw [merged, isTable] at plain
        cases plain

/-- A choice that is read from merged tables is read from the overlay alone, unless that is empty. -/
theorem decodeChoice_of_mergeEntries {α : Type} {cases : List (String × α)} {choice : α}
    {content entries : List (String × Value)} (data : (Value.table entries).IsData)
    (isSome : entries ≠ [])
    (decoded : Toml.decodeChoice mode cases (.table (Toml.mergeEntries content entries)) =
      .ok choice) :
    Toml.decodeChoice mode cases (.table entries) = .ok choice := by
  obtain ⟨word, payload, only, found, isEmpty⟩ := decodeChoice_table_eq_ok_iff.mp decoded
  have distinct := data.distinct.keys
  have same (name : String) (value : Value) (member : (name, value) ∈ entries) :
      name = word ∧ payload = (content.lookup word).elim value (Toml.merge · value) := by
    obtain ⟨merged, isMember, isMerged⟩ := exists_mem_mergeEntries distinct member content
    rw [only, List.mem_singleton, Prod.mk.injEq] at isMember
    obtain ⟨rfl, rfl⟩ := isMember
    exact ⟨rfl, isMerged⟩
  match entries with
  | [] => exact absurd rfl isSome
  | [(name, value)] =>
      obtain ⟨rfl, rfl⟩ := same name value List.mem_cons_self
      have noPayload : Toml.decodeNoPayload mode (some value) = .ok () := by
        cases below : content.lookup name with
        | none =>
            rw [below] at isEmpty
            exact isEmpty
        | some existing =>
            rw [below] at isEmpty
            exact decodeNoPayload_of_merge (data.entries _ List.mem_cons_self).distinct isEmpty
      exact decodeChoice_table_eq_ok_iff.mpr ⟨name, value, rfl, found, noPayload⟩
  | (name, value) :: (other, otherValue) :: rest =>
      obtain ⟨isWord, _⟩ := same name value List.mem_cons_self
      obtain ⟨isWordToo, _⟩ := same other otherValue (List.mem_cons_of_mem _ List.mem_cons_self)
      obtain ⟨notAgain, _⟩ := List.nodup_cons.mp distinct
      exact absurd (List.mem_map.mpr ⟨_, List.mem_cons_self, isWordToo.trans isWord.symm⟩) notAgain

/-- **What a setting is read from after a merge, the overlay says on its own**, unless it holds an
empty table there. -/
theorem readSetting_of_merge (data : overlay.IsData)
    (reads : readSetting mode key (Toml.merge base overlay) = .ok read) :
    readSetting mode key overlay = .ok read ∨ overlay = .emptyTable ∧
      readSetting mode key base = .ok read := by
  cases isTable : overlay.isTable with
  | false => exact .inl (Toml.merge_of_not_table isTable ▸ reads)
  | true =>
      obtain rfl := eq_kind_of_readSetting ((Toml.isTable_merge base overlay).trans isTable) reads
      cases overlay with
      | table entries =>
          cases isBase : base.isTable with
          | false => exact .inl (Toml.merge_table_of_not_table isBase entries ▸ reads)
          | true =>
              cases base with
              | table content =>
                  cases entries with
                  | nil =>
                      rw [Toml.merge_table, Toml.mergeEntries] at reads
                      exact .inr ⟨rfl, reads⟩
                  | cons entry rest =>
                      rw [Toml.merge_table, readSetting_kind] at reads
                      obtain ⟨choice, decoded, same⟩ := Toml.map_eq_ok_iff.mp reads
                      have alone := decodeChoice_of_mergeEntries data (List.cons_ne_nil _ _) decoded
                      refine .inl ?_
                      rw [readSetting_kind, alone, ← same]
                      rfl
              | _ => cases isBase
      | _ => cases isTable

/-! ## Two layers -/

/-- What a document says about a setting, if it says something that can be read. -/
def setting? (mode : Mode) (source : Value) (key : String) : Option Value :=
  (source.at? (settingPath key)).bind fun held => (readSetting mode key held).toOption

theorem setting?_of_none (absent : source.at? (settingPath key) = none) :
    setting? mode source key = none := by
  rw [setting?, absent, Option.bind_none]

theorem setting?_of_some (found : source.at? (settingPath key) = some held)
    (reads : readSetting mode key held = .ok read) : setting? mode source key = some read := by
  rw [setting?, found, Option.bind_some, reads]
  rfl

theorem setting?_of_emptyTable (found : source.at? (settingPath key) = some .emptyTable) :
    setting? mode source key = none := by
  rw [setting?, found, Option.bind_some]
  cases reads : readSetting mode key .emptyTable with
  | error failure => rfl
  | ok read =>
      obtain rfl := eq_kind_of_readSetting rfl reads
      cases reads

/-- **A setting of two layers is what the upper one says, or else what the lower one says, or else
the default.**  The upper one is passed over only where it holds nothing but an empty table. -/
theorem value?_of_decode_merge (baseData : base.IsData) (data : overlay.IsData)
    (isTable : overlay.isTable = true) (sectionsBase : HasSections base)
    (sections : HasSections overlay)
    (decoded : decode .merged (Toml.merge base overlay) = .ok config)
    (isKey : key ∈ configKeyNames) :
    config.value? key = ((setting? .merged overlay key).or (setting? .merged base key)).or
        (({} : Config).value? key) ∧
      ∀ held, overlay.at? (settingPath key) = some held → held ≠ .emptyTable →
        (setting? .merged overlay key).isSome = true := by
  have follows := (decode_eq_ok_iff (Toml.isData_merge baseData data).distinct
    ((Toml.isTable_merge base overlay).trans isTable)
    (sectionsBase.merge sections data.distinct isTable)).mp decoded key isKey
  obtain ⟨name, isName, field, rfl, isSplit⟩ := exists_splitConfigKey isKey
  rw [Follows, settingPath_eq isSplit, at?_merge_pair sections data.distinct isTable isName,
    ← settingPath_eq isSplit] at follows
  cases above : overlay.at? (settingPath (keyIn name field)) with
  | none =>
      refine ⟨?_, by rintro _ ⟨⟩⟩
      rw [setting?_of_none above, Option.none_or]
      rw [above, Option.elim_none] at follows
      cases below : base.at? (settingPath (keyIn name field)) with
      | none =>
          rw [below] at follows
          rw [setting?_of_none below, Option.none_or]
          exact (Except.ok.inj follows).symm
      | some held =>
          rw [below] at follows
          obtain ⟨read, reads, isRead⟩ := Toml.map_eq_ok_iff.mp follows
          rw [setting?_of_some below reads, ← isRead]
          rfl
  | some held =>
      rw [above, Option.elim_some] at follows
      obtain ⟨read, reads, isRead⟩ := Toml.map_eq_ok_iff.mp follows
      rw [← isRead]
      have isAbove (alone : readSetting .merged (keyIn name field) held = .ok read) :=
        setting?_of_some above alone
      cases below : base.at? (settingPath (keyIn name field)) with
      | none =>
          rw [below] at reads
          rw [isAbove reads]
          exact ⟨rfl, fun _ _ _ => rfl⟩
      | some existing =>
          rw [below] at reads
          rcases readSetting_of_merge (data.of_at? above) reads with alone | ⟨rfl, fromBelow⟩
          · rw [isAbove alone]
            exact ⟨rfl, fun _ _ _ => rfl⟩
          · rw [setting?_of_emptyTable above, setting?_of_some below fromBelow]
            refine ⟨rfl, fun other same notEmpty => absurd ?_ notEmpty⟩
            exact (Option.some.inj same).symm

/-! ## Files -/

variable {globalFile : Option ConfigFile} {project file : ConfigFile}
  {entries : List (String × Value)}

/-- The data of a file is the data of its document. -/
theorem data_eq_ok_iff {data : Value} :
    file.data = .ok data ↔
      ∃ entries, Toml.readDocument file.text = some entries ∧
        Toml.decodeData .loose (.table entries) = .ok data := by
  rw [ConfigFile.data, Toml.mapError_eq_ok_iff, Toml.parse, Toml.parseAs_eq_ok_iff]

theorem globalData_some : globalData (some file) = file.data :=
  rfl

theorem load_file_eq_ok_iff :
    file.load = .ok config ↔
      ∃ entries, Toml.readDocument file.text = some entries ∧
        decode .document (.table entries) = .ok config := by
  rw [ConfigFile.load, Toml.mapError_eq_ok_iff, Toml.parseAs_eq_ok_iff]

theorem isData_of_globalData (isGlobal : globalData globalFile = .ok base) : base.IsData := by
  cases globalFile with
  | none =>
      cases isGlobal
      exact .emptyTable
  | some file =>
      obtain ⟨_, _, decoded⟩ := data_eq_ok_iff.mp isGlobal
      exact Toml.isData_of_decodeData decoded

/-- Two files with data are read as their merged data. -/
theorem load_over_eq (isGlobal : globalData globalFile = .ok base)
    (isProject : project.data = .ok overlay) :
    load globalFile (some project) =
      (decode .merged (Toml.merge base overlay)).mapError fun error =>
        Failure.configInvalid project.path (.unfitMerged error) := by
  rw [load, isGlobal]
  change (project.data >>= _) = _
  rw [isProject]
  rfl

theorem load_over_eq_ok_iff (isGlobal : globalData globalFile = .ok base)
    (isProject : project.data = .ok overlay) :
    load globalFile (some project) = .ok config ↔
      decode .merged (Toml.merge base overlay) = .ok config := by
  rw [load_over_eq isGlobal isProject, Toml.mapError_eq_ok_iff]

/-- **Every setting is what the project's file says, or else what the global file says, or else the
default.** -/
theorem value?_of_load (isGlobal : globalData globalFile = .ok base)
    (isProject : project.data = .ok overlay) (sectionsBase : HasSections base)
    (sections : HasSections overlay) (loads : load globalFile (some project) = .ok config)
    (isKey : key ∈ configKeyNames) :
    config.value? key = ((setting? .merged overlay key).or (setting? .merged base key)).or
        (({} : Config).value? key) ∧
      ∀ held, overlay.at? (settingPath key) = some held → held ≠ .emptyTable →
        (setting? .merged overlay key).isSome = true := by
  rw [load_over_eq_ok_iff isGlobal isProject] at loads
  obtain ⟨entries, _, decoded⟩ := data_eq_ok_iff.mp isProject
  have data := Toml.isData_of_decodeData decoded
  cases isTable : overlay.isTable with
  | true =>
      exact value?_of_decode_merge (isData_of_globalData isGlobal) data isTable sectionsBase
        sections
        loads isKey
  | false =>
      -- A document that is no table is a date, which is no configuration.
      rw [Toml.merge_of_not_table isTable] at loads
      rcases Toml.isTable_or_datetime_of_decodeData decoded with isTableToo | ⟨moment, rfl⟩
      · cases isTable.symm.trans isTableToo
      · cases loads

/-- A file in whose document no table looks like a date and every section is a table. -/
def Plain (file : ConfigFile) : Prop :=
  ∀ entries, Toml.readDocument file.text = some entries →
    (Value.table entries).Undated ∧ HasSections (.table entries)

/-- **Over the global file an empty file changes nothing**, but that a date is accepted as the text of
a setting. -/
theorem load_over_nothing_iff (isEmpty : project.data = .ok .emptyTable)
    (plain : ∀ file ∈ globalFile, Plain file) :
    load globalFile none = .ok config ↔
      load globalFile (some project) = .ok config ∧
        ∀ file ∈ globalFile, ∀ entries, Toml.readDocument file.text = some entries →
          NoDates (.table entries) := by
  cases globalFile with
  | none =>
      have noGlobal : globalData none = .ok .emptyTable := rfl
      have defaults : load none none = .ok {} ∧ decode .merged .emptyTable = .ok {} := ⟨rfl, rfl⟩
      rw [load_over_eq_ok_iff noGlobal isEmpty, Toml.merge_emptyTable rfl, defaults.1, defaults.2,
        Except.ok.injEq, Except.ok.injEq]
      exact ⟨fun same => ⟨same, nofun⟩, And.left⟩
  | some file =>
      have alone : load (some file) none = .ok config ↔ file.load = .ok config := Iff.rfl
      rw [alone, load_file_eq_ok_iff]
      constructor
      · rintro ⟨entries, isRead, decoded⟩
        obtain ⟨undated, sections⟩ := plain file rfl entries isRead
        obtain ⟨data, isData⟩ := undated.exists_data .loose
        obtain ⟨merged, noDates⟩ := (decode_document_iff undated
          (Toml.distinct_of_readDocument isRead) sections isData).mp decoded
        obtain ⟨results, rfl, _⟩ := undated.exists_table isData
        have isGlobal : globalData (some file) = .ok (.table results) :=
          data_eq_ok_iff.mpr ⟨entries, isRead, isData⟩
        refine ⟨?_, ?_⟩
        · rw [load_over_eq_ok_iff isGlobal isEmpty, Toml.merge_emptyTable rfl]
          exact merged
        · rintro _ ⟨⟩ other isOther
          cases isRead.symm.trans isOther
          exact noDates
      · rintro ⟨loads, noDates⟩
        obtain ⟨base, isGlobal, _⟩ := Toml.exists_of_bind_eq_ok loads
        obtain ⟨entries, isRead, isData⟩ := data_eq_ok_iff.mp isGlobal
        obtain ⟨undated, sections⟩ := plain file rfl entries isRead
        rw [load_over_eq_ok_iff isGlobal isEmpty] at loads
        refine ⟨entries, isRead, ?_⟩
        have reads : decode .document (.table entries) = .ok config ↔ _ :=
          decode_document_iff undated (Toml.distinct_of_readDocument isRead) sections isData
        obtain ⟨results, rfl, _⟩ := undated.exists_table isData
        rw [Toml.merge_emptyTable rfl] at loads
        exact reads.mpr ⟨loads, noDates file rfl entries isRead⟩

/-- **The law of layered files.**  Merged tables hold along each path what the overlay holds, or what
the base holds where the overlay holds nothing and only tables above, and a second merge changes
nothing.  Each setting of a global file and a project's file is what the upper one says, or else
what the lower one says, or else the default.  An empty project file changes nothing, but that a
date is accepted as the text of a setting. -/
theorem layers_of_files (globalFile : Option ConfigFile) (project : ConfigFile) :
    (∀ base overlay, (Value.table base).IsData → (Value.table overlay).IsData →
      (Toml.merge (.table base) (.table overlay)).isTable = true ∧
      (∀ path held, held.isTable = false →
        ((Toml.merge (.table base) (.table overlay)).at? path = some held ↔
          (Value.table overlay).at? path = some held ∨
            (Value.table base).at? path = some held ∧ (Value.table overlay).at? path = none ∧
              (Value.table overlay).Open path)) ∧
      Toml.merge (Toml.merge (.table base) (.table overlay)) (.table overlay) =
        Toml.merge (.table base) (.table overlay)) ∧
    (∀ base overlay config, globalData globalFile = .ok base → project.data = .ok overlay →
      HasSections base → HasSections overlay → load globalFile (some project) = .ok config →
      ∀ key ∈ configKeyNames,
        config.value? key = ((setting? .merged overlay key).or (setting? .merged base key)).or
            (({} : Config).value? key) ∧
          ∀ held, overlay.at? (settingPath key) = some held → held ≠ .emptyTable →
            (setting? .merged overlay key).isSome = true) ∧
    ∀ config, project.data = .ok .emptyTable → (∀ file ∈ globalFile, Plain file) →
      (load globalFile none = .ok config ↔
        load globalFile (some project) = .ok config ∧
          ∀ file ∈ globalFile, ∀ entries, Toml.readDocument file.text = some entries →
            NoDates (.table entries)) := by
  refine ⟨?_, ?_, ?_⟩
  · intro base overlay baseData data
    refine ⟨Toml.isTable_merge _ _, fun path held plain => ?_, Toml.merge_merge baseData data⟩
    exact Toml.at?_merge_eq_some_iff data.distinct plain (.table base)
  · intro base overlay config isGlobal isProject sectionsBase sections loads key isKey
    exact value?_of_load isGlobal isProject sectionsBase sections loads isKey
  · intro config isEmpty plain
    exact load_over_nothing_iff isEmpty plain

end StageManifest.Config

namespace StageManifest.DatedFile

open Toml (Value)

def text : String := "[general]\nlog_format = 1979-05-27\n"

def file : ConfigFile := ⟨.ofText "global.toml", text⟩

/-- The file of a project that says nothing. -/
def nothing : ConfigFile := ⟨.ofText "stagecraft.toml", ""⟩

def entries : List (String × Value) :=
  [("general", .table [("log_format", .datetime (.localDate ⟨1979, 5, 27⟩))])]

/-- The configuration that takes the date for the text of the setting. -/
def accepted : Config := { general := { logFormat := "1979-05-27" } }

theorem isRead : Toml.readDocument file.text = some entries := by
  cbv

theorem isData : file.data = .ok (.table entries) := by
  cbv

theorem isEmpty : nothing.data = .ok .emptyTable := by
  cbv

theorem hasSections : Config.HasSections (.table entries) := by
  intro name isName held found
  rcases Config.mem_sectionNames_iff.mp isName with rfl | rfl | rfl <;> cases found
  rfl

theorem plain : Config.Plain file := by
  intro other isOther
  cases isRead.symm.trans isOther
  have isGeneral : (Value.table [("log_format", .datetime (.localDate ⟨1979, 5, 27⟩))]).Undated := by
    refine .table (by rintro _ ⟨⟩; decide) fun entry member => ?_
    cases List.mem_singleton.mp member
    exact .datetime _
  refine ⟨.table (by rintro _ ⟨⟩; decide) fun entry member => ?_, hasSections⟩
  cases List.mem_singleton.mp member
  exact isGeneral

/-- Why the file fails alone: a date of a document looks like a table. -/
def refusal : Failure := .configInvalid file.path (.unfit (.wrongType .map "a string"))

theorem loads_alone : Config.load (some file) none = .error refusal := by
  cbv

theorem loads_over_nothing : Config.load (some file) (some nothing) = .ok accepted := by
  have decoded : Config.decode .merged (.table entries) = .ok accepted := by cbv
  rw [Config.load_over_eq_ok_iff (Config.globalData_some.trans isData) isEmpty,
    Toml.merge_emptyTable rfl, decoded]

end StageManifest.DatedFile

namespace StageManifest.Config

open DatedFile (file nothing accepted)

/-- A file that fails alone and is accepted below an empty file names a date for a setting, which
the configuration takes from that file. -/
theorem layers_of_dated_file :
    ¬ NoDates (.table DatedFile.entries) ∧
      accepted.value? "general.log_format" =
        ((setting? .merged .emptyTable "general.log_format").or
          (setting? .merged (.table DatedFile.entries) "general.log_format")).or
            (({} : Config).value? "general.log_format") := by
  have noSections : HasSections .emptyTable := by
    rintro name isName held ⟨⟩
  obtain ⟨_, settings, overNothing⟩ := layers_of_files (some file) nothing
  refine ⟨fun noDates => ?_, ?_⟩
  · have isPlain : ∀ other ∈ some file, Plain other := by
      rintro _ ⟨⟩
      exact DatedFile.plain
    have loads := (overNothing accepted DatedFile.isEmpty isPlain).mpr
      ⟨DatedFile.loads_over_nothing, by
        rintro _ ⟨⟩ other isOther
        cases DatedFile.isRead.symm.trans isOther
        exact noDates⟩
    cases DatedFile.loads_alone.symm.trans loads
  · exact (settings _ _ accepted DatedFile.isData DatedFile.isEmpty
      DatedFile.hasSections noSections DatedFile.loads_over_nothing _ (by decide)).1

/-- **A file with a date for a setting fails alone and is accepted below an empty file.** -/
theorem load_accepts_date_below_nothing :
    load (some file) none = .error DatedFile.refusal ∧ nothing.data = .ok .emptyTable ∧
      load (some file) (some nothing) = .ok accepted :=
  ⟨DatedFile.loads_alone, DatedFile.isEmpty, DatedFile.loads_over_nothing⟩

end StageManifest.Config
