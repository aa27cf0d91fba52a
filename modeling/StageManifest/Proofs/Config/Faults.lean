import StageManifest.Proofs.Config.Layering

/-!
# Faults of settings

A configuration can be read exactly if no place that it is read from is misstated:
no section is anything but a table, and no setting has a value of the wrong type
(`Config.exists_decode_iff`); the failure leads to such a place
(`Config.exists_misstated`).  A place that is misstated after a merge is misstated
by the project's file, or by the global file while the project's file holds nothing
there, or else is the engine, which both files may say by a table
(`Config.Misstates.of_merge`).  A file that misstates a place fails alone
(`Config.failsAlone_of_misstates`).  The failure of merged values is blamed on the
project's file all the same (`Config.faults_of_layers`).
-/

set_option autoImplicit false

namespace StageManifest.Config

open Toml (Mode Value)

/-! ## Places -/

/-- What a configuration is read from: the sections and their settings. -/
inductive Place where
  | table (name : String)
  | setting (key : String)

namespace Place

/-- The path of a place in a document. -/
def path : Place → List String
  | .table name => [name]
  | .setting key => settingPath key

/-- A configuration is read from the sections and settings that it has. -/
def IsRead : Place → Prop
  | .table name => name ∈ (shape .document).names
  | .setting key => key ∈ configKeyNames

/-- A section is a table, and a setting has a value that can be read. -/
def Accepts (mode : Mode) : Place → Value → Prop
  | .table _, held => held.isTable = true
  | .setting key, held => ∃ read, readSetting mode key held = .ok read

end Place

/-- A document holds at a place what the place does not accept. -/
def Misstates (mode : Mode) (source : Value) (place : Place) : Prop :=
  ∃ held, source.at? place.path = some held ∧ ¬ place.Accepts mode held

/-- An array lists the fields of a section in order, and a date of a document has an entry as a
section has. -/
def StandsForSection : Value → Prop
  | .array _ _ | .datetime _ => True
  | _ => False

/-- No section is given by an array or by a date. -/
def PlainSections (source : Value) : Prop :=
  ∀ name ∈ (shape .document).names, ∀ held, source.under? name = some held → ¬ StandsForSection held

variable {mode : Mode} {base overlay source held data : Value} {place : Place}
  {name key : String} {config : Config}

theorem at?_table (name : String) (source : Value) :
    source.at? (Place.table name).path = source.under? name := by
  rw [Place.path, Value.at?_cons]
  cases source.under? name <;> rfl

/-- A section is well stated exactly if it is a table where it is there. -/
theorem not_misstates_table_iff :
    ¬ Misstates mode source (.table name) ↔
      ∀ held, source.under? name = some held → held.isTable = true := by
  simp [Misstates, at?_table, Place.Accepts]

/-- A section that is read is a table. -/
theorem isTable_of_decode {σ : Type} {schema : Toml.Shape σ} {start result : σ}
    (plain : ¬ StandsForSection held) (decoded : schema.decode mode start held = .ok result) :
    held.isTable = true := by
  cases held with
  | table entries => rfl
  | array form items => exact absurd trivial plain
  | datetime moment => exact absurd trivial plain
  | _ => cases decoded

/-- What a configuration is read from has tables for sections. -/
theorem hasSections_of_decode (distinct : source.Distinct) (isTable : source.isTable = true)
    (plain : PlainSections source) (decoded : decode mode source = .ok config) :
    HasSections source := by
  have whole := ((views_shape mode).elim_decode_eq_ok_iff mode (some source)
    (fun value isSource => Option.some.inj isSource ▸ isTable)
    (fun value isSource => Option.some.inj isSource ▸ distinct) {} config).mp decoded
  intro name isName held found
  have reads := whole name isName
  rw [Option.bind_some, found, Option.elim_some] at reads
  have plainHeld := plain name isName held found
  rcases mem_sectionNames_iff.mp isName with rfl | rfl | rfl
  all_goals
    obtain ⟨_, isPart, _⟩ := Toml.map_eq_ok_iff.mp reads
    exact isTable_of_decode plainHeld isPart

/-- What a configuration is read from misstates no place. -/
theorem not_misstates_of_decode (distinct : source.Distinct) (isTable : source.isTable = true)
    (plain : PlainSections source) (decoded : decode mode source = .ok config)
    (isRead : place.IsRead) : ¬ Misstates mode source place := by
  have sections := hasSections_of_decode distinct isTable plain decoded
  cases place with
  | table name => exact not_misstates_table_iff.mpr (sections name isRead)
  | setting key =>
      rintro ⟨held, found, refused⟩
      have follows := (decode_eq_ok_iff distinct isTable sections).mp decoded key isRead
      rw [Place.path] at found
      rw [Follows, found, Option.elim_some] at follows
      obtain ⟨read, reads, _⟩ := Toml.map_eq_ok_iff.mp follows
      exact refused ⟨read, reads⟩

/-! ## Failures -/

variable {error : Toml.DecodeError}

theorem keys_of_decodeNoPayload {payload : Option Value}
    (refused : Toml.decodeNoPayload mode payload = .error error) : error.keys = [] := by
  cases payload with
  | none => cases refused
  | some value =>
      cases value with
      | table entries =>
          rw [Toml.decodeNoPayload] at refused
          split at refused <;> cases refused
          rfl
      | array form items =>
          rw [Toml.decodeNoPayload] at refused
          split at refused
          · cases refused
          · split at refused <;> cases refused <;> rfl
      | _ =>
          cases refused
          rfl

theorem keys_of_decodeCase (refused : Toml.decodeCase mode held = .error error) :
    error.keys = [] := by
  unfold Toml.decodeCase at refused
  split at refused
  case h_5 => cases mode <;> cases refused <;> rfl
  all_goals cases refused <;> rfl

theorem keys_of_decodeChoice {α : Type} {cases : List (String × α)}
    (refused : Toml.decodeChoice mode cases held = .error error) : error.keys = [] := by
  unfold Toml.decodeChoice at refused
  cases isCase : Toml.decodeCase mode held with
  | error failure =>
      rw [isCase] at refused
      cases refused
      exact keys_of_decodeCase isCase
  | ok case =>
      rw [isCase] at refused
      dsimp only [bind, Except.bind] at refused
      split at refused
      · cases refused
        rfl
      · exact keys_of_decodeNoPayload (Toml.map_eq_error_iff.mp refused)

/-- A setting that cannot be read fails right there. -/
theorem keys_of_readSetting (refused : readSetting mode key held = .error error) :
    error.keys = [] := by
  unfold readSetting at refused
  split at refused
  · rw [Toml.map_eq_error_iff] at refused
    cases held <;> cases refused <;> rfl
  · split at refused
    · exact keys_of_decodeChoice (Toml.map_eq_error_iff.mp refused)
    · rw [Toml.map_eq_error_iff] at refused
      cases held with
      | datetime moment => cases mode <;> cases refused; rfl
      | _ => cases refused <;> rfl

/-- What keeps a section from being read misstates the section or one of its settings, and the
failure leads there. -/
theorem exists_misstated_in {σ : Type} {schema : Toml.Shape σ} {embed : σ → Config} {start : σ}
    (views : schema.Views (readIn mode name) fun field part => saidIn name field (embed part))
    (isName : name ∈ (shape .document).names) (noDot : '.' ∉ name.toList)
    (isKey : ∀ field ∈ schema.names, keyIn name field ∈ configKeyNames)
    (distinct : source.Distinct) (found : source.under? name = some held)
    (plain : ¬ StandsForSection held)
    (refused : (schema.decode mode start held).map embed = .error error) :
    ∃ place : Place, place.IsRead ∧ Misstates mode source place ∧
      (error.under name).keys = place.path := by
  rw [Toml.map_eq_error_iff] at refused
  cases held with
  | table entries =>
      obtain ⟨field, isField, value, inner, isValue, unread, rfl⟩ :=
        views.exists_of_ofEntries_eq_error (distinct.of_under? found).keys refused
      have isPath : (Place.setting (keyIn name field)).path = [name, field] :=
        settingPath_eq (splitConfigKey_keyIn noDot field)
      rw [readIn, Toml.map_eq_error_iff] at unread
      refine ⟨.setting (keyIn name field), isKey field isField, ⟨value, ?_, ?_⟩, ?_⟩
      · rw [isPath, at?_pair, found]
        exact isValue
      · rintro ⟨read, reads⟩
        cases unread.symm.trans reads
      · rw [isPath, Toml.DecodeError.under, Toml.DecodeError.under, keys_of_readSetting unread]
  | array form items => exact absurd trivial plain
  | datetime moment => exact absurd trivial plain
  | _ =>
      cases refused
      exact ⟨.table name, isName, ⟨_, (at?_table name source).trans found, Bool.false_ne_true⟩, rfl⟩

/-- **A configuration that cannot be read has a misstated place, and the failure leads there.** -/
theorem exists_misstated (distinct : source.Distinct) (isTable : source.isTable = true)
    (plain : PlainSections source) (refused : decode mode source = .error error) :
    ∃ place : Place, place.IsRead ∧ Misstates mode source place ∧ error.keys = place.path := by
  cases source with
  | table entries =>
      obtain ⟨name, isName, held, inner, found, unread, rfl⟩ :=
        (views_shape mode).exists_of_ofEntries_eq_error distinct.keys refused
      obtain ⟨generalKeys, buildKeys, engineKeys⟩ :=
        (forall_configKeyNames_iff mode).mp fun key (isKey : key ∈ configKeyNames) => isKey
      have plainHeld := plain name isName held found
      rcases mem_sectionNames_iff.mp isName with rfl | rfl | rfl
      · exact exists_misstated_in (views_generalShape mode) isName (by decide) generalKeys distinct
          found plainHeld unread
      · exact exists_misstated_in (views_buildShape mode) isName (by decide) buildKeys distinct
          found plainHeld unread
      · exact exists_misstated_in (views_engineShape mode) isName (by decide) engineKeys distinct
          found plainHeld unread
  | _ => cases isTable

/-- **A configuration can be read exactly if no place that it is read from is misstated.** -/
theorem exists_decode_iff (distinct : source.Distinct) (isTable : source.isTable = true)
    (plain : PlainSections source) :
    (∃ config, decode mode source = .ok config) ↔
      ∀ place : Place, place.IsRead → ¬ Misstates mode source place := by
  constructor
  · rintro ⟨config, decoded⟩ place isRead
    exact not_misstates_of_decode distinct isTable plain decoded isRead
  · intro wellStated
    cases decoded : decode mode source with
    | ok config => exact ⟨config, rfl⟩
    | error error =>
        obtain ⟨place, isRead, misstated, _⟩ := exists_misstated distinct isTable plain decoded
        exact absurd misstated (wellStated place isRead)

/-! ## Sections that are no arrays -/

/-- The data of a document has arrays and dates for sections only where the document has them. -/
theorem PlainSections.of_decodeData {dates : Toml.DateTable} (plain : PlainSections source)
    (undated : source.Undated) (decoded : Toml.decodeData dates source = .ok data) :
    PlainSections data := by
  intro name isName held found
  have below := undated.mapM_under? decoded name
  rw [found] at below
  cases above : source.under? name with
  | none =>
      rw [above] at below
      cases below
  | some value =>
      have plainValue := plain name isName value above
      rw [above, Option.mapM_some] at below
      obtain ⟨result, isRead, same⟩ := Toml.exists_of_bind_eq_ok below
      cases same
      cases value with
      | table content =>
          obtain ⟨_, rfl, _⟩ := (undated.of_under? above).exists_table isRead
          exact id
      | array form items => exact absurd trivial plainValue
      | _ =>
          cases isRead
          exact plainValue

theorem standsForSection_merge (base overlay : Value) :
    StandsForSection (Toml.merge base overlay) ↔ StandsForSection overlay := by
  cases isTable : overlay.isTable with
  | false => rw [Toml.merge_of_not_table isTable]
  | true =>
      have noSection (value : Value) (isTable : value.isTable = true) :
          ¬ StandsForSection value := by
        cases value with
        | table entries => exact id
        | _ => cases isTable
      exact iff_of_false (noSection _ ((Toml.isTable_merge base overlay).trans isTable))
        (noSection _ isTable)

/-- Merged documents have arrays and dates for sections only where one of both has them. -/
theorem PlainSections.merge (plainBase : PlainSections base) (plain : PlainSections overlay)
    (distinct : overlay.Distinct) (isTable : overlay.isTable = true) :
    PlainSections (Toml.merge base overlay) := by
  intro name isName held found
  rw [Toml.under?_merge distinct isTable] at found
  cases above : overlay.under? name with
  | none =>
      rw [above] at found
      exact plainBase name isName held found
  | some value =>
      rw [above] at found
      obtain rfl := Option.some.inj found
      cases base.under? name with
      | none => exact plain name isName value above
      | some existing =>
          exact (standsForSection_merge existing value).not.mpr (plain name isName value above)

/-! ## Faults of merged documents -/

/-- Both documents say the engine by a table, and the merge makes one table of the two. -/
def EngineTwice (base overlay : Value) : Prop :=
  ∃ below above, base.at? (settingPath "engine.kind") = some (.table below) ∧
    overlay.at? (settingPath "engine.kind") = some (.table above)

/-- Only tables are merged to anything new. -/
theorem exists_tables_of_merge_ne (changed : Toml.merge base overlay ≠ overlay) :
    ∃ below above, base = .table below ∧ overlay = .table above := by
  cases isTable : overlay.isTable with
  | false => exact absurd (Toml.merge_of_not_table isTable) changed
  | true =>
      cases overlay with
      | table entries =>
          cases isBase : base.isTable with
          | false => exact absurd (Toml.merge_table_of_not_table isBase entries) changed
          | true =>
              cases base with
              | table content => exact ⟨content, entries, rfl, rfl⟩
              | _ => cases isBase
      | _ => cases isTable

/-- **A fault of merged documents is in the overlay, or in the base where the overlay holds nothing,
unless both say the engine by a table.** -/
theorem Misstates.of_merge (distinct : overlay.Distinct)
    (misstated : Misstates mode (Toml.merge base overlay) place) :
    Misstates mode overlay place ∨
      overlay.at? place.path = none ∧ Misstates mode base place ∨
        place = .setting "engine.kind" ∧ EngineTwice base overlay := by
  obtain ⟨held, found, refused⟩ := misstated
  cases above : overlay.at? place.path with
  | none =>
      have isOpen : overlay.Open place.path := by
        by_contra closed
        rw [Toml.at?_merge_of_not_open distinct closed] at found
        cases found
      rw [Toml.at?_merge_of_open distinct above isOpen] at found
      exact .inr (.inl ⟨rfl, held, found, refused⟩)
  | some value =>
      rw [Toml.at?_merge_of_some distinct above] at found
      by_cases accepts : place.Accepts mode value
      · cases below : base.at? place.path with
        | none =>
            rw [below] at found
            cases found
            exact absurd accepts refused
        | some existing =>
            rw [below] at found
            obtain rfl := Option.some.inj found
            cases place with
            | table name => exact absurd ((Toml.isTable_merge existing value).trans accepts) refused
            | setting key =>
                have changed : Toml.merge existing value ≠ value := by
                  intro same
                  rw [Option.elim_some, same] at refused
                  exact refused accepts
                obtain ⟨content, entries, rfl, rfl⟩ := exists_tables_of_merge_ne changed
                obtain ⟨read, reads⟩ := accepts
                obtain rfl := eq_kind_of_readSetting rfl reads
                exact .inr (.inr ⟨rfl, content, entries, below, above⟩)
      · exact .inl ⟨value, above, accepts⟩

/-- A place where the overlay holds nothing is misstated after a merge exactly if the base misstates
it. -/
theorem misstates_merge_iff (sections : HasSections overlay) (distinct : overlay.Distinct)
    (isTable : overlay.isTable = true) (isRead : place.IsRead)
    (absent : overlay.at? place.path = none) :
    Misstates mode (Toml.merge base overlay) place ↔ Misstates mode base place := by
  have isOpen : overlay.Open place.path := by
    cases place with
    | table name =>
        exact Value.open_cons_iff.mpr ⟨isTable, fun child _ => Value.open_nil child⟩
    | setting key =>
        obtain ⟨name, isName, field, rfl, isSplit⟩ := exists_splitConfigKey isRead
        rw [Place.path, settingPath_eq isSplit]
        exact open_pair isTable (sections name isName) field
  rw [Misstates, Misstates, Toml.at?_merge_of_open distinct absent isOpen]

/-! ## Faults of files -/

variable {globalFile project file : ConfigFile} {failure : Failure}

/-- No table of a file looks like a date, and no section is given by an array or by a date. -/
def Regular (file : ConfigFile) : Prop :=
  ∀ entries, Toml.readDocument file.text = some entries →
    (Value.table entries).Undated ∧ PlainSections (.table entries)

/-- A file that is no configuration on its own is blamed for that. -/
def FailsAlone (file : ConfigFile) : Prop :=
  ∃ fault, file.load = .error (.configInvalid file.path fault)

theorem failsAlone_of_ne (fails : ∀ config, file.load ≠ .ok config) : FailsAlone file := by
  unfold FailsAlone
  unfold ConfigFile.load at fails ⊢
  cases parsed : Toml.parseAs (decode .document) file.text with
  | error fault => exact ⟨fault, rfl⟩
  | ok config =>
      rw [parsed] at fails
      exact absurd rfl (fails config)

/-- A file that has no data is blamed, and fails alone in the same way. -/
theorem exists_load_eq_of_data (regular : Regular file) (fails : file.data = .error failure) :
    ∃ fault, failure = .configInvalid file.path fault ∧ file.load = .error failure := by
  cases isRead : Toml.readDocument file.text with
  | none =>
      obtain ⟨fault, parsed, rfl⟩ := Toml.mapError_eq_error_iff.mp fails
      rw [Toml.parse, Toml.parseAs, isRead] at parsed
      cases parsed
      refine ⟨_, rfl, ?_⟩
      rw [ConfigFile.load, Toml.parseAs, isRead]
      rfl
  | some entries =>
      obtain ⟨data, decoded⟩ := (regular entries isRead).1.exists_data .loose
      cases fails.symm.trans (data_eq_ok_iff.mpr ⟨entries, isRead, decoded⟩)

/-- The data of a regular file is a table without arrays and dates for sections. -/
theorem Regular.of_data (regular : Regular file) (isData : file.data = .ok data) :
    data.isTable = true ∧ data.IsData ∧ PlainSections data := by
  obtain ⟨entries, isRead, decoded⟩ := data_eq_ok_iff.mp isData
  obtain ⟨undated, plain⟩ := regular entries isRead
  have sections := plain.of_decodeData undated decoded
  have isData := Toml.isData_of_decodeData decoded
  obtain ⟨results, rfl, _⟩ := undated.exists_table decoded
  exact ⟨rfl, isData, sections⟩

/-- So is the merged data of two regular files. -/
theorem Regular.of_merge (regularBase : Regular globalFile) (regular : Regular project)
    (isGlobal : globalFile.data = .ok base) (isProject : project.data = .ok overlay) :
    (Toml.merge base overlay).isTable = true ∧ (Toml.merge base overlay).IsData ∧
      PlainSections (Toml.merge base overlay) := by
  obtain ⟨_, dataBase, plainBase⟩ := regularBase.of_data isGlobal
  obtain ⟨isTable, data, plain⟩ := regular.of_data isProject
  exact ⟨(Toml.isTable_merge base overlay).trans isTable, Toml.isData_merge dataBase data,
    plainBase.merge plain data.distinct isTable⟩

/-- What is loaded from a file alone is read from its data. -/
theorem decode_data_of_load (regular : Regular file) (isData : file.data = .ok data)
    (loads : file.load = .ok config) : decode .merged data = .ok config := by
  obtain ⟨entries, isRead, decoded⟩ := load_file_eq_ok_iff.mp loads
  obtain ⟨undated, plain⟩ := regular entries isRead
  obtain ⟨_, isReadToo, isRows⟩ := data_eq_ok_iff.mp isData
  cases isRead.symm.trans isReadToo
  have distinct := Toml.distinct_of_readDocument isRead
  have sections := hasSections_of_decode distinct rfl plain decoded
  exact ((decode_document_iff undated distinct sections isRows).mp decoded).1

/-- **A file that misstates a place fails alone.** -/
theorem failsAlone_of_misstates (regular : Regular file) (isData : file.data = .ok data)
    (isRead : place.IsRead) (misstated : Misstates .merged data place) : FailsAlone file := by
  refine failsAlone_of_ne fun config loads => ?_
  obtain ⟨isTable, rows, plain⟩ := regular.of_data isData
  have decoded := decode_data_of_load regular isData loads
  exact not_misstates_of_decode rows.distinct isTable plain decoded isRead misstated

/-- Two files with data make a configuration exactly if their merged data misstates no place. -/
theorem exists_load_over_iff (regularBase : Regular globalFile) (regular : Regular project)
    (isGlobal : globalFile.data = .ok base) (isProject : project.data = .ok overlay) :
    (∃ config, load (some globalFile) (some project) = .ok config) ↔
      ∀ place : Place, place.IsRead → ¬ Misstates .merged (Toml.merge base overlay) place := by
  obtain ⟨isTable, data, plain⟩ := regularBase.of_merge regular isGlobal isProject
  rw [← exists_decode_iff data.distinct isTable plain]
  exact exists_congr fun config => load_over_eq_ok_iff (globalData_some.trans isGlobal) isProject

/-- A failure of merged data is blamed on the project's file and leads to a misstated place. -/
theorem exists_misstated_of_load (regularBase : Regular globalFile) (regular : Regular project)
    (isGlobal : globalFile.data = .ok base) (isProject : project.data = .ok overlay)
    (fails : load (some globalFile) (some project) = .error failure) :
    ∃ error : Toml.DecodeError, failure = .configInvalid project.path (.unfitMerged error) ∧
      ∃ place : Place, place.IsRead ∧ error.keys = place.path ∧
        Misstates .merged (Toml.merge base overlay) place := by
  obtain ⟨isTable, data, plain⟩ := regularBase.of_merge regular isGlobal isProject
  rw [load_over_eq (globalData_some.trans isGlobal) isProject] at fails
  obtain ⟨error, refused, rfl⟩ := Toml.mapError_eq_error_iff.mp fails
  obtain ⟨place, isRead, misstated, isPath⟩ :=
    exists_misstated data.distinct isTable plain refused
  exact ⟨error, rfl, place, isRead, isPath, misstated⟩

/-- What the global file alone misstates is blamed on the project's file. -/
theorem exists_load_eq_of_base (regularBase : Regular globalFile) (regular : Regular project)
    (isGlobal : globalFile.data = .ok base) (isProject : project.data = .ok overlay)
    (isRead : place.IsRead) (absent : overlay.at? place.path = none)
    (misstated : Misstates .merged base place) (loads : project.load = .ok config) :
    ∃ error, load (some globalFile) (some project) =
      .error (.configInvalid project.path (.unfitMerged error)) := by
  obtain ⟨isTable, data, plain⟩ := regular.of_data isProject
  have sections := hasSections_of_decode data.distinct isTable plain
    (decode_data_of_load regular isProject loads)
  have mergedMisstates := (misstates_merge_iff sections data.distinct isTable isRead absent).mpr
    misstated
  cases loaded : load (some globalFile) (some project) with
  | ok config =>
      exact absurd mergedMisstates
        ((exists_load_over_iff regularBase regular isGlobal isProject).mp ⟨config, loaded⟩ place
          isRead)
  | error failure =>
      obtain ⟨error, rfl, _⟩ :=
        exists_misstated_of_load regularBase regular isGlobal isProject loaded
      exact ⟨error, rfl⟩

/-- **The law of blame.**  A file that has no data is blamed, and fails alone.  Where both files have
data they are loaded unless the merged data misstates a place.  Then the project's file is blamed,
and the failure leads to a place that this file misstates, or that the global file misstates and
the project's file leaves out, or to an engine that both say by a table; a file that misstates a
place fails alone.  So a project's file that loads alone is blamed for what only the global file
misstates. -/
theorem faults_of_layers (regularBase : Regular globalFile) (regular : Regular project) :
    (∀ failure, globalFile.data = .error failure →
      load (some globalFile) (some project) = .error failure ∧ globalFile.load = .error failure ∧
        ∃ fault, failure = .configInvalid globalFile.path fault) ∧
    (∀ base failure, globalFile.data = .ok base → project.data = .error failure →
      load (some globalFile) (some project) = .error failure ∧ project.load = .error failure ∧
        ∃ fault, failure = .configInvalid project.path fault) ∧
    ∀ base overlay, globalFile.data = .ok base → project.data = .ok overlay →
      ((∃ config, load (some globalFile) (some project) = .ok config) ↔
        ∀ place : Place, place.IsRead → ¬ Misstates .merged (Toml.merge base overlay) place) ∧
      (∀ failure, load (some globalFile) (some project) = .error failure →
        ∃ error : Toml.DecodeError, failure = .configInvalid project.path (.unfitMerged error) ∧
          ∃ place : Place, place.IsRead ∧ error.keys = place.path ∧
            (Misstates .merged overlay place ∧ FailsAlone project ∨
              overlay.at? place.path = none ∧ Misstates .merged base place ∧
                FailsAlone globalFile ∨
              place = .setting "engine.kind" ∧ EngineTwice base overlay)) ∧
      ∀ (place : Place) (config : Config), place.IsRead → overlay.at? place.path = none →
        Misstates .merged base place → project.load = .ok config →
          FailsAlone globalFile ∧ ∃ error, load (some globalFile) (some project) =
            .error (.configInvalid project.path (.unfitMerged error)) := by
  refine ⟨?_, ?_, ?_⟩
  · intro failure fails
    obtain ⟨fault, isFault, alone⟩ := exists_load_eq_of_data regularBase fails
    refine ⟨?_, alone, fault, isFault⟩
    rw [load, globalData_some, fails]
    rfl
  · intro base failure isGlobal fails
    obtain ⟨fault, isFault, alone⟩ := exists_load_eq_of_data regular fails
    refine ⟨?_, alone, fault, isFault⟩
    rw [load, globalData_some, isGlobal]
    change loadOver base project = _
    rw [loadOver, fails]
    rfl
  · intro base overlay isGlobal isProject
    refine ⟨exists_load_over_iff regularBase regular isGlobal isProject, fun failure fails => ?_,
      fun place config isRead absent misstated loads => ?_⟩
    · obtain ⟨error, isError, place, isRead, isPath, misstated⟩ :=
        exists_misstated_of_load regularBase regular isGlobal isProject fails
      refine ⟨error, isError, place, isRead, isPath, ?_⟩
      have distinct := (regular.of_data isProject).2.1.distinct
      rcases misstated.of_merge distinct with above | ⟨absent, below⟩ | twice
      · exact .inl ⟨above, failsAlone_of_misstates regular isProject isRead above⟩
      · exact .inr (.inl ⟨absent, below,
          failsAlone_of_misstates regularBase isGlobal isRead below⟩)
      · exact .inr (.inr twice)
    · exact ⟨failsAlone_of_misstates regularBase isGlobal isRead misstated,
        exists_load_eq_of_base regularBase regular isGlobal isProject isRead absent misstated loads⟩

end StageManifest.Config

namespace StageManifest.MisstatedFile

open Toml (Value)

/-- A global file with a text for a truth value. -/
def globalFile : ConfigFile := ⟨.ofText "global.toml", "[build]\nstable_cache_ids = \"yes\"\n"⟩

/-- A project's file in which nothing is wrong. -/
def project : ConfigFile := ⟨.ofText "stagecraft.toml", "[build]\ntag_prefix = \"local\"\n"⟩

/-- A document that says one thing about builds. -/
def document (key text : String) : List (String × Value) :=
  [("build", .table [(key, .string text)])]

/-- The configuration of the project's file alone. -/
def config : Config := { build := { tagPrefix := "local" } }

/-- What is wrong with the truth value. -/
def mismatch : Toml.Mismatch := .wrongType (.string "yes") "a boolean"

theorem isRead_global :
    Toml.readDocument globalFile.text = some (document "stable_cache_ids" "yes") := by
  cbv

theorem isRead_project : Toml.readDocument project.text = some (document "tag_prefix" "local") := by
  cbv

theorem isData_global :
    globalFile.data = .ok (.table (document "stable_cache_ids" "yes")) := by
  cbv

theorem isData_project : project.data = .ok (.table (document "tag_prefix" "local")) := by
  cbv

theorem loads_project : project.load = .ok config := by
  cbv

theorem regular {file : ConfigFile} {key text : String} (notDate : key ≠ Toml.dateKey)
    (isRead : Toml.readDocument file.text = some (document key text)) : Config.Regular file := by
  intro entries isEntries
  cases isRead.symm.trans isEntries
  have isBuild : (Value.table [(key, .string text)]).Undated := by
    refine .table (by rintro _ ⟨⟩; exact notDate) fun entry member => ?_
    cases List.mem_singleton.mp member
    exact .string _
  have notDate : "build" ≠ Toml.dateKey := by decide
  refine ⟨.table (by rintro _ ⟨⟩; exact notDate) fun entry member => ?_, ?_⟩
  · cases List.mem_singleton.mp member
    exact isBuild
  · intro name isName held found
    rcases Config.mem_sectionNames_iff.mp isName with rfl | rfl | rfl <;> cases found
    exact id

end StageManifest.MisstatedFile

namespace StageManifest.Config

open MisstatedFile (globalFile project)

/-- A truth value that only the global file misstates is blamed on a project's file that loads. -/
theorem faults_of_misstated_file :
    Regular globalFile ∧ Regular project ∧ FailsAlone globalFile ∧
      ∃ error, load (some globalFile) (some project) =
        .error (.configInvalid project.path (.unfitMerged error)) := by
  have regularBase := MisstatedFile.regular (by decide) MisstatedFile.isRead_global
  have regularProject := MisstatedFile.regular (by decide) MisstatedFile.isRead_project
  obtain ⟨_, _, layers⟩ := faults_of_layers regularBase regularProject
  obtain ⟨_, _, blamed⟩ := layers _ _ MisstatedFile.isData_global MisstatedFile.isData_project
  have misstated : Misstates .merged (.table (MisstatedFile.document "stable_cache_ids" "yes"))
      (.setting "build.stable_cache_ids") := by
    refine ⟨.string "yes", by cbv, ?_⟩
    rintro ⟨read, reads⟩
    cases reads
  have isKey : "build.stable_cache_ids" ∈ configKeyNames := by decide
  exact ⟨regularBase, regularProject, blamed (.setting "build.stable_cache_ids") _ isKey (by cbv)
    misstated MisstatedFile.loads_project⟩

/-- **A fault of the global file is blamed on a project's file that loads alone.** -/
theorem load_blames_project :
    globalFile.load = .error (.configInvalid globalFile.path (.unfit MisstatedFile.mismatch)) ∧
      project.load = .ok MisstatedFile.config ∧
      load (some globalFile) (some project) =
        .error (.configInvalid project.path
          (.unfitMerged ⟨MisstatedFile.mismatch, ["build", "stable_cache_ids"]⟩)) ∧
      project.path ≠ globalFile.path := by
  refine ⟨by cbv, MisstatedFile.loads_project, ?_, by decide⟩
  rw [load_over_eq (globalData_some.trans MisstatedFile.isData_global) MisstatedFile.isData_project]
  cbv

end StageManifest.Config
