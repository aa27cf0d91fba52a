import StageManifest.Config.Layers

/-!
# Edits of the configuration

A key and a text for its value change one setting.  The global file is edited
through the settings it stands for; a project's file is edited as a document, so
that it keeps its other keys and names no setting that was not asked for.
-/

set_option autoImplicit false

namespace StageManifest

/-! ## Values of settings -/

/-- The truth value that a word stands for, in any case. -/
def parseBoolean (word : String) : Except SettingError Bool :=
  let lowered := String.ofList (word.toList.map Char.toLower)
  if lowered = "true" || lowered = "1" || lowered = "yes" then .ok true
  else if lowered = "false" || lowered = "0" || lowered = "no" then .ok false
  else .error (.invalidBoolean word)

/-- The log format that a word stands for. -/
def parseLogFormat (word : String) : Except SettingError String :=
  if word = "text" || word = "json" then .ok word else .error (.invalidLogFormat word)

/-- The engine that a word stands for. -/
def parseEngine (word : String) : Except SettingError EngineChoice :=
  match Config.engineCases.lookup word with
  | some choice => .ok choice
  | none => .error (.invalidEngine word)

/-! ## Settings -/

/-- The configuration with another value for a key. -/
def Config.set (config : Config) (key value : String) : Except SettingError Config :=
  match key with
  | "general.log_format" => do
      return { config with general := { config.general with logFormat := ← parseLogFormat value } }
  | "build.syntax" => .ok { config with build := { config.build with frontend := value } }
  | "build.tag_prefix" => .ok { config with build := { config.build with tagPrefix := value } }
  | "build.default_file" => .ok { config with build := { config.build with defaultFile := value } }
  | "build.stable_cache_ids" => do
      return { config with
        build := { config.build with stableCacheIds := ← parseBoolean value } }
  | "engine.kind" => do
      return { config with engine := { config.engine with choice := ← parseEngine value } }
  | "engine.project" => .ok { config with engine := { config.engine with project := some value } }
  | _ => .error (.unknownKey key)

/-! ## Documents -/

/-- The section and the field of a key: what stands before its first dot and after it. -/
def splitConfigKey (key : String) : Except SettingError (String × String) :=
  match Text.cutFirst ['.'] key.toList with
  | some (name, field) => .ok (String.ofList name, String.ofList field)
  | none => .error (.unknownKey key)

/-- The value that a document holds for a key. -/
def documentValue (key value : String) : Except SettingError Toml.Value :=
  if key = "build.stable_cache_ids" then (parseBoolean value).map .boolean
  else .ok (.string value)

/-- The entries after a section is made, if they have none, and the entries of that section. -/
def openSection (entries : List (String × Toml.Value)) (name : String) :
    List (String × Toml.Value) × Except SettingError (List (String × Toml.Value)) :=
  match entries.lookup name with
  | none => (Toml.Value.insertEntry name .emptyTable entries, .ok [])
  | some (.table fields) => (entries, .ok fields)
  | some _ => (entries, .error (.sectionNotATable name))

/-- The document after another value was set for a key, and the error if that did not succeed.  The
section of the key is made before its value is read. -/
def setInDocument (document : Toml.Value) (key value : String) :
    Toml.Value × Except SettingError Unit :=
  match splitConfigKey key with
  | .error error => (document, .error error)
  | .ok (name, field) =>
      match document with
      | .table entries =>
          match openSection entries name with
          | (opened, .error error) => (.table opened, .error error)
          | (opened, .ok fields) =>
              match documentValue key value with
              | .error error => (.table opened, .error error)
              | .ok written =>
                  (.table (Toml.Value.insertEntry name
                    (.table (Toml.Value.insertEntry field written fields)) opened), .ok ())
      | _ => (document, .error .noTable)

end StageManifest
