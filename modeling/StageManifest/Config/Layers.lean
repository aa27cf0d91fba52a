import StageManifest.Config.Basic
import StageManifest.Toml.Parse

/-!
# Layers of configuration

A configuration is read from a global file, and the file of a project may
override any of its keys.  Two documents are merged table by table; where the
overlay says anything but a table, it replaces what was there.  Keys that no
setting has are ignored, and settings that no file names have their defaults.
-/

set_option autoImplicit false

namespace StageManifest

open Toml (Mode Decoded Shape ShapeField)

/-! ## Decoding -/

namespace Config

/-- The schema of the general section. -/
def generalShape (mode : Mode) : Shape GeneralConfig :=
  ⟨"GeneralConfig",
    [⟨"log_format", true, fun value config => do
        return { config with logFormat := ← Toml.decodeString mode value }⟩],
    false⟩

/-- The schema of the section on builds. -/
def buildShape (mode : Mode) : Shape BuildConfig :=
  ⟨"BuildConfig",
    [⟨"syntax", true, fun value config => do
        return { config with frontend := ← Toml.decodeString mode value }⟩,
      ⟨"tag_prefix", true, fun value config => do
        return { config with tagPrefix := ← Toml.decodeString mode value }⟩,
      ⟨"default_file", true, fun value config => do
        return { config with defaultFile := ← Toml.decodeString mode value }⟩,
      ⟨"stable_cache_ids", true, fun value config => do
        return { config with stableCacheIds := ← Toml.decodeBoolean mode value }⟩],
    false⟩

/-- The engines by their words. -/
def engineCases : List (String × EngineChoice) :=
  [("docker", .docker), ("depot", .depot)]

/-- The schema of the section on the engine. -/
def engineShape (mode : Mode) : Shape EngineConfig :=
  ⟨"EngineConfig",
    [⟨"kind", true, fun value config => do
        return { config with choice := ← Toml.decodeChoice mode engineCases value }⟩,
      ⟨"project", true, fun value config => do
        return { config with project := some (← Toml.decodeString mode value) }⟩],
    false⟩

/-- The schema of a configuration. -/
def shape (mode : Mode) : Shape Config :=
  ⟨"Config",
    [⟨"general", true, fun value config => do
        return { config with general := ← (generalShape mode).decode mode {} value }⟩,
      ⟨"build", true, fun value config => do
        return { config with build := ← (buildShape mode).decode mode {} value }⟩,
      ⟨"engine", true, fun value config => do
        return { config with engine := ← (engineShape mode).decode mode {} value }⟩],
    false⟩

/-- The configuration that a value holds. -/
def decode (mode : Mode) (value : Toml.Value) : Decoded Config :=
  (shape mode).decode mode {} value

end Config

/-! ## Merging -/

namespace Toml

mutual
/-- A value with another laid over it. -/
def merge (base : Value) : (overlay : Value) → Value
  | .table overlay =>
      match base with
      | .table entries => .table (mergeEntries entries overlay)
      | _ => .table overlay
  | overlay => overlay

/-- Entries with others laid over them. -/
def mergeEntries (base : List (String × Value)) :
    (overlay : List (String × Value)) → List (String × Value)
  | [] => base
  | (key, value) :: rest =>
      let merged :=
        match base.lookup key with
        | some existing => merge existing value
        | none => value
      mergeEntries (Value.insertEntry key merged base) rest
end

end Toml

/-! ## Files -/

/-- A file of the configuration and its text. -/
structure ConfigFile where
  path : HostPath
  text : String

/-- The data of a configuration file. -/
def ConfigFile.data (file : ConfigFile) : Except Failure Toml.Value :=
  (Toml.parse file.text).mapError (.configInvalid file.path)

/-- The configuration of one file alone. -/
def ConfigFile.load (file : ConfigFile) : Except Failure Config :=
  (Toml.parseAs (Config.decode .document) file.text).mapError (.configInvalid file.path)

namespace Config

/-- The data of a global file, if there is one. -/
def globalData : (globalFile : Option ConfigFile) → Except Failure Toml.Value
  | none => .ok .emptyTable
  | some file => file.data

/-- The configuration of a global file alone, if there is one. -/
def loadGlobal : (globalFile : Option ConfigFile) → Except Failure Config
  | none => .ok {}
  | some file => file.load

/-- The configuration of global data with a project's file laid over it.  A fault of the merged
values is blamed on the project's file. -/
def loadOver (base : Toml.Value) (project : ConfigFile) : Except Failure Config := do
  let overlay ← project.data
  (decode .merged (Toml.merge base overlay)).mapError fun error =>
    .configInvalid project.path (.unfitMerged error)

/-- The configuration of a global file, if there is one, and of a project's file, if there is
one. -/
def load (globalFile projectFile : Option ConfigFile) : Except Failure Config :=
  match projectFile with
  | none => loadGlobal globalFile
  | some project => do
      let base ← globalData globalFile
      loadOver base project

end Config

end StageManifest
