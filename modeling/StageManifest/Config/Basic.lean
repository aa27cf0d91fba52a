import StageManifest.Engine.Request
import StageManifest.Failure
import StageManifest.Graph.Manifest
import StageManifest.Toml.Printer

/-!
# Configuration

The settings of the program in their three sections, their defaults, and their
text.  A configuration also says which engine builds; the remote engine needs a
project.
-/

set_option autoImplicit false

namespace StageManifest

/-- Which engine builds. -/
inductive EngineChoice where
  | docker
  | depot
deriving DecidableEq, Repr

/-- The word for an engine in a configuration. -/
def EngineChoice.keyword : EngineChoice → String
  | .docker => "docker"
  | .depot => "depot"

/-- General settings. -/
structure GeneralConfig where
  logFormat : String := "text"
deriving DecidableEq, Repr

/-- Settings of builds. -/
structure BuildConfig where
  frontend : String := Manifest.defaultFrontend
  tagPrefix : String := "stagecraft"
  defaultFile : String := "build.toml"
  stableCacheIds : Bool := false
deriving DecidableEq, Repr

/-- Settings of the engine. -/
structure EngineConfig where
  choice : EngineChoice := .docker
  project : Option String := none
deriving DecidableEq, Repr

/-- All settings. -/
structure Config where
  general : GeneralConfig := {}
  build : BuildConfig := {}
  engine : EngineConfig := {}
deriving DecidableEq, Repr

namespace EngineConfig

/-- The engine to use, unless a remote one is chosen without a project. -/
def kind? (config : EngineConfig) : Option EngineKind :=
  match config.choice with
  | .docker => some .docker
  | .depot => config.project.map .depot

/-- The engine to use. -/
def kind (config : EngineConfig) : Except Failure EngineKind :=
  match config.kind? with
  | some kind => .ok kind
  | none => .error .projectMissing

end EngineConfig

namespace Config

/-- The entries of the document that holds a configuration. -/
def entries (config : Config) : List (String × Toml.Value) :=
  [("general", .table [("log_format", .string config.general.logFormat)]),
    ("build", .table
      [("syntax", .string config.build.frontend),
        ("tag_prefix", .string config.build.tagPrefix),
        ("default_file", .string config.build.defaultFile),
        ("stable_cache_ids", .boolean config.build.stableCacheIds)]),
    ("engine", .table
      (("kind", .string config.engine.choice.keyword) ::
        (config.engine.project.map fun project => ("project", .string project)).toList))]

/-- The text of a configuration file. -/
def text (config : Config) : String :=
  Toml.documentText .spacious config.entries

end Config

end StageManifest
