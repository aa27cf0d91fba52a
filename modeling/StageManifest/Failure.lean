import StageManifest.Graph.Discovery
import StageManifest.HostPath
import StageManifest.Toml.Mismatch

/-!
# Failures

Everything that can go wrong, by its cause, with the message that is shown and
the hint that some failures come with.
-/

set_option autoImplicit false

namespace StageManifest

/-- The keys of the configuration as the user writes them. -/
def configKeyNames : List String :=
  ["general.log_format", "build.syntax", "build.tag_prefix", "build.default_file",
    "build.stable_cache_ids", "engine.kind", "engine.project"]

/-- Why a setting is refused. -/
inductive SettingError where
  | unknownKey (key : String)
  | invalidBoolean (value : String)
  | invalidLogFormat (value : String)
  | invalidEngine (value : String)
  | noTable
  | sectionNotATable (name : String)
deriving DecidableEq, Repr

/-- The message about a refused setting. -/
def SettingError.message : SettingError → String
  | .unknownKey key =>
      "Unknown config key: " ++ key ++ ". Valid keys: " ++ ", ".intercalate configKeyNames
  | .invalidBoolean value => "Invalid boolean value: " ++ value ++ ". Use true/false"
  | .invalidLogFormat value => "Invalid log format: " ++ value ++ ". Use text/json"
  | .invalidEngine value => "Invalid engine: " ++ value ++ ". Use docker/depot"
  | .noTable => "Expected a table at the top level"
  | .sectionNotATable name => "Expected table for key: " ++ name

/-- The message about a graph without a manifest. -/
def GraphError.message : GraphError → String
  | .cycle stage => "Dependency cycle detected at stage " ++ stage
  | .nameCollision name =>
      "Stage name " ++ name ++ " is assigned to two different stage definitions"
  | .missingNode node => "No stage at position " ++ Nat.repr node

/-- Why the definition of a stage cannot be used. -/
inductive PlanDefect where
  | baseNotUnique (key : String)
  | emptyShell (key : String)
  | unknownMountKey (key field : String)
deriving DecidableEq, Repr

/-- The message about a definition that cannot be used. -/
def PlanDefect.message : PlanDefect → String
  | .baseNotUnique key =>
      "stage `" ++ key ++ "` must set exactly one of `from` or `from_stage`"
  | .emptyShell key => "stage `" ++ key ++ "` has an empty shell"
  | .unknownMountKey key field =>
      "stage `" ++ key ++ "`: unknown cache mount key `" ++ field ++ "`"

/-- What went wrong. -/
inductive Failure where
  | graph (error : GraphError)
  | planNotFound (path : HostPath)
  | planInvalid (path : HostPath) (fault : Toml.DocumentFault)
  | planDefect (path : HostPath) (defect : PlanDefect)
  | unknownStage (name referencedBy : String)
  | circularStage (key : String)
  | targetNotFound (target : String) (file : HostPath)
  | configInvalid (path : HostPath) (fault : Toml.DocumentFault)
  | configDirectory (path : HostPath) (cause : String)
  | setting (error : SettingError)
  | projectMissing
  | engineNotFound (name : String)
  | buildFailed (target output : String)
  | pushFailed (tag reason : String)
  | fileAccess (context : String)
  | commandFailed (command : String)
  | other (text : String)
deriving DecidableEq

namespace Failure

/-- The message of a failure. -/
def message : Failure → String
  | .graph error => error.message
  | .planNotFound path => "Build file not found: " ++ path.display
  | .planInvalid path fault => "Invalid build file " ++ path.display ++ ": " ++ fault.message
  | .planDefect path defect =>
      "Invalid build file " ++ path.display ++ ": " ++ defect.message
  | .unknownStage name referencedBy =>
      "Unknown stage `" ++ name ++ "` referenced by `" ++ referencedBy ++ "`"
  | .circularStage key => "Stage `" ++ key ++ "` refers to itself through its base or artifacts"
  | .targetNotFound target file => "Target `" ++ target ++ "` not found in " ++ file.display
  | .configInvalid path fault =>
      "Invalid configuration at " ++ path.display ++ ": " ++ fault.message
  | .configDirectory path cause =>
      "Failed to create config directory " ++ path.display ++ ": " ++ cause
  | .setting error => error.message
  | .projectMissing => "engine.kind = \"depot\" requires engine.project to be set"
  | .engineNotFound name => "Build engine not found: " ++ name
  | .buildFailed target output => "Build failed for " ++ target ++ ":\n" ++ output
  | .pushFailed tag reason => "Push failed for " ++ tag ++ ": " ++ reason
  | .fileAccess context => "IO error: " ++ context
  | .commandFailed command => "Command failed: " ++ command
  | .other text => text

/-- What the user can do about a failure. -/
def hint : Failure → Option String
  | .planNotFound _ => some "Pass the build file explicitly: stagecraft ls <FILE>"
  | .targetNotFound _ _ => some "Run: stagecraft ls to list the available targets"
  | .engineNotFound _ =>
      some "Install Docker with buildx, or set [engine] kind in stagecraft.toml"
  | .graph (.nameCollision _) =>
      some "Derive each stage from its own from_base call instead of reusing a prefix"
  | _ => none

end Failure

end StageManifest
