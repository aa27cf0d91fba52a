import StageManifest.CommandLine.Reading
import StageManifest.HostPath

/-!
# Invocations

The commands of the program and what they may be given.  An invocation is one
action together with the options that every command has.  Such an option may
stand before or after the name of a command; where it stands twice, the
innermost one counts.
-/

set_option autoImplicit false

namespace StageManifest

open CommandLine (Command Environment Given Halt OptionRule PositionalRule ValueKind)

/-- How targets are listed. -/
inductive ListingForm where
  | table
  | json
  | plain
deriving DecidableEq, Repr

/-- The words for the forms of a list. -/
def ListingForm.cases : List (String × ListingForm) :=
  [("table", .table), ("json", .json), ("plain", .plain)]

/-- A target of a build file. -/
structure TargetChoice where
  file : Option HostPath
  target : String
deriving DecidableEq, Repr

/-- What is done with the configuration. -/
inductive SettingsAction where
  | display
  | location
  | create (overwrite : Bool)
  /-- One setting is changed, in the file of the project or in the global one. -/
  | change (key value : String) (inProject : Bool)
deriving DecidableEq, Repr

/-- What the program is asked to do. -/
inductive Action where
  | list (file : Option HostPath) (form : ListingForm)
  | preview (choice : TargetChoice)
  /-- To build a target, with another tag or its own, and perhaps to push it. -/
  | build (choice : TargetChoice) (tag : Option String) (push : Bool)
  | run (choice : TargetChoice)
  | save (choice : TargetChoice) (path : String) (directory : HostPath)
  | cacheId (target : String) (directory : Option HostPath)
  | settings (action : Option SettingsAction)
deriving DecidableEq, Repr

/-- What the program is asked to do, and how. -/
structure Invocation where
  verbosity : Nat
  /-- The file of the configuration, if it is not the usual one. -/
  configFile : Option HostPath
  skipsProject : Bool
  action : Action
deriving DecidableEq, Repr

namespace Invocation

/-! ## Options -/

/-- The variable that names the file of the configuration. -/
def configVariable : String := "STAGECRAFT_CONFIG"

/-- The options that every command has. -/
def commonOptions : List OptionRule :=
  [⟨"verbose", some 'v', .count, none⟩,
    ⟨"config", some 'c', .value .path, some configVariable⟩,
    ⟨"no-local", none, .switch, none⟩,
    ⟨"help", some 'h', .help, none⟩,
    ⟨"version", some 'V', .version, none⟩]

/-- The target that is used if none is named. -/
def defaultTarget : String := "default"

/-- The option that names a target. -/
def targetOption : OptionRule := ⟨"target", some 't', .value .text, none⟩

/-- The argument that names a build file. -/
def fileArgument : PositionalRule := ⟨"file", .path⟩

/-- The path that was given under a name. -/
def givenPath? (given : Given) (name : String) : Option HostPath :=
  (given.value? name).map .ofText

/-- The target that was given. -/
def givenTarget (given : Given) : TargetChoice :=
  ⟨givenPath? given "file", (given.value? "target").getD defaultTarget⟩

/-! ## Commands -/

/-- The command that lists targets. -/
def listCommand : Command Action :=
  .mk "ls"
    (⟨"format", some 'f', .value (.word (ListingForm.cases.map (·.1))), none⟩ :: commonOptions)
    [fileArgument]
    (some fun given =>
      let form := (given.value? "format").bind fun word => ListingForm.cases.lookup word
      some (.list (givenPath? given "file") (form.getD .table)))
    []

/-- The command that shows a manifest. -/
def previewCommand : Command Action :=
  .mk "preview" (targetOption :: commonOptions) [fileArgument]
    (some fun given => some (.preview (givenTarget given)))
    []

/-- The command that builds. -/
def buildCommand : Command Action :=
  .mk "build"
    (targetOption :: ⟨"tag", none, .value .text, none⟩ :: ⟨"push", none, .switch, none⟩ ::
      commonOptions)
    [fileArgument]
    (some fun given =>
      some (.build (givenTarget given) (given.value? "tag") (given.has "push")))
    []

/-- The command that runs. -/
def runCommand : Command Action :=
  .mk "run" (targetOption :: commonOptions) [fileArgument]
    (some fun given => some (.run (givenTarget given)))
    []

/-- The command that saves. -/
def saveCommand : Command Action :=
  .mk "save"
    (targetOption :: ⟨"path", none, .value .text, none⟩ :: ⟨"dest", none, .value .path, none⟩ ::
      commonOptions)
    [fileArgument]
    (some fun given => do
      return .save (givenTarget given) (← given.value? "path") (← givenPath? given "dest"))
    []

/-- The command that shows the id of a cache. -/
def cacheIdCommand : Command Action :=
  .mk "cache-id" (⟨"dir", none, .value .path, none⟩ :: commonOptions) [⟨"target", .text⟩]
    (some fun given => do
      return .cacheId (← given.value? "target") (givenPath? given "dir"))
    []

/-- The commands below the one for the configuration. -/
def settingsCommands : List (Command Action) :=
  [.mk "show" commonOptions [] (some fun _ => some (.settings (some .display))) [],
    .mk "path" commonOptions [] (some fun _ => some (.settings (some .location))) [],
    .mk "init" (⟨"force", some 'f', .switch, none⟩ :: commonOptions) []
      (some fun given => some (.settings (some (.create (given.has "force")))))
      [],
    .mk "set" (⟨"local", none, .switch, none⟩ :: commonOptions)
      [⟨"key", .text⟩, ⟨"value", .text⟩]
      (some fun given => do
        return .settings (some (.change (← given.value? "key") (← given.value? "value")
          (given.has "local"))))
      []]

/-- The command for the configuration. -/
def settingsCommand : Command Action :=
  .mk "config" commonOptions [] (some fun _ => some (.settings none)) settingsCommands

/-- The name of the program. -/
def programName : String := "stagecraft"

/-- The version of the program. -/
def programVersion : String := "0.3.0"

/-- The program with its commands. -/
def program : Command Action :=
  .mk programName commonOptions [] none
    [listCommand, previewCommand, buildCommand, runCommand, saveCommand, cacheIdCommand,
      settingsCommand]

/-- How the program is used. -/
def usage : String :=
  "Usage: " ++ programName ++ " <" ++ "|".intercalate (program.commands.map Command.name) ++ ">"

/-! ## Reading -/

/-- The greatest verbosity that is told apart. -/
def verbosityLimit : Nat := 255

/-- The innermost command that was given something under a name. -/
def innermost? (levels : List Given) (name : String) : Option Given :=
  levels.reverse.find? fun given => given.has name

/-- The invocation that a command line without the name of the program asks for. -/
def read (environment : Environment) (arguments : List String) : Except Halt Invocation := do
  let (levels, action) ← program.read environment arguments
  let verbosity := ((innermost? levels "verbose").map fun given => given.count "verbose").getD 0
  let named := (innermost? levels "config").bind fun given => given.value? "config"
  let configFile := named.orElse fun _ => environment.lookup configVariable
  return ⟨min verbosity verbosityLimit, configFile.map .ofText,
    (innermost? levels "no-local").isSome, action⟩

end Invocation

end StageManifest
