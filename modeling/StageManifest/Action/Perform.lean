import StageManifest.Action.Settings
import StageManifest.Action.Targets

/-!
# Performing invocations

An invocation is performed on a host: the configuration is loaded, the
directories that engines need are made, and the action is done.  A whole run of
the program reads its arguments first and ends with an exit code.
-/

set_option autoImplicit false

namespace StageManifest

/-- Whether an action needs an engine. -/
def Action.needsEngine : Action → Bool
  | .build _ _ _ | .run _ | .save _ _ _ => true
  | _ => false

namespace Host

variable {m : Type → Type} [Monad m]

/-- Makes the directories of what the program keeps between runs. -/
def makeStateDirectories (host : Host m) : ExceptT Failure m Unit := do
  let home ← host.homeDirectory
  for directory in [stateDirectory home, buildsDirectory home] do
    if !(← host.makeDirectories directory) then
      throw (.fileAccess ("creating directory " ++ directory.display))

/-- Does an action. -/
def act (host : Host m) (config : Config) (globalPath : HostPath) :
    Action → ExceptT Failure m Unit
  | .list file form => host.listTargets config file form
  | .preview choice => host.previewTarget config choice
  | .build choice tag push => host.buildTarget config choice tag push
  | .run choice => host.runTarget config choice
  | .save choice path directory => host.saveTarget config choice path directory
  | .cacheId target directory => do
      let workingDirectory ← host.workingDirectory
      host.print (cacheId (directory.getD workingDirectory) target)
  | .settings action => host.manageSettings globalPath config action

/-- Performs an invocation. -/
def perform (host : Host m) (invocation : Invocation) : ExceptT Failure m Unit := do
  let globalPath := invocation.configFile.getD (globalFilePath (← host.homeDirectory))
  let projectPath ←
    if invocation.skipsProject then pure none
    else host.projectFile? (← host.workingDirectory)
  let config ← host.loadConfig globalPath projectPath
  let host := host.withVerbosity invocation.verbosity
  if let some path := projectPath then
    host.note .detail ("Found local config: " ++ path.display)
  if invocation.action.needsEngine then host.makeStateDirectories
  host.act config globalPath invocation.action

/-! ## Whole runs -/

/-- Tells why the program did not succeed. -/
def reportFailure (host : Host m) (failure : Failure) : m Unit := do
  host.report ("Error: " ++ failure.message)
  match failure.hint with
  | some hint => host.report ("Hint: " ++ hint)
  | none => return ()

/-- Shows what was asked about the program itself, or how it is used. -/
def reportHalt (host : Host m) (halt : CommandLine.Halt) : m Unit :=
  match halt with
  | .version command => host.print (command ++ " " ++ Invocation.programVersion)
  | .help => host.print Invocation.usage
  | _ => host.report Invocation.usage

/-- Runs the program and answers its exit code. -/
def runProgram (host : Host m) (environment : CommandLine.Environment) (arguments : List String) :
    m Nat := do
  match Invocation.read environment arguments with
  | .error halt => do
      host.reportHalt halt
      return halt.exitCode
  | .ok invocation =>
      match ← (host.perform invocation).run with
      | .ok () => return 0
      | .error failure => do
          host.reportFailure failure
          return 1

end Host

end StageManifest
