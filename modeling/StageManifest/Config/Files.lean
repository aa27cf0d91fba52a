import StageManifest.Config.Edit
import StageManifest.Host.Basic
import StageManifest.Host.Path

/-!
# Files of the configuration

The global file lies below the user's directory unless the command line names
another one.  The file of a project is the nearest one above the working
directory.
-/

set_option autoImplicit false

namespace StageManifest

/-- The name of the file that a project may have. -/
def projectFileName : String := "stagecraft.toml"

/-- Where the global file usually is. -/
def globalFilePath (home : HostPath) : HostPath :=
  home.below [".config", "stagecraft", "config.toml"]

namespace Host

variable {m : Type → Type} [Monad m]

/-- The first file among some paths. -/
def firstFile? (host : Host m) : List HostPath → m (Option HostPath)
  | [] => return none
  | path :: rest => do
      if ← host.isFile path then return some path else host.firstFile? rest

/-- The file of the project that a directory belongs to. -/
def projectFile? (host : Host m) (directory : HostPath) : m (Option HostPath) :=
  host.firstFile? (directory.ancestors.map fun above => above.below [projectFileName])

/-- A file of the configuration, which must be there. -/
def readConfigFile (host : Host m) (path : HostPath) : ExceptT Failure m ConfigFile := do
  match ← host.readText path with
  | some text => return ⟨path, text⟩
  | none => throw (.fileAccess ("reading config from " ++ path.display))

/-- A file of the configuration, if it is there. -/
def readConfigFile? (host : Host m) (path : HostPath) : ExceptT Failure m (Option ConfigFile) := do
  if ← host.hasEntry path then return some (← host.readConfigFile path) else return none

/-- The configuration of a global file and of a project's file, if there is one.  A fault of the
global file is found before the project's file is read. -/
def loadConfig (host : Host m) (globalPath : HostPath) (projectPath : Option HostPath) :
    ExceptT Failure m Config := do
  let globalFile ← host.readConfigFile? globalPath
  match projectPath with
  | none => ExceptT.mk (pure (Config.loadGlobal globalFile))
  | some path => do
      let base ← ExceptT.mk (pure (Config.globalData globalFile))
      let project ← host.readConfigFile path
      ExceptT.mk (pure (Config.loadOver base project))

/-- Writes a configuration, making the directory of its file if need be. -/
def saveConfig (host : Host m) (path : HostPath) (config : Config) : ExceptT Failure m Unit := do
  if let some directory := path.parent? then
    if !(← host.makeDirectories directory) then
      throw (.configDirectory directory "it cannot be made")
  if !(← host.writeText path config.text) then
    throw (.fileAccess ("writing config to " ++ path.display))
  host.note .information ("Configuration saved to " ++ path.display)

/-- The document in the file of a project, which is empty if there is no such file. -/
def projectDocument (host : Host m) (path : HostPath) : ExceptT Failure m Toml.Value := do
  if ← host.hasEntry path then
    match ← host.readText path with
    | some text => ExceptT.mk (pure (ConfigFile.data ⟨path, text⟩))
    | none => throw (.fileAccess ("reading " ++ path.display))
  else return .emptyTable

/-- Changes one setting in a file that holds the whole configuration. -/
def changeGlobalSetting (host : Host m) (path : HostPath) (config : Config) (key value : String) :
    ExceptT Failure m Unit := do
  let changed ← ExceptT.mk (pure ((config.set key value).mapError .setting))
  host.saveConfig path changed

/-- Changes one setting in the file of a project and keeps the rest of that file. -/
def changeProjectSetting (host : Host m) (path : HostPath) (key value : String) :
    ExceptT Failure m Unit := do
  let _ ← ExceptT.mk (pure (((({} : Config)).set key value).mapError Failure.setting))
  let document ← host.projectDocument path
  let (changed, result) := setInDocument document key value
  ExceptT.mk (pure (result.mapError .setting))
  if !(← host.writeText path (changed.text .spacious)) then
    throw (.fileAccess ("writing " ++ path.display))

end Host

end StageManifest
