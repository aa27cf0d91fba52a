import StageManifest.CommandLine.Invocation
import StageManifest.Config.Files
import StageManifest.Progress

/-!
# Actions on the configuration

The configuration is shown, its file is created with the defaults, and single
settings are changed.
-/

set_option autoImplicit false

namespace StageManifest.Host

variable {m : Type → Type} [Monad m]

/-- Writes a file with the defaults, over an existing one only if that is asked for. -/
def createConfig (host : Host m) (path : HostPath) (overwrite : Bool) :
    ExceptT Failure m Unit := do
  if (← host.hasEntry path) && !overwrite then
    host.print (warningNote ("Config already exists at " ++ path.display)
      "Use --force to overwrite")
  else do
    host.saveConfig path {}
    host.print (detailedNote "Configuration initialized" path.display)

/-- Changes one setting and says so. -/
def changeSetting (host : Host m) (globalPath : HostPath) (config : Config) (key value : String)
    (inProject : Bool) : ExceptT Failure m Unit := do
  let change := "Set " ++ key ++ " = " ++ value
  if inProject then
    let path := (← host.workingDirectory).below [projectFileName]
    host.changeProjectSetting path key value
    host.print (successNote (change ++ " in " ++ path.display))
  else
    host.changeGlobalSetting globalPath config key value
    host.print (successNote change)

/-- Does what is asked with the configuration. -/
def manageSettings (host : Host m) (globalPath : HostPath) (config : Config) :
    Option SettingsAction → ExceptT Failure m Unit
  | none => host.print config.text
  | some .display => host.print config.text
  | some .location => host.print globalPath.display
  | some (.create overwrite) => host.createConfig globalPath overwrite
  | some (.change key value inProject) =>
      host.changeSetting globalPath config key value inProject

end StageManifest.Host
