import StageManifest.Engine.Operations
import StageManifest.Engine.Output
import StageManifest.Engine.Streams
import StageManifest.Host.Basic
import StageManifest.Host.Path
import StageManifest.Text.Quoted

/-!
# Engines that are programs

An engine is a program of the host.  For a build the manifest is written into a
directory of its own, which is removed again whatever the program does.  Every
line that the program writes is told as it comes, and the last of them make the
message if the program fails.
-/

set_option autoImplicit false

namespace StageManifest

/-- The names from the user's directory to what the program keeps between runs. -/
def stateNames : List String := [".local", "state", "stagecraft"]

/-- The directory of what the program keeps between runs. -/
def stateDirectory (home : HostPath) : HostPath := home.below stateNames

/-- The directory that holds the manifests of running builds. -/
def buildsDirectory (home : HostPath) : HostPath := (stateDirectory home).below ["builds"]

/-- The variables that every run of an engine gets. -/
def engineVariables : List (String × String) := [("DOCKER_SCAN_SUGGEST", "false")]

/-- The name of the program that pushes images, whichever engine builds them. -/
def pushProgram : String := "docker"

namespace Host

variable {m : Type → Type} [Monad m]

/-- Whether the program of an engine is there and answers. -/
def hasEngine (host : Host m) (kind : EngineKind) : m Bool := do
  match ← host.run ⟨kind.program, ["--version"], []⟩ with
  | .ok result => return result.succeeded
  | .error _ => return false

/-- Runs a program for its output. -/
def spawn (host : Host m) (program : String) (arguments : List String) :
    m (Except Failure ProgramResult) := do
  host.note .detail ("Executing: " ++ program ++ " " ++ Text.quotedList arguments)
  match ← host.run ⟨program, arguments, engineVariables⟩ with
  | .error .missing => return .error (.engineNotFound program)
  | .error .unusable => return .error (.commandFailed program)
  | .ok result => return .ok result

/-- Runs a program and tells each line of its output.  If the program fails, the result is the end
of what it wrote. -/
def runTelling (host : Host m) (tell : String → m Unit) (program : String)
    (arguments : List String) : m (Except Failure (Option String)) := do
  match ← host.spawn program arguments with
  | .error failure => return .error failure
  | .ok result =>
      let lines ← result.readers.relay (tellRead tell) result.readiness []
      return .ok (if result.succeeded then none else some (collectedTail lines))

/-- Makes a directory with a manifest in it. -/
def stageManifest (host : Host m) (manifest : String) : m (Except Failure HostPath) := do
  let home ← host.homeDirectory
  let directory := (buildsDirectory home).below [← host.freshName]
  if !(← host.makeDirectories directory) then
    return .error (.fileAccess "creating build directory")
  else if !(← host.writeText (directory.below [manifestFile]) manifest) then
    return .error (.fileAccess "writing manifest")
  else return .ok directory

/-- Builds a manifest with an engine. -/
def build (host : Host m) (kind : EngineKind) (tell : String → m Unit) (manifest : String)
    (request : BuildRequest) : m (Except Failure Unit) := do
  match ← host.stageManifest manifest with
  | .error failure => return .error failure
  | .ok directory =>
      let located := { request with manifestPath := directory.below [manifestFile] }
      host.note .information ("Building " ++ located.label ++ " with " ++ kind.display)
      let result ← host.runTelling tell kind.program (located.arguments kind)
      host.removeDirectory directory
      match result with
      | .error failure => return .error failure
      | .ok none => return .ok ()
      | .ok (some output) => return .error (.buildFailed located.label output)

/-- Pushes an image. -/
def push (host : Host m) (tell : String → m Unit) (tag : String) : m (Except Failure Unit) := do
  host.note .information ("Pushing " ++ tag)
  match ← host.runTelling tell pushProgram ["push", tag] with
  | .error failure => return .error failure
  | .ok none => return .ok ()
  | .ok (some reason) => return .error (.pushFailed tag reason)

/-- The program of an engine as an engine. -/
def engine (host : Host m) (kind : EngineKind) (tell : String → m Unit) : Engine m where
  build := host.build kind tell
  push := host.push tell

end Host

end StageManifest
