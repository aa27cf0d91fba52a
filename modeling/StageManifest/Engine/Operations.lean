import StageManifest.Config.Basic
import StageManifest.Engine.Request
import StageManifest.Failure
import StageManifest.Graph.Manifest

/-!
# Operations on targets

Building, pushing, running and saving a target each come down to one call of the
engine.  The call is determined before the engine is asked for anything, so a
graph without a manifest never reaches the engine; `perform` then makes the one
call.
-/

set_option autoImplicit false

namespace StageManifest

/-- The tag that names an image by its manifest. -/
def contentTag (tagPrefix manifest : String) : String :=
  tagPrefix ++ "/" ++ Digest.textDigest manifest

/-- What stays the same between the operations on one build file. -/
structure BuildSettings where
  context : HostPath
  frontend : String := Manifest.defaultFrontend
  /-- What the tags of images without a tag of their own begin with. -/
  tagPrefix : String := "stagecraft"

/-- What is asked of the engine. -/
inductive EngineCall where
  | build (manifest : String) (request : BuildRequest)
  | push (tag : String)
deriving DecidableEq

namespace BuildSettings

/-- The settings with what the configuration says about builds. -/
def withConfig (settings : BuildSettings) (build : BuildConfig) : BuildSettings :=
  { settings with frontend := build.frontend, tagPrefix := build.tagPrefix }

/-- The manifest of a stage. -/
def manifest (settings : BuildSettings) (stage : Stage) : Except GraphError String :=
  Manifest.solve settings.frontend stage

/-- The tag of a stage's image: its own, or the one its manifest gives it. -/
def imageTag (settings : BuildSettings) (stage : Stage) (manifest : String) : String :=
  stage.tag.getD (contentTag settings.tagPrefix manifest)

/-- The call that builds a stage, and the tag of the image. -/
def buildCall (settings : BuildSettings) (stage : Stage) (push : Bool) :
    Except GraphError (EngineCall × String) := do
  let manifest ← settings.manifest stage
  let tag := settings.imageTag stage manifest
  return (.build manifest { context := settings.context, tag := some tag, push := push }, tag)

/-- The call that pushes the image of a stage, and the tag of the image. -/
def pushCall (settings : BuildSettings) (stage : Stage) :
    Except GraphError (EngineCall × String) := do
  let manifest ← settings.manifest stage
  let tag := settings.imageTag stage manifest
  return (.push tag, tag)

/-- The call that builds a stage for what its commands do, without keeping an image. -/
def runCall (settings : BuildSettings) (stage : Stage) :
    Except GraphError (EngineCall × Unit) := do
  let manifest ← settings.manifest stage
  return (.build manifest { context := settings.context, quiet := true }, ())

/-- The call that writes the files of a stage into a directory. -/
def saveCall (settings : BuildSettings) (exported : Stage) (directory : HostPath) :
    Except GraphError (EngineCall × Unit) := do
  let manifest ← settings.manifest exported
  return (.build manifest
    { context := settings.context, quiet := true, output := some directory }, ())

end BuildSettings

/-- The stage that holds nothing but an artifact. -/
def exportStage (artifact : Artifact) : Assembly Stage := do
  let stage ← Stage.fromImage "scratch"
  stage.copyArtifact artifact "./" none

/-- An engine, in the effects of a monad. -/
structure Engine (m : Type → Type) where
  build : String → BuildRequest → m (Except Failure Unit)
  push : String → m (Except Failure Unit)

/-- Makes a call. -/
def Engine.call {m : Type → Type} (engine : Engine m) : EngineCall → m (Except Failure Unit)
  | .build manifest request => engine.build manifest request
  | .push tag => engine.push tag

/-- Makes the call of an operation, if it has one, and answers what the operation answers. -/
def Engine.perform {m : Type → Type} [Monad m] {α : Type} (engine : Engine m)
    (operation : Except GraphError (EngineCall × α)) : m (Except Failure α) :=
  match operation with
  | .error error => return .error (.graph error)
  | .ok (call, answer) => do
      match ← engine.call call with
      | .error failure => return .error failure
      | .ok () => return .ok answer

end StageManifest
