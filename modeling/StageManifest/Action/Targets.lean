import StageManifest.Action.Listing
import StageManifest.Config.Basic
import StageManifest.Engine.Program
import StageManifest.Plan.Load

/-!
# Actions on targets

What is done with the targets of a build file: they are listed, their manifests
are shown, and they are built, run and saved by the configured engine.  To show a
manifest only the configured frontend is needed; a build has settings of its own,
which the configuration changes.  Building, running and saving are defined for any way to
get an engine of a kind; the host gets the one that runs a program.
-/

set_option autoImplicit false

namespace StageManifest

/-- The settings for builds of a plan: those of its directory, under the configuration. -/
def BuildSettings.of (config : Config) (plan : Plan) : BuildSettings :=
  withConfig { context := plan.projectDirectory } config.build

namespace Host

variable {m : Type → Type} [Monad m]

/-- The plan of a build file, or of the configured one. -/
def openPlan (host : Host m) (config : Config) (file : Option HostPath) :
    ExceptT Failure m LoadedPlan := do
  let path := file.getD (.ofText config.build.defaultFile)
  host.note .detail ("Loading build file " ++ path.display)
  host.loadPlan path config.build.stableCacheIds

/-- The configured engine, if its program answers. -/
def openEngine (host : Host m) (config : Config) : ExceptT Failure m EngineKind := do
  let kind ← ExceptT.mk (pure config.engine.kind)
  if !(← host.hasEngine kind) then throw (.engineNotFound kind.display)
  host.note .detail ("Using engine: " ++ kind.display)
  return kind

/-- Tells which stages a manifest is made of. -/
def noteGraph (host : Host m) (root : Stage) : m Unit := do
  match StageGraph.discover root with
  | .error _ => return ()
  | .ok graph =>
      host.note .detail ("Discovered " ++ Nat.repr graph.stages.length ++
        " stage(s) reachable from " ++ root.name)
      match graph.ordered with
      | .error _ => return ()
      | .ok stages =>
          host.note .detail ("Stage order: " ++ ", ".intercalate (stages.map (·.name)))

/-! ## Without an engine -/

/-- Lists the targets of a build file. -/
def listTargets (host : Host m) (config : Config) (file : Option HostPath) (form : ListingForm) :
    ExceptT Failure m Unit := do
  let loaded ← host.openPlan config file
  (Listing.lines form loaded.plan.path loaded.plan.listing).forM fun line => host.print line

/-- Shows the manifest of a target. -/
def previewTarget (host : Host m) (config : Config) (choice : TargetChoice) :
    ExceptT Failure m Unit := do
  let loaded ← host.openPlan config choice.file
  let stage ← ExceptT.mk (pure (loaded.plan.stage choice.target))
  host.noteGraph stage
  let manifest ← ExceptT.mk (pure
    ((Manifest.solve config.build.frontend stage).mapError Failure.graph))
  host.print manifest

/-! ## With an engine -/

/-- Shows a line of an engine if it announces a step. -/
def showStep (host : Host m) (line : String) : m Unit :=
  match shownLine? line with
  | some shown => host.print shown
  | none => return ()

/-- What is said once a target was built. -/
def builtMessage (push : Bool) : String := if push then "Built and pushed" else "Built"

/-- The stage under another tag, if there is one. -/
def retagged (stage : Stage) : Option String → Stage
  | some tag => stage.withTag tag
  | none => stage

/-- Builds a target with the engine of a kind. -/
def buildTargetWith (host : Host m) (engines : EngineKind → (String → m Unit) → Engine m)
    (config : Config) (choice : TargetChoice) (tag : Option String) (push : Bool) :
    ExceptT Failure m Unit := do
  let loaded ← host.openPlan config choice.file
  let found ← ExceptT.mk (pure (loaded.plan.stage choice.target))
  let stage := retagged found tag
  let kind ← host.openEngine config
  host.print (buildingLine choice.target)
  host.noteGraph stage
  let operation := (BuildSettings.of config loaded.plan).buildCall stage push
  if let .ok (_, used) := operation then
    host.note .detail ("Build tag for " ++ stage.name ++ ": " ++ used)
  let used ← ExceptT.mk ((engines kind host.showStep).perform operation)
  host.note .information ("Built " ++ used)
  host.print (detailedNote (builtMessage push) used)

/-- Builds a target. -/
def buildTarget (host : Host m) (config : Config) (choice : TargetChoice) (tag : Option String)
    (push : Bool) : ExceptT Failure m Unit :=
  host.buildTargetWith host.engine config choice tag push

/-- Does a task with lines for its start and its end. -/
def withTask (host : Host m) (label done : String) (task : m (Except Failure Unit)) :
    ExceptT Failure m Unit := do
  host.print (startedLine label)
  match ← ExceptT.lift task with
  | .ok () => host.print (finishedLine done)
  | .error failure => do
      host.print (failedLine label)
      throw failure

/-- The name of a run in messages. -/
def runLabel (stage : Stage) : String :=
  match stage.taskName with
  | some task => "Run: " ++ task
  | none => "Run task"

/-- Builds a target for what its commands do, with the engine of a kind. -/
def runTargetWith (host : Host m) (engines : EngineKind → (String → m Unit) → Engine m)
    (config : Config) (choice : TargetChoice) : ExceptT Failure m Unit := do
  let loaded ← host.openPlan config choice.file
  let stage ← ExceptT.mk (pure (loaded.plan.stage choice.target))
  let kind ← host.openEngine config
  host.withTask (runLabel stage) (runLabel stage) do
    host.noteGraph stage
    (engines kind (host.note .detail)).perform
      ((BuildSettings.of config loaded.plan).runCall stage)

/-- Builds a target for what its commands do. -/
def runTarget (host : Host m) (config : Config) (choice : TargetChoice) :
    ExceptT Failure m Unit :=
  host.runTargetWith host.engine config choice

/-- Writes a path of a target into a directory, with the engine of a kind. -/
def saveTargetWith (host : Host m) (engines : EngineKind → (String → m Unit) → Engine m)
    (config : Config) (choice : TargetChoice) (path : String) (directory : HostPath) :
    ExceptT Failure m Unit := do
  let loaded ← host.openPlan config choice.file
  let stage ← ExceptT.mk (pure (loaded.plan.stage choice.target))
  let kind ← host.openEngine config
  let exported := ((exportStage (stage.saveArtifact path)).run loaded.bench).1
  host.withTask ("Save: " ++ path) ("Saved " ++ path ++ " to " ++ directory.display) do
    host.noteGraph exported
    (engines kind (host.note .detail)).perform
      ((BuildSettings.of config loaded.plan).saveCall exported directory)

/-- Writes a path of a target into a directory. -/
def saveTarget (host : Host m) (config : Config) (choice : TargetChoice) (path : String)
    (directory : HostPath) : ExceptT Failure m Unit :=
  host.saveTargetWith host.engine config choice path directory

end Host

end StageManifest
