import StageManifest.Host.Basic
import StageManifest.Host.Path
import StageManifest.Plan.Resolve

/-!
# Loading build files

A build file is read from the host.  The directory it belongs to is the one its
path names; a path without a directory belongs to the working directory.
-/

set_option autoImplicit false

namespace StageManifest

/-- The directory that a build file belongs to. -/
def projectDirectory (workingDirectory path : HostPath) : HostPath :=
  match path.parent? with
  | some directory => if directory.bytes.isEmpty then workingDirectory else directory
  | none => workingDirectory

/-- A plan and the workbench on which its stages were made. -/
structure LoadedPlan where
  plan : Plan
  bench : Workbench

namespace Host

variable {m : Type → Type} [Monad m]

/-- The plan of a build file. -/
def loadPlan (host : Host m) (path : HostPath) (stableCacheIds : Bool) :
    ExceptT Failure m LoadedPlan := do
  if !(← host.hasEntry path) then throw (.planNotFound path)
  match ← host.readText path with
  | none => throw (.fileAccess ("reading build file " ++ path.display))
  | some text =>
      let directory := projectDirectory (← host.workingDirectory) path
      let (result, reached) := Plan.load .standard text path directory stableCacheIds
      for (key, name) in reached.begun do
        host.note .detail ("Resolving stage " ++ key ++ " as " ++ name)
      let plan ← ExceptT.mk (pure result)
      host.note .detail
        ("Loaded " ++ Nat.repr plan.stages.size ++ " stages from " ++ path.display)
      return ⟨plan, reached.bench⟩

end Host

end StageManifest
