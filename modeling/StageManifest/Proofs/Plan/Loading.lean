import StageManifest.Plan.Load
import StageManifest.Proofs.Host.Telling
import StageManifest.Proofs.Plan.Closure
import StageManifest.Proofs.Plan.Keys

/-!
# Loading a plan on a machine

Loading a build file only reads, apart from the notes it tells: it answers the plan
of the text that the machine holds at the path (`Machine.planAt`), whatever notes
are asked for (`Machine.tells_loadPlan`).  The stages of such a plan were assembled
on one workbench (`Machine.assembled_of_planAt`).
-/

set_option autoImplicit false

namespace StageManifest.Machine

open Host (withVerbosity)

variable {machine : Machine} {path : HostPath} {stableCacheIds : Bool} {loaded : LoadedPlan}

/-- The plan of a text, and the workbench that its stages leave. -/
def planOf (machine : Machine) (path : HostPath) (stableCacheIds : Bool) (text : String) :
    Except Failure LoadedPlan := do
  let (result, reached) := Plan.load .standard text path
    (projectDirectory machine.here.path path) stableCacheIds
  let plan ← result
  return ⟨plan, reached.bench⟩

/-- The plan that a machine holds at a path. -/
def planAt (machine : Machine) (path : HostPath) (stableCacheIds : Bool) :
    Except Failure LoadedPlan :=
  if (!(machine.files.find? machine.here path).isSome) = true then .error (.planNotFound path)
  else
    match (machine.content? path).bind Text.decode? with
    | none => .error (.fileAccess ("reading build file " ++ path.display))
    | some text => machine.planOf path stableCacheIds text

/-- **Loading answers the plan that the machine holds.** -/
theorem tells_loadPlan (machine : Machine) (verbosity : Nat) (path : HostPath)
    (stableCacheIds : Bool) :
    Tells ((host.withVerbosity verbosity).loadPlan path stableCacheIds) machine
      (machine.planAt path stableCacheIds) := by
  unfold Host.loadPlan
  have asked : Tells (liftM ((host.withVerbosity verbosity).hasEntry path)) machine
      (.ok (machine.files.find? machine.here path).isSome) := by
    refine tells_lift_read fun before => ?_
    change (((machine.files.find? machine.here path).map _).isSome, _) = _
    rw [Option.isSome_map]
    rfl
  refine asked.bind_ok (tells_guard ?_)
  have read : Tells (liftM ((host.withVerbosity verbosity).readText path)) machine
      (.ok ((machine.content? path).bind Text.decode?)) := tells_lift_read fun _ => rfl
  refine read.bind_ok ?_
  cases (machine.content? path).bind Text.decode? with
  | none => exact tells_throw _
  | some text =>
      have works : Tells (liftM (host.withVerbosity verbosity).workingDirectory) machine
          (.ok machine.here.path) := tells_lift_read fun _ => rfl
      refine works.bind_ok ?_
      dsimp only
      refine (tells_forIn fun entry => ?_).bind_ok ?_
      · exact (tells_note verbosity _ _).bind_ok (tells_pure _)
      refine (tells_mk_pure _).bind fun plan _ => ?_
      exact (tells_note verbosity _ _).bind_ok (tells_pure _)

/-- A plan that a machine holds is that of a text it can read, and its stages leave the bench. -/
theorem exists_load_of_planAt (holds : machine.planAt path stableCacheIds = .ok loaded) :
    ∃ text reached, (machine.content? path).bind Text.decode? = some text ∧
      Plan.load .standard text path (projectDirectory machine.here.path path) stableCacheIds =
        (.ok loaded.plan, reached) ∧
      loaded.bench = reached.bench := by
  unfold planAt at holds
  split at holds
  · cases holds
  split at holds
  · cases holds
  next text isText =>
    unfold planOf at holds
    cases planned : Plan.load .standard text path (projectDirectory machine.here.path path)
      stableCacheIds with
    | mk answer reached =>
      rw [planned] at holds
      cases answer with
      | error failure => cases holds
      | ok plan =>
          cases holds
          exact ⟨text, reached, isText, planned, rfl⟩

/-- The stages of a plan that a machine holds were assembled. -/
theorem assembled_of_planAt (holds : machine.planAt path stableCacheIds = .ok loaded)
    {target : String} {stage : Stage} (found : loaded.plan.stage target = .ok stage) :
    stage.Assembled := by
  obtain ⟨text, _, _, planned, _⟩ := exists_load_of_planAt holds
  obtain ⟨_, file, _, _, parsed⟩ := Plan.exists_parsed (congrArg Prod.fst planned)
  have complete := (Plan.ends_parse parsed .standard path
    (projectDirectory machine.here.path path) stableCacheIds).of_ok planned
  exact complete.assembled (Plan.stage_eq_ok_iff.mp found)

/-- A machine holds a plan if it can read a build file whose definitions can be resolved, and each
target of it has a manifest, if no name is drawn twice. -/
theorem exists_planAt_of_resolvable {text : String} {file : PlanFile}
    (read : (machine.content? path).bind Text.decode? = some text)
    (parsed : PlanFile.parse text = .ok file) (resolvable : Resolvable file.stages)
    (unique : (NameSource.standard.firstNames file.stages.size).Nodup) (stableCacheIds : Bool) :
    ∃ loaded, machine.planAt path stableCacheIds = .ok loaded ∧
      ∀ key ∈ file.stages.keys, ∃ stage, loaded.plan.stage key = .ok stage ∧
        ∀ frontend, ∃ manifest, Manifest.solve frontend stage = .ok manifest := by
  obtain ⟨plan, reached, planned⟩ := Plan.exists_load_of_resolvable parsed resolvable .standard path
    (projectDirectory machine.here.path path) stableCacheIds
  have complete := (Plan.ends_parse parsed .standard path
    (projectDirectory machine.here.path path) stableCacheIds).of_ok planned
  obtain ⟨location, located, isFile⟩ := readText_eq_some_iff.mp read
  have isThere : (machine.files.find? machine.here path).isSome = true := by
    rw [FileTree.find?, located, Option.bind_some, isFile]
    rfl
  refine ⟨⟨plan, reached.bench⟩, ?_, fun key isKey => ?_⟩
  · rw [planAt, isThere, read]
    simp only [Bool.not_true, Bool.false_eq_true, if_false, planOf, planned]
    rfl
  · obtain ⟨stage, found⟩ := complete.all key isKey
    obtain ⟨blocks, _, solved⟩ := complete.exists_manifest unique found
    exact ⟨stage, Plan.stage_eq_ok_iff.mpr found, fun frontend => ⟨_, solved frontend⟩⟩

end StageManifest.Machine
