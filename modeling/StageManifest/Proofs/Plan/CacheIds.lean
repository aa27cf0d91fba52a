import StageManifest.Action.Perform
import StageManifest.Proofs.Host.Directories
import StageManifest.Proofs.Host.Runs
import StageManifest.Proofs.Plan.CacheMounts
import StageManifest.Proofs.Plan.Closure
import StageManifest.Proofs.Plan.Keys
import StageManifest.Proofs.Text.Utf8

/-!
# Stable ids of a loaded plan

The stable ids of a plan that is loaded from a path belong to the directory that
the path names (`Machine.loadPlan_gives_stable_ids`).  That is where the build
file lies, and where the id of a target is shown without naming a directory,
exactly if the path is plain.  A relative path with a slash gives the same ids
wherever it is used.
-/

set_option autoImplicit false

namespace StageManifest

namespace Machine

variable {machine after : Machine} {path : HostPath} {stableCacheIds : Bool} {loaded : LoadedPlan}

/-- The path leads to a build file at a place. -/
structure HoldsPlan (machine : Machine) (path : HostPath) (location : Location)
    (file : PlanFile) : Prop where
  located : machine.files.locate? machine.here path = some location
  parsed : ∃ content text, machine.files.entry? location = some (.file content) ∧
    Text.decode? content = some text ∧ PlanFile.parse text = .ok file

/-- The machine with another working directory. -/
def workingIn (machine : Machine) (location : Location) : Machine :=
  { machine with here := location }

/-! ## Loading -/

/-- A plan that a machine loads is that of the text it reads. -/
theorem exists_text_of_loadPlan
    (loads : Yields (host.loadPlan path stableCacheIds) machine loaded after) :
    ∃ text, (machine.content? path).bind Text.decode? = some text ∧
      (Plan.load .standard text path (projectDirectory machine.here.path path) stableCacheIds).1 =
        .ok loaded.plan := by
  unfold Host.loadPlan at loads
  rw [yields_bind] at loads
  obtain ⟨found, middle, asked, loads⟩ := loads
  cases yields_lift.mp asked
  obtain ⟨_, loads⟩ := yields_guard.mp loads
  rw [yields_bind] at loads
  obtain ⟨read, middle, asked, loads⟩ := loads
  cases yields_lift.mp asked
  split at loads
  · exact (not_yields_throw loads).elim
  next text isText =>
    rw [yields_bind] at loads
    obtain ⟨directory, middle, asked, loads⟩ := loads
    cases yields_lift.mp asked
    dsimp only at loads
    generalize isResult : Plan.load .standard text path (projectDirectory machine.here.path path)
      stableCacheIds = result at loads
    obtain ⟨result, reached⟩ := result
    dsimp only at loads
    rw [yields_bind] at loads
    obtain ⟨_, _, _, loads⟩ := loads
    rw [yields_bind] at loads
    obtain ⟨plan, _, isPlan, loads⟩ := loads
    obtain ⟨rfl, _⟩ := yields_mk_pure.mp isPlan
    rw [yields_bind] at loads
    obtain ⟨_, _, _, loads⟩ := loads
    obtain ⟨rfl, _⟩ := yields_pure.mp loads
    exact ⟨text, isText, congrArg Prod.fst isResult⟩

/-- A machine loads the plan of a text that it can read, and stays as it is. -/
theorem yields_loadPlan {text : String} {plan : Plan} {reached : Resolution}
    (read : (machine.content? path).bind Text.decode? = some text)
    (planned : Plan.load .standard text path (projectDirectory machine.here.path path)
      stableCacheIds = (.ok plan, reached)) :
    Yields (host.loadPlan path stableCacheIds) machine ⟨plan, reached.bench⟩ machine := by
  obtain ⟨location, located, isFile⟩ := readText_eq_some_iff.mp read
  have isThere : (host.hasEntry path).run machine = (true, machine) := by
    have asks : (host.hasEntry path).run machine =
      (((machine.files.find? machine.here path).map _).isSome, machine) := rfl
    rw [asks, FileTree.find?, located, Option.bind_some, isFile]
    rfl
  unfold Host.loadPlan
  refine yields_bind.mpr ⟨true, machine, yields_lift.mpr isThere, yields_guard.mpr ⟨rfl, ?_⟩⟩
  refine yields_bind.mpr ⟨some text, machine, yields_lift.mpr (by rw [← read]; rfl), ?_⟩
  refine yields_bind.mpr ⟨machine.here.path, machine, yields_lift.mpr rfl, ?_⟩
  dsimp only
  rw [planned]
  dsimp only
  refine yields_bind.mpr ⟨⟨⟩, machine, (yields_forIn ?_).mpr rfl, ?_⟩
  · intro item machine step after
    simp only [yields_bind, yields_lift, yields_pure]
    constructor
    · rintro ⟨_, _, ⟨⟩, same⟩
      exact same
    · intro same
      exact ⟨(), machine, rfl, same⟩
  refine yields_bind.mpr ⟨plan, machine, yields_mk_pure.mpr ⟨rfl, rfl⟩, ?_⟩
  refine yields_bind.mpr ⟨(), machine, yields_lift.mpr rfl, ?_⟩
  exact yields_pure.mpr ⟨rfl, rfl⟩

/-- The id that is shown for a target belongs to the working directory. -/
theorem yields_cacheId (config : Config) (globalPath : HostPath) (target : String) :
    Yields (host.act config globalPath (.cacheId target none)) machine ()
      { machine with printed := machine.printed ++ [cacheId machine.here.path target] } :=
  rfl

/-! ## Ids -/

/-- The stages of a loaded plan have the mounts that their definitions declare in the directory that
the path of the build file names. -/
theorem mounts_eq_of_loadPlan
    (loads : Yields (host.loadPlan path stableCacheIds) machine loaded after) :
    ∃ location file, machine.HoldsPlan path location file ∧
      ∀ key definition, file.stages.find? key = some definition →
        ∃ stage, loaded.plan.stage key = .ok stage ∧
          stage.mounts =
            definition.mounts (projectDirectory machine.here.path path) stableCacheIds := by
  obtain ⟨text, read, planned⟩ := exists_text_of_loadPlan loads
  obtain ⟨location, located, isFile⟩ := readText_eq_some_iff.mp read
  obtain ⟨_, file, _, _, parsed⟩ := Plan.exists_parsed planned
  have complete := (Plan.ends_parse parsed .standard path
    (projectDirectory machine.here.path path) stableCacheIds).of_ok (Prod.ext planned rfl)
  refine ⟨location, file, ⟨located, _, text, isFile, Text.decode?_encode text, parsed⟩, ?_⟩
  intro key definition defined
  obtain ⟨stage, found⟩ := complete.all key (Entries.mem_keys_of_find? defined)
  obtain ⟨other, otherDefined, mounts⟩ := Plan.mounts_eq_of_load parsed planned found
  rw [defined, Option.some.injEq] at otherDefined
  exact ⟨stage, Plan.stage_eq_ok_iff.mpr found, otherDefined ▸ mounts⟩

/-- A path leads to one build file. -/
theorem HoldsPlan.unique {first second : Location} {file other : PlanFile}
    (holds : machine.HoldsPlan path first file) (also : machine.HoldsPlan path second other) :
    first = second ∧ file = other := by
  have sameLocation : first = second := Option.some.inj (holds.located.symm.trans also.located)
  obtain ⟨content, text, isFile, decodes, parsed⟩ := holds.parsed
  obtain ⟨_, _, alsoFile, alsoDecodes, alsoParsed⟩ := also.parsed
  cases Option.some.inj ((sameLocation ▸ isFile).symm.trans alsoFile)
  cases Option.some.inj (decodes.symm.trans alsoDecodes)
  exact ⟨sameLocation, Except.ok.inj (parsed.symm.trans alsoParsed)⟩

/-- **The stable ids of a loaded plan belong to the directory that the path of the build file
names.**  It is the directory with the build file, for which the command shows ids there, exactly
if the path is plain; and a relative path with a slash names a directory that does not depend on
where one works. -/
theorem loadPlan_gives_stable_ids (rooted : machine.files.Rooted)
    (loads : Yields (host.loadPlan path stableCacheIds) machine loaded after) :
    ∃ location file, machine.HoldsPlan path location file ∧
      (∀ key definition, file.stages.find? key = some definition →
        ∃ stage, loaded.plan.stage key = .ok stage ∧
          stage.mounts =
            definition.mounts (projectDirectory machine.here.path path) stableCacheIds) ∧
      (projectDirectory machine.here.path path = Location.path location.dropLast ↔
        path.IsPlain) ∧
      (path.isAbsolute = false → path.names.length ≠ 1 →
        ∃ directory : HostPath, directory.isAbsolute = false ∧
          ∀ workingDirectory, projectDirectory workingDirectory path = directory) ∧
      ∀ config globalPath target,
        Yields (host.act config globalPath (.cacheId target none))
          (machine.workingIn location.dropLast) ()
          { machine.workingIn location.dropLast with
            printed := machine.printed ++ [cacheId (Location.path location.dropLast) target] } := by
  obtain ⟨location, file, holds, mounts⟩ := mounts_eq_of_loadPlan loads
  obtain ⟨content, _, isFile, _⟩ := holds.parsed
  exact ⟨location, file, holds, mounts, projectDirectory_eq_iff rooted holds.located isFile,
    projectDirectory_of_relative rooted holds.located isFile, yields_cacheId⟩

end Machine

/-! ## Names of one build file

The only stage of the build file in the directory has a mount with a stable id.
-/

namespace CachedBuild

def text : String :=
  "[stages.default]\nfrom=\"alpine\"\nsteps=[\x7brun=\x7bcommand=\"make\"," ++
    "cache=[\x7btarget=\"/c\",stable_id=true\x7d]\x7d\x7d]"

def definition : StageDefinition :=
  { image := some "alpine", steps := [.run "make" [⟨{ target := "/c" }, true, []⟩]] }

def file : PlanFile := ⟨.ofList [("default", definition)]⟩

def directory : Location := [Text.encode "app"]

def place : Location := directory ++ [Text.encode "build.toml"]

def machine : Machine where
  files := ⟨[(directory, .directory), (place, .file (Text.encode text))]⟩
  here := directory
  home := []

theorem parsed : PlanFile.parse text = .ok file := by cbv

theorem find?_eq_some_iff {key : String} {other : StageDefinition} :
    file.stages.find? key = some other ↔ key = "default" ∧ other = definition :=
  find?_singleton_eq_some_iff

theorem resolvable : Resolvable file.stages := by
  refine .singleton ⟨by decide, fun step isStep => ?_⟩ rfl
  rw [List.mem_singleton.mp isStep]
  intro cache isCache
  rw [List.mem_singleton.mp isCache]

theorem rooted : machine.files.Rooted :=
  FileTree.rooted_of_forall_mem (by decide +kernel)

theorem holds {path : HostPath}
    (located : machine.files.locate? machine.here path = some place) :
    machine.HoldsPlan path place file :=
  ⟨located, Text.encode text, text, by decide, Text.decode?_encode text, parsed⟩

/-- The file is loaded by each of its names. -/
theorem exists_loaded {path : HostPath}
    (located : machine.files.locate? machine.here path = some place) :
    ∃ loaded, Machine.Yields (Machine.host.loadPlan path false) machine loaded machine := by
  obtain ⟨plan, reached, planned⟩ := Plan.exists_load_of_resolvable parsed resolvable .standard path
    (projectDirectory machine.here.path path) false
  refine ⟨_, Machine.yields_loadPlan ?_ planned⟩
  exact Machine.readText_eq_some_iff.mpr ⟨place, located, by decide⟩

end CachedBuild

namespace Machine

open CachedBuild (machine)

/-- The bare name gives the id of the directory. -/
theorem loadPlan_gives_stable_id_by_name :
    CachedBuild.machine.files.Rooted ∧
      ∃ loaded stage, Yields (host.loadPlan (.ofText "build.toml") false) machine loaded machine ∧
        loaded.plan.stage "default" = .ok stage ∧
        stage.mounts.map (·.id) = [some (cacheId (Location.path CachedBuild.directory) "/c")] := by
  have located :
      machine.files.locate? machine.here (.ofText "build.toml") = some CachedBuild.place := by
    decide
  obtain ⟨loaded, loads⟩ := CachedBuild.exists_loaded located
  obtain ⟨location, file, holds, mounts, directory, _⟩ :=
    loadPlan_gives_stable_ids CachedBuild.rooted loads
  obtain ⟨rfl, rfl⟩ := holds.unique (CachedBuild.holds located)
  obtain ⟨stage, isStage, same⟩ := mounts "default" _ (CachedBuild.find?_eq_some_iff.mpr ⟨rfl, rfl⟩)
  refine ⟨CachedBuild.rooted, loaded, stage, loads, isStage, ?_⟩
  rw [same, directory.mpr (.inl (by decide))]
  rfl

/-- **Another name of the build file gives another id**: that of the dot, which is not the id of
the directory. -/
theorem loadPlan_gives_id_of_dot :
    machine.files.locate? machine.here (.ofText "./build.toml") = some CachedBuild.place ∧
      ∃ loaded stage, Yields (host.loadPlan (.ofText "./build.toml") false) machine loaded machine ∧
        loaded.plan.stage "default" = .ok stage ∧
        stage.mounts.map (·.id) = [some (cacheId (.ofText ".") "/c")] ∧
        cacheId (.ofText ".") "/c" ≠ cacheId (Location.path CachedBuild.directory) "/c" := by
  have located :
      machine.files.locate? machine.here (.ofText "./build.toml") = some CachedBuild.place := by
    decide
  obtain ⟨loaded, loads⟩ := CachedBuild.exists_loaded located
  obtain ⟨location, file, holds, mounts⟩ := mounts_eq_of_loadPlan loads
  obtain ⟨rfl, rfl⟩ := holds.unique (CachedBuild.holds located)
  obtain ⟨stage, isStage, same⟩ := mounts "default" _ (CachedBuild.find?_eq_some_iff.mpr ⟨rfl, rfl⟩)
  refine ⟨located, loaded, stage, loads, isStage, ?_, by decide +kernel⟩
  rw [same]
  rfl

end Machine

end StageManifest
