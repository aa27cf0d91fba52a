import Mathlib
import StageManifest.Action.Perform
import StageManifest.Proofs.Config.Loading
import StageManifest.Proofs.Config.Settings

/-!
# Changing a setting of the global file

The command that changes a setting loads the merged configuration, changes the
setting there and writes the whole configuration to the global file
(`Machine.yields_perform_change`).  So the global file says afterwards what the
merged configuration said, which is what it said itself with the one change
exactly if the project's file had said nothing else about the other settings
(`Machine.change_writes_merged`).
-/

set_option autoImplicit false

namespace StageManifest.Machine

variable {machine after : Machine} {invocation : Invocation} {config : Config}
  {path : HostPath} {key value : String} {verbosity : Nat}

/-! ## Which files are meant -/

/-- Whether there is a file at a path. -/
def holdsFile (machine : Machine) (path : HostPath) : Bool :=
  match machine.files.find? machine.here path with
  | some (.file _) => true
  | _ => false

/-- The global file of an invocation. -/
def globalPath (machine : Machine) (invocation : Invocation) : HostPath :=
  invocation.configFile.getD (globalFilePath machine.home.path)

/-- The file of the project that an invocation finds, unless it skips it. -/
def projectPath? (machine : Machine) (invocation : Invocation) : Option HostPath :=
  if invocation.skipsProject then none
  else (machine.here.path.ancestors.map fun above => above.below [projectFileName]).find?
    machine.holdsFile

theorem isFile_eq (machine : Machine) (path : HostPath) :
    (host.isFile path).run machine = (machine.holdsFile path, machine) := by
  have asks : (host.isFile path).run machine =
    ((machine.files.find? machine.here path).map _ == some EntryKind.file, machine) := rfl
  rw [asks, holdsFile]
  rcases machine.files.find? machine.here path with _ | _ | content <;> rfl

theorem firstFile?_eq (machine : Machine) (paths : List HostPath) :
    (host.firstFile? paths).run machine = (paths.find? machine.holdsFile, machine) := by
  induction paths with
  | nil => rfl
  | cons path rest ih =>
      rw [Host.firstFile?, StateT.run_bind, isFile_eq, List.find?_cons]
      cases machine.holdsFile path with
      | true => rfl
      | false => exact ih

/-- Work goes on with the file of the project that is found. -/
theorem yields_findProject {next : Option HostPath → ExceptT Failure (StateM Machine) Unit} :
    Yields (do
        let projectPath ←
          if invocation.skipsProject then pure none
          else host.projectFile? (← host.workingDirectory)
        next projectPath) machine () after ↔
      Yields (next (machine.projectPath? invocation)) machine () after := by
  have searches : (host.projectFile? machine.here.path).run machine =
      ((machine.here.path.ancestors.map fun above => above.below [projectFileName]).find?
        machine.holdsFile, machine) :=
    firstFile?_eq machine _
  have here : (host.workingDirectory).run machine = (machine.here.path, machine) := rfl
  unfold projectPath?
  split
  · rw [yields_bind]
    simp only [yields_pure]
    constructor
    · rintro ⟨_, _, ⟨rfl, rfl⟩, yields⟩
      exact yields
    · exact fun yields => ⟨_, _, ⟨rfl, rfl⟩, yields⟩
  · simp only [yields_bind, yields_lift, here]
    constructor
    · rintro ⟨_, _, ⟨⟩, _, _, found, yields⟩
      cases searches.symm.trans found
      exact yields
    · exact fun yields => ⟨_, _, rfl, _, _, searches, yields⟩

/-! ## The command -/

/-- The machine after the file of the project was found. -/
def discovering (machine : Machine) (invocation : Invocation) : Machine :=
  match machine.projectPath? invocation with
  | some path => machine.noting invocation.verbosity .detail ("Found local config: " ++ path.display)
  | none => machine

/-- The machine after a setting was changed and its files are the given ones. -/
def changed (machine : Machine) (verbosity : Nat) (path : HostPath) (key value : String)
    (files : FileTree) : Machine :=
  let saved := noting { machine with files := files } verbosity .information
    ("Configuration saved to " ++ path.display)
  { saved with printed := machine.printed ++ [successNote ("Set " ++ key ++ " = " ++ value)] }

theorem yields_changeSetting :
    Yields ((host.withVerbosity verbosity).changeSetting path config key value false)
        machine () after ↔
      ∃ edited files, config.set key value = .ok edited ∧
        machine.Saves path edited.text files ∧
        after = machine.changed verbosity path key value files := by
  unfold Host.changeSetting Host.changeGlobalSetting
  dsimp only
  rw [if_neg Bool.false_ne_true]
  constructor
  · intro yields
    rw [yields_bind] at yields
    obtain ⟨_, middle, edits, prints⟩ := yields
    rw [yields_bind] at edits
    obtain ⟨edited, _, answers, saves⟩ := edits
    obtain ⟨isSet, rfl⟩ := yields_mk_pure.mp answers
    obtain ⟨files, isSaved, rfl⟩ := yields_saveConfig.mp saves
    cases yields_lift.mp prints
    exact ⟨edited, files, Toml.mapError_eq_ok_iff.mp isSet, isSaved, rfl⟩
  · rintro ⟨edited, files, isSet, saves, rfl⟩
    refine yields_bind.mpr ⟨(), _, yields_bind.mpr ⟨edited, machine, yields_mk_pure.mpr ⟨?_, rfl⟩,
      yields_saveConfig.mpr ⟨files, saves, rfl⟩⟩, yields_lift.mpr rfl⟩
    rw [isSet]
    rfl

/-- What an invocation does once it knows the file of the project. -/
theorem yields_change {projectPath : Option HostPath}
    (found : projectPath = machine.projectPath? invocation) :
    Yields (do
        let config ← host.loadConfig path projectPath
        let host := host.withVerbosity invocation.verbosity
        if let some path := projectPath then
          host.note .detail ("Found local config: " ++ path.display)
        host.changeSetting path config key value false) machine () after ↔
      ∃ merged edited files, Yields (host.loadConfig path projectPath) machine merged machine ∧
        merged.set key value = .ok edited ∧ machine.Saves path edited.text files ∧
        after =
          (machine.discovering invocation).changed invocation.verbosity path key value files := by
  have sameFiles : ∀ edited files, (machine.discovering invocation).Saves path edited files ↔
      machine.Saves path edited files := by
    intro edited files
    unfold discovering
    cases machine.projectPath? invocation <;> exact Iff.rfl
  have notes : ∀ config, Yields (do
        if let some path := projectPath then
          (host.withVerbosity invocation.verbosity).note .detail
            ("Found local config: " ++ path.display)
        (host.withVerbosity invocation.verbosity).changeSetting path config key value false)
          machine () after ↔
      Yields ((host.withVerbosity invocation.verbosity).changeSetting path config key value false)
        (machine.discovering invocation) () after := by
    intro config
    subst found
    unfold discovering
    cases machine.projectPath? invocation with
    | none => exact Iff.rfl
    | some projectPath =>
        dsimp only
        rw [yields_bind]
        simp only [yields_lift, note_eq]
        constructor
        · rintro ⟨_, _, ⟨⟩, yields⟩
          exact yields
        · exact fun yields => ⟨_, _, rfl, yields⟩
  rw [yields_bind]
  constructor
  · rintro ⟨merged, middle, loads, yields⟩
    obtain ⟨_, rfl⟩ := yields_loadConfig.mp loads
    obtain ⟨edited, files, isSet, saves, same⟩ := yields_changeSetting.mp ((notes merged).mp yields)
    exact ⟨merged, edited, files, loads, isSet, (sameFiles _ _).mp saves, same⟩
  · rintro ⟨merged, edited, files, loads, isSet, saves, same⟩
    refine ⟨merged, machine, loads, (notes merged).mpr (yields_changeSetting.mpr ?_)⟩
    exact ⟨edited, files, isSet, (sameFiles _ _).mpr saves, same⟩

/-- **The merged configuration is loaded, changed and written to the global file.** -/
theorem yields_perform_change
    (isChange : invocation.action = .settings (some (.change key value false))) :
    Yields (host.perform invocation) machine () after ↔
      ∃ merged edited files,
        Yields (host.loadConfig (machine.globalPath invocation) (machine.projectPath? invocation))
          machine merged machine ∧
        merged.set key value = .ok edited ∧
        machine.Saves (machine.globalPath invocation) edited.text files ∧
        after = (machine.discovering invocation).changed invocation.verbosity
          (machine.globalPath invocation) key value files := by
  have homes : (host.homeDirectory).run machine = (machine.home.path, machine) := rfl
  rw [← yields_change rfl]
  unfold Host.perform
  rw [isChange, yields_bind]
  simp only [yields_lift, homes]
  constructor
  · rintro ⟨_, _, ⟨⟩, yields⟩
    exact yields_findProject.mp yields
  · exact fun yields => ⟨_, _, rfl, yields_findProject.mpr yields⟩

/-! ## What the global file says afterwards -/

theorem changed_files (path : HostPath) (files : FileTree) :
    (machine.changed verbosity path key value files).files = files := rfl

theorem changed_here (path : HostPath) (files : FileTree) :
    (machine.changed verbosity path key value files).here = machine.here := rfl

theorem discovering_here : (machine.discovering invocation).here = machine.here := by
  unfold discovering
  cases machine.projectPath? invocation <;> rfl

/-- What there is besides a file that is saved stays there. -/
theorem exists_location_of_saves {text : String} {files : FileTree}
    (saves : machine.Saves path text files) :
    ∃ location, files.locate? machine.here path = some location ∧
      ∀ place entry, place ≠ location → machine.files.entry? place = some entry →
        files.entry? place = some entry := by
  obtain ⟨made, isMade, written⟩ := saves
  obtain ⟨location, located, notDirectory, rfl⟩ := FileTree.exists_location_of_write? written
  refine ⟨location, FileTree.locate?_put located notDirectory, ?_⟩
  intro place entry different isThere
  rw [FileTree.entry?_put_of_ne different]
  unfold withParent at isMade
  split at isMade
  next directory _ =>
    have kept : FileTree.entry? (machine.files.makeDirectories machine.here directory).1 place =
      some entry := FileTree.entry?_of_makeDirectories isThere
    rw [isMade] at kept
    exact kept
  · cases isMade
    exact isThere

/-- **The global file says afterwards what the merged configuration said, with the one change.**
Nothing else that was there is changed.  The global file says what it said itself with the one
change exactly if the merged configuration agreed with it on the other settings, as it does if
there is no file of a project. -/
theorem change_writes_merged
    (isChange : invocation.action = .settings (some (.change key value false)))
    (performs : Yields (host.perform invocation) machine () after) :
    ∃ merged edited,
      Yields (host.loadConfig (machine.globalPath invocation) (machine.projectPath? invocation))
        machine merged machine ∧
      merged.set key value = .ok edited ∧
      (∃ written, documentValue key value = .ok written ∧ edited.value? key = some written) ∧
      (∀ name, name ≠ key → edited.value? name = merged.value? name) ∧
      Yields (host.loadConfig (machine.globalPath invocation) none) after edited after ∧
      (∀ alone, Yields (host.loadConfig (machine.globalPath invocation) none) machine alone machine →
        (alone.set key value = .ok edited ↔
          ∀ name, name ≠ key → merged.value? name = alone.value? name)) ∧
      (machine.projectPath? invocation = none →
        ∃ alone, Yields (host.loadConfig (machine.globalPath invocation) none) machine alone machine ∧
          alone.set key value = .ok edited) ∧
      ∃ location, after.files.locate? after.here (machine.globalPath invocation) = some location ∧
        ∀ place entry, place ≠ location → machine.files.entry? place = some entry →
          after.files.entry? place = some entry := by
  obtain ⟨merged, edited, files, loads, isSet, saves, rfl⟩ :=
    (yields_perform_change isChange).mp performs
  refine ⟨merged, edited, loads, isSet, Config.exists_value?_set isSet,
    fun _ => Config.value?_set_of_ne isSet, loads_of_saves saves rfl discovering_here,
    fun alone _ => Config.set_eq_iff isSet alone, ?_, ?_⟩
  · intro noProject
    rw [noProject] at loads
    exact ⟨merged, loads, isSet⟩
  · rw [changed_files, changed_here, discovering_here]
    exact exists_location_of_saves saves

end StageManifest.Machine

/-! ## A setting of a project

The file of the project names a tag prefix, and the global file does not.
-/

namespace StageManifest.TaggedProject

def globalText : String := "[build]\nsyntax=\"front\"\n"

def projectText : String := "[build]\ntag_prefix=\"local\"\n"

def directory : Location := [Text.encode "work"]

def globalPlace : Location := directory ++ [Text.encode "global.toml"]

def projectPlace : Location := directory ++ [Text.encode "stagecraft.toml"]

def machine : Machine where
  files := ⟨[(directory, .directory), (globalPlace, .file (Text.encode globalText)),
    (projectPlace, .file (Text.encode projectText))]⟩
  here := directory
  home := []

def invocation : Invocation :=
  ⟨0, some (.ofText "global.toml"), false,
    .settings (some (.change "general.log_format" "json" false))⟩

/-- The configuration of the global file alone. -/
def alone : Config := { build := { frontend := "front" } }

def merged : Config := { build := { frontend := "front", tagPrefix := "local" } }

def edited : Config :=
  { general := { logFormat := "json" }, build := { frontend := "front", tagPrefix := "local" } }

theorem loads_alone : Config.load (some ⟨.ofText "global.toml", globalText⟩) none = .ok alone := by
  cbv

theorem loads_merged :
    Config.load (some ⟨.ofText "global.toml", globalText⟩)
      (some ⟨.ofText "/work/stagecraft.toml", projectText⟩) = .ok merged := by
  cbv

theorem isRead : Invocation.read []
    ["--config", "global.toml", "config", "set", "general.log_format", "json"] = .ok invocation := by
  cbv

theorem projectPath : machine.projectPath? invocation = some (.ofText "/work/stagecraft.toml") := by
  decide +kernel

theorem hasGlobal : machine.HasConfigFile (.ofText "global.toml")
    (some ⟨.ofText "global.toml", globalText⟩) := by
  refine ⟨rfl, Machine.readText_eq_some_iff.mpr ⟨globalPlace, ?_, ?_⟩⟩
  · decide +kernel
  · decide +kernel

theorem hasProject : machine.HasConfigFile (.ofText "/work/stagecraft.toml")
    (some ⟨.ofText "/work/stagecraft.toml", projectText⟩) := by
  refine ⟨rfl, Machine.readText_eq_some_iff.mpr ⟨projectPlace, ?_, ?_⟩⟩
  · decide +kernel
  · decide +kernel

theorem yields_alone : Machine.Yields (Machine.host.loadConfig (.ofText "global.toml") none) machine
    alone machine :=
  Machine.yields_loadConfig.mpr ⟨⟨_, none, hasGlobal, trivial, loads_alone⟩, rfl⟩

theorem yields_merged :
    Machine.Yields
      (Machine.host.loadConfig (.ofText "global.toml") (machine.projectPath? invocation))
      machine merged machine := by
  rw [projectPath]
  exact Machine.yields_loadConfig.mpr
    ⟨⟨_, some ⟨.ofText "/work/stagecraft.toml", projectText⟩, hasGlobal, hasProject, loads_merged⟩,
      rfl⟩

theorem exists_after :
    ∃ after, Machine.Yields (Machine.host.perform invocation) machine () after ∧
      Machine.Yields (Machine.host.loadConfig (.ofText "global.toml") none) after edited after := by
  have located : machine.files.locate? machine.here (.ofText "global.toml") = some globalPlace := by
    decide +kernel
  have notDirectory : machine.files.isDirectory globalPlace = false := by decide +kernel
  have inHere : HostPath.parent? (.ofText "global.toml") = some ⟨[]⟩ := by decide +kernel
  have saves : machine.Saves (.ofText "global.toml") edited.text
      (machine.files.put globalPlace (.file (Text.encode edited.text))) := by
    refine ⟨machine.files, ?_, FileTree.write?_of_locate? located notDirectory⟩
    rw [Machine.withParent, inHere]
    rfl
  refine ⟨_, (Machine.yields_perform_change rfl).mpr ⟨merged, edited, _, yields_merged, rfl, saves,
    rfl⟩, Machine.loads_of_saves saves rfl Machine.discovering_here⟩

end StageManifest.TaggedProject

namespace StageManifest.Machine

open TaggedProject (machine invocation alone edited)

/-- The global file says what the merged configuration said about a setting that was not named. -/
theorem change_writes_merged_tag_prefix :
    ∃ after changed, Yields (host.perform invocation) machine () after ∧
      Yields (host.loadConfig (.ofText "global.toml") none) after changed after ∧
      changed.value? "build.tag_prefix" = some (.string "local") := by
  obtain ⟨after, performs, _⟩ := TaggedProject.exists_after
  obtain ⟨merged, changed, loads, _, _, others, loadsChanged, _⟩ := change_writes_merged rfl performs
  obtain ⟨rfl, _⟩ := loads.unique TaggedProject.yields_merged
  exact ⟨after, changed, performs, loadsChanged, others "build.tag_prefix" (by decide)⟩

/-- **Another setting of the global file is changed than the one that is named.** -/
theorem change_writes_tag_prefix_of_project :
    Invocation.read []
        ["--config", "global.toml", "config", "set", "general.log_format", "json"] = .ok invocation ∧
      Yields (host.loadConfig (.ofText "global.toml") none) machine alone machine ∧
      ∃ after, Yields (host.perform invocation) machine () after ∧
        Yields (host.loadConfig (.ofText "global.toml") none) after edited after ∧
        alone.set "general.log_format" "json" ≠ .ok edited ∧
        alone.value? "build.tag_prefix" = some (.string "stagecraft") ∧
        edited.value? "build.tag_prefix" = some (.string "local") := by
  obtain ⟨after, performs, loads⟩ := TaggedProject.exists_after
  refine ⟨TaggedProject.isRead, TaggedProject.yields_alone, after, performs, loads, ?_, rfl, rfl⟩
  exact fun same => absurd (Except.ok.inj same) (by decide)

end StageManifest.Machine
