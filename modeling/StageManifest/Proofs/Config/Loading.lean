import StageManifest.Config.Files
import StageManifest.Proofs.Config.Text
import StageManifest.Proofs.Host.Files
import StageManifest.Proofs.Host.Runs
import StageManifest.Proofs.Text.Utf8

/-!
# Loading and saving configurations

A machine loads the configuration that its files stand for, and stays as it is
(`Machine.yields_loadConfig`).  A configuration that was saved is what loading
its file alone gives afterwards (`Machine.loads_of_saves`).
-/

set_option autoImplicit false

namespace StageManifest.Machine

variable {machine after : Machine} {path globalPath : HostPath} {projectPath : Option HostPath}
  {config : Config}

/-! ## Files -/

/-- What there is at a path of a file of the configuration: nothing, or a text that can be read. -/
def HasConfigFile (machine : Machine) (path : HostPath) : Option ConfigFile → Prop
  | none => machine.files.find? machine.here path = none
  | some file => file.path = path ∧ (machine.content? path).bind Text.decode? = some file.text

/-- The project's file is the one at its path, if it has one. -/
def HasProjectFile (machine : Machine) : Option HostPath → Option ConfigFile → Prop
  | none, none => True
  | some path, some file => machine.HasConfigFile path (some file)
  | _, _ => False

theorem hasEntry_eq (machine : Machine) (path : HostPath) :
    (host.hasEntry path).run machine = ((machine.files.find? machine.here path).isSome, machine) := by
  have asks : (host.hasEntry path).run machine =
    (((machine.files.find? machine.here path).map _).isSome, machine) := rfl
  rw [asks, Option.isSome_map]

/-- Where a text can be read, there is a file. -/
theorem find?_isSome_of_read {text : String}
    (read : (machine.content? path).bind Text.decode? = some text) :
    (machine.files.find? machine.here path).isSome = true := by
  obtain ⟨location, located, isFile⟩ := readText_eq_some_iff.mp read
  rw [FileTree.find?, located, Option.bind_some, isFile]
  rfl

theorem yields_readConfigFile {file : ConfigFile} :
    Yields (host.readConfigFile path) machine file after ↔
      machine.HasConfigFile path (some file) ∧ after = machine := by
  unfold Host.readConfigFile
  rw [yields_bind]
  constructor
  · rintro ⟨text, middle, asked, yields⟩
    cases yields_lift.mp asked
    split at yields
    next text isText =>
      obtain ⟨rfl, rfl⟩ := yields_pure.mp yields
      exact ⟨⟨rfl, isText⟩, rfl⟩
    · exact (not_yields_throw yields).elim
  · rintro ⟨⟨rfl, isText⟩, rfl⟩
    refine ⟨some file.text, after, yields_lift.mpr (by rw [← isText]; rfl), ?_⟩
    exact yields_pure.mpr ⟨rfl, rfl⟩

theorem yields_readConfigFile? {file : Option ConfigFile} :
    Yields (host.readConfigFile? path) machine file after ↔
      machine.HasConfigFile path file ∧ after = machine := by
  unfold Host.readConfigFile?
  rw [yields_bind]
  simp only [yields_lift, hasEntry_eq]
  constructor
  · rintro ⟨found, middle, ⟨⟩, yields⟩
    split at yields
    · rw [yields_bind] at yields
      obtain ⟨file, _, read, yields⟩ := yields
      obtain ⟨has, rfl⟩ := yields_readConfigFile.mp read
      obtain ⟨rfl, rfl⟩ := yields_pure.mp yields
      exact ⟨has, rfl⟩
    next absent =>
      obtain ⟨rfl, rfl⟩ := yields_pure.mp yields
      exact ⟨Option.not_isSome_iff_eq_none.mp absent, rfl⟩
  · rintro ⟨has, rfl⟩
    refine ⟨_, after, rfl, ?_⟩
    cases file with
    | none =>
        have absent : after.files.find? after.here path = none := has
        rw [absent]
        exact yields_pure.mpr ⟨rfl, rfl⟩
    | some file =>
        rw [if_pos (find?_isSome_of_read has.2)]
        exact yields_bind.mpr ⟨file, after, yields_readConfigFile.mpr ⟨has, rfl⟩,
          yields_pure.mpr ⟨rfl, rfl⟩⟩

/-! ## Loading -/

/-- **A machine loads the configuration of its files and stays as it is.** -/
theorem yields_loadConfig :
    Yields (host.loadConfig globalPath projectPath) machine config after ↔
      (∃ globalFile projectFile, machine.HasConfigFile globalPath globalFile ∧
        machine.HasProjectFile projectPath projectFile ∧
        Config.load globalFile projectFile = .ok config) ∧ after = machine := by
  unfold Host.loadConfig
  rw [yields_bind]
  simp only [yields_readConfigFile?]
  cases projectPath with
  | none =>
      constructor
      · rintro ⟨globalFile, middle, ⟨hasGlobal, rfl⟩, yields⟩
        obtain ⟨loads, rfl⟩ := yields_mk_pure.mp yields
        exact ⟨⟨globalFile, none, hasGlobal, trivial, loads⟩, rfl⟩
      · rintro ⟨⟨globalFile, projectFile, hasGlobal, hasProject, loads⟩, rfl⟩
        refine ⟨globalFile, after, ⟨hasGlobal, rfl⟩, yields_mk_pure.mpr ⟨?_, rfl⟩⟩
        cases projectFile with
        | none => exact loads
        | some file => exact hasProject.elim
  | some path =>
      constructor
      · rintro ⟨globalFile, middle, ⟨hasGlobal, rfl⟩, yields⟩
        rw [yields_bind] at yields
        obtain ⟨base, _, answers, yields⟩ := yields
        obtain ⟨isBase, rfl⟩ := yields_mk_pure.mp answers
        rw [yields_bind] at yields
        obtain ⟨file, _, read, yields⟩ := yields
        obtain ⟨hasProject, rfl⟩ := yields_readConfigFile.mp read
        obtain ⟨loads, rfl⟩ := yields_mk_pure.mp yields
        refine ⟨⟨globalFile, some file, hasGlobal, hasProject, ?_⟩, rfl⟩
        rw [Config.load, isBase]
        exact loads
      · rintro ⟨⟨globalFile, projectFile, hasGlobal, hasProject, loads⟩, rfl⟩
        refine ⟨globalFile, after, ⟨hasGlobal, rfl⟩, ?_⟩
        cases projectFile with
        | none => exact hasProject.elim
        | some file =>
            cases isBase : Config.globalData globalFile with
            | error failure =>
                rw [Config.load, isBase] at loads
                cases loads
            | ok base =>
                rw [Config.load, isBase] at loads
                refine yields_bind.mpr ⟨base, after, yields_mk_pure.mpr ⟨rfl, rfl⟩, ?_⟩
                exact yields_bind.mpr ⟨file, after, yields_readConfigFile.mpr ⟨hasProject, rfl⟩,
                  yields_mk_pure.mpr ⟨loads, rfl⟩⟩

/-! ## Saving -/

/-- The files after the directory of a path was made, and whether it is there. -/
def withParent (machine : Machine) (path : HostPath) : FileTree × Bool :=
  match path.parent? with
  | some directory => machine.files.makeDirectories machine.here directory
  | none => (machine.files, true)

/-- A text is written to a path after the directory of the path was made. -/
def Saves (machine : Machine) (path : HostPath) (text : String) (files : FileTree) : Prop :=
  ∃ made, machine.withParent path = (made, true) ∧
    made.write? machine.here path (Text.encode text) = some files

/-- The machine after a note, which is reported if the verbosity asks for it. -/
def noting (machine : Machine) (verbosity : Nat) (level : NoteLevel) (message : String) : Machine :=
  { machine with
    reported := machine.reported ++
      if level.threshold ≤ verbosity then [level.line message] else [] }

theorem note_eq (machine : Machine) (verbosity : Nat) (level : NoteLevel) (message : String) :
    ((host.withVerbosity verbosity).note level message).run machine =
      ((), machine.noting verbosity level message) := by
  change StateT.run (if level.threshold ≤ verbosity then host.report (level.line message)
    else pure ()) machine = _
  unfold noting
  split
  · rfl
  · rw [List.append_nil]
    rfl

theorem writeText_eq (machine : Machine) (verbosity : Nat) (path : HostPath) (text : String) :
    ((host.withVerbosity verbosity).writeText path text).run machine =
      (machine.files.write? machine.here path (Text.encode text)).elim (false, machine)
        fun files => (true, { machine with files := files }) := by
  simp only [host, Host.withVerbosity, StateT.run_bind, StateT.run_get, pure_bind]
  cases machine.files.write? machine.here path (Text.encode text) with
  | none => rfl
  | some files => rfl

/-- Writing succeeds where the file can be written. -/
theorem yields_writing {text message : String} {failure : Failure} {verbosity : Nat} :
    Yields (do
        if !(← (host.withVerbosity verbosity).writeText path text) then throw failure
        (host.withVerbosity verbosity).note .information message :
          ExceptT Failure (StateM Machine) Unit) machine () after ↔
      ∃ files, machine.files.write? machine.here path (Text.encode text) = some files ∧
        after = noting { machine with files := files } verbosity .information message := by
  rw [yields_bind]
  simp only [yields_lift, writeText_eq]
  cases machine.files.write? machine.here path (Text.encode text) with
  | none =>
      constructor
      · rintro ⟨_, _, ⟨⟩, yields⟩
        cases (yields_guard.mp yields).1
      · rintro ⟨_, ⟨⟩, _⟩
  | some files =>
      constructor
      · rintro ⟨_, _, ⟨⟩, yields⟩
        have noted := yields_lift.mp (yields_guard.mp yields).2
        rw [note_eq] at noted
        exact ⟨files, rfl, (Prod.mk.inj noted).2.symm⟩
      · rintro ⟨_, ⟨⟩, same⟩
        refine ⟨_, _, rfl, yields_guard.mpr ⟨rfl, yields_lift.mpr ?_⟩⟩
        rw [note_eq, same]

theorem yields_saveConfig {verbosity : Nat} :
    Yields ((host.withVerbosity verbosity).saveConfig path config) machine () after ↔
      ∃ files, machine.Saves path config.text files ∧
        after = noting { machine with files := files } verbosity .information
          ("Configuration saved to " ++ path.display) := by
  unfold Host.saveConfig Saves withParent
  dsimp only
  cases path.parent? with
  | none =>
      refine yields_writing.trans ⟨?_, ?_⟩
      · rintro ⟨written, isWritten, same⟩
        exact ⟨written, ⟨machine.files, rfl, isWritten⟩, same⟩
      · rintro ⟨written, ⟨_, ⟨⟩, isWritten⟩, same⟩
        exact ⟨written, isWritten, same⟩
  | some directory =>
      have made : ((host.withVerbosity verbosity).makeDirectories directory).run machine =
        ((machine.files.makeDirectories machine.here directory).2,
          { machine with files := (machine.files.makeDirectories machine.here directory).1 }) := rfl
      dsimp only
      rw [yields_bind]
      simp only [yields_lift, made]
      generalize machine.files.makeDirectories machine.here directory = result
      obtain ⟨files, isMade⟩ := result
      constructor
      · rintro ⟨_, _, ⟨⟩, yields⟩
        obtain ⟨isThere, yields⟩ := yields_guard.mp yields
        obtain ⟨written, isWritten, same⟩ := yields_writing.mp yields
        obtain rfl : isMade = true := by simpa using isThere
        exact ⟨written, ⟨files, rfl, isWritten⟩, same⟩
      · rintro ⟨written, ⟨_, ⟨⟩, isWritten⟩, same⟩
        refine ⟨_, _, rfl, yields_guard.mpr ⟨rfl, ?_⟩⟩
        exact yields_writing.mpr ⟨written, isWritten, same⟩

/-- **A saved configuration is loaded again from its file alone.** -/
theorem loads_of_saves {files : FileTree} (saves : machine.Saves path config.text files)
    (sameFiles : after.files = files) (samePlace : after.here = machine.here) :
    Yields (host.loadConfig path none) after config after := by
  obtain ⟨made, _, written⟩ := saves
  have found : after.files.find? after.here path = some (.file (Text.encode config.text)) := by
    rw [sameFiles, samePlace]
    exact FileTree.find?_of_write? written
  have read : (after.content? path).bind Text.decode? = some config.text := by
    simp only [content?, found, Option.bind_some, Text.decode?_encode]
  refine yields_loadConfig.mpr ⟨⟨some ⟨path, config.text⟩, none, ⟨rfl, read⟩, trivial, ?_⟩, rfl⟩
  rw [Config.load, Config.loadGlobal, ConfigFile.load, Config.parseAs_text]
  rfl

end StageManifest.Machine
