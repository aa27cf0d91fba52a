import StageManifest.Proofs.Action.Asking
import StageManifest.Proofs.Graph.Relinking
import StageManifest.Proofs.Graph.Sharing
import StageManifest.Proofs.Plan.CacheIds
import StageManifest.Proofs.Plan.Loading

/-!
# What engines get for a target

Showing, building and running a target begin alike: the plan is opened and the
stage of the target is looked up, which only tells what is done.  A build or a run
then opens the engine and performs its operation; what it asks engines for is a
value that it determines from the machine (`Machine.asks_buildTarget`,
`Machine.asks_runTarget`).

The manifest that is shown (`Machine.run_previewTarget`) comes from the same stage,
up to a tag, and a tag is not part of a manifest (`Manifest.solve_withTag`).  It is
solved with the configured frontend, and so is the manifest of a build, whose settings
begin with another frontend and take the configured one over
(`Machine.manifest_of`).  Hence what is shown for a target is what engines get for it
(`Machine.engines_get_what_is_shown`).
-/

set_option autoImplicit false

namespace StageManifest.Machine

variable {machine : Machine}

/-! ## What commands begin with -/

section

variable (machine) (verbosity : Nat) (config : Config)

/-- The plan of a build file, or of the configured one, that a machine holds. -/
def openedPlan (file : Option HostPath) : Except Failure LoadedPlan :=
  machine.planAt (file.getD (.ofText config.build.defaultFile)) config.build.stableCacheIds

theorem tells_openPlan (file : Option HostPath) :
    Tells ((host.withVerbosity verbosity).openPlan config file) machine
      (machine.openedPlan config file) :=
  (tells_note verbosity _ _).bind_ok (tells_loadPlan machine verbosity _ _)

/-- Asking a program for its version changes nothing. -/
theorem run_hasEngine (kind : EngineKind) :
    (host.hasEngine kind).run machine =
      ((machine.programs.lookup kind.program).any fun program => program.versionStatus == 0,
        machine) := by
  have passes : canPass ["--version"] = true := by decide
  change (runProgram ⟨kind.program, ["--version"], []⟩ >>= _).run machine = _
  rw [StateT.run_bind]
  unfold runProgram
  simp only [passes]
  cases installed : machine.programs.lookup kind.program with
  | none =>
      simp [installed]
      rfl
  | some program =>
      simp [installed, versionFlag]
      rfl

/-- The engine that a configuration asks for, if its program answers on the machine. -/
def engineFor : Except Failure EngineKind := do
  let kind ← config.engine.kind
  if !((host.hasEngine kind).run machine).1 then throw (.engineNotFound kind.display)
  return kind

/-- An engine that answers is the one that is asked for. -/
theorem engineFor_of_answers {kind : EngineKind}
    (chosen : config.engine.kind = .ok kind)
    (answers : ((host.hasEngine kind).run machine).1 = true) :
    machine.engineFor config = .ok kind := by
  unfold engineFor
  rw [chosen]
  simp only [bind, Except.bind, answers, Bool.not_true, Bool.false_eq_true, if_false]
  rfl

theorem tells_openEngine :
    Tells ((host.withVerbosity verbosity).openEngine config) machine
      (machine.engineFor config) := by
  refine (tells_mk_pure config.engine.kind).bind fun kind _ => ?_
  have answers : Tells (liftM ((host.withVerbosity verbosity).hasEngine kind)) machine
      (.ok ((host.hasEngine kind).run machine).1) := by
    refine tells_lift_read fun before => ?_
    change (host.hasEngine kind).run (machine.having before) = _
    rw [run_hasEngine, run_hasEngine]
    rfl
  refine answers.bind_ok (tells_guard ?_)
  exact (tells_note verbosity _ _).bind_ok (tells_pure kind)

theorem run_noteGraph (root : Stage) :
    ∃ lines, ((host.withVerbosity verbosity).noteGraph root).run machine =
      ((), machine.having lines) := by
  unfold Host.noteGraph
  cases StageGraph.discover root with
  | error failure => exact ⟨machine.reported, rfl⟩
  | ok graph =>
      obtain ⟨lines, runs⟩ := run_note verbosity .detail
        ("Discovered " ++ Nat.repr graph.stages.length ++ " stage(s) reachable from " ++ root.name)
        machine
      rw [StateT.run_bind, runs]
      cases graph.ordered with
      | error failure => exact ⟨lines, rfl⟩
      | ok stages => exact run_note verbosity _ _ (machine.having lines)

theorem tells_noteGraph (root : Stage) :
    Tells (liftM ((host.withVerbosity verbosity).noteGraph root)) machine (.ok ()) :=
  tells_lift fun before => run_noteGraph (machine.having before) verbosity root

end

/-! ## Commands -/

section

variable (machine) (verbosity : Nat) (config : Config) (choice : TargetChoice)

/-- A target's plan and its stage. -/
def foundTarget : Except Failure (LoadedPlan × Stage) := do
  let loaded ← machine.openedPlan config choice.file
  let stage ← loaded.plan.stage choice.target
  return (loaded, stage)

theorem foundTarget_bind {γ : Type} (next : LoadedPlan × Stage → Except Failure γ) :
    machine.foundTarget config choice >>= next =
      (machine.openedPlan config choice.file >>= fun loaded =>
        loaded.plan.stage choice.target >>= fun stage => next (loaded, stage)) := by
  simp only [foundTarget, bind_assoc, pure_bind]

/-- The manifest that is shown for a target. -/
def shownManifest : Except Failure String := do
  let (_, stage) ← machine.foundTarget config choice
  (Manifest.solve config.build.frontend stage).mapError Failure.graph

/-- Finding the manifest of a target, which is all of showing it but the printing. -/
def findManifest : ExceptT Failure (StateM Machine) String := do
  let loaded ← (host.withVerbosity verbosity).openPlan config choice.file
  let stage ← ExceptT.mk (pure (loaded.plan.stage choice.target))
  (host.withVerbosity verbosity).noteGraph stage
  ExceptT.mk (pure ((Manifest.solve config.build.frontend stage).mapError Failure.graph))

theorem previewTarget_eq :
    (host.withVerbosity verbosity).previewTarget config choice =
      findManifest verbosity config choice >>= fun manifest =>
        liftM ((host.withVerbosity verbosity).print manifest) := by
  simp only [bind_assoc, Host.previewTarget, findManifest]

theorem tells_findManifest :
    Tells (findManifest verbosity config choice) machine (machine.shownManifest config choice) := by
  rw [shownManifest, foundTarget_bind]
  refine (tells_openPlan machine verbosity config choice.file).bind fun loaded _ => ?_
  refine (tells_mk_pure _).bind fun stage _ => ?_
  exact (tells_noteGraph machine verbosity stage).bind_ok (tells_mk_pure _)

/-- **A target is shown by printing its manifest**, or not at all. -/
theorem run_previewTarget :
    ∃ lines, ((host.withVerbosity verbosity).previewTarget config choice).run.run machine =
      match machine.shownManifest config choice with
      | .ok manifest => (.ok (), (machine.having lines).printing manifest)
      | .error failure => (.error failure, machine.having lines) := by
  obtain ⟨lines, runs⟩ := (tells_findManifest machine verbosity config choice).run
  refine ⟨lines, ?_⟩
  rw [previewTarget_eq, run_bind, runs]
  cases machine.shownManifest config choice with
  | error failure => rfl
  | ok manifest => exact yields_print _ verbosity manifest

/-- What an operation on a target asks for. -/
def askedFor {α : Type} (operation : LoadedPlan → Stage → Except GraphError (EngineCall × α)) :
    Except Failure (EngineKind × EngineCall) := do
  let (loaded, stage) ← machine.foundTarget config choice
  let kind ← machine.engineFor config
  ((operation loaded stage).mapError Failure.graph).map fun made => (kind, made.1)

/-- The operation of a build. -/
def buildOperation (tag : Option String) (push : Bool) (loaded : LoadedPlan) (stage : Stage) :
    Except GraphError (EngineCall × String) :=
  (BuildSettings.of config loaded.plan).buildCall (Host.retagged stage tag) push

/-- The operation of a run. -/
def runOperation (loaded : LoadedPlan) (stage : Stage) : Except GraphError (EngineCall × Unit) :=
  (BuildSettings.of config loaded.plan).runCall stage

theorem asks_buildTarget (tag : Option String) (push : Bool) :
    Asks (fun engines =>
        (host.withVerbosity verbosity).buildTargetWith engines config choice tag push)
      machine (machine.askedFor config choice (buildOperation config tag push)) := by
  unfold Host.buildTargetWith
  rw [askedFor, foundTarget_bind]
  refine Asks.of_tells (tells_openPlan machine verbosity config choice.file)
    (fun loaded _ => ?_) machine.reported
  refine Asks.of_tells (tells_mk_pure _) fun found _ => ?_
  refine Asks.of_tells (tells_openEngine machine verbosity config) fun kind _ lines => ?_
  refine .of_yields (yields_print _ verbosity _) ?_
  obtain ⟨noted, notes⟩ := (tells_noteGraph _ verbosity (Host.retagged found tag)).run
  refine .of_yields notes ?_
  dsimp only
  unfold buildOperation
  generalize (BuildSettings.of config loaded.plan).buildCall _ push = operation
  cases operation with
  | error failure => exact asks_perform (.error failure) _
  | ok made =>
      obtain ⟨told, tells⟩ := (tells_note verbosity .detail
        ("Build tag for " ++ (Host.retagged found tag).name ++ ": " ++ made.2)).run
      exact .of_yields tells (asks_perform (.ok made) _)

theorem asks_runTarget :
    Asks (fun engines => (host.withVerbosity verbosity).runTargetWith engines config choice)
      machine (machine.askedFor config choice (runOperation config)) := by
  unfold Host.runTargetWith
  rw [askedFor, foundTarget_bind]
  refine Asks.of_tells (tells_openPlan machine verbosity config choice.file)
    (fun loaded _ => ?_) machine.reported
  refine Asks.of_tells (tells_mk_pure _) fun stage _ => ?_
  refine Asks.of_tells (tells_openEngine machine verbosity config) fun kind _ lines => ?_
  refine .withTask _ verbosity ?_
  obtain ⟨noted, notes⟩ := (tells_noteGraph _ verbosity stage).run
  simp only [mk_bind]
  refine .of_yields notes ?_
  exact asks_performed _

end

/-! ## The same manifest -/

section

variable {config : Config} {choice : TargetChoice}

/-- **The settings for builds of a plan solve with the configured frontend**, as showing does, in
whatever directory the plan is. -/
theorem manifest_of (config : Config) (plan : Plan) (stage : Stage) :
    (BuildSettings.of config plan).manifest stage = Manifest.solve config.build.frontend stage :=
  rfl

/-- A stage that may have been given a tag keeps its manifest. -/
theorem manifest_retagged {settings : BuildSettings} {stage : Stage} (coherent : stage.Coherent)
    (tag : Option String) :
    settings.manifest (Host.retagged stage tag) = settings.manifest stage := by
  cases tag with
  | none => rfl
  | some tag => exact Manifest.solve_withTag coherent settings.frontend tag

section

variable {α : Type} {operation : LoadedPlan → Stage → Except GraphError (EngineCall × α)}
  {loaded : LoadedPlan} {stage : Stage}

theorem foundTarget_of_ok (opened : machine.openedPlan config choice.file = .ok loaded)
    (found : loaded.plan.stage choice.target = .ok stage) :
    machine.foundTarget config choice = .ok (loaded, stage) := by
  unfold foundTarget
  rw [opened]
  change (loaded.plan.stage choice.target >>= _) = _
  rw [found]
  rfl

theorem askedFor_of_ok (found : machine.foundTarget config choice = .ok (loaded, stage))
    {call : EngineCall} {answer : α} (made : operation loaded stage = .ok (call, answer)) :
    machine.askedFor config choice operation =
      (machine.engineFor config).map fun kind => (kind, call) := by
  unfold askedFor
  rw [found]
  change (machine.engineFor config >>= _) = _
  rw [made]
  cases machine.engineFor config <;> rfl

/-- An operation without a call asks for nothing and fails for its own reason, once there is an
engine. -/
theorem askedFor_of_error (found : machine.foundTarget config choice = .ok (loaded, stage))
    {reason : GraphError} (fails : operation loaded stage = .error reason) :
    ∃ other, machine.askedFor config choice operation = .error other ∧
      ∀ kind, machine.engineFor config = .ok kind → other = .graph reason := by
  unfold askedFor
  rw [found]
  change ∃ other, (machine.engineFor config >>= _) = _ ∧ _
  rw [fails]
  cases machine.engineFor config with
  | error failure => exact ⟨failure, rfl, nofun⟩
  | ok kind => exact ⟨_, rfl, fun _ _ => rfl⟩

theorem askedFor_of_not_found {failure : Failure}
    (missing : machine.foundTarget config choice = .error failure) :
    machine.askedFor config choice operation = .error failure := by
  unfold askedFor
  rw [missing]
  rfl

theorem shownManifest_of_found (found : machine.foundTarget config choice = .ok (loaded, stage)) :
    machine.shownManifest config choice =
      (Manifest.solve config.build.frontend stage).mapError Failure.graph := by
  unfold shownManifest
  rw [found]
  rfl

theorem opened_of_foundTarget (found : machine.foundTarget config choice = .ok (loaded, stage)) :
    machine.openedPlan config choice.file = .ok loaded ∧
      loaded.plan.stage choice.target = .ok stage := by
  obtain ⟨opened, isLoaded, found⟩ := Toml.exists_of_bind_eq_ok found
  obtain ⟨kept, isStage, found⟩ := Toml.exists_of_bind_eq_ok found
  cases found
  exact ⟨isLoaded, isStage⟩

theorem coherent_of_found (found : machine.foundTarget config choice = .ok (loaded, stage)) :
    stage.Coherent := by
  obtain ⟨isLoaded, isStage⟩ := opened_of_foundTarget found
  exact (assembled_of_planAt isLoaded isStage).coherent

end

/-- **What is asked for is the manifest that is shown**, once there is an engine. -/
theorem asked_of_shown {manifest : String}
    (shown : machine.shownManifest config choice = .ok manifest) :
    ∃ context, (∀ tag push, ∃ used, (∀ given, tag = some given → used = given) ∧
        machine.askedFor config choice (buildOperation config tag push) =
          (machine.engineFor config).map fun kind =>
            (kind, .build manifest { context := context, tag := some used, push := push })) ∧
      machine.askedFor config choice (runOperation config) =
        (machine.engineFor config).map fun kind =>
          (kind, .build manifest { context := context, quiet := true }) := by
  cases found : machine.foundTarget config choice with
  | error failure =>
      rw [shownManifest, found] at shown
      cases shown
  | ok target =>
      obtain ⟨loaded, stage⟩ := target
      have coherent := coherent_of_found found
      rw [shownManifest_of_found found] at shown
      have solved := Toml.mapError_eq_ok_iff.mp shown
      refine ⟨loaded.plan.projectDirectory, fun tag push => ?_, ?_⟩
      · have made :=
          (BuildSettings.of config loaded.plan).buildCall_eq (Host.retagged stage tag) push
        rw [manifest_retagged coherent, manifest_of, solved] at made
        refine ⟨_, ?_, askedFor_of_ok found made⟩
        rintro given rfl
        rfl
      · have made := (BuildSettings.of config loaded.plan).runCall_eq stage
        rw [manifest_of, solved] at made
        exact askedFor_of_ok found made

/-- **Without a manifest to show, nothing is asked for**, and the failure is the one that is shown
once there is an engine. -/
theorem asked_of_not_shown {failure : Failure}
    (fails : machine.shownManifest config choice = .error failure) :
    (∀ tag push, ∃ other,
        machine.askedFor config choice (buildOperation config tag push) = .error other ∧
        ∀ kind, machine.engineFor config = .ok kind → other = failure) ∧
      ∃ other, machine.askedFor config choice (runOperation config) = .error other ∧
        ∀ kind, machine.engineFor config = .ok kind → other = failure := by
  cases found : machine.foundTarget config choice with
  | error reason =>
      rw [shownManifest, found] at fails
      cases fails
      exact ⟨fun _ _ => ⟨_, askedFor_of_not_found found, fun _ _ => rfl⟩,
        _, askedFor_of_not_found found, fun _ _ => rfl⟩
  | ok target =>
      obtain ⟨loaded, stage⟩ := target
      have coherent := coherent_of_found found
      rw [shownManifest_of_found found] at fails
      cases solved : Manifest.solve config.build.frontend stage with
      | ok manifest =>
          rw [solved] at fails
          cases fails
      | error reason =>
          rw [solved] at fails
          cases fails
          refine ⟨fun tag push => ?_, ?_⟩
          · have missing :=
              (BuildSettings.of config loaded.plan).buildCall_eq (Host.retagged stage tag) push
            rw [manifest_retagged coherent, manifest_of, solved] at missing
            exact askedFor_of_error found missing
          · have missing := (BuildSettings.of config loaded.plan).runCall_eq stage
            rw [manifest_of, solved] at missing
            exact askedFor_of_error found missing

end

/-- **What is shown for a target is what engines get for it.**  If its manifest is printed, a build
with any tag and a run ask the configured engine once to build this manifest, if there is the
engine; if it fails to be shown, they fail as well and ask no engine.  On any stage, each operation
makes one call, or none if there is no manifest, and what is pushed is the tag that is built. -/
theorem engines_get_what_is_shown (machine : Machine) (verbosity : Nat) (config : Config)
    (choice : TargetChoice) :
    (∀ after, Yields ((host.withVerbosity verbosity).previewTarget config choice) machine () after →
      ∃ manifest context, after.printed = machine.printed ++ [manifest] ∧
        (∀ tag push, ∃ used, (∀ given, tag = some given → used = given) ∧
          Asks (fun engines =>
              (host.withVerbosity verbosity).buildTargetWith engines config choice tag push)
            machine ((machine.engineFor config).map fun kind =>
              (kind, .build manifest { context := context, tag := some used, push := push }))) ∧
        Asks (fun engines => (host.withVerbosity verbosity).runTargetWith engines config choice)
          machine ((machine.engineFor config).map fun kind =>
            (kind, .build manifest { context := context, quiet := true }))) ∧
    (∀ failure after,
      ((host.withVerbosity verbosity).previewTarget config choice).run.run machine =
          (.error failure, after) →
        (∀ tag push, ∃ other,
          Asks (fun engines =>
              (host.withVerbosity verbosity).buildTargetWith engines config choice tag push)
            machine (.error other) ∧
          ∀ kind, machine.engineFor config = .ok kind → other = failure) ∧
        ∃ other,
          Asks (fun engines => (host.withVerbosity verbosity).runTargetWith engines config choice)
            machine (.error other) ∧
          ∀ kind, machine.engineFor config = .ok kind → other = failure) ∧
    ∀ (settings : BuildSettings) (stage : Stage) (push : Bool) (directory : HostPath),
      Engine.PerformsOnce (settings.buildCall stage push) (settings.manifest stage)
        (fun manifest => .build manifest
          { context := settings.context, tag := some (settings.imageTag stage manifest),
            push := push })
        (settings.imageTag stage) ∧
      Engine.PerformsOnce (settings.pushCall stage) (settings.manifest stage)
        (fun manifest => .push (settings.imageTag stage manifest)) (settings.imageTag stage) ∧
      Engine.PerformsOnce (settings.runCall stage) (settings.manifest stage)
        (fun manifest => .build manifest { context := settings.context, quiet := true })
        (fun _ => ()) ∧
      Engine.PerformsOnce (settings.saveCall stage directory) (settings.manifest stage)
        (fun manifest => .build manifest
          { context := settings.context, quiet := true, output := some directory })
        (fun _ => ()) := by
  obtain ⟨lines, runs⟩ := run_previewTarget machine verbosity config choice
  refine ⟨fun after yields => ?_, fun failure after fails => ?_,
    fun settings stage push directory => settings.performsOnce stage push directory⟩
  · cases shown : machine.shownManifest config choice with
    | error failure =>
        rw [Yields, runs, shown] at yields
        cases yields
    | ok manifest =>
        rw [Yields, runs, shown] at yields
        cases yields
        obtain ⟨context, build, run⟩ := asked_of_shown shown
        refine ⟨manifest, context, rfl, fun tag push => ?_, ?_⟩
        · obtain ⟨used, given, asked⟩ := build tag push
          exact ⟨used, given, asked ▸ asks_buildTarget machine verbosity config choice tag push⟩
        · exact run ▸ asks_runTarget machine verbosity config choice
  · cases shown : machine.shownManifest config choice with
    | ok manifest =>
        rw [runs, shown] at fails
        cases fails
    | error reason =>
        rw [runs, shown] at fails
        cases fails
        obtain ⟨build, other, asked, same⟩ := asked_of_not_shown shown
        refine ⟨fun tag push => ?_, other, ?_, same⟩
        · obtain ⟨other, asked, same⟩ := build tag push
          exact ⟨other, asked ▸ asks_buildTarget machine verbosity config choice tag push, same⟩
        · exact asked ▸ asks_runTarget machine verbosity config choice

end StageManifest.Machine

/-! ## A target on a machine with an engine -/

namespace StageManifest

namespace CachedBuild

/-- The machine with an engine that answers. -/
def equipped : Machine := { machine with programs := [("docker", {})] }

/-- The only target, in the configured build file. -/
def choice : TargetChoice := ⟨none, "default"⟩

theorem opened_eq :
    equipped.openedPlan {} choice.file = equipped.planAt (.ofText "build.toml") false := by
  unfold Machine.openedPlan choice
  rfl

theorem read : (equipped.content? (.ofText "build.toml")).bind Text.decode? = some text := by
  have located : equipped.files.locate? equipped.here (.ofText "build.toml") = some place := by
    decide
  exact Machine.readText_eq_some_iff.mpr ⟨place, located, by decide⟩

/-- The only target is found and has a manifest. -/
theorem exists_foundTarget : ∃ loaded stage manifest,
    equipped.foundTarget {} choice = .ok (loaded, stage) ∧
      (BuildSettings.of {} loaded.plan).manifest stage = .ok manifest := by
  obtain ⟨loaded, held, targets⟩ :=
    Machine.exists_planAt_of_resolvable read parsed resolvable (by decide) false
  obtain ⟨stage, found, solves⟩ := targets "default"
    (Entries.mem_keys_of_find? (find?_eq_some_iff.mpr ⟨rfl, rfl⟩))
  obtain ⟨manifest, solved⟩ := solves ({} : Config).build.frontend
  exact ⟨loaded, stage, manifest, Machine.foundTarget_of_ok (opened_eq.trans held) found, solved⟩

/-- The manifest of the only target is shown. -/
theorem exists_shown : ∃ manifest, equipped.shownManifest {} choice = .ok manifest := by
  obtain ⟨loaded, stage, manifest, found, solved⟩ := exists_foundTarget
  refine ⟨manifest, ?_⟩
  rw [Machine.shownManifest_of_found found]
  exact Toml.mapError_eq_ok_iff.mpr solved

/-- A file that is not there. -/
def missing : TargetChoice := ⟨some (.ofText "other.toml"), "default"⟩

theorem not_shown :
    equipped.shownManifest {} missing = .error (.planNotFound (.ofText "other.toml")) := by
  have absent : equipped.files.find? equipped.here (.ofText "other.toml") = none := by decide
  have held : equipped.planAt (.ofText "other.toml") false =
      .error (.planNotFound (.ofText "other.toml")) := by
    unfold Machine.planAt
    rw [absent]
    rfl
  unfold Machine.shownManifest Machine.foundTarget Machine.openedPlan missing
  dsimp only [Option.getD_some]
  rw [held]
  rfl

theorem engineFor_equipped : equipped.engineFor {} = .ok .docker := by
  have answers : ((Machine.host.hasEngine .docker).run equipped).1 = true := by
    rw [Machine.run_hasEngine]
    rfl
  exact Machine.engineFor_of_answers _ _ rfl answers

end CachedBuild

/-- The engine of the machine gets the manifest that is shown for the target, in a build under the
given tag and in a run; for a file that is not there it gets nothing, and for a stage with a
collision below it no operation makes a call. -/
theorem Machine.engine_gets_what_is_shown_for_default :
    (∃ manifest context after,
      Yields ((host.withVerbosity 2).previewTarget {} CachedBuild.choice) CachedBuild.equipped ()
        after ∧
      after.printed = [manifest] ∧
      Asks (fun engines => (host.withVerbosity 2).buildTargetWith engines {} CachedBuild.choice
          (some "app") true) CachedBuild.equipped
        (.ok (.docker, .build manifest { context := context, tag := some "app", push := true })) ∧
      Asks (fun engines => (host.withVerbosity 2).runTargetWith engines {} CachedBuild.choice)
        CachedBuild.equipped
        (.ok (.docker, .build manifest { context := context, quiet := true }))) ∧
    (∃ after,
      ((host.withVerbosity 2).previewTarget {} CachedBuild.missing).run.run CachedBuild.equipped =
        (.error (.planNotFound (.ofText "other.toml")), after) ∧
      Asks (fun engines => (host.withVerbosity 2).runTargetWith engines {} CachedBuild.missing)
        CachedBuild.equipped (.error (.planNotFound (.ofText "other.toml")))) ∧
    ∀ settings : BuildSettings,
      settings.manifest Relinking.top = .error (.nameCollision "user") ∧
      ∃ manifest, settings.manifest Diamond.top = .ok manifest ∧
      ∀ (engine : Engine Id) push,
        (engine.recorded.perform (settings.buildCall Relinking.top push)).run [] =
          pure (.error (.graph (.nameCollision "user")), []) ∧
        (engine.recorded.perform (settings.pushCall Diamond.top)).run [] =
          (fun result => (result.map fun _ => settings.imageTag Diamond.top manifest,
            [.push (settings.imageTag Diamond.top manifest)])) <$>
            engine.call (.push (settings.imageTag Diamond.top manifest)) := by
  have results := engines_get_what_is_shown CachedBuild.equipped 2 {}
  have unprinted : CachedBuild.equipped.printed = [] := rfl
  have engine := CachedBuild.engineFor_equipped
  have missing := CachedBuild.not_shown
  obtain ⟨manifest, shown⟩ := CachedBuild.exists_shown
  generalize CachedBuild.equipped = machine at *
  refine ⟨?_, ?_, fun settings => ?_⟩
  · obtain ⟨lines, runs⟩ := run_previewTarget machine 2 {} CachedBuild.choice
    rw [shown] at runs
    obtain ⟨printed, context, prints, build, run⟩ := (results CachedBuild.choice).1 _ runs
    obtain ⟨used, given, asks⟩ := build (some "app") true
    rw [engine] at asks run
    rw [unprinted] at prints
    cases given "app" rfl
    exact ⟨printed, context, _, runs, prints, asks, run⟩
  · obtain ⟨lines, runs⟩ := run_previewTarget machine 2 {} CachedBuild.missing
    rw [missing] at runs
    obtain ⟨_, other, asks, same⟩ := (results CachedBuild.missing).2.1 _ _ runs
    cases same .docker engine
    exact ⟨_, runs, asks⟩
  · have fails : settings.manifest Relinking.top = .error (.nameCollision "user") :=
      Manifest.solve_of_discover_error Relinking.discover_top settings.frontend
    have solved : settings.manifest Diamond.top = .ok (Manifest.ofStages settings.frontend
        [Diamond.shared, Diamond.left, Diamond.right, Diamond.top]) :=
      Manifest.solve_eq_ok_iff.mpr
        ⟨Diamond.graph, _, Diamond.discovered, Diamond.ordered, rfl⟩
    refine ⟨fails, _, solved, fun engine push => ⟨?_, ?_⟩⟩
    · have build := ((results CachedBuild.choice).2.2 settings Relinking.top push (.ofText ".")).1
      exact (build Id engine []).1 _ fails
    · have pushes := ((results CachedBuild.choice).2.2 settings Diamond.top push (.ofText ".")).2.1
      exact (pushes Id engine []).2 _ solved

end StageManifest
