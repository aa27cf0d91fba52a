import StageManifest.Proofs.Action.Targets
import StageManifest.Proofs.Engine.Programs
import StageManifest.Proofs.Graph.Continuation

/-!
# Saving a path of a target

A path is saved by building a new stage that holds nothing but the path.  The stage
continues the one that has the path, if the name that is drawn for it is new
(`continues_exportStage`).  The names that a plan draws are those of its stages, and
a counter does not come to one of them again while there are numbers left, so what
is exported from a target continues it.  Hence an engine gets the manifest of the
target with one more block (`Plan.saveCall_of_load`), and saving never fails for a
reason that has to do with stages.
-/

set_option autoImplicit false

namespace StageManifest

/-! ## New stages on a base -/

namespace Stage.Continues

variable {stage base : Stage}

/-- A stage that grows without copying from others goes on continuing its base. -/
theorem grow (continues : stage.Continues base) (growth : Growth)
    (alone : growth.linked stage = []) (bench : Workbench) :
    ((growth.apply stage).run bench).1.Continues base := by
  have grows := growth.grown stage bench
  refine ⟨?_, grows.name.symm ▸ continues.avoids⟩
  rw [grows.dependencies, alone, List.append_nil, continues.dependencies]

/-- A stage that is made on another one continues it, if its name is new. -/
theorem fromStage {bench : Workbench} (new : base.Avoids bench.names.next.1) :
    ((Stage.fromStage base).run bench).1.Continues base :=
  ⟨Chain.toList_push _ _ _, new⟩

end Stage.Continues

/-- A stage that holds a path of another one continues it, if its name is new. -/
theorem continues_exportStage {source : Stage} {bench : Workbench}
    (new : source.Avoids bench.names.next.1) (path : String) :
    ((exportStage (source.saveArtifact path)).run bench).1.Continues source :=
  ⟨Chain.toList_push _ _ _, new⟩

namespace ResolveContext.Complete

variable {definitions : Entries StageDefinition} {names : NameSource}
  {collected : Entries Stage} {state : Resolution} {key : String} {stage : Stage}

/-- There are as many stages as definitions. -/
theorem size_eq (complete : Complete definitions names collected state) :
    collected.size = definitions.size := by
  have same : collected.keys.Perm definitions.keys := by
    refine (List.perm_ext_iff_of_nodup collected.nodup_keys definitions.nodup_keys).mpr
      fun key => ⟨fun isKey => ?_, fun isKey => ?_⟩
    · obtain ⟨stage, found⟩ := Entries.exists_find?_of_mem_keys isKey
      exact complete.perm_keys.mem_iff.mp (List.mem_map_of_mem (complete.recorded found))
    · obtain ⟨stage, found⟩ := complete.all key isKey
      exact Entries.mem_keys_of_find? found
  have length := same.length_eq
  rwa [Entries.keys, Entries.keys, List.length_map, List.length_map] at length

/-- What is exported from a stage at the end of resolution is assembled. -/
theorem assembled_export (complete : Complete definitions names collected state)
    (found : collected.find? key = some stage) (path : String) :
    ((exportStage (stage.saveArtifact path)).run state.bench).1.Assembled := by
  obtain ⟨stages, progress⟩ := complete.progress
  have started := progress.session.perform (.onImage "scratch") nofun
  have isAtHand := progress.atHand key stage (complete.find?_eq key ▸ found)
  have grown := started.perform (.grow ((StageJob.onImage "scratch").perform.run state.bench).1
    (.copyArtifact ⟨stage, path⟩ "./" none))
  refine ⟨_, _, grown ?_, List.mem_cons_self⟩
  intro input isInput
  rcases List.mem_cons.mp isInput with rfl | isInput
  · exact List.mem_cons_self
  · exact List.mem_cons_of_mem _ (List.mem_singleton.mp isInput ▸ isAtHand)

/-- The next name is not that of a stage below a target. -/
theorem avoids_next (complete : Complete definitions names collected state)
    (unique : (names.firstNames (definitions.size + 1)).Nodup)
    (found : collected.find? key = some stage) : stage.Avoids state.bench.names.next.1 := by
  rw [NameSource.firstNames_succ, ← complete.drawn.1, ← complete.drawn.2] at unique
  have isNew := (List.nodup_append.mp unique).2.2
  intro below reaches same
  obtain ⟨needed, _, isBelow⟩ := (complete.reaches_iff
    (complete.drawn.2 ▸ (List.nodup_append.mp unique).1) found below).mp reaches
  have drawn : below.name ∈ state.begun.map (·.2) :=
    List.mem_map_of_mem (complete.recorded isBelow)
  exact isNew _ drawn _ (List.mem_singleton.mpr rfl) same

end ResolveContext.Complete

/-! ## Targets of plans -/

namespace Plan

variable {text stem : String} {drawn : UInt64} {path directory : HostPath} {stableCacheIds : Bool}
  {plan : Plan} {reached : Resolution}

theorem size_eq_of_load {file : PlanFile} {names : NameSource}
    (parsed : PlanFile.parse text = .ok file)
    (loaded : load names text path directory stableCacheIds = (.ok plan, reached)) :
    plan.stages.size = file.stages.size :=
  ((ends_parse parsed names path directory stableCacheIds).of_ok loaded).size_eq

theorem exists_stage_of_load {file : PlanFile} {names : NameSource}
    (parsed : PlanFile.parse text = .ok file)
    (loaded : load names text path directory stableCacheIds = (.ok plan, reached)) {key : String}
    (isKey : key ∈ file.stages.keys) : ∃ stage, plan.stage key = .ok stage := by
  have complete := (ends_parse parsed names path directory stableCacheIds).of_ok loaded
  obtain ⟨stage, found⟩ := complete.all key isKey
  exact ⟨stage, stage_eq_ok_iff.mpr found⟩

/-- **What is saved of a target has the manifest of the target with one more block**, if the names
are numbered and the plan has fewer stages than there are numbers. -/
theorem saveCall_of_load
    (loaded : load (.numbered stem drawn) text path directory stableCacheIds = (.ok plan, reached))
    (few : plan.stages.size < UInt64.size) {target : String} {stage : Stage}
    (found : plan.stage target = .ok stage) (settings : BuildSettings) (inside : String)
    (output : HostPath) :
    ∃ manifest, settings.manifest stage = .ok manifest ∧
      settings.saveCall ((exportStage (stage.saveArtifact inside)).run reached.bench).1 output =
        .ok (.build
          (manifest ++ "\n\n" ++
            ((exportStage (stage.saveArtifact inside)).run reached.bench).1.text)
          { context := settings.context, quiet := true, output := some output }, ()) := by
  obtain ⟨_, file, _, _, parsed⟩ := exists_parsed (congrArg Prod.fst loaded)
  have complete := (ends_parse parsed _ path directory stableCacheIds).of_ok loaded
  have isKept := stage_eq_ok_iff.mp found
  have unique : ((NameSource.numbered stem drawn).firstNames (file.stages.size + 1)).Nodup :=
    NameSource.nodup_firstNames_numbered stem drawn
      (Nat.succ_le_of_lt (complete.size_eq ▸ few))
  have once : ((NameSource.numbered stem drawn).firstNames file.stages.size).Nodup :=
    (List.nodup_append.mp (NameSource.firstNames_succ _ _ ▸ unique)).1
  obtain ⟨blocks, _, solved⟩ := complete.exists_manifest once isKept
  have exported : settings.manifest _ = _ := Manifest.solve_of_continues
    (complete.assembled_export isKept inside).coherent
    (continues_exportStage (complete.avoids_next unique isKept) inside) settings.frontend
  rw [solved settings.frontend] at exported
  refine ⟨_, solved settings.frontend, ?_⟩
  rw [settings.saveCall_eq, exported]
  rfl

end Plan

/-! ## What engines answer -/

/-- An answer that is not a failure of a graph of stages. -/
def Spares {α : Type} (answer : Except Failure α) : Prop :=
  ∀ error, answer ≠ .error (.graph error)

theorem Spares.error {α β : Type} {failure : Failure}
    (spares : Spares (.error failure : Except Failure α)) :
    Spares (.error failure : Except Failure β) := by
  rintro error ⟨⟩
  exact spares error rfl

namespace Machine

variable (host : Host (StateM Machine)) (tell : String → StateM Machine Unit)

theorem answers_stageManifest (manifest : String) :
    Answers Spares (host.stageManifest manifest) := by
  intro machine error same
  obtain ⟨_, never⟩ := host.answers_stageManifest manifest machine _ same
  cases never

theorem answers_runTelling (program : String) (arguments : List String) :
    Answers Spares (host.runTelling tell program arguments) := by
  refine (host.answers_spawn program arguments).bind fun answer fails => ?_
  split
  next failure =>
    refine answers_pure fun error same => ?_
    rcases fails failure rfl with rfl | rfl <;> cases same
  next => exact (answers_any _).bind fun _ _ => answers_pure nofun

/-- **Engines that are programs do not fail because of a graph of stages.** -/
theorem answers_call (kind : EngineKind) (call : EngineCall) :
    Answers Spares ((host.engine kind tell).call call) := by
  cases call with
  | build manifest request =>
      refine (answers_stageManifest host manifest).bind fun staged spares => ?_
      split
      · exact answers_pure spares.error
      refine (answers_any _).bind fun _ _ => ?_
      refine (answers_runTelling host tell _ _).bind fun result spares => ?_
      refine (answers_any _).bind fun _ _ => ?_
      split
      · exact answers_pure spares.error
      · exact answers_pure nofun
      · exact answers_pure nofun
  | push tag =>
      refine (answers_any _).bind fun _ _ => ?_
      refine (answers_runTelling host tell _ _).bind fun result spares => ?_
      split
      · exact answers_pure spares.error
      · exact answers_pure nofun
      · exact answers_pure nofun

/-! ## Answers of engines that are passed on -/

/-- One engine gets one call, and the work answers what the engine does. -/
def Relays (work : EngineWork) (machine : Machine) (kind : EngineKind) (call : EngineCall) : Prop :=
  ∃ (tell : String → StateM Machine Unit) (ready : Machine),
    ∀ engines, ((work engines).run.run machine).1 = (((engines kind tell).call call).run ready).1

section

variable {α : Type} {machine : Machine} {kind : EngineKind} {call : EngineCall}

theorem Relays.of_yields {work : ExceptT Failure (StateM Machine) α} {next : α → EngineWork}
    {first : α} {middle : Machine} (yields : Yields work machine first middle)
    (relays : Relays (next first) middle kind call) :
    Relays (fun engines => work >>= (next · engines)) machine kind call := by
  obtain ⟨tell, ready, same⟩ := relays
  refine ⟨tell, ready, fun engines => ?_⟩
  rw [run_bind, yields]
  exact same engines

theorem relays_performed (tell : String → StateM Machine Unit) :
    Relays (fun engines => ExceptT.mk ((engines kind tell).perform (.ok (call, ())))) machine kind
      call := by
  refine ⟨tell, machine, fun engines => ?_⟩
  dsimp only
  rw [Engine.perform_ok, ExceptT.run_mk, StateT.run_map]
  rcases ((engines kind tell).call call).run machine with ⟨failure | ⟨⟩, after⟩ <;> rfl

/-- A task passes on what is passed on between its lines. -/
theorem Relays.withTask (verbosity : Nat) {label done : String}
    {task : (EngineKind → (String → StateM Machine Unit) → Engine (StateM Machine)) →
      StateM Machine (Except Failure Unit)}
    (relays : Relays (fun engines => ExceptT.mk (task engines))
      (machine.printing (startedLine label)) kind call) :
    Relays
      (fun engines => (Machine.host.withVerbosity verbosity).withTask label done (task engines))
      machine kind call := by
  obtain ⟨tell, ready, same⟩ := relays
  refine ⟨tell, ready, fun engines => ?_⟩
  rw [run_withTask, ← same engines]
  change _ = ((task engines).run (machine.printing (startedLine label))).1
  generalize (task engines).run (machine.printing (startedLine label)) = ended
  obtain ⟨failure | ⟨⟩, after⟩ := ended <;> rfl

end

/-! ## Saving on a machine -/

section

variable (machine : Machine) (verbosity : Nat) (config : Config) (choice : TargetChoice)
  (inside : String) (output : HostPath)

/-- The operation of saving a path. -/
def saveOperation (loaded : LoadedPlan) (stage : Stage) : Except GraphError (EngineCall × Unit) :=
  (BuildSettings.of config loaded.plan).saveCall
    ((exportStage (stage.saveArtifact inside)).run loaded.bench).1 output

theorem asks_saveTarget :
    Asks (fun engines =>
        (Machine.host.withVerbosity verbosity).saveTargetWith engines config choice inside output)
      machine (machine.askedFor config choice (saveOperation config inside output)) := by
  unfold Host.saveTargetWith
  rw [askedFor, foundTarget_bind]
  refine Asks.of_tells (tells_openPlan machine verbosity config choice.file)
    (fun loaded _ => ?_) machine.reported
  refine Asks.of_tells (tells_mk_pure _) fun stage _ => ?_
  refine Asks.of_tells (tells_openEngine machine verbosity config) fun kind _ lines => ?_
  refine .withTask _ verbosity ?_
  obtain ⟨noted, notes⟩ := (tells_noteGraph _ verbosity _).run
  simp only [mk_bind]
  refine .of_yields notes ?_
  exact asks_performed _

/-- The engine is there or not, whatever the stages are. -/
theorem spares_engineFor : Spares (machine.engineFor config) := by
  unfold engineFor EngineConfig.kind
  cases config.engine.kind? with
  | none => exact nofun
  | some kind =>
      change Spares (if _ then _ else _)
      split
      · exact nofun
      · exact nofun

variable {machine config choice}

/-- **What saving answers is what the engine answers to its call.** -/
theorem relays_saveTarget {loaded : LoadedPlan} {stage : Stage} {kind : EngineKind}
    {call : EngineCall} (found : machine.foundTarget config choice = .ok (loaded, stage))
    (engine : machine.engineFor config = .ok kind)
    (made : saveOperation config inside output loaded stage = .ok (call, ())) :
    Relays (fun engines =>
        (Machine.host.withVerbosity verbosity).saveTargetWith engines config choice inside output)
      machine kind call := by
  obtain ⟨isOpened, isStage⟩ := opened_of_foundTarget found
  obtain ⟨opened, opens⟩ := (tells_openPlan machine verbosity config choice.file).run
  obtain ⟨started, starts⟩ := tells_openEngine machine verbosity config opened
  rw [isOpened] at opens
  rw [engine] at starts
  unfold Host.saveTargetWith
  refine .of_yields opens ?_
  rw [isStage]
  refine .of_yields rfl (.of_yields starts (.withTask verbosity ?_))
  obtain ⟨noted, notes⟩ := (tells_noteGraph _ verbosity _).run
  simp only [mk_bind]
  refine .of_yields notes ?_
  unfold saveOperation at made
  rw [made]
  exact relays_performed _

end

end Machine

/-- **Solving is compositional at the root.**  A stage that continues a base has the manifest of the
base with its own block at the end, or the base's failure, and so have stages that are made on a
base and those that hold a path of one, if their names are new.  The next name of a counter is new
after a plan was loaded with it, as long as there are numbers left: so whatever is saved of a
target, an engine is asked to build the manifest of the target with one more block, and saving does
not fail because of a graph of stages. -/
theorem Manifest.solve_composes_at_root :
    (∀ (root base : Stage) (frontend : String), root.Assembled → root.Continues base →
      solve frontend root =
        (solve frontend base).map fun manifest => manifest ++ "\n\n" ++ root.text) ∧
    (∀ (base : Stage) (bench : Workbench), base.Avoids bench.names.next.1 →
      (∀ instructions, ((Stage.fromStage base >>= fun stage =>
        stage.pushAll instructions).run bench).1.Continues base) ∧
      ∀ path, ((exportStage (base.saveArtifact path)).run bench).1.Continues base) ∧
    (∀ stem drawn text path directory stableCacheIds plan reached,
      Plan.load (.numbered stem drawn) text path directory stableCacheIds = (.ok plan, reached) →
      plan.stages.size < UInt64.size →
      ∀ target stage, plan.stage target = .ok stage →
      ∀ (settings : BuildSettings) (inside : String) (output : HostPath),
      ∃ manifest, settings.manifest stage = .ok manifest ∧
        settings.saveCall ((exportStage (stage.saveArtifact inside)).run reached.bench).1 output =
          .ok (.build
            (manifest ++ "\n\n" ++
              ((exportStage (stage.saveArtifact inside)).run reached.bench).1.text)
            { context := settings.context, quiet := true, output := some output }, ())) ∧
    ∀ (machine : Machine) (config : Config) (choice : TargetChoice) (loaded : LoadedPlan)
      (stage : Stage),
      machine.foundTarget config choice = .ok (loaded, stage) →
      loaded.plan.stages.size < UInt64.size →
      ∀ (verbosity : Nat) (inside : String) (output : HostPath),
      (∃ manifest request, (BuildSettings.of config loaded.plan).manifest stage = .ok manifest ∧
        Machine.Asks (fun engines =>
            (Machine.host.withVerbosity verbosity).saveTargetWith engines config choice inside
              output)
          machine ((machine.engineFor config).map fun kind =>
            (kind, .build
              (manifest ++ "\n\n" ++
                ((exportStage (stage.saveArtifact inside)).run loaded.bench).1.text) request))) ∧
      ∀ error, (((Machine.host.withVerbosity verbosity).saveTarget config choice inside
        output).run.run machine).1 ≠ .error (.graph error) := by
  refine ⟨fun root base frontend assembled continues =>
      solve_of_continues assembled.coherent continues frontend,
    fun base bench new => ⟨fun instructions => ?_, continues_exportStage new⟩,
    fun stem drawn text path directory stableCacheIds plan reached loads few target stage found =>
      Plan.saveCall_of_load loads few found, ?_⟩
  · exact (Stage.Continues.fromStage new).grow (.pushAll instructions) rfl _
  intro machine config choice loaded stage found few verbosity inside output
  obtain ⟨isOpened, isStage⟩ := Machine.opened_of_foundTarget found
  obtain ⟨text, reached, _, loads, bench⟩ := Machine.exists_load_of_planAt isOpened
  obtain ⟨manifest, solved, made⟩ := Plan.saveCall_of_load loads few isStage
    (BuildSettings.of config loaded.plan) inside output
  rw [← bench] at made
  have asks := Machine.asks_saveTarget machine verbosity config choice inside output
  rw [Machine.askedFor_of_ok found made] at asks
  refine ⟨⟨manifest, _, solved, asks⟩, ?_⟩
  have spares := machine.spares_engineFor config
  cases engine : machine.engineFor config with
  | error failure =>
      rw [engine] at asks spares
      obtain ⟨after, runs⟩ := asks
      rw [Host.saveTarget, runs]
      exact spares.error
  | ok kind =>
      obtain ⟨tell, ready, same⟩ :=
        Machine.relays_saveTarget verbosity inside output found engine made
      rw [Host.saveTarget, same]
      exact Machine.answers_call _ tell kind _ ready

/-- The plan on the machine has one stage. -/
theorem CachedBuild.size_eq {loaded : LoadedPlan} {stage : Stage}
    (found : equipped.foundTarget {} choice = .ok (loaded, stage)) :
    loaded.plan.stages.size = 1 := by
  have isOpened := (Machine.opened_of_foundTarget found).1
  rw [opened_eq] at isOpened
  obtain ⟨other, reached, isRead, loads, _⟩ := Machine.exists_load_of_planAt isOpened
  cases Option.some.inj (isRead.symm.trans read)
  rw [Plan.size_eq_of_load parsed loads]
  rfl

/-- The left stage of the diamond is the shared one with another block, and what is saved of a
target of a plan, or of the target on the machine, is a manifest. -/
theorem Manifest.solve_composes_at_left :
    (Diamond.left.Assembled ∧ Diamond.left.Continues Diamond.shared ∧
      ∀ frontend, solve frontend Diamond.left =
        (solve frontend Diamond.shared).map fun manifest =>
          manifest ++ "\n\n" ++ Diamond.left.text) ∧
    (∃ plan reached app, Toolbox.loaded = (.ok plan, reached) ∧
      plan.stages.size < UInt64.size ∧ plan.stage "app" = .ok app ∧
      ∀ (settings : BuildSettings) (output : HostPath), ∃ call,
        settings.saveCall ((exportStage (app.saveArtifact "/bin")).run reached.bench).1 output =
          .ok (call, ())) ∧
    ∃ loaded stage,
      CachedBuild.equipped.foundTarget {} CachedBuild.choice = .ok (loaded, stage) ∧
      loaded.plan.stages.size < UInt64.size ∧
      ∀ output error, (((Machine.host.withVerbosity 2).saveTarget {} CachedBuild.choice "/bin"
        output).run.run CachedBuild.equipped).1 ≠ .error (.graph error) := by
  have assembled : Diamond.left.Assembled := ⟨_, _, Diamond.session, by simp⟩
  have continues : Diamond.left.Continues Diamond.shared := by
    refine ⟨rfl, fun below reaches => ?_⟩
    obtain rfl | ⟨_, depends, _⟩ := Relation.ReflTransGen.cases_head reaches
    · decide
    · cases depends
  obtain ⟨plan, reached, loads⟩ := Toolbox.exists_plan
  have few : plan.stages.size < UInt64.size := by
    rw [Plan.size_eq_of_load Toolbox.parsed loads]
    decide
  obtain ⟨app, isApp⟩ : ∃ app, plan.stage "app" = .ok app :=
    Plan.exists_stage_of_load Toolbox.parsed loads (by decide +kernel)
  obtain ⟨root, _, saves, spares⟩ := solve_composes_at_root
  refine ⟨⟨assembled, continues, fun frontend => root _ _ frontend assembled continues⟩,
    ⟨plan, reached, app, loads, few, isApp, fun settings output => ?_⟩, ?_⟩
  · obtain ⟨manifest, _, made⟩ :=
      saves _ _ _ _ _ _ _ _ loads few "app" app isApp settings "/bin" output
    exact ⟨_, made⟩
  · obtain ⟨loaded, stage, _, found, _⟩ := CachedBuild.exists_foundTarget
    have few : loaded.plan.stages.size < UInt64.size := by
      rw [CachedBuild.size_eq found]
      decide
    exact ⟨loaded, stage, found, few, fun output =>
      (spares _ _ _ _ _ found few 2 "/bin" output).2⟩

end StageManifest
