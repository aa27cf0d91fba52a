import StageManifest.Proofs.Graph.Arrangement
import StageManifest.Proofs.Plan.Resolution

/-!
# Manifests of the targets of a plan

Where no name is drawn twice, a name stands for one key, so all stages below a
target that have the same name are the same stage (`Complete.eq_of_name`).  Hence
the manifest of a target is found, and it declares the stages of the keys below the
target (`load_declares_closures`).
-/

set_option autoImplicit false

namespace StageManifest

open Stage (Reaches)

namespace ResolveContext.Complete

variable {definitions : Entries StageDefinition} {names : NameSource}
  {collected : Entries Stage} {state : Resolution}

/-! ## Names of keys -/

theorem recorded (complete : Complete definitions names collected state) {key : String}
    {stage : Stage} (found : collected.find? key = some stage) :
    (key, stage.name) ∈ state.begun := by
  obtain ⟨_, progress⟩ := complete.progress
  exact progress.recorded key stage (complete.find?_eq key ▸ found)

/-- Each key was begun once. -/
theorem perm_keys (complete : Complete definitions names collected state) :
    (state.begun.map (·.1)).Perm definitions.keys := by
  obtain ⟨_, progress⟩ := complete.progress
  refine (List.perm_ext_iff_of_nodup progress.begunOnce.once definitions.nodup_keys).mpr
    fun key => ⟨?_, ?_⟩
  · intro begun
    obtain ⟨entry, isEntry, rfl⟩ := List.mem_map.mp begun
    exact progress.begunOnce.defined entry isEntry
  · intro isKey
    obtain ⟨stage, found⟩ := complete.all key isKey
    exact List.mem_map.mpr ⟨_, complete.recorded found, rfl⟩

/-- One name was drawn for each key, and no other. -/
theorem drawn (complete : Complete definitions names collected state) :
    state.bench.names = names.after definitions.size ∧
      state.begun.map (·.2) = names.firstNames definitions.size := by
  obtain ⟨_, progress⟩ := complete.progress
  have length : state.begun.length = definitions.size := by
    have same := complete.perm_keys.length_eq
    rwa [List.length_map, Entries.keys, List.length_map] at same
  exact length ▸ ⟨progress.drawn.source, progress.drawn.drawn⟩

/-- A name stands for one key. -/
theorem key_eq_of_name (complete : Complete definitions names collected state)
    (unique : (names.firstNames definitions.size).Nodup) {first second : String}
    {stage other : Stage} (isFirst : collected.find? first = some stage)
    (isSecond : collected.find? second = some other) (name : stage.name = other.name) :
    first = second := by
  have once : (state.begun.map (·.2)).Nodup := complete.drawn.2 ▸ unique
  exact congrArg Prod.fst (List.inj_on_of_nodup_map once (complete.recorded isFirst)
    (complete.recorded isSecond) name)

/-- A name stands for one stage. -/
theorem stage_eq_of_name (complete : Complete definitions names collected state)
    (unique : (names.firstNames definitions.size).Nodup) {first second : String}
    {stage other : Stage} (isFirst : collected.find? first = some stage)
    (isSecond : collected.find? second = some other) (name : stage.name = other.name) :
    stage = other := by
  rw [complete.key_eq_of_name unique isFirst isSecond name] at isFirst
  exact Option.some.inj (isFirst.symm.trans isSecond)

/-! ## Stages below a target -/

/-- What a definition refers to has a stage, whose name the stage of the definition lists. -/
theorem find?_of_refers (complete : Complete definitions names collected state)
    {user key : String} {stage : Stage} (found : collected.find? user = some stage)
    (refers : Refers definitions user key) :
    ∃ source, collected.find? key = some source ∧ source.name ∈ stage.dependencyNames := by
  obtain ⟨_, progress⟩ := complete.progress
  rw [complete.find?_eq] at found ⊢
  exact progress.built.lookup_of_refers found refers

/-- Every key below the key of a stage has a stage. -/
theorem find?_of_reflTransGen (complete : Complete definitions names collected state)
    {user key : String} {stage : Stage} (found : collected.find? user = some stage)
    (leads : Relation.ReflTransGen (Refers definitions) user key) :
    ∃ source, collected.find? key = some source := by
  obtain ⟨_, progress⟩ := complete.progress
  rw [complete.find?_eq] at found ⊢
  exact progress.built.lookup_of_reflTransGen found leads

/-- What a stage depends on is the stage of a key that its definition refers to. -/
theorem exists_refers (complete : Complete definitions names collected state) {user : String}
    {stage dependency : Stage} (found : collected.find? user = some stage)
    (depends : stage.DependsOn dependency) :
    ∃ key, Refers definitions user key ∧ collected.find? key = some dependency := by
  obtain ⟨_, progress⟩ := complete.progress
  simp only [complete.find?_eq] at found ⊢
  exact progress.built.exists_refers found depends

/-- The stage of a key depends on the stages of the keys that its definition refers to. -/
theorem dependsOn_iff (complete : Complete definitions names collected state)
    (unique : (names.firstNames definitions.size).Nodup) {key : String} {stage : Stage}
    (found : collected.find? key = some stage) (dependency : Stage) :
    stage.DependsOn dependency ↔
      ∃ needed, Refers definitions key needed ∧ collected.find? needed = some dependency := by
  constructor
  · exact complete.exists_refers found
  · rintro ⟨needed, refers, isDependency⟩
    obtain ⟨source, isSource, listed⟩ := complete.find?_of_refers found refers
    rw [isDependency, Option.some.injEq] at isSource
    subst isSource
    -- The stage that lists the name is that of a key with the name, which is this one.
    obtain ⟨linked, depends, name⟩ := Stage.exists_dependsOn_of_name_mem listed
    obtain ⟨other, _, isLinked⟩ := complete.exists_refers found depends
    exact complete.stage_eq_of_name unique isLinked isDependency name ▸ depends

/-- The stages below that of a key are those of the keys below it. -/
theorem reaches_iff (complete : Complete definitions names collected state)
    (unique : (names.firstNames definitions.size).Nodup) {key : String} {stage : Stage}
    (found : collected.find? key = some stage) (below : Stage) :
    stage.Reaches below ↔
      ∃ needed, Relation.ReflTransGen (Refers definitions) key needed ∧
        collected.find? needed = some below := by
  constructor
  · intro reaches
    induction reaches with
    | refl => exact ⟨key, .refl, found⟩
    | tail _ depends ih =>
        obtain ⟨user, leads, isUser⟩ := ih
        obtain ⟨needed, refers, isNeeded⟩ := complete.exists_refers isUser depends
        exact ⟨needed, leads.tail refers, isNeeded⟩
  · rintro ⟨needed, leads, isNeeded⟩
    induction leads generalizing below with
    | refl =>
        rw [found, Option.some.injEq] at isNeeded
        exact isNeeded ▸ .refl
    | @tail user needed leads refers ih =>
        obtain ⟨middle, isMiddle⟩ := complete.find?_of_reflTransGen found leads
        exact (ih middle isMiddle).tail
          ((complete.dependsOn_iff unique isMiddle below).mpr ⟨needed, refers, isNeeded⟩)

/-- Stages below a target that have the same name are the same. -/
theorem eq_of_name (complete : Complete definitions names collected state)
    (unique : (names.firstNames definitions.size).Nodup) {key : String} {root first second : Stage}
    (found : collected.find? key = some root) (isFirst : root.Reaches first)
    (isSecond : root.Reaches second) (name : first.name = second.name) : first = second := by
  obtain ⟨firstKey, _, firstFound⟩ := (complete.reaches_iff unique found first).mp isFirst
  obtain ⟨secondKey, _, secondFound⟩ := (complete.reaches_iff unique found second).mp isSecond
  exact complete.stage_eq_of_name unique firstFound secondFound name

/-! ## Manifests -/

theorem assembled (complete : Complete definitions names collected state) {key : String}
    {stage : Stage} (found : collected.find? key = some stage) : stage.Assembled := by
  obtain ⟨stages, progress⟩ := complete.progress
  exact ⟨_, stages, progress.session, progress.atHand key stage (complete.find?_eq key ▸ found)⟩

/-- **A target has a manifest**, whose blocks are arranged. -/
theorem exists_manifest (complete : Complete definitions names collected state)
    (unique : (names.firstNames definitions.size).Nodup) {key : String} {root : Stage}
    (found : collected.find? key = some root) :
    ∃ blocks, Arranged root blocks ∧
      ∀ frontend, Manifest.solve frontend root = .ok (Manifest.ofStages frontend blocks) := by
  cases discovers : StageGraph.discover root with
  | error failure =>
      obtain ⟨first, second, isFirst, isSecond, collides, _⟩ :=
        StageGraph.exists_collides_of_discover discovers
      have same := complete.eq_of_name unique found isFirst isSecond collides.name
      exact absurd collides (same ▸ (Stage.Agrees.refl first).not_collides)
  | ok graph =>
      have discovered :=
        StageGraph.discovered_of_discover (complete.assembled found).coherent discovers
      obtain ⟨blocks, ordered⟩ := discovered.exists_ordered
      exact ⟨blocks, StageGraph.arranged_of_ordered discovered ordered, fun frontend =>
        Manifest.solve_eq_ok_iff.mpr ⟨graph, blocks, discovers, ordered, rfl⟩⟩

end ResolveContext.Complete

namespace Plan

/-- The stage of a target is the one that was resolved for its key. -/
theorem stage_eq_ok_iff {plan : Plan} {key : String} {stage : Stage} :
    plan.stage key = .ok stage ↔ plan.stages.find? key = some stage := by
  unfold Plan.stage
  cases plan.stages.find? key <;> simp

/-- In a build file that is loaded, what is below a key are keys. -/
theorem mem_keys_of_reflTransGen {text : String} {file : PlanFile} {names : NameSource}
    {path projectDirectory : HostPath} {stableCacheIds : Bool} {plan : Plan}
    {reached : Resolution} (parsed : PlanFile.parse text = .ok file)
    (loaded : load names text path projectDirectory stableCacheIds = (.ok plan, reached))
    {key needed : String} (isKey : key ∈ file.stages.keys)
    (leads : Relation.ReflTransGen (Refers file.stages) key needed) :
    needed ∈ file.stages.keys := by
  have complete := (ends_parse parsed names path projectDirectory stableCacheIds).of_ok loaded
  obtain ⟨stage, found⟩ := complete.all key isKey
  obtain ⟨source, isSource⟩ := complete.find?_of_reflTransGen found leads
  exact complete.perm_keys.mem_iff.mp (List.mem_map_of_mem (complete.recorded isSource))

/-- Loading ends with a plan if it ends well. -/
theorem exists_of_isSome {answer : Except Failure Plan × Resolution}
    (isOk : answer.1.toOption.isSome = true) : ∃ plan reached, answer = (.ok plan, reached) := by
  obtain ⟨failure | plan, reached⟩ := answer
  · cases isOk
  · exact ⟨plan, reached, rfl⟩

end Plan

/-! ## A plan with three stages

The app and the tool are built on the same base, and the app copies from the tool.
-/

namespace Toolbox

def text : String :=
  "[stages.app]\nfrom_stage=\"base\"\n[[stages.app.steps]]\n[stages.app.steps.copy_artifact]\n" ++
    "stage=\"tool\"\npath=\"/\"\ndest=\"/\"\n[stages.base]\nfrom=\"rust\"\nsteps=[]\n" ++
    "[stages.tool]\nfrom_stage=\"base\"\nsteps=[]"

def app : StageDefinition :=
  { parent := some "base", steps := [.copyArtifact "tool" "/" "/" none] }

def file : PlanFile :=
  ⟨.ofList [("app", app), ("base", { image := some "rust" }),
    ("tool", { parent := some "base" })]⟩

theorem parsed : PlanFile.parse text = .ok file := by cbv

/-- How loading the plan ends. -/
def loaded : Except Failure Plan × Resolution := Plan.load .standard text ⟨[]⟩ ⟨[]⟩ false

theorem exists_plan : ∃ plan reached, loaded = (.ok plan, reached) := by
  have isOk : loaded.1.toOption.isSome = true := by
    rw [loaded, Plan.load, Plan.parse, parsed]
    cbv
  exact Plan.exists_of_isSome isOk

theorem unique : (NameSource.standard.firstNames file.stages.size).Nodup := by decide

end Toolbox

end StageManifest
