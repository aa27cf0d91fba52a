import StageManifest.Failure
import StageManifest.Plan.File
import StageManifest.Stage.Basic
import StageManifest.Toml.Printer

/-!
# From build files to stages

The stages of a build file refer to each other by key, as bases and through
artifacts.  They are resolved in rising order of the keys, and what a stage
refers to is resolved before the stage goes on; so the names of the stages are
the same on every load, and each key draws one name.

A reference to a key that is being resolved closes a circle.  Resolution goes
deeper only with one more definition being resolved, so it ends.
-/

set_option autoImplicit false

namespace StageManifest

/-- The resolved stages of a build file. -/
structure Plan where
  path : HostPath
  /-- The directory that files are copied from and stable ids belong to. -/
  projectDirectory : HostPath
  descriptions : Entries String
  stages : Entries Stage

/-- What resolution is about. -/
structure ResolveContext where
  definitions : Entries StageDefinition
  path : HostPath
  projectDirectory : HostPath
  stableCacheIds : Bool

/-- How far resolution has come. -/
structure Resolution where
  bench : Workbench
  built : List (String × Stage) := []
  /-- The keys of the stages that were begun and the names they drew, in order. -/
  begun : List (String × String) := []

/-- Resolution that may fail; what was drawn and begun before a failure is kept. -/
abbrev Resolving := ExceptT Failure (StateM Resolution)

namespace Resolving

/-- Work on stages as a part of resolution. -/
def assemble {α : Type} (work : Assembly α) : Resolving α := do
  let state ← get
  let (answer, bench) := work.run state.bench
  set { state with bench := bench }
  return answer

end Resolving

/-- The text of a value in a variable, a label or a default: a string as it is, a date or time as
the table that stands for it in a document, and any other value as its expression. -/
def scalarText : Toml.Value → String
  | .string text => text
  | .datetime moment => Toml.valueText .compact (.table [(Toml.dateKey, .string moment.text)])
  | value => Toml.valueText .compact value

/-- The text of each value. -/
def scalarTexts (entries : List (String × Toml.Value)) : List (String × String) :=
  entries.map fun (key, value) => (key, scalarText value)

namespace ResolveContext

/-- The failure of a definition that cannot be used. -/
def defect {α : Type} (context : ResolveContext) (defect : PlanDefect) : Except Failure α :=
  .error (.planDefect context.path defect)

/-- The mount that a definition declares. -/
def mount (context : ResolveContext) (key : String) (definition : MountDefinition) :
    Except Failure CacheMount :=
  match definition.unknownKeys with
  | field :: _ => context.defect (.unknownMountKey key field)
  | [] =>
      if definition.stable || (context.stableCacheIds && definition.mount.id.isNone) then
        .ok (definition.mount.withStableId context.projectDirectory)
      else .ok definition.mount

/-- The stage after a step.  Stages that the step refers to are resolved by the given function. -/
def applyStep (context : ResolveContext) (resolveStage : String → Resolving Stage) (key : String)
    (stage : Stage) : StepDefinition → Resolving Stage
  | .run command caches => do
      let mounts ← liftExcept (caches.mapM (context.mount key))
      Resolving.assemble (stage.push (.run command mounts))
  | .copy source destination ownership =>
      Resolving.assemble (stage.push (.copy source destination ownership none))
  | .copyArtifact name path destination ownership => do
      let source ← resolveStage name
      Resolving.assemble (stage.copyArtifact (source.saveArtifact path) destination ownership)
  | .env assignments => Resolving.assemble (stage.push (.envOf (scalarTexts assignments)))
  | .label labels => Resolving.assemble (stage.push (.labelOf (scalarTexts labels)))
  | .expose port => Resolving.assemble (stage.push (.expose port))
  | .workdir path => Resolving.assemble (stage.push (.workdir path))
  | .user name group => Resolving.assemble (stage.push (.user name group))
  | .cmd command => Resolving.assemble (stage.push (.cmd command))
  | .entrypoint command => Resolving.assemble (stage.push (.entrypoint command))
  | .volume paths => Resolving.assemble (stage.push (.volume paths))
  | .arg name value => Resolving.assemble (stage.push (.arg name (value.map scalarText)))
  | .shell words =>
      if words.isEmpty then liftExcept (context.defect (.emptyShell key))
      else Resolving.assemble (stage.push (.shell words))
  | .aptInstall packages => Resolving.assemble (stage.aptInstall packages)
  | .cargo subcommand => Resolving.assemble (stage.cargo subcommand)
  | .rustToolchain version => Resolving.assemble (stage.rustToolchain version)
where
  liftExcept {α : Type} (result : Except Failure α) : Resolving α :=
    ExceptT.mk (pure result)

/-- A new stage on the base that a definition names. -/
def startStage (context : ResolveContext) (resolveStage : String → Resolving Stage) (key : String)
    (definition : StageDefinition) : Resolving Stage :=
  match definition.image, definition.parent with
  | some image, none => Resolving.assemble (Stage.fromImage image)
  | none, some parent => do
      let base ← resolveStage parent
      Resolving.assemble (Stage.fromStage base)
  | _, _ => throw (.planDefect context.path (.baseNotUnique key))

/-- Makes the stage of a definition: its base, its steps and its tag. -/
def makeStage (context : ResolveContext) (resolveStage : String → Resolving Stage) (key : String)
    (definition : StageDefinition) : Resolving Stage := do
  let started ← context.startStage resolveStage key definition
  modify fun state => { state with begun := state.begun ++ [(key, started.name)] }
  let grown ← definition.steps.foldlM (context.applyStep resolveStage key) started
  let stage := match definition.tag with
    | some tag => grown.withTag tag
    | none => grown
  modify fun state => { state with built := (key, stage) :: state.built }
  return stage

/-! ### Why resolution ends -/

/-- The definitions that are not being resolved. -/
def waiting (context : ResolveContext) (resolving : List String) : List String :=
  context.definitions.keys.filter fun key => !resolving.contains key

/-- Fewer definitions wait when one more is being resolved. -/
theorem length_waiting_cons_lt {context : ResolveContext} {resolving : List String} {key : String}
    {definition : StageDefinition} (defined : context.definitions.find? key = some definition)
    (notResolving : key ∉ resolving) :
    (context.waiting (key :: resolving)).length < (context.waiting resolving).length := by
  have isKey : key ∈ context.definitions.keys := Entries.mem_keys_of_find? defined
  have waits : key ∈ context.waiting resolving := by
    simp [waiting, isKey, notResolving]
  have fewer : context.waiting (key :: resolving) =
      (context.waiting resolving).filter fun other => !(other == key) := by
    rw [waiting, waiting, List.filter_filter]
    refine List.filter_congr fun other _ => ?_
    rw [List.contains_cons, Bool.not_or]
  rw [fewer]
  exact List.length_filter_lt_length_iff_exists.mpr ⟨key, waits, by simp⟩

/-- The stage of a key, given the keys that are being resolved. -/
def resolve (context : ResolveContext) (resolving : List String) (key referencedBy : String) :
    Resolving Stage := do
  match (← get).built.lookup key with
  | some stage => return stage
  | none =>
      match _defined : context.definitions.find? key with
      | none => throw (.unknownStage key referencedBy)
      | some definition =>
          if _isOpen : key ∈ resolving then throw (.circularStage key)
          else
            context.makeStage (fun name => context.resolve (key :: resolving) name key) key
              definition
termination_by (context.waiting resolving).length
decreasing_by exact length_waiting_cons_lt _defined _isOpen

/-- The stages of all keys. -/
def resolveAll (context : ResolveContext) : Resolving (Entries Stage) :=
  context.definitions.keys.foldlM
    (fun stages key => do
      let stage ← context.resolve [] key key
      return stages.insert key stage)
    .empty

end ResolveContext

namespace Plan

/-- The descriptions of the stages that have one. -/
def descriptionsOf (definitions : Entries StageDefinition) : Entries String :=
  .ofList (definitions.toList.filterMap fun (key, definition) =>
    definition.description.map fun description => (key, description))

/-- The plan of a build file with the given text. -/
def parse (text : String) (path projectDirectory : HostPath) (stableCacheIds : Bool) :
    Resolving Plan :=
  match PlanFile.parse text with
  | .error fault => throw (.planInvalid path fault)
  | .ok file => do
      let context : ResolveContext := ⟨file.stages, path, projectDirectory, stableCacheIds⟩
      let stages ← context.resolveAll
      return ⟨path, projectDirectory, descriptionsOf file.stages, stages⟩

/-- The keys of the stages in rising order. -/
def targets (plan : Plan) : List String := plan.stages.keys

/-- The stage of a target. -/
def stage (plan : Plan) (target : String) : Except Failure Stage :=
  match plan.stages.find? target with
  | some stage => .ok stage
  | none => .error (.targetNotFound target plan.path)

/-- The plan of a text and what was drawn on the way, from fresh names. -/
def load (names : NameSource) (text : String) (path projectDirectory : HostPath)
    (stableCacheIds : Bool) : Except Failure Plan × Resolution :=
  (parse text path projectDirectory stableCacheIds).run.run { bench := .ofNames names }

end Plan

end StageManifest
