import StageManifest.Proofs.Plan.Portrait

/-!
# Cache mounts of a plan

The stage of a key has the mounts that the steps of its definition declare, in
their order, and those of the recipes among the steps (`Plan.mounts_eq_of_load`).
This is read off the portrait of the definition (`Portrait.mounts_eq`).  A mount gets
its stable id from the project's directory and its own target, if it asks for it or
has no id while stable ids are asked for (`MountDefinition.placed`).
-/

set_option autoImplicit false

namespace StageManifest

/-- The mounts of an instruction. -/
def Instruction.mounts : Instruction → List CacheMount
  | .run _ mounts => mounts
  | _ => []

/-- The mounts of a stage, in the order of its instructions. -/
def Stage.mounts (stage : Stage) : List CacheMount :=
  stage.instructions.flatMap Instruction.mounts

/-- The mounts that a step declares, or that its recipe brings. -/
def StepDefinition.mounts (projectDirectory : HostPath) (stableCacheIds : Bool) :
    StepDefinition → List CacheMount
  | .run _ caches => caches.map (MountDefinition.placed projectDirectory stableCacheIds)
  | .aptInstall packages => (Recipe.aptInstall packages).mounts
  | .cargo subcommand => (Recipe.cargo subcommand).mounts
  | _ => []

/-- The mounts that a definition declares. -/
def StageDefinition.mounts (projectDirectory : HostPath) (stableCacheIds : Bool)
    (definition : StageDefinition) : List CacheMount :=
  definition.steps.flatMap (StepDefinition.mounts projectDirectory stableCacheIds)

variable {projectDirectory : HostPath} {stableCacheIds : Bool}
  {standsFor : String → Stage → Prop}

/-- The instructions of a step have the mounts that the step declares. -/
theorem Writes.mounts_eq {step : StepDefinition} {instructions : List Instruction}
    (writes : Writes projectDirectory stableCacheIds standsFor step instructions) :
    instructions.flatMap Instruction.mounts = step.mounts projectDirectory stableCacheIds := by
  obtain ⟨nameOf, _, rfl⟩ := writes
  cases step with
  | run | aptInstall | cargo => exact List.append_nil _
  | _ => rfl

/-- A portrait has the mounts that its definition declares. -/
theorem Portrait.mounts_eq {definition : StageDefinition} {stage : Stage}
    (portrait : Portrait projectDirectory stableCacheIds standsFor definition stage) :
    stage.mounts = definition.mounts projectDirectory stableCacheIds := by
  obtain ⟨parts, writes, same⟩ := portrait.instructions
  rw [Stage.mounts, same, StageDefinition.mounts]
  generalize definition.steps = steps at writes ⊢
  clear same
  induction writes with
  | nil => rfl
  | cons first _ ih =>
      rw [List.flatten_cons, List.flatMap_append, List.flatMap_cons, first.mounts_eq, ih]

/-- **The stage of a key has the mounts that its definition declares**, with stable ids that belong
to the project's directory. -/
theorem Plan.mounts_eq_of_load {names : NameSource} {text : String} {file : PlanFile}
    {path projectDirectory : HostPath} {stableCacheIds : Bool} {plan : Plan}
    (parsed : PlanFile.parse text = .ok file)
    (loaded : (load names text path projectDirectory stableCacheIds).1 = .ok plan)
    {key : String} {stage : Stage} (found : plan.stages.find? key = some stage) :
    ∃ definition, file.stages.find? key = some definition ∧
      stage.mounts = definition.mounts projectDirectory stableCacheIds := by
  obtain ⟨definition, defined, portrait⟩ := portrait_of_load parsed (Prod.ext loaded rfl) found
  exact ⟨definition, defined, portrait.mounts_eq⟩

end StageManifest
