import StageManifest.Proofs.Plan.Outcome
import StageManifest.Proofs.Plan.References
import StageManifest.Proofs.Stage.Growth

/-!
# What definitions ask for at the workbench

A base asks for a job that makes a stage, and a step asks for a growth; making the
stage and growing it is all that is done with them (`startStage_eq`,
`applyStep_eq`).  What is asked for is supplied with the stages that the base or
the step refers to, one for each key (`Supplied`).  A base or a step that asks for
nothing has a defect.
-/

set_option autoImplicit false

namespace StageManifest

open Resolving (Ends)

/-- The inputs are the stages that were built for the keys, one by one. -/
def Supplied (built : List (String × Stage)) (keys : List String) (inputs : List Stage) : Prop :=
  keys.map (fun key => built.lookup key) = inputs.map some

namespace Supplied

variable {built : List (String × Stage)} {keys : List String} {inputs : List Stage}

theorem nil (built : List (String × Stage)) : Supplied built [] [] := rfl

theorem singleton {key : String} {input : Stage} (found : built.lookup key = some input) :
    Supplied built [key] [input] :=
  congrArg (fun answer => [answer]) found

theorem exists_input (supplied : Supplied built keys inputs) {key : String} (isKey : key ∈ keys) :
    ∃ input ∈ inputs, built.lookup key = some input := by
  have answered : built.lookup key ∈ inputs.map some :=
    supplied ▸ List.mem_map_of_mem (f := fun key => built.lookup key) isKey
  obtain ⟨input, isInput, same⟩ := List.mem_map.mp answered
  exact ⟨input, isInput, same.symm⟩

theorem exists_key (supplied : Supplied built keys inputs) {input : Stage}
    (isInput : input ∈ inputs) : ∃ key ∈ keys, built.lookup key = some input := by
  have answers : some input ∈ keys.map fun key => built.lookup key :=
    supplied ▸ List.mem_map_of_mem isInput
  exact List.mem_map.mp answers

end Supplied

namespace ResolveContext

variable {context : ResolveContext} {resolveStage : String → Resolving Stage} {key : String}
  {definition : StageDefinition} {state : Resolution} {fails : Failure → Resolution → Prop}
  {good : Resolution → Prop}

/-! ## Bases -/

/-- The job that makes a stage on the base of a definition. -/
def startingJob (context : ResolveContext) (resolveStage : String → Resolving Stage) (key : String)
    (definition : StageDefinition) : Resolving StageJob :=
  match definition.image, definition.parent with
  | some image, none => return .onImage image
  | none, some parent => do
      let base ← resolveStage parent
      return .onStage base
  | _, _ => throw (.planDefect context.path (.baseNotUnique key))

theorem startStage_eq (definition : StageDefinition) :
    context.startStage resolveStage key definition =
      context.startingJob resolveStage key definition >>= fun job =>
        Resolving.assemble job.perform := by
  unfold startStage startingJob
  cases definition.image with
  | none =>
      cases definition.parent with
      | none => rfl
      | some parent =>
          simp only [bind_assoc, pure_bind]
          rfl
  | some image => cases definition.parent <;> rfl

/-- A starting job is supplied with the base that the definition refers to. -/
theorem ends_startingJob
    (supply : ∀ parent ∈ definition.parent, Ends (resolveStage parent) state
      (fun base after => good after ∧ after.built.lookup parent = some base) fails)
    (holds : good state)
    (defect : definition.image.isSome = definition.parent.isSome →
      fails (.planDefect context.path (.baseNotUnique key)) state) :
    Ends (context.startingJob resolveStage key definition) state
      (fun job after => good after ∧ job.Starts ∧
        definition.image.isSome ≠ definition.parent.isSome ∧
        Supplied after.built definition.parent.toList job.inputs) fails := by
  unfold startingJob
  cases image : definition.image with
  | none =>
      cases base : definition.parent with
      | none => exact Resolving.ends_throw (defect (by rw [image, base]))
      | some parent =>
          refine (supply parent base).bind fun source after answered => ?_
          exact Resolving.ends_pure ⟨answered.1, trivial, nofun, .singleton answered.2⟩
  | some reference =>
      cases base : definition.parent with
      | none => exact Resolving.ends_pure ⟨holds, trivial, nofun, .nil _⟩
      | some parent => exact Resolving.ends_throw (defect (by rw [image, base]; rfl))

/-! ## Steps -/

/-- The growth that a step asks for. -/
def growthOf (context : ResolveContext) (resolveStage : String → Resolving Stage) (key : String) :
    StepDefinition → Resolving Growth
  | .run command caches => do
      let mounts ← applyStep.liftExcept (caches.mapM (context.mount key))
      return .run command mounts
  | .copy source destination ownership => return .copy source destination ownership
  | .copyArtifact name path destination ownership => do
      let source ← resolveStage name
      return .copyArtifact (source.saveArtifact path) destination ownership
  | .env assignments => return .env (scalarTexts assignments)
  | .label labels => return .label (scalarTexts labels)
  | .expose port => return .expose port
  | .workdir path => return .workdir path
  | .user name group => return .user name group
  | .cmd command => return .cmd command
  | .entrypoint command => return .entrypoint command
  | .volume paths => return .volume paths
  | .arg name value => return .arg name (value.map scalarText)
  | .shell words =>
      if words.isEmpty then applyStep.liftExcept (context.defect (.emptyShell key))
      else return .shell words
  | .aptInstall packages => return .aptInstall packages
  | .cargo subcommand => return .cargo subcommand
  | .rustToolchain version => return .rustToolchain version

theorem applyStep_eq (stage : Stage) (step : StepDefinition) :
    context.applyStep resolveStage key stage step =
      context.growthOf resolveStage key step >>= fun growth =>
        Resolving.assemble (growth.apply stage) := by
  cases step with
  | run command caches =>
      simp only [applyStep, growthOf, bind_assoc, pure_bind]
      rfl
  | copyArtifact name path destination ownership =>
      simp only [applyStep, growthOf, bind_assoc, pure_bind]
      rfl
  | shell words =>
      simp only [applyStep, growthOf]
      split <;> rfl
  | _ => rfl

/-! ## What steps are supplied with -/

/-- Mounts are made if no key of theirs is unknown, and otherwise such a key is named. -/
theorem mapM_mount (caches : List MountDefinition) :
    (∃ mounts, caches.mapM (context.mount key) = .ok mounts ∧
      ∀ cache ∈ caches, cache.unknownKeys = []) ∨
    ∃ cache ∈ caches, ∃ field ∈ cache.unknownKeys,
      caches.mapM (context.mount key) =
        .error (.planDefect context.path (.unknownMountKey key field)) := by
  induction caches with
  | nil => exact .inl ⟨[], rfl, nofun⟩
  | cons cache rest ih =>
      rw [List.mapM_cons]
      cases unknown : cache.unknownKeys with
      | cons field fields =>
          refine .inr ⟨cache, List.mem_cons_self, field, unknown ▸ List.mem_cons_self, ?_⟩
          simp only [mount, unknown]
          rfl
      | nil =>
          obtain ⟨made, isMade⟩ : ∃ made, context.mount key cache = .ok made := by
            simp only [mount, unknown]
            split <;> exact ⟨_, rfl⟩
          rw [isMade]
          rcases ih with ⟨mounts, same, known⟩ | ⟨other, isOther, field, isField, same⟩
          · refine .inl ⟨made :: mounts, by rw [same]; rfl, ?_⟩
            exact List.forall_mem_cons.mpr ⟨unknown, known⟩
          · refine .inr ⟨other, List.mem_cons_of_mem _ isOther, field, isField, ?_⟩
            rw [same]
            rfl

theorem ends_mounts {caches : List MountDefinition}
    (unknownKey : ∀ cache ∈ caches, ∀ field ∈ cache.unknownKeys,
      fails (.planDefect context.path (.unknownMountKey key field)) state) :
    Ends (applyStep.liftExcept (caches.mapM (context.mount key))) state
      (fun _ after => after = state ∧ ∀ cache ∈ caches, cache.unknownKeys = []) fails := by
  rcases mapM_mount caches with ⟨mounts, same, known⟩ | ⟨cache, isCache, field, isField, same⟩
  · rw [same]
    exact ⟨rfl, known⟩
  · rw [same]
    exact unknownKey cache isCache field isField

/-- **A growth is supplied with what its step refers to.** -/
theorem ends_growthOf {step : StepDefinition}
    (supply : ∀ name ∈ step.references, Ends (resolveStage name) state
      (fun source after => good after ∧ after.built.lookup name = some source) fails)
    (holds : good state)
    (emptyShell : step = .shell [] → fails (.planDefect context.path (.emptyShell key)) state)
    (unknownKey : ∀ command caches, step = .run command caches →
      ∀ cache ∈ caches, ∀ field ∈ cache.unknownKeys,
        fails (.planDefect context.path (.unknownMountKey key field)) state) :
    Ends (context.growthOf resolveStage key step) state
      (fun growth after => good after ∧ step.Usable ∧
        Supplied after.built step.references growth.inputs) fails := by
  cases step with
  | run command caches =>
      refine (ends_mounts (unknownKey command caches rfl)).bind ?_
      rintro mounts after ⟨rfl, known⟩
      exact Resolving.ends_pure ⟨holds, known, .nil _⟩
  | copyArtifact name path destination ownership =>
      refine (supply name List.mem_cons_self).bind fun source after answered => ?_
      exact Resolving.ends_pure ⟨answered.1, trivial, .singleton answered.2⟩
  | shell words =>
      cases words with
      | nil => exact emptyShell rfl
      | cons word words => exact Resolving.ends_pure ⟨holds, nofun, .nil _⟩
  | _ => exact Resolving.ends_pure ⟨holds, trivial, .nil _⟩

end ResolveContext

end StageManifest
