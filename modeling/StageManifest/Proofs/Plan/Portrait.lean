import Mathlib.Data.List.Forall2
import StageManifest.Proofs.Plan.Resolution

/-!
# Stages as portraits of definitions

What a stage looks like is settled by its definition and by the stages that keys
stand for: its base, its instructions, its links and its tag (`Portrait`).  A stage
that is underway is the portrait of the part of its definition that has been done
(`Portrait.grow`), so the stage of every key of a plan is the portrait of its whole
definition (`ResolveContext.portrays_resolve`).

The stages that keys stand for are given by a relation.  While a build file is
resolved it is membership in what was built, which only grows (`Portrait.mono`).
-/

set_option autoImplicit false

namespace StageManifest

open Resolving (Ends)

/-! ## Instructions of a definition -/

/-- The mount that a definition declares in a project's directory. -/
def MountDefinition.placed (projectDirectory : HostPath) (stableCacheIds : Bool)
    (definition : MountDefinition) : CacheMount :=
  if definition.stable || (stableCacheIds && definition.mount.id.isNone) then
    definition.mount.withStableId projectDirectory
  else definition.mount

/-- The instructions that a step declares, where keys stand for stages with the given names. -/
def StepDefinition.instructions (projectDirectory : HostPath) (stableCacheIds : Bool)
    (nameOf : String → String) : StepDefinition → List Instruction
  | .run command caches =>
      [.run command (caches.map (MountDefinition.placed projectDirectory stableCacheIds))]
  | .copy source destination ownership => [.copy source destination ownership none]
  | .copyArtifact key path destination ownership =>
      [.copy path destination ownership (some (nameOf key))]
  | .env assignments => [.envOf (scalarTexts assignments)]
  | .label labels => [.labelOf (scalarTexts labels)]
  | .expose port => [.expose port]
  | .workdir path => [.workdir path]
  | .user name group => [.user name group]
  | .cmd command => [.cmd command]
  | .entrypoint command => [.entrypoint command]
  | .volume paths => [.volume paths]
  | .arg name value => [.arg name (value.map scalarText)]
  | .shell words => [.shell words]
  | .aptInstall packages => [Recipe.aptInstall packages]
  | .cargo subcommand => [Recipe.cargo subcommand]
  | .rustToolchain version => Recipe.rustToolchain version

/-- Only the names of the keys that a step refers to are part of its instructions. -/
theorem StepDefinition.instructions_congr {projectDirectory : HostPath} {stableCacheIds : Bool}
    {nameOf other : String → String} {step : StepDefinition}
    (same : ∀ key ∈ step.references, nameOf key = other key) :
    step.instructions projectDirectory stableCacheIds nameOf =
      step.instructions projectDirectory stableCacheIds other := by
  cases step with
  | copyArtifact key path destination ownership =>
      rw [instructions, instructions, same key List.mem_cons_self]
  | _ => rfl

/-! ## Links -/

/-- Whether a link leads to the very stage: one of the same definition with the same links. -/
def Stage.isVery (dependency source : Stage) : Bool :=
  dependency.sameDefinition source && dependency.sharesDependencies source

theorem Stage.isVery_self (stage : Stage) : stage.isVery stage = true := by
  rw [isVery, (Agrees.refl stage).sameDefinition, sharesDependencies, Chain.sameEnd_iff.mpr rfl,
    Bool.and_self]

theorem Stage.name_eq_of_isVery {stage other : Stage} (same : stage.isVery other = true) :
    stage.name = other.name := by
  simp only [isVery, sameDefinition, Bool.and_eq_true, beq_iff_eq] at same
  exact same.1.1.1

/-- The links with one more stage, unless that very stage is among them. -/
def Stage.link (links : List Stage) (source : Stage) : List Stage :=
  if links.any fun dependency => dependency.isVery source then links else links ++ [source]

/-- A growth links its inputs one after another. -/
theorem Growth.append_linked (growth : Growth) (stage : Stage) :
    stage.dependencies.toList ++ growth.linked stage =
      growth.inputs.foldl Stage.link stage.dependencies.toList := by
  cases growth with
  | copyArtifact artifact destination ownership =>
      change _ ++ (if stage.isLinkedTo artifact.source = true then [] else [artifact.source]) =
        if stage.isLinkedTo artifact.source = true then stage.dependencies.toList
        else stage.dependencies.toList ++ [artifact.source]
      by_cases isLinked : stage.isLinkedTo artifact.source = true
      · rw [if_pos isLinked, if_pos isLinked, List.append_nil]
      · rw [if_neg isLinked, if_neg isLinked]
  | _ => exact List.append_nil _

theorem Stage.tag_pushAll (stage : Stage) (instructions : List Instruction) (bench : Workbench) :
    ((stage.pushAll instructions).run bench).1.tag = stage.tag := by
  induction instructions generalizing stage bench with
  | nil => rfl
  | cons instruction rest ih => exact ih _ _

theorem Stage.tag_copyArtifact (stage : Stage) (artifact : Artifact) (destination : String)
    (ownership : Option Ownership) (bench : Workbench) :
    ((stage.copyArtifact artifact destination ownership).run bench).1.tag = stage.tag := by
  unfold copyArtifact
  split <;> rfl

/-- A growth leaves the tag alone unless it sets it. -/
theorem Growth.tag_apply {growth : Growth} (untagged : ∀ name, growth ≠ .tag name) (stage : Stage)
    (bench : Workbench) : ((growth.apply stage).run bench).1.tag = stage.tag := by
  cases growth with
  | tag name => exact (untagged name rfl).elim
  | copyArtifact artifact destination ownership => exact stage.tag_copyArtifact _ _ _ bench
  | _ => exact stage.tag_pushAll _ bench

/-! ## Portraits -/

/-- What a stage is built on: the image of a definition, or the stage that its parent stands for. -/
inductive StandsOn (standsFor : String → Stage → Prop) :
    Option String → Option String → Base → Prop where
  | onImage (image : String) : StandsOn standsFor (some image) none (.image image)
  | onStage {parent : String} {source : Stage} (isSource : standsFor parent source) :
      StandsOn standsFor none (some parent) (.stage source.name)

/-- The instructions are those of a step, with the names of the stages that its keys stand for. -/
def Writes (projectDirectory : HostPath) (stableCacheIds : Bool)
    (standsFor : String → Stage → Prop) (step : StepDefinition)
    (instructions : List Instruction) : Prop :=
  ∃ nameOf : String → String,
    (∀ key ∈ step.references, ∃ source, standsFor key source ∧ source.name = nameOf key) ∧
      instructions = step.instructions projectDirectory stableCacheIds nameOf

/-- A stage is what its definition says, if keys stand for the given stages. -/
structure Portrait (projectDirectory : HostPath) (stableCacheIds : Bool)
    (standsFor : String → Stage → Prop) (definition : StageDefinition) (stage : Stage) :
    Prop where
  base : StandsOn standsFor definition.image definition.parent stage.base
  instructions : ∃ parts,
    List.Forall₂ (Writes projectDirectory stableCacheIds standsFor) definition.steps parts ∧
      stage.instructions = parts.flatten
  links : ∃ sources, List.Forall₂ standsFor definition.references sources ∧
    stage.dependencies.toList = sources.foldl Stage.link []
  tag : stage.tag = definition.tag

/-- A growth is what a step asks for, if keys stand for the given stages. -/
structure Draws (projectDirectory : HostPath) (stableCacheIds : Bool)
    (standsFor : String → Stage → Prop) (step : StepDefinition) (growth : Growth) : Prop where
  instructions : Writes projectDirectory stableCacheIds standsFor step growth.instructions
  inputs : List.Forall₂ standsFor step.references growth.inputs
  untagged : ∀ name, growth ≠ .tag name

section

variable {projectDirectory : HostPath} {stableCacheIds : Bool}
  {standsFor later : String → Stage → Prop} {definition : StageDefinition} {stage : Stage}
  {done : List StepDefinition} {step : StepDefinition}

theorem StandsOn.mono {image parent : Option String} {base : Base}
    (stands : StandsOn standsFor image parent base)
    (kept : ∀ key source, standsFor key source → later key source) :
    StandsOn later image parent base := by
  cases stands with
  | onImage image => exact .onImage image
  | onStage isSource => exact .onStage (kept _ _ isSource)

theorem Writes.mono {instructions : List Instruction}
    (writes : Writes projectDirectory stableCacheIds standsFor step instructions)
    (kept : ∀ key source, standsFor key source → later key source) :
    Writes projectDirectory stableCacheIds later step instructions := by
  obtain ⟨nameOf, named, same⟩ := writes
  refine ⟨nameOf, fun key isReference => ?_, same⟩
  obtain ⟨source, isSource, name⟩ := named key isReference
  exact ⟨source, kept key source isSource, name⟩

namespace Portrait

/-- What keys stand for stays so, and a stage stays the portrait of its definition. -/
theorem mono (portrait : Portrait projectDirectory stableCacheIds standsFor definition stage)
    (kept : ∀ key source, standsFor key source → later key source) :
    Portrait projectDirectory stableCacheIds later definition stage where
  base := portrait.base.mono kept
  instructions := by
    obtain ⟨parts, writes, same⟩ := portrait.instructions
    exact ⟨parts, writes.imp fun _ _ writes => writes.mono kept, same⟩
  links := by
    obtain ⟨sources, stand, same⟩ := portrait.links
    exact ⟨sources, stand.imp kept, same⟩
  tag := portrait.tag

/-- **A stage grows with its definition.** -/
theorem grow {growth : Growth} {tag : Option String}
    (portrait : Portrait projectDirectory stableCacheIds standsFor
      { definition with steps := done, tag := tag } stage)
    (draws : Draws projectDirectory stableCacheIds standsFor step growth) (bench : Workbench) :
    Portrait projectDirectory stableCacheIds standsFor
      { definition with steps := done ++ [step], tag := tag }
      ((growth.apply stage).run bench).1 where
  base := by
    rw [(growth.grown stage bench).base]
    exact portrait.base
  instructions := by
    obtain ⟨parts, writes, same⟩ := portrait.instructions
    refine ⟨parts ++ [growth.instructions], List.rel_append writes (.cons draws.instructions .nil),
      ?_⟩
    rw [(growth.grown stage bench).instructions, same, List.flatten_append, List.flatten_singleton]
  links := by
    obtain ⟨sources, stand, same⟩ := portrait.links
    refine ⟨sources ++ growth.inputs, ?_, ?_⟩
    · have split : StageDefinition.references
          { definition with steps := done ++ [step], tag := tag } =
          StageDefinition.references { definition with steps := done, tag := tag } ++
            step.references := by
        simp only [StageDefinition.references, List.flatMap_append, List.flatMap_singleton,
          List.append_assoc]
      exact split ▸ List.rel_append stand draws.inputs
    · rw [(growth.grown stage bench).dependencies, growth.append_linked, same, List.foldl_append]
  tag := (growth.tag_apply draws.untagged stage bench).trans portrait.tag

/-- A stage gets the tag of its definition. -/
theorem withTag {tag : Option String}
    (portrait : Portrait projectDirectory stableCacheIds standsFor
      { definition with tag := tag } stage) (name : String) :
    Portrait projectDirectory stableCacheIds standsFor { definition with tag := some name }
      (stage.withTag name) :=
  ⟨portrait.base, portrait.instructions, portrait.links, rfl⟩

end Portrait

end

/-! ## Portraits while a build file is resolved -/

/-- What was built for a key. -/
def BuiltFor (state : Resolution) (key : String) (stage : Stage) : Prop :=
  (key, stage) ∈ state.built

/-- Nothing that was built is lost. -/
def Keeps (state after : Resolution) : Prop := state.built ⊆ after.built

namespace ResolveContext

variable {context : ResolveContext} {resolveStage : String → Resolving Stage} {key : String}
  {definition : StageDefinition} {stage : Stage} {state : Resolution}

/-- The stage is the portrait of the definition of its key. -/
def Portrayed (context : ResolveContext) (standsFor : String → Stage → Prop) (key : String)
    (stage : Stage) : Prop :=
  ∃ definition, context.definitions.find? key = some definition ∧
    Portrait context.projectDirectory context.stableCacheIds standsFor definition stage

/-- Every stage that was built is a portrait. -/
def AllPortrayed (context : ResolveContext) (state : Resolution) : Prop :=
  ∀ key stage, BuiltFor state key stage → context.Portrayed (BuiltFor state) key stage

/-- The work builds portraits only, keeps what was built, and answers what was built for the
key. -/
def Portrays (context : ResolveContext) (work : Resolving Stage) (key : String) : Prop :=
  ∀ state, context.AllPortrayed state →
    Ends work state
      (fun stage after => context.AllPortrayed after ∧ Keeps state after ∧ BuiltFor after key stage)
      fun _ _ => True

/-! ### Steps -/

theorem mount_eq_ok {cache : MountDefinition} {mount : CacheMount}
    (made : context.mount key cache = .ok mount) :
    mount = cache.placed context.projectDirectory context.stableCacheIds := by
  unfold ResolveContext.mount at made
  split at made
  · cases made
  · unfold MountDefinition.placed
    split at made <;> rw [Except.ok.inj made.symm]
    · rw [if_pos ‹_›]
    · rw [if_neg ‹_›]

theorem eq_map_placed_of_mapM {caches : List MountDefinition} {mounts : List CacheMount}
    (made : caches.mapM (context.mount key) = .ok mounts) :
    mounts = caches.map
      (MountDefinition.placed context.projectDirectory context.stableCacheIds) := by
  induction caches generalizing mounts with
  | nil =>
      cases made
      rfl
  | cons cache rest ih =>
      rw [List.mapM_cons] at made
      cases first : context.mount key cache with
      | error failure =>
          rw [first] at made
          cases made
      | ok mount =>
          cases others : rest.mapM (context.mount key) with
          | error failure =>
              rw [first, others] at made
              cases made
          | ok more =>
              rw [first, others] at made
              cases made
              rw [List.map_cons, ih others, mount_eq_ok first]

theorem ends_mounts_placed (caches : List MountDefinition) :
    Ends (applyStep.liftExcept (caches.mapM (context.mount key))) state
      (fun mounts after => after = state ∧ mounts =
        caches.map (MountDefinition.placed context.projectDirectory context.stableCacheIds))
      fun _ _ => True := by
  cases made : caches.mapM (context.mount key) with
  | error failure => exact trivial
  | ok mounts => exact ⟨rfl, eq_map_placed_of_mapM made⟩

/-- A growth without inputs is what its step asks for if its instructions are those of the step. -/
theorem draws_of_instructions {projectDirectory : HostPath} {stableCacheIds : Bool}
    {standsFor : String → Stage → Prop} {step : StepDefinition} {growth : Growth}
    (noReferences : step.references = []) (noInputs : growth.inputs = [])
    (same : growth.instructions = step.instructions projectDirectory stableCacheIds id)
    (untagged : ∀ name, growth ≠ .tag name) :
    Draws projectDirectory stableCacheIds standsFor step growth where
  instructions := ⟨id, by rw [noReferences]; exact nofun, same⟩
  inputs := by
    rw [noReferences, noInputs]
    exact .nil
  untagged := untagged

/-- A step asks for the growth that it draws. -/
theorem ends_growthOf_draws (supply : ∀ name, context.Portrays (resolveStage name) name)
    (portrayed : context.AllPortrayed state) (step : StepDefinition) :
    Ends (context.growthOf resolveStage key step) state
      (fun growth after => context.AllPortrayed after ∧ Keeps state after ∧
        Draws context.projectDirectory context.stableCacheIds (BuiltFor after) step growth)
      fun _ _ => True := by
  have kept : Keeps state state := List.Subset.refl _
  cases step with
  | run command caches =>
      refine (ends_mounts_placed caches).bind ?_
      rintro mounts after ⟨rfl, rfl⟩
      exact Resolving.ends_pure ⟨portrayed, kept, draws_of_instructions rfl rfl rfl nofun⟩
  | copyArtifact name path destination ownership =>
      refine (supply name state portrayed).bind fun source after answered => ?_
      refine Resolving.ends_pure ⟨answered.1, answered.2.1, ⟨fun _ => source.name, ?_, rfl⟩,
        .cons answered.2.2 .nil, nofun⟩
      exact List.forall_mem_singleton.mpr ⟨source, answered.2.2, rfl⟩
  | shell words =>
      cases words with
      | nil => exact trivial
      | cons word words =>
          exact Resolving.ends_pure ⟨portrayed, kept, draws_of_instructions rfl rfl rfl nofun⟩
  | _ => exact ⟨portrayed, kept, draws_of_instructions rfl rfl rfl nofun⟩

/-- A stage grows by a step. -/
theorem ends_applyStep_portrait (supply : ∀ name, context.Portrays (resolveStage name) name)
    (portrayed : context.AllPortrayed state) {done : List StepDefinition}
    (portrait : Portrait context.projectDirectory context.stableCacheIds (BuiltFor state)
      { definition with steps := done, tag := none } stage) (step : StepDefinition) :
    Ends (context.applyStep resolveStage key stage step) state
      (fun grown after => context.AllPortrayed after ∧ Keeps state after ∧
        Portrait context.projectDirectory context.stableCacheIds (BuiltFor after)
          { definition with steps := done ++ [step], tag := none } grown)
      fun _ _ => True := by
  rw [applyStep_eq]
  refine (ends_growthOf_draws supply portrayed step).bind ?_
  rintro growth after ⟨portrayedAfter, kept, draws⟩
  refine Resolving.ends_assemble ⟨portrayedAfter, kept, ?_⟩
  exact (portrait.mono fun _ _ built => kept built).grow draws after.bench

/-! ### Stages -/

theorem ends_startingJob_portrait (supply : ∀ name, context.Portrays (resolveStage name) name)
    (portrayed : context.AllPortrayed state) :
    Ends (context.startingJob resolveStage key definition) state
      (fun job after => context.AllPortrayed after ∧ Keeps state after ∧ ∀ bench,
        Portrait context.projectDirectory context.stableCacheIds (BuiltFor after)
          { definition with steps := [], tag := none } (job.perform.run bench).1)
      fun _ _ => True := by
  unfold startingJob
  split
  next image isImage noParent =>
    refine Resolving.ends_pure ⟨portrayed, List.Subset.refl _, fun bench => ?_⟩
    refine ⟨?_, ⟨[], .nil, rfl⟩, ⟨[], ?_, rfl⟩, rfl⟩
    · rw [isImage, noParent]
      exact .onImage image
    · rw [StageDefinition.references, noParent]
      exact .nil
  next parent noImage isParent =>
    refine (supply parent state portrayed).bind ?_
    rintro base after ⟨portrayedAfter, kept, isBase⟩
    refine Resolving.ends_pure ⟨portrayedAfter, kept, fun bench => ?_⟩
    refine ⟨?_, ⟨[], .nil, rfl⟩, ⟨[base], ?_, ?_⟩, rfl⟩
    · rw [noImage, isParent]
      exact .onStage isBase
    · rw [StageDefinition.references, isParent]
      exact .cons isBase .nil
    · exact Chain.toList_push _ _ _
  · exact trivial

/-- A portrait of the whole definition is built. -/
theorem ends_build_portrait (defined : context.definitions.find? key = some definition)
    (portrayed : context.AllPortrayed state)
    (portrait : Portrait context.projectDirectory context.stableCacheIds (BuiltFor state)
      definition stage) :
    Ends (do
        modify fun state => { state with built := (key, stage) :: state.built }
        return stage : Resolving Stage) state
      (fun stage after => context.AllPortrayed after ∧ Keeps state after ∧
        BuiltFor after key stage)
      fun _ _ => True := by
  have kept : state.built ⊆ (key, stage) :: state.built := List.subset_cons_self _ _
  refine Resolving.ends_modify_bind
    (Resolving.ends_pure ⟨fun other source built => ?_, kept, List.mem_cons_self⟩)
  rcases List.mem_cons.mp built with same | old
  · obtain ⟨rfl, rfl⟩ := Prod.mk.inj same
    exact ⟨definition, defined, portrait.mono fun _ _ built => kept built⟩
  · obtain ⟨own, isOwn, older⟩ := portrayed other source old
    exact ⟨own, isOwn, older.mono fun _ _ built => kept built⟩

/-- A stage that is made of a definition is its portrait. -/
theorem portrays_makeStage (supply : ∀ name, context.Portrays (resolveStage name) name)
    (defined : context.definitions.find? key = some definition) :
    context.Portrays (context.makeStage resolveStage key definition) key := by
  intro state portrayed
  rw [makeStage, startStage_eq, bind_assoc]
  refine (ends_startingJob_portrait supply portrayed).bind ?_
  rintro job before ⟨portrayedBefore, keptBefore, starts⟩
  refine Resolving.ends_assemble_bind (Resolving.ends_modify_bind ?_)
  refine Resolving.Ends.bind (Resolving.ends_foldlM (motive := fun done grown after =>
    context.AllPortrayed after ∧ Keeps state after ∧
      Portrait context.projectDirectory context.stableCacheIds (BuiltFor after)
        { definition with steps := done, tag := none } grown) ?_ ?_) ?_
  · rintro done step _ grown after ⟨portrayedAfter, keptAfter, portrait⟩
    refine (ends_applyStep_portrait supply portrayedAfter portrait step).mono ?_
    rintro next final ⟨portrayedFinal, keptFinal, grew⟩
    exact ⟨portrayedFinal, List.Subset.trans keptAfter keptFinal, grew⟩
  · exact ⟨portrayedBefore, keptBefore, starts _⟩
  · rintro grown after ⟨portrayedAfter, keptAfter, portrait⟩
    have builds : ∀ stage, Portrait context.projectDirectory context.stableCacheIds
        (BuiltFor after) definition stage →
        Ends (do
            modify fun state => { state with built := (key, stage) :: state.built }
            return stage : Resolving Stage) after
          (fun stage final => context.AllPortrayed final ∧ Keeps state final ∧
            BuiltFor final key stage)
          fun _ _ => True := by
      intro stage whole
      refine (ends_build_portrait defined portrayedAfter whole).mono ?_
      rintro stage final ⟨portrayedFinal, keptFinal, built⟩
      exact ⟨portrayedFinal, List.Subset.trans keptAfter keptFinal, built⟩
    obtain ⟨image, parent, tag, description, steps⟩ := definition
    cases tag with
    | none => exact builds _ portrait
    | some tag => exact builds _ (portrait.withTag tag)

/-! ### Keys -/

/-- **The stage of a key is the portrait of its definition.** -/
theorem portrays_resolve (context : ResolveContext) (asked : List String × String) :
    ∀ referencedBy, context.Portrays (context.resolve asked.1 asked.2 referencedBy) asked.2 := by
  induction asked using
    (measure fun asked : List String × String => (context.waiting asked.1).length).wf.induction with
  | _ asked ih =>
      obtain ⟨resolving, key⟩ := asked
      intro referencedBy state portrayed
      rw [resolve]
      refine Resolving.ends_get_bind ?_
      split
      next stage found =>
        refine Resolving.ends_pure ⟨portrayed, List.Subset.refl _, ?_⟩
        obtain ⟨newer, older, split, _⟩ := List.lookup_eq_some_iff.mp found
        rw [BuiltFor, split]
        exact List.mem_append_right _ List.mem_cons_self
      next absent =>
        split
        · exact trivial
        next definition defined =>
          split
          · exact trivial
          next notResolving =>
            refine portrays_makeStage (fun name => ?_) defined state portrayed
            exact ih (key :: resolving, name) (length_waiting_cons_lt defined notResolving) key

/-- Collecting the stages of all keys builds portraits only. -/
theorem ends_resolveAll_portrayed (context : ResolveContext) (names : NameSource) :
    Ends context.resolveAll { bench := .ofNames names }
      (fun _ after => context.AllPortrayed after) fun _ _ => True := by
  refine Resolving.ends_foldlM (motive := fun _ _ after => context.AllPortrayed after) ?_
    fun _ _ => nofun
  intro done key _ collected state portrayed
  refine (context.portrays_resolve ([], key) key state portrayed).bind ?_
  rintro stage after ⟨portrayedAfter, _⟩
  exact Resolving.ends_pure portrayedAfter

end ResolveContext

/-- What was built for a key is found under it. -/
theorem Built.lookup_of_mem {definitions : Entries StageDefinition} {built : List (String × Stage)}
    (isBuilt : Built definitions built) {key : String} {stage : Stage}
    (member : (key, stage) ∈ built) : built.lookup key = some stage := by
  induction isBuilt with
  | nil => cases member
  | cons _ isNew _ _ _ ih =>
      rcases List.mem_cons.mp member with same | old
      · obtain ⟨rfl, rfl⟩ := Prod.mk.inj same
        rw [lookup_cons_eq, if_pos rfl]
      · exact Built.lookup_cons isNew (ih old)

/-- **The stage of a key is the portrait of its definition**, where keys stand for the stages of the
plan. -/
theorem Plan.portrait_of_load {names : NameSource} {text : String} {file : PlanFile}
    {path projectDirectory : HostPath} {stableCacheIds : Bool} {plan : Plan} {reached : Resolution}
    (parsed : PlanFile.parse text = .ok file)
    (loaded : load names text path projectDirectory stableCacheIds = (.ok plan, reached))
    {key : String} {stage : Stage} (found : plan.stages.find? key = some stage) :
    ∃ definition, file.stages.find? key = some definition ∧
      Portrait projectDirectory stableCacheIds
        (fun key stage => plan.stages.find? key = some stage) definition stage := by
  have complete := (ends_parse parsed names path projectDirectory stableCacheIds).of_ok loaded
  have ends : Ends (parse text path projectDirectory stableCacheIds) { bench := .ofNames names }
      (fun _ after => ResolveContext.AllPortrayed
        ⟨file.stages, path, projectDirectory, stableCacheIds⟩ after)
      fun _ _ => True := by
    rw [parse, parsed]
    exact (ResolveContext.ends_resolveAll_portrayed _ names).bind fun stages after portrayed =>
      Resolving.ends_pure portrayed
  obtain ⟨_, progress⟩ := complete.progress
  have member : BuiltFor reached key stage := by
    rw [complete.find?_eq] at found
    obtain ⟨newer, older, split, _⟩ := List.lookup_eq_some_iff.mp found
    rw [BuiltFor, split]
    exact List.mem_append_right _ List.mem_cons_self
  obtain ⟨definition, defined, portrait⟩ := ends.of_ok loaded key stage member
  refine ⟨definition, defined, portrait.mono fun other source built => ?_⟩
  rw [complete.find?_eq]
  exact progress.built.lookup_of_mem built

end StageManifest
