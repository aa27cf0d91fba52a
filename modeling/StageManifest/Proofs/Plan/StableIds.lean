import StageManifest.Proofs.Plan.Isolation
import StageManifest.Proofs.Plan.Keys
import StageManifest.Proofs.Plan.Lockstep

/-!
# What stable ids change

One build file is loaded for two project directories, with and without stable ids.
Both runs fail with the same failure or both give a plan, and a stage of the one
plan differs from the stage of the other in ids of mounts only
(`Plan.stable_ids_change_ids_only`).  An id differs only where the declaration of
the mount asks for a stable one or has none (`MountDefinition.Permits`).

That the runs end alike is known from their lockstep.  What the stages look like is
read off their portraits: both are portraits of one definition, and their keys have
the same names in both plans (`Portrait.differsInIds`).
-/

set_option autoImplicit false

namespace StageManifest

/-! ## Differences -/

/-- A mount is the declared one, except that it may have an id of its own if a stable one is asked
for or none is declared. -/
structure MountDefinition.Permits (declared : MountDefinition) (mount : CacheMount) : Prop where
  others : { mount with id := declared.mount.id } = declared.mount
  id : mount.id = declared.mount.id ∨ declared.stable = true ∨ declared.mount.id = none

/-- Two lists of instructions for one step that differ in permitted ids only. -/
inductive StepDefinition.DiffersInIds :
    StepDefinition → List Instruction → List Instruction → Prop where
  | run {command : String} {caches : List MountDefinition} {mounts others : List CacheMount}
      (permitted : List.Forall₂ MountDefinition.Permits caches mounts)
      (alsoPermitted : List.Forall₂ MountDefinition.Permits caches others) :
      DiffersInIds (.run command caches) [.run command mounts] [.run command others]
  | same {step : StepDefinition} (notRun : ∀ command caches, step ≠ .run command caches)
      (instructions : List Instruction) : DiffersInIds step instructions instructions

/-- Two stages of one definition that differ in permitted ids only, step by step. -/
structure StageDefinition.DiffersInIds (definition : StageDefinition) (stage other : Stage) :
    Prop where
  name : stage.name = other.name
  base : stage.base = other.base
  tag : stage.tag = other.tag
  instructions : ∃ parts : List (List Instruction × List Instruction),
    List.Forall₂ (fun step part => step.DiffersInIds part.1 part.2) definition.steps parts ∧
      stage.instructions = (parts.map (·.1)).flatten ∧
      other.instructions = (parts.map (·.2)).flatten

/-! ## Portraits of one definition -/

theorem MountDefinition.permits_placed (projectDirectory : HostPath) (stableCacheIds : Bool)
    (declared : MountDefinition) :
    declared.Permits (declared.placed projectDirectory stableCacheIds) := by
  unfold placed
  split
  next asked =>
    refine ⟨rfl, .inr ?_⟩
    rw [Bool.or_eq_true, Bool.and_eq_true, Option.isNone_iff_eq_none] at asked
    exact asked.imp_right And.right
  next => exact ⟨rfl, .inl rfl⟩

theorem MountDefinition.forall₂_permits (projectDirectory : HostPath) (stableCacheIds : Bool)
    (caches : List MountDefinition) :
    List.Forall₂ Permits caches (caches.map (placed projectDirectory stableCacheIds)) := by
  rw [List.forall₂_map_right_iff, List.forall₂_same]
  exact fun declared _ => declared.permits_placed projectDirectory stableCacheIds

section

variable {projectDirectory otherDirectory : HostPath} {stableCacheIds otherCacheIds : Bool}
  {standsFor also : String → Stage → Prop}
  (named : ∀ key source twin, standsFor key source → also key twin → source.name = twin.name)
include named

theorem StandsOn.base_eq {image parent : Option String} {base other : Base}
    (stands : StandsOn standsFor image parent base) (alike : StandsOn also image parent other) :
    base = other := by
  cases stands with
  | onImage image =>
      cases alike
      rfl
  | onStage isSource =>
      cases alike with
      | onStage isTwin => rw [named _ _ _ isSource isTwin]

theorem Writes.differsInIds {step : StepDefinition} {instructions others : List Instruction}
    (writes : Writes projectDirectory stableCacheIds standsFor step instructions)
    (alike : Writes otherDirectory otherCacheIds also step others) :
    step.DiffersInIds instructions others := by
  obtain ⟨nameOf, sources, rfl⟩ := writes
  obtain ⟨otherOf, twins, rfl⟩ := alike
  have sameNames : ∀ key ∈ step.references, nameOf key = otherOf key := by
    intro key isReference
    obtain ⟨source, isSource, name⟩ := sources key isReference
    obtain ⟨twin, isTwin, otherName⟩ := twins key isReference
    rw [← name, ← otherName, named key source twin isSource isTwin]
  rw [StepDefinition.instructions_congr sameNames]
  cases step with
  | run command caches =>
      exact .run (MountDefinition.forall₂_permits projectDirectory stableCacheIds caches)
        (MountDefinition.forall₂_permits otherDirectory otherCacheIds caches)
  | _ => exact .same (by rintro _ _ ⟨⟩) _

theorem exists_parts {steps : List StepDefinition} {parts others : List (List Instruction)}
    (writes : List.Forall₂ (Writes projectDirectory stableCacheIds standsFor) steps parts)
    (alike : List.Forall₂ (Writes otherDirectory otherCacheIds also) steps others) :
    ∃ pairs : List (List Instruction × List Instruction),
      List.Forall₂ (fun step part => step.DiffersInIds part.1 part.2) steps pairs ∧
        parts = pairs.map (·.1) ∧ others = pairs.map (·.2) := by
  induction writes generalizing others with
  | nil =>
      cases alike
      exact ⟨[], .nil, rfl, rfl⟩
  | @cons _ part _ _ head _ ih =>
      obtain _ | ⟨otherHead, alike⟩ := alike
      obtain ⟨pairs, differ, rfl, rfl⟩ := ih alike
      exact ⟨(part, _) :: pairs, .cons (head.differsInIds named otherHead) differ, rfl, rfl⟩

/-- **Two portraits of one definition differ in permitted ids only**, if the stages that keys stand
for have the same names. -/
theorem Portrait.differsInIds {definition : StageDefinition} {stage other : Stage}
    (portrait : Portrait projectDirectory stableCacheIds standsFor definition stage)
    (alike : Portrait otherDirectory otherCacheIds also definition other)
    (name : stage.name = other.name) : definition.DiffersInIds stage other where
  name := name
  base := portrait.base.base_eq named alike.base
  tag := portrait.tag.trans alike.tag.symm
  instructions := by
    obtain ⟨parts, writes, same⟩ := portrait.instructions
    obtain ⟨others, also, more⟩ := alike.instructions
    obtain ⟨pairs, differ, rfl, rfl⟩ := exists_parts named writes also
    exact ⟨pairs, differ, same, more⟩

end

/-! ## Keys and names -/

/-- Two maps with the same keys list them in the same order. -/
theorem Entries.keys_eq_of_mem_iff {α β : Type} {entries : Entries α} {others : Entries β}
    (same : ∀ key, key ∈ entries.keys ↔ key ∈ others.keys) : entries.keys = others.keys := by
  have perm : entries.keys.Perm others.keys :=
    (List.perm_ext_iff_of_nodup entries.nodup_keys others.nodup_keys).mpr same
  exact perm.eq_of_pairwise' entries.rising_keys others.rising_keys

namespace ResolveContext.Complete

variable {definitions : Entries StageDefinition} {names : NameSource}
  {collected others : Entries Stage} {state another : Resolution}

/-- There is a stage for each definition and no other. -/
theorem keys_eq (complete : Complete definitions names collected state) :
    collected.keys = definitions.keys := by
  refine Entries.keys_eq_of_mem_iff fun key => ⟨fun isKey => ?_, fun isKey => ?_⟩
  · obtain ⟨stage, found⟩ := Entries.exists_find?_of_mem_keys isKey
    exact complete.perm_keys.subset (List.mem_map_of_mem (f := (·.1)) (complete.recorded found))
  · obtain ⟨stage, found⟩ := complete.all key isKey
    exact Entries.mem_keys_of_find? found

/-- If the same keys were begun with the same names, their stages have the same names. -/
theorem name_eq (complete : Complete definitions names collected state)
    (also : Complete definitions names others another) (begun : state.begun = another.begun)
    {key : String} {stage other : Stage} (found : collected.find? key = some stage)
    (isOther : others.find? key = some other) : stage.name = other.name := by
  have once : (state.begun.map (·.1)).Nodup :=
    complete.perm_keys.nodup_iff.mpr definitions.nodup_keys
  have recorded : (key, other.name) ∈ state.begun := begun ▸ also.recorded isOther
  exact congrArg Prod.snd (List.inj_on_of_nodup_map once (complete.recorded found) recorded rfl)

end ResolveContext.Complete

namespace Plan

/-- **Stable ids and the project directory influence nothing but ids of mounts.**  For any two
directories and options, loading a build file fails with the same failure or gives two plans with
the same targets and descriptions.  The stages of a target have the same name, base and tag and, step
by step, the same instructions, apart from ids of mounts that ask for a stable id or declare none.
They are linked to the stages of the same targets in the same order, if no name is drawn twice.
That is the contract of a source of names, to return a name never returned before, which a source
that lists its names in advance can break: stages of one name are told apart by what they look like,
and so by ids. -/
theorem stable_ids_change_ids_only (names : NameSource) (text : String)
    (path projectDirectory otherDirectory : HostPath) (stableCacheIds otherCacheIds : Bool) :
    (∃ failure reached otherReached,
      load names text path projectDirectory stableCacheIds = (.error failure, reached) ∧
        load names text path otherDirectory otherCacheIds = (.error failure, otherReached)) ∨
    ∃ file plan other reached otherReached, PlanFile.parse text = .ok file ∧
      load names text path projectDirectory stableCacheIds = (.ok plan, reached) ∧
      load names text path otherDirectory otherCacheIds = (.ok other, otherReached) ∧
      plan.path = other.path ∧ plan.targets = file.stages.keys ∧
      other.targets = file.stages.keys ∧ plan.descriptions = other.descriptions ∧
      ∀ target definition, file.stages.find? target = some definition → ∃ stage twin,
        plan.stage target = .ok stage ∧ other.stage target = .ok twin ∧
        definition.DiffersInIds stage twin ∧
        ((names.firstNames file.stages.size).Nodup →
          List.Forall₂
            (fun dependency link => ∃ needed, plan.stage needed = .ok dependency ∧
              other.stage needed = .ok link)
            stage.dependencies.toList twin.dependencies.toList) := by
  have ends := endAlike_load names text path projectDirectory otherDirectory stableCacheIds
    otherCacheIds
  generalize first : load names text path projectDirectory stableCacheIds = result at ends ⊢
  generalize second : load names text path otherDirectory otherCacheIds = otherResult at ends ⊢
  cases ends with
  | error failure _ => exact .inl ⟨failure, _, _, rfl, rfl⟩
  | @ok plan other reached otherReached alike inStep =>
      refine .inr ?_
      obtain ⟨_, file, _, _, parsed⟩ := exists_parsed (congrArg Prod.fst first)
      have complete := (ends_parse parsed names path projectDirectory stableCacheIds).of_ok first
      have also := (ends_parse parsed names path otherDirectory otherCacheIds).of_ok second
      refine ⟨file, plan, other, reached, otherReached, parsed, rfl, rfl, alike.1, complete.keys_eq,
        also.keys_eq, alike.2, fun target definition defined => ?_⟩
      have isKey := Entries.mem_keys_of_find? defined
      obtain ⟨stage, found⟩ := complete.all target isKey
      obtain ⟨twin, isTwin⟩ := also.all target isKey
      obtain ⟨_, isDefined, portrait⟩ := portrait_of_load parsed first found
      obtain ⟨_, alsoDefined, otherPortrait⟩ := portrait_of_load parsed second isTwin
      obtain rfl := Option.some.inj (defined.symm.trans isDefined)
      obtain rfl := Option.some.inj (defined.symm.trans alsoDefined)
      refine ⟨stage, twin, stage_eq_ok_iff.mpr found, stage_eq_ok_iff.mpr isTwin, ?_,
        fun unique => ?_⟩
      · refine portrait.differsInIds (fun key source link isSource isLink => ?_) otherPortrait
          (complete.name_eq also inStep.begun found isTwin)
        exact complete.name_eq also inStep.begun isSource isLink
      · have depicts : Depicts projectDirectory stableCacheIds file.stages target plan.stages :=
          depicts_of_load parsed first unique fun _ _ => rfl
        have alsoDepicts : Depicts otherDirectory otherCacheIds file.stages target other.stages :=
          depicts_of_load parsed second unique fun _ _ => rfl
        refine (depicts.forall₂_twins_dependencies alsoDepicts
          ⟨target, .refl, found, isTwin⟩).imp ?_
        rintro dependency link ⟨needed, _, isDependency, isLink⟩
        exact ⟨needed, stage_eq_ok_iff.mpr isDependency, stage_eq_ok_iff.mpr isLink⟩

end Plan

/-! ## A base with two mounts

One mount has an id and the other has none.
-/

namespace MountedBase

def text : String :=
  "[stages.app]\nfrom_stage=\"base\"\nsteps=[]\n[stages.base]\nfrom=\"rust\"\n" ++
    "steps=[\x7brun=\x7bcommand=\"make\"," ++
    "cache=[\x7btarget=\"/a\"\x7d,\x7btarget=\"/b\",id=\"own\"\x7d]\x7d\x7d]"

def base : StageDefinition :=
  { image := some "rust",
    steps := [.run "make" [⟨{ target := "/a" }, false, []⟩,
      ⟨{ target := "/b", id := some "own" }, false, []⟩]] }

def file : PlanFile := ⟨.ofList [("app", { parent := some "base" }), ("base", base)]⟩

theorem parsed : PlanFile.parse text = .ok file := by cbv

theorem unique : (NameSource.standard.firstNames file.stages.size).Nodup := by decide

/-- How loading the plan ends in a directory. -/
def loaded (directory : HostPath) (stableCacheIds : Bool) : Except Failure Plan × Resolution :=
  Plan.load .standard text ⟨[]⟩ directory stableCacheIds

theorem exists_plan (directory : HostPath) :
    ∃ plan reached, loaded directory false = (.ok plan, reached) := by
  have isOk : (loaded directory false).1.toOption.isSome = true := by
    rw [loaded, Plan.load, Plan.parse, parsed]
    cbv
  exact Plan.exists_of_isSome isOk

end MountedBase

/-- The app keeps its link to the base, whose mounts differ in ids. -/
theorem Plan.mounted_base_differs_in_ids :
    PlanFile.parse MountedBase.text = .ok MountedBase.file ∧
      (NameSource.standard.firstNames MountedBase.file.stages.size).Nodup ∧
      ∃ plan reached other otherReached app twin base baseTwin,
        MountedBase.loaded (.ofText "here") false = (.ok plan, reached) ∧
        MountedBase.loaded (.ofText "there") true = (.ok other, otherReached) ∧
        plan.stage "app" = .ok app ∧ other.stage "app" = .ok twin ∧
        plan.stage "base" = .ok base ∧ other.stage "base" = .ok baseTwin ∧
        MountedBase.base.DiffersInIds base baseTwin ∧
        List.Forall₂ (fun dependency link => ∃ needed, plan.stage needed = .ok dependency ∧
          other.stage needed = .ok link) app.dependencies.toList twin.dependencies.toList := by
  obtain ⟨_, _, loaded⟩ := MountedBase.exists_plan (.ofText "here")
  rcases stable_ids_change_ids_only .standard MountedBase.text ⟨[]⟩ (.ofText "here")
      (.ofText "there") false true with ⟨_, _, _, failed, _⟩ | both
  · cases failed.symm.trans loaded
  obtain ⟨_, plan, other, reached, otherReached, parsed, isFirst, isSecond, _, _, _, _, differ⟩ :=
    both
  obtain rfl := Except.ok.inj (MountedBase.parsed.symm.trans parsed)
  obtain ⟨app, twin, isApp, isTwin, _, linked⟩ := differ "app" { parent := some "base" } (by cbv)
  obtain ⟨base, baseTwin, isBase, isBaseTwin, ids, _⟩ := differ "base" MountedBase.base (by cbv)
  exact ⟨MountedBase.parsed, MountedBase.unique, plan, reached, other, otherReached, app, twin, base,
    baseTwin, isFirst, isSecond, isApp, isTwin, isBase, isBaseTwin, ids, linked MountedBase.unique⟩

end StageManifest
