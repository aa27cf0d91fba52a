import StageManifest.Proofs.Plan.Portrait

/-!
# Two runs of one resolution

One build file can be resolved for two project directories, with and without stable
ids.  The two runs go in lockstep: from states that are in step they both end with
an answer, or both with the same failure, and in states that are in step
(`Lockstep`).  In such states the same names come next, the same keys were begun
with the same names, and the same keys were built (`Resolution.InStep`); what the
stages look like makes no difference to how resolution goes on.

Lockstep is carried through the pieces that resolution is put together from, and at
last through the keys that ask for each other (`ResolveContext.lockstep_resolve`).
Only mounts look at the directory and the option, and whether they can be made
depends on their keys alone (`ResolveContext.mapM_mount_eq`).
-/

set_option autoImplicit false

namespace StageManifest

/-- Two states of resolution that agree on names and keys. -/
structure Resolution.InStep (state other : Resolution) : Prop where
  names : state.bench.names = other.bench.names
  begun : state.begun = other.begun
  built : state.built.map (·.1) = other.built.map (·.1)

namespace Resolving

variable {α β : Type}

/-- Two runs end with related answers or with the same failure, and in step. -/
inductive EndAlike (related : α → α → Prop) :
    Except Failure α × Resolution → Except Failure α × Resolution → Prop where
  | ok {answer twin : α} {after later : Resolution} (alike : related answer twin)
      (inStep : after.InStep later) : EndAlike related (.ok answer, after) (.ok twin, later)
  | error (failure : Failure) {after later : Resolution} (inStep : after.InStep later) :
      EndAlike related (.error failure, after) (.error failure, later)

/-- From states that are in step, the works end alike. -/
def Lockstep (related : α → α → Prop) (work other : Resolving α) : Prop :=
  ∀ state another, state.InStep another →
    EndAlike related (outcome work state) (outcome other another)

/-- Anything is related to anything. -/
abbrev Any : α → α → Prop := fun _ _ => True

variable {related : α → α → Prop}

theorem lockstep_pure {answer twin : α} (alike : related answer twin) :
    Lockstep related (pure answer) (pure twin) :=
  fun _ _ inStep => .ok alike inStep

theorem lockstep_throw (failure : Failure) :
    Lockstep related (throw failure) (throw failure) :=
  fun _ _ inStep => .error failure inStep

namespace Lockstep

/-- Works that go on in lockstep are in lockstep. -/
theorem bind {work other : Resolving α} {next further : α → Resolving β} {goal : β → β → Prop}
    (lockstep : Lockstep related work other)
    (goesOn : ∀ answer twin, related answer twin → Lockstep goal (next answer) (further twin)) :
    Lockstep goal (work >>= next) (other >>= further) := by
  intro state another inStep
  have ends := lockstep state another inStep
  rw [outcome_bind, outcome_bind]
  generalize outcome work state = first at ends ⊢
  generalize outcome other another = second at ends ⊢
  cases ends with
  | ok alike after => exact goesOn _ _ alike _ _ after
  | error failure after => exact .error failure after

/-- A list is worked off in lockstep. -/
theorem foldlM {items : List β} {step further : α → β → Resolving α}
    (steps : ∀ item answer twin, related answer twin →
      Lockstep related (step answer item) (further twin item))
    {start begin : α} (alike : related start begin) :
    Lockstep related (items.foldlM step start) (items.foldlM further begin) := by
  induction items generalizing start begin with
  | nil => exact lockstep_pure alike
  | cons item rest ih =>
      rw [List.foldlM_cons, List.foldlM_cons]
      exact (steps item start begin alike).bind fun _ _ alike => ih alike

end Lockstep

/-- A change of the state that keeps states in step. -/
theorem lockstep_modify {change other : Resolution → Resolution}
    (keeps : ∀ state another, state.InStep another → (change state).InStep (other another)) :
    Lockstep Any (modify change) (modify other) :=
  fun state another inStep => .ok trivial (keeps state another inStep)

/-- Work at the bench that draws the same names. -/
theorem lockstep_assemble {work other : Assembly α}
    (alike : ∀ bench another, bench.names = another.names →
      related (work.run bench).1 (other.run another).1 ∧
        (work.run bench).2.names = (other.run another).2.names) :
    Lockstep related (assemble work) (assemble other) := by
  intro state another inStep
  obtain ⟨answers, names⟩ := alike _ _ inStep.names
  exact .ok answers ⟨names, inStep.begun, inStep.built⟩

end Resolving

open Resolving (Lockstep Any)

/-- The stages have the same name. -/
def Stage.SameName (stage other : Stage) : Prop := stage.name = other.name

namespace ResolveContext

variable {context : ResolveContext} {projectDirectory : HostPath} {stableCacheIds : Bool}
  {resolveStage resolveOther : String → Resolving Stage} {key : String}

/-- The same build file for another directory and with another option. -/
def elsewhere (context : ResolveContext) (projectDirectory : HostPath) (stableCacheIds : Bool) :
    ResolveContext :=
  { context with projectDirectory := projectDirectory, stableCacheIds := stableCacheIds }

theorem definitions_elsewhere (context : ResolveContext) (projectDirectory : HostPath)
    (stableCacheIds : Bool) :
    (context.elsewhere projectDirectory stableCacheIds).definitions = context.definitions := rfl

/-! ## Mounts -/

/-- A mount is made unless a key of it is unknown. -/
theorem mount_eq (context : ResolveContext) (key : String) (cache : MountDefinition) :
    context.mount key cache =
      match cache.unknownKeys.head? with
      | some field => .error (.planDefect context.path (.unknownMountKey key field))
      | none => .ok (cache.placed context.projectDirectory context.stableCacheIds) := by
  unfold mount
  cases cache.unknownKeys with
  | cons field fields => rfl
  | nil =>
      rw [List.head?_nil, MountDefinition.placed]
      dsimp only
      split <;> rfl

/-- Mounts are made unless a key of them is unknown; the first one is named. -/
theorem mapM_mount_eq (context : ResolveContext) (key : String) (caches : List MountDefinition) :
    caches.mapM (context.mount key) =
      match caches.findSome? fun cache => cache.unknownKeys.head? with
      | some field => .error (.planDefect context.path (.unknownMountKey key field))
      | none => .ok (caches.map
          (MountDefinition.placed context.projectDirectory context.stableCacheIds)) := by
  induction caches with
  | nil => rfl
  | cons cache rest ih =>
      rw [List.mapM_cons, ih, List.findSome?_cons, mount_eq]
      cases cache.unknownKeys.head? with
      | some field => rfl
      | none => cases rest.findSome? fun cache => cache.unknownKeys.head? <;> rfl

theorem lockstep_mounts (caches : List MountDefinition) :
    Lockstep Any (applyStep.liftExcept (caches.mapM (context.mount key)))
      (applyStep.liftExcept
        (caches.mapM ((context.elsewhere projectDirectory stableCacheIds).mount key))) := by
  rw [mapM_mount_eq, mapM_mount_eq]
  split
  next field _ => exact Resolving.lockstep_throw (.planDefect context.path _)
  next => exact Resolving.lockstep_pure trivial

/-! ## Stages -/

/-- A stage is started with the name that comes next. -/
theorem lockstep_startStage (lockstep : ∀ name, Lockstep Any (resolveStage name) (resolveOther name))
    (definition : StageDefinition) :
    Lockstep Stage.SameName (context.startStage resolveStage key definition)
      ((context.elsewhere projectDirectory stableCacheIds).startStage resolveOther key
        definition) := by
  have starts (job other : StageJob) (isStart : job.Starts) (alsoStart : other.Starts) :
      Lockstep Stage.SameName (Resolving.assemble job.perform)
        (Resolving.assemble other.perform) := by
    refine Resolving.lockstep_assemble fun bench another names => ?_
    have started := isStart.started bench
    have alsoStarted := alsoStart.started another
    refine ⟨?_, ?_⟩
    · rw [Stage.SameName, started.name, alsoStarted.name, names]
    · rw [started.names, alsoStarted.names, names]
  unfold startStage
  split
  next => exact starts (.onImage _) (.onImage _) trivial trivial
  next parent _ _ =>
    refine (lockstep parent).bind fun base other _ => ?_
    exact starts (.onStage base) (.onStage other) trivial trivial
  next => exact Resolving.lockstep_throw _

/-- A growth draws no name, so any two go in lockstep. -/
theorem lockstep_apply (growth other : Growth) (stage twin : Stage) :
    Lockstep Any (Resolving.assemble (growth.apply stage)) (Resolving.assemble (other.apply twin)) :=
  Resolving.lockstep_assemble fun bench another names =>
    ⟨trivial, (growth.grown stage bench).names.trans
      (names.trans (other.grown twin another).names.symm)⟩

theorem lockstep_applyStep (lockstep : ∀ name, Lockstep Any (resolveStage name) (resolveOther name))
    (step : StepDefinition) (stage twin : Stage) :
    Lockstep Any (context.applyStep resolveStage key stage step)
      ((context.elsewhere projectDirectory stableCacheIds).applyStep resolveOther key twin
        step) := by
  rw [applyStep_eq, applyStep_eq]
  refine Lockstep.bind (?_ : Lockstep Any _ _) fun growth other _ =>
    lockstep_apply growth other stage twin
  cases step with
  | run command caches =>
      exact (lockstep_mounts caches).bind fun _ _ _ => Resolving.lockstep_pure trivial
  | copyArtifact name path destination ownership =>
      exact (lockstep name).bind fun _ _ _ => Resolving.lockstep_pure trivial
  | shell words =>
      cases words with
      | nil => exact Resolving.lockstep_throw _
      | cons word words => exact Resolving.lockstep_pure trivial
  | _ => exact Resolving.lockstep_pure trivial

/-- **A stage is made in lockstep.** -/
theorem lockstep_makeStage (lockstep : ∀ name, Lockstep Any (resolveStage name) (resolveOther name))
    (definition : StageDefinition) :
    Lockstep Any (context.makeStage resolveStage key definition)
      ((context.elsewhere projectDirectory stableCacheIds).makeStage resolveOther key
        definition) := by
  refine (lockstep_startStage lockstep definition).bind fun started twin name => ?_
  refine (Resolving.lockstep_modify fun state another inStep => ?_).bind fun _ _ _ => ?_
  · exact ⟨inStep.names, by rw [inStep.begun, name], inStep.built⟩
  refine Lockstep.bind (?_ : Lockstep Any _ _) fun grown other _ => ?_
  · exact Lockstep.foldlM (fun step stage other _ => lockstep_applyStep lockstep step stage other)
      trivial
  refine (Resolving.lockstep_modify fun state another inStep => ?_).bind fun _ _ _ => ?_
  · exact ⟨inStep.names, inStep.begun, congrArg (key :: ·) inStep.built⟩
  · exact Resolving.lockstep_pure trivial

/-! ## Keys -/

theorem lookup_eq_none_iff_not_mem {built : List (String × Stage)} {key : String} :
    built.lookup key = none ↔ key ∉ built.map (·.1) := by
  rw [List.lookup_eq_none_iff, List.mem_map]
  constructor
  · rintro absent ⟨entry, isEntry, rfl⟩
    exact bne_iff_ne.mp (absent entry isEntry) rfl
  · intro absent entry isEntry
    exact bne_iff_ne.mpr fun same => absent ⟨entry, isEntry, same.symm⟩

/-- Resolving a key gives what was built for it, or makes the stage of its definition. -/
theorem outcome_resolve (context : ResolveContext) (resolving : List String)
    (key referencedBy : String) (state : Resolution) :
    Resolving.outcome (context.resolve resolving key referencedBy) state =
      match state.built.lookup key with
      | some stage => (.ok stage, state)
      | none =>
          match context.definitions.find? key with
          | none => (.error (.unknownStage key referencedBy), state)
          | some definition =>
              if key ∈ resolving then (.error (.circularStage key), state)
              else
                Resolving.outcome
                  (context.makeStage (fun name => context.resolve (key :: resolving) name key) key
                    definition) state := by
  have first {next : Resolution → Resolving Stage} :
      Resolving.outcome (get >>= next) state = Resolving.outcome (next state) state := rfl
  rw [resolve, first]
  cases state.built.lookup key with
  | some stage => rfl
  | none =>
      dsimp only
      split
      next undefined =>
        rw [undefined]
        rfl
      next definition defined =>
        rw [defined]
        dsimp only
        split <;> rfl

/-- **A key is resolved in lockstep.** -/
theorem lockstep_resolve (context : ResolveContext) (projectDirectory : HostPath)
    (stableCacheIds : Bool) (asked : List String × String) :
    ∀ referencedBy, Lockstep Any (context.resolve asked.1 asked.2 referencedBy)
      ((context.elsewhere projectDirectory stableCacheIds).resolve asked.1 asked.2
        referencedBy) := by
  -- Whatever a definition refers to is asked for with one key more that is being resolved.
  induction asked using
    (measure fun asked : List String × String => (context.waiting asked.1).length).wf.induction with
  | _ asked ih =>
      obtain ⟨resolving, key⟩ := asked
      intro referencedBy state another inStep
      have isBuilt : state.built.lookup key = none ↔ another.built.lookup key = none := by
        rw [lookup_eq_none_iff_not_mem, lookup_eq_none_iff_not_mem, inStep.built]
      rw [outcome_resolve, outcome_resolve]
      cases found : state.built.lookup key with
      | some stage =>
          cases alsoFound : another.built.lookup key with
          | some twin => exact .ok trivial inStep
          | none => exact absurd (isBuilt.mpr alsoFound) (by rw [found]; nofun)
      | none =>
          rw [isBuilt.mp found, definitions_elsewhere]
          cases defined : context.definitions.find? key with
          | none => exact .error _ inStep
          | some definition =>
              by_cases isOpen : key ∈ resolving
              · simp only [if_pos isOpen]
                exact .error _ inStep
              · simp only [if_neg isOpen]
                refine lockstep_makeStage (fun name => ?_) definition state another inStep
                exact ih (key :: resolving, name) (length_waiting_cons_lt defined isOpen) key

/-- All keys are resolved in lockstep. -/
theorem lockstep_resolveAll (context : ResolveContext) (projectDirectory : HostPath)
    (stableCacheIds : Bool) :
    Lockstep Any context.resolveAll
      (context.elsewhere projectDirectory stableCacheIds).resolveAll := by
  refine Lockstep.foldlM (fun key _ _ _ => ?_) trivial
  exact (context.lockstep_resolve projectDirectory stableCacheIds ([], key) key).bind
    fun _ _ _ => Resolving.lockstep_pure trivial

end ResolveContext

namespace Plan

/-- Two plans have the same path and the same descriptions. -/
def SameOutline (plan other : Plan) : Prop :=
  plan.path = other.path ∧ plan.descriptions = other.descriptions

/-- **A build file is read in lockstep** for any two directories and options. -/
theorem lockstep_parse (text : String) (path projectDirectory otherDirectory : HostPath)
    (stableCacheIds otherCacheIds : Bool) :
    Lockstep SameOutline (parse text path projectDirectory stableCacheIds)
      (parse text path otherDirectory otherCacheIds) := by
  unfold parse
  cases PlanFile.parse text with
  | error fault => exact Resolving.lockstep_throw _
  | ok file =>
      let context : ResolveContext := ⟨file.stages, path, projectDirectory, stableCacheIds⟩
      exact (context.lockstep_resolveAll otherDirectory otherCacheIds).bind fun _ _ _ =>
        Resolving.lockstep_pure ⟨rfl, rfl⟩

theorem endAlike_load (names : NameSource) (text : String)
    (path projectDirectory otherDirectory : HostPath) (stableCacheIds otherCacheIds : Bool) :
    Resolving.EndAlike SameOutline (load names text path projectDirectory stableCacheIds)
      (load names text path otherDirectory otherCacheIds) :=
  lockstep_parse text path projectDirectory otherDirectory stableCacheIds otherCacheIds _ _
    ⟨rfl, rfl, rfl⟩

end Plan

end StageManifest
