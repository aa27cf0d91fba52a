import Mathlib
import StageManifest.Proofs.Plan.Progress

/-!
# Resolution of a build file

Resolving a key answers with the stage built for the key, after some progress, or
fails with good reason (`answers_resolve`).  The proof is by induction along the keys
that are asked for, which does not go on without end (`wellFounded_asks`).  When all
keys are resolved, the stages of the plan are those that were built
(`ends_resolveAll`).  So a build file has a plan exactly when its
definitions can be resolved (`load_succeeds_iff_resolvable`).
-/

set_option autoImplicit false

namespace StageManifest

open Resolving (Ends)

namespace ResolveContext

/-- Resolution went on from a state, with further stages at hand. -/
def Advanced (context : ResolveContext) (names : NameSource) (resolving opened : List String)
    (state : Resolution) (stages : List Stage) (after : Resolution) : Prop :=
  ∃ more, Progress context.definitions names resolving opened after more ∧
    Later state stages after more

/-- A failure says what is wrong with the definitions. -/
def Blamed (context : ResolveContext) (failure : Failure) (state : Resolution) : Prop :=
  failure.Blames context.path context.definitions ∧ BegunOnce context.definitions state

/-- Whatever progress there is, resolving the key advances it and answers with the stage that was
built for the key, or fails with good reason. -/
def Answers (context : ResolveContext) (names : NameSource) (resolving : List String)
    (resolveStage : Resolving Stage) (key : String) : Prop :=
  ∀ opened, opened ⊆ resolving → ∀ state stages,
    Progress context.definitions names resolving opened state stages →
      Ends resolveStage state
        (fun stage after => context.Advanced names resolving opened state stages after ∧
          after.built.lookup key = some stage)
        context.Blamed

/-- The function resolves whatever the definition of a key refers to. -/
def Supplies (context : ResolveContext) (names : NameSource) (resolving : List String)
    (resolveStage : String → Resolving Stage) (key : String) : Prop :=
  ∀ name, Refers context.definitions key name →
    context.Answers names (key :: resolving) (resolveStage name) name

variable {context : ResolveContext} {names : NameSource} {resolving opened keys : List String}
  {resolveStage : String → Resolving Stage} {key : String} {definition : StageDefinition}
  {stage : Stage} {state : Resolution} {stages : List Stage}

/-! ## Steps -/

/-- A stage grows by a step, once what the step refers to is resolved. -/
theorem ends_applyStep (supply : context.Supplies names resolving resolveStage key)
    (notMore : opened ⊆ resolving) (defined : context.definitions.find? key = some definition)
    {step : StepDefinition} (isStep : step ∈ definition.steps)
    (underway : Underway context.definitions names resolving opened key keys stage state stages) :
    Ends (context.applyStep resolveStage key stage step) state
      (fun grown after => step.Usable ∧ ∃ more,
        Underway context.definitions names resolving opened key (keys ++ step.references) grown
          after more ∧ Later state stages after more)
      context.Blamed := by
  have begunOnce := underway.progress.begunOnce
  have supplied : ∀ name ∈ step.references, Ends (resolveStage name) state
      (fun source after =>
        context.Advanced names (key :: resolving) (key :: opened) state stages after ∧
          after.built.lookup name = some source)
      context.Blamed := by
    intro name isReference
    refine supply name ⟨definition, defined, ?_⟩ (key :: opened) ?_ state stages underway.progress
    · exact List.mem_append_right _ (List.mem_flatMap.mpr ⟨step, isStep, isReference⟩)
    · exact List.cons_subset_cons _ notMore
  rw [applyStep_eq]
  refine (ends_growthOf supplied ⟨stages, underway.progress, .refl state stages⟩ ?_ ?_).bind ?_
  · rintro rfl
    exact ⟨⟨rfl, definition, defined, isStep⟩, begunOnce⟩
  · rintro command caches rfl cache isCache field isField
    exact ⟨⟨rfl, definition, defined, command, caches, isStep, cache, isCache, isField⟩, begunOnce⟩
  · rintro growth after ⟨⟨more, progress, isLater⟩, usable, inputs⟩
    refine Resolving.ends_assemble
      ⟨usable, _, (underway.later progress isLater).grow inputs, isLater.make ?_ ?_ _⟩
    · rfl
    · exact List.Subset.refl _

/-- A stage grows by all steps of its definition. -/
theorem ends_steps (supply : context.Supplies names resolving resolveStage key)
    (notMore : opened ⊆ resolving) (defined : context.definitions.find? key = some definition)
    (underway : Underway context.definitions names resolving opened key keys stage state stages) :
    Ends (definition.steps.foldlM (context.applyStep resolveStage key) stage) state
      (fun grown after => (∀ step ∈ definition.steps, step.Usable) ∧ ∃ more,
        Underway context.definitions names resolving opened key
          (keys ++ definition.steps.flatMap StepDefinition.references) grown after more ∧
          Later state stages after more)
      context.Blamed := by
  refine Resolving.ends_foldlM (motive := fun done grown after =>
    (∀ step ∈ done, step.Usable) ∧ ∃ more,
      Underway context.definitions names resolving opened key
        (keys ++ done.flatMap StepDefinition.references) grown after more ∧
        Later state stages after more) ?_ ?_
  · rintro done step isPrefix grown after ⟨usable, more, underway, isLater⟩
    have isStep : step ∈ definition.steps := isPrefix.subset (by simp)
    refine (ends_applyStep supply notMore defined isStep underway).mono ?_
    rintro next final ⟨isUsable, most, grew, further⟩
    refine ⟨?_, most, ?_, isLater.trans further⟩
    · rw [List.forall_mem_append]
      exact ⟨usable, List.forall_mem_singleton.mpr isUsable⟩
    · rw [List.flatMap_append, ← List.append_assoc, List.flatMap_singleton]
      exact grew
  · exact ⟨nofun, stages, by rwa [List.flatMap_nil, List.append_nil], .refl state stages⟩

/-! ## Stages -/

/-- A stage that has grown by its whole definition is built. -/
theorem ends_build {first : Resolution} {more : List Stage} (notResolving : key ∉ resolving)
    (defined : context.definitions.find? key = some definition) (usable : definition.Usable)
    (underway : Underway context.definitions names resolving opened key definition.references stage
      state more)
    (isLater : Later first stages state more) :
    Ends (do
        modify fun state => { state with built := (key, stage) :: state.built }
        return stage : Resolving Stage) state
      (fun stage after => context.Advanced names resolving opened first stages after ∧
        after.built.lookup key = some stage)
      context.Blamed := by
  have isNew := underway.progress.waiting key List.mem_cons_self
  refine Resolving.ends_modify_bind (Resolving.ends_pure ⟨⟨more, ?_, ?_⟩, ?_⟩)
  · exact underway.finish notResolving defined usable
  · exact isLater.build isNew stage
  · rw [lookup_cons_eq, if_pos rfl]

/-- **A stage is made of a definition**, once what the definition refers to is resolved. -/
theorem ends_makeStage (supply : context.Supplies names resolving resolveStage key)
    (notMore : opened ⊆ resolving) (defined : context.definitions.find? key = some definition)
    (notResolving : key ∉ resolving) (absent : state.built.lookup key = none)
    (progress : Progress context.definitions names resolving opened state stages) :
    Ends (context.makeStage resolveStage key definition) state
      (fun stage after => context.Advanced names resolving opened state stages after ∧
        after.built.lookup key = some stage)
      context.Blamed := by
  have isKey := Entries.mem_keys_of_find? defined
  have supplied : ∀ parent ∈ definition.parent, Ends (resolveStage parent) state
      (fun base after =>
        context.Advanced names (key :: resolving) opened state stages after ∧
          after.built.lookup parent = some base)
      context.Blamed := by
    intro parent isParent
    refine supply parent ⟨definition, defined, ?_⟩ opened ?_ state stages (progress.resolve absent)
    · exact List.mem_append_left _ (Option.mem_toList.mpr isParent)
    · exact List.subset_cons_of_subset _ notMore
  rw [makeStage, startStage_eq, bind_assoc]
  refine (ends_startingJob supplied ⟨stages, progress.resolve absent, .refl state stages⟩ ?_).bind
    ?_
  · intro same
    exact ⟨⟨rfl, definition, defined, same⟩, progress.begunOnce⟩
  rintro job before ⟨⟨more, onTheWay, isLater⟩, starts, oneBase, inputs⟩
  have notOpened : key ∉ opened := fun isOpened => notResolving (notMore isOpened)
  have underway := onTheWay.start notOpened isKey starts inputs
  refine Resolving.ends_assemble_bind (Resolving.ends_modify_bind ?_)
  refine (ends_steps supply notMore defined underway).bind ?_
  rintro grown after ⟨usable, most, grew, further⟩
  have kept : Later state stages after most := by
    refine (isLater.make ?_ ?_ _).trans further
    · rfl
    · exact List.subset_append_left _ _
  cases definition.tag with
  | none => exact ends_build notResolving defined ⟨oneBase, usable⟩ grew kept
  | some tag =>
      exact ends_build notResolving defined ⟨oneBase, usable⟩ (grew.tag tag)
        (kept.make rfl (List.Subset.refl _) _)

/-! ## Keys -/

/-- Resolving a key asks for another one: the key is not being resolved yet, its definition refers
to the other, and it is being resolved then. -/
structure Asks (definitions : Entries StageDefinition) (inner outer : List String × String) :
    Prop where
  refers : Refers definitions outer.2 inner.2
  notResolving : outer.2 ∉ outer.1
  resolving : inner.1 = outer.2 :: outer.1

/-- **Asking for keys ends**, because fewer definitions wait each time. -/
theorem wellFounded_asks (context : ResolveContext) : WellFounded (Asks context.definitions) := by
  refine Subrelation.wf (fun {inner outer} asks => ?_)
    (measure fun asked : List String × String => (context.waiting asked.1).length).wf
  obtain ⟨definition, defined, _⟩ := asks.refers
  have fewer := length_waiting_cons_lt defined asks.notResolving
  rw [← asks.resolving] at fewer
  exact fewer

/-- **A key is resolved.**  It has a definition or is referred to, and it is below all keys that are
being resolved. -/
theorem answers_resolve (context : ResolveContext) (names : NameSource)
    (asked : List String × String) : ∀ referencedBy : String,
    ((∃ definition, context.definitions.find? asked.2 = some definition) ∨
      Refers context.definitions referencedBy asked.2) →
    (∀ user ∈ asked.1, Relation.TransGen (Refers context.definitions) user asked.2) →
    context.Answers names asked.1 (context.resolve asked.1 asked.2 referencedBy) asked.2 := by
  induction asked using (wellFounded_asks context).induction with
  | _ asked ih =>
      obtain ⟨resolving, key⟩ := asked
      intro referencedBy known below opened notMore state stages progress
      rw [resolve]
      refine Resolving.ends_get_bind ?_
      split
      case h_1 stage found =>
        exact Resolving.ends_pure ⟨⟨stages, progress, .refl state stages⟩, found⟩
      case h_2 absent =>
        split
        case h_1 missing =>
          refine Resolving.ends_throw ⟨⟨missing, known.resolve_left ?_⟩, progress.begunOnce⟩
          rintro ⟨definition, defined⟩
          rw [missing] at defined
          cases defined
        case h_2 definition defined =>
          split
          case isTrue isOpen =>
            exact Resolving.ends_throw ⟨below key isOpen, progress.begunOnce⟩
          case isFalse notResolving =>
            refine ends_makeStage ?_ notMore defined notResolving absent progress
            intro name refers
            refine ih (key :: resolving, name) ⟨refers, notResolving, rfl⟩ key (.inr refers) ?_
            refine List.forall_mem_cons.mpr ⟨.single refers, fun user isUser => ?_⟩
            exact (below user isUser).tail refers

/-! ## All stages -/

/-- The stages of some keys were built and collected. -/
structure Collecting (definitions : Entries StageDefinition) (names : NameSource)
    (done : List String) (collected : Entries Stage) (state : Resolution) : Prop where
  progress : ∃ stages, Progress definitions names [] [] state stages
  found : ∀ key ∈ done, ∃ stage, collected.find? key = some stage ∧
    state.built.lookup key = some stage
  others : ∀ key ∉ done, collected.find? key = none

/-- One more stage is built and collected. -/
theorem Collecting.insert {done : List String} {collected : Entries Stage} {after : Resolution}
    (collecting : Collecting context.definitions names done collected state)
    (advanced : context.Advanced names [] [] state stages after)
    (found : after.built.lookup key = some stage) :
    Collecting context.definitions names (done ++ [key]) (collected.insert key stage) after := by
  obtain ⟨more, progress, isLater⟩ := advanced
  refine ⟨⟨more, progress⟩, ?_, ?_⟩
  · intro other isDone
    rw [Entries.find?_insert]
    split
    case isTrue same => exact ⟨stage, rfl, same ▸ found⟩
    case isFalse different =>
      have old : other ∈ done := (List.mem_append.mp isDone).resolve_right fun isLast =>
        different (List.mem_singleton.mp isLast)
      obtain ⟨source, isCollected, isBuilt⟩ := collecting.found other old
      exact ⟨source, isCollected, isLater.built other source isBuilt⟩
  · intro other notDone
    have different : other ≠ key := by
      rintro rfl
      exact notDone (List.mem_append_right _ List.mem_cons_self)
    rw [Entries.find?_insert, if_neg different]
    exact collecting.others other fun old => notDone (List.mem_append_left _ old)

/-- The stages of a plan are those that were built, one for each definition. -/
structure Complete (definitions : Entries StageDefinition) (names : NameSource)
    (collected : Entries Stage) (state : Resolution) : Prop where
  progress : ∃ stages, Progress definitions names [] [] state stages
  find?_eq : ∀ key, collected.find? key = state.built.lookup key
  all : ∀ key ∈ definitions.keys, ∃ stage, collected.find? key = some stage

theorem Collecting.complete {definitions : Entries StageDefinition} {collected : Entries Stage}
    (collecting : Collecting definitions names definitions.keys collected state) :
    Complete definitions names collected state where
  progress := collecting.progress
  find?_eq := by
    intro key
    by_cases isKey : key ∈ definitions.keys
    · obtain ⟨stage, isCollected, isBuilt⟩ := collecting.found key isKey
      rw [isCollected, isBuilt]
    · obtain ⟨stages, progress⟩ := collecting.progress
      rw [collecting.others key isKey]
      cases found : state.built.lookup key with
      | none => rfl
      | some stage =>
          obtain ⟨definition, defined, _⟩ := progress.built.represents found
          exact absurd (Entries.mem_keys_of_find? defined) isKey
  all := by
    intro key isKey
    obtain ⟨stage, isCollected, _⟩ := collecting.found key isKey
    exact ⟨stage, isCollected⟩

/-- **All keys are resolved**, unless one of them fails with good reason. -/
theorem ends_resolveAll (context : ResolveContext) (names : NameSource) :
    Ends context.resolveAll { bench := .ofNames names } (Complete context.definitions names)
      context.Blamed := by
  have collects : Ends context.resolveAll { bench := .ofNames names }
      (Collecting context.definitions names context.definitions.keys) context.Blamed := by
    refine Resolving.ends_foldlM (motive := Collecting context.definitions names) ?_ ?_
    · intro done key isPrefix collected state collecting
      have isKey : key ∈ context.definitions.keys := isPrefix.subset (by simp)
      obtain ⟨stages, progress⟩ := collecting.progress
      have resolves : context.Answers names [] (context.resolve [] key key) key :=
        answers_resolve context names ([], key) key
          (.inl (Entries.exists_find?_of_mem_keys isKey)) nofun
      refine (resolves [] (List.Subset.refl _) state stages progress).bind ?_
      rintro stage after ⟨advanced, found⟩
      exact Resolving.ends_pure (collecting.insert advanced found)
    · exact ⟨⟨[], .initial _ _⟩, nofun, fun _ _ => rfl⟩
  exact collects.mono fun _ _ => Collecting.complete

end ResolveContext

namespace Plan

open ResolveContext (Complete)

variable {text : String} {file : PlanFile}

/-- A build file is resolved, unless its definitions have a fault. -/
theorem ends_parse (parsed : PlanFile.parse text = .ok file) (names : NameSource)
    (path projectDirectory : HostPath) (stableCacheIds : Bool) :
    Ends (parse text path projectDirectory stableCacheIds) { bench := .ofNames names }
      (fun plan after => Complete file.stages names plan.stages after)
      (fun failure after => failure.Blames path file.stages ∧ BegunOnce file.stages after) := by
  rw [parse, parsed]
  have resolves := ResolveContext.ends_resolveAll
    ⟨file.stages, path, projectDirectory, stableCacheIds⟩ names
  exact resolves.bind fun stages after complete => Resolving.ends_pure complete

/-- Definitions that can be resolved have a plan. -/
theorem exists_load_of_resolvable (parsed : PlanFile.parse text = .ok file)
    (resolvable : Resolvable file.stages) (names : NameSource) (path projectDirectory : HostPath)
    (stableCacheIds : Bool) :
    ∃ plan reached, load names text path projectDirectory stableCacheIds = (.ok plan, reached) := by
  have ends := ends_parse parsed names path projectDirectory stableCacheIds
  cases result : load names text path projectDirectory stableCacheIds with
  | mk answer reached =>
      cases answer with
      | error failure => exact ((ends.of_error result).1.not_resolvable resolvable).elim
      | ok plan => exact ⟨plan, reached, rfl⟩

/-- **A build file has a plan exactly when its definitions can be resolved.**  A failure names a
definition with that very fault.  Resolution ends, because no key asks for others without end, and
however it ends, no stage was begun twice. -/
theorem load_succeeds_iff_resolvable (parsed : PlanFile.parse text = .ok file) (names : NameSource)
    (path projectDirectory : HostPath) (stableCacheIds : Bool) :
    ((∃ plan, (load names text path projectDirectory stableCacheIds).1 = .ok plan) ↔
      Resolvable file.stages) ∧
    (∀ failure, (load names text path projectDirectory stableCacheIds).1 = .error failure →
      failure.Blames path file.stages) ∧
    WellFounded (ResolveContext.Asks file.stages) ∧
    BegunOnce file.stages (load names text path projectDirectory stableCacheIds).2 := by
  have ends := ends_parse parsed names path projectDirectory stableCacheIds
  have asking := ResolveContext.wellFounded_asks
    ⟨file.stages, path, projectDirectory, stableCacheIds⟩
  have same : load names text path projectDirectory stableCacheIds =
    (parse text path projectDirectory stableCacheIds).outcome { bench := .ofNames names } := rfl
  cases result : load names text path projectDirectory stableCacheIds with
  | mk answer reached =>
      rw [result] at same
      cases answer with
      | error failure =>
          obtain ⟨blames, begunOnce⟩ := ends.of_error same.symm
          refine ⟨⟨?_, fun resolvable => (blames.not_resolvable resolvable).elim⟩, ?_, asking,
            begunOnce⟩
          · rintro ⟨plan, never⟩
            cases never
          · rintro other ⟨⟩
            exact blames
      | ok plan =>
          have complete := ends.of_ok same.symm
          obtain ⟨stages, progress⟩ := complete.progress
          refine ⟨⟨fun _ => ?_, fun _ => ⟨plan, rfl⟩⟩, nofun, asking, progress.begunOnce⟩
          refine progress.built.resolvable fun key isKey => ?_
          obtain ⟨stage, found⟩ := complete.all key isKey
          exact ⟨stage, complete.find?_eq key ▸ found⟩

end Plan

/-! ## A circle of two kinds of references

The app is built on the base, and the base copies from the app.
-/

namespace Circle

def text : String :=
  "[stages.app]\nfrom_stage=\"base\"\nsteps=[]\n[stages.base]\nfrom=\"rust\"\n" ++
    "[[stages.base.steps]]\n[stages.base.steps.copy_artifact]\n" ++
    "stage=\"app\"\npath=\"/\"\ndest=\"/\""

def app : StageDefinition := { parent := some "base" }

def base : StageDefinition :=
  { image := some "rust", steps := [.copyArtifact "app" "/" "/" none] }

def file : PlanFile := ⟨.ofList [("app", app), ("base", base)]⟩

theorem parsed : PlanFile.parse text = .ok file := by cbv

theorem returns : Relation.TransGen (Refers file.stages) "app" "app" := by
  have appRefers : Refers file.stages "app" "base" := ⟨app, by cbv, by decide⟩
  have baseRefers : Refers file.stages "base" "app" := ⟨base, by cbv, by decide⟩
  exact (Relation.TransGen.single appRefers).tail baseRefers

end Circle

/-- The circle has no plan, and what the failure says about it is true. -/
theorem Plan.load_fails_on_circle :
    PlanFile.parse Circle.text = .ok Circle.file ∧
      ∀ names path projectDirectory stableCacheIds, ∃ failure,
        (load names Circle.text path projectDirectory stableCacheIds).1 = .error failure ∧
          failure.Blames path Circle.file.stages := by
  refine ⟨Circle.parsed, fun names path projectDirectory stableCacheIds => ?_⟩
  obtain ⟨succeeds, blames, _⟩ :=
    load_succeeds_iff_resolvable Circle.parsed names path projectDirectory stableCacheIds
  cases answer : (load names Circle.text path projectDirectory stableCacheIds).1 with
  | error failure => exact ⟨failure, rfl, blames failure answer⟩
  | ok plan => exact ((succeeds.mp ⟨plan, answer⟩).acyclic "app" Circle.returns).elim

end StageManifest
