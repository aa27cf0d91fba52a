import StageManifest.Proofs.Graph.Sharing
import StageManifest.Proofs.Plan.Closure
import StageManifest.Proofs.Plan.Portrait
import StageManifest.Proofs.Stage.Renaming

/-!
# Targets do not depend on unrelated stages

Two build files may define the keys below a target alike and differ in everything
else.  Other keys change which names are drawn, and when, but the stage of a key
below the target is the portrait of the same definition in both plans
(`Depicts`).  The two stages of such a key are twins, and all that can differ
between twins is names: what they are linked to are twins again, link by link
(`Depicts.forall₂_twins_dependencies`), and the one is the other under other names
(`Depicts.renamed_of_twins`).

Names tell stages apart in both plans, so twins are a simulation
(`Depicts.simulation`).  The target then has the same graph in both plans and the
blocks of its manifests come in the same order (`Plan.targets_are_isolated`).
-/

set_option autoImplicit false

namespace StageManifest

open Stage (Reaches Renamed)

/-- The stages of the keys below a target are portraits of the given definitions, and no two keys
have stages with the same name. -/
structure Depicts (projectDirectory : HostPath) (stableCacheIds : Bool)
    (definitions : Entries StageDefinition) (target : String) (stages : Entries Stage) :
    Prop where
  apart : ∀ {key other : String} {stage another : Stage}, stages.find? key = some stage →
    stages.find? other = some another → stage.name = another.name → key = other
  portrait : ∀ {key : String} {stage : Stage},
    Relation.ReflTransGen (Refers definitions) target key → stages.find? key = some stage →
      ∃ definition, definitions.find? key = some definition ∧
        Portrait projectDirectory stableCacheIds
          (fun key stage => stages.find? key = some stage) definition stage

/-- Two stages that two plans have for the same key below a target. -/
def Twins (definitions : Entries StageDefinition) (target : String)
    (stages others : Entries Stage) (stage other : Stage) : Prop :=
  ∃ key, Relation.ReflTransGen (Refers definitions) target key ∧
    stages.find? key = some stage ∧ others.find? key = some other

/-- The name that the stage with a given name has in another plan. -/
def Entries.renaming (stages others : Entries Stage) (name : String) : String :=
  match stages.keys.find? fun key => (stages.find? key).map (·.name) == some name with
  | some key => ((others.find? key).map (·.name)).getD name
  | none => name

/-! ## Portraits under other names -/

/-- With other names of its keys, a step declares the instructions with these names. -/
theorem StepDefinition.instructions_renamed (projectDirectory : HostPath) (stableCacheIds : Bool)
    (rename nameOf : String → String) (step : StepDefinition) :
    step.instructions projectDirectory stableCacheIds (rename ∘ nameOf) =
      (step.instructions projectDirectory stableCacheIds nameOf).map
        (Instruction.renamed rename) := by
  cases step <;> rfl

section

variable {projectDirectory : HostPath} {stableCacheIds : Bool} {rename : String → String}
  {standsFor newer : String → Stage → Prop} {definition : StageDefinition} {stage other : Stage}
  (named : ∀ key source twin, standsFor key source → newer key twin →
    twin.name = rename source.name)
include named

theorem StandsOn.renamed_eq {image parent : Option String} {base newBase : Base}
    (stands : StandsOn standsFor image parent base) (also : StandsOn newer image parent newBase) :
    newBase = base.renamed rename := by
  cases stands with
  | onImage image =>
      cases also
      rfl
  | onStage isSource =>
      cases also with
      | onStage isTwin => rw [Base.renamed, named _ _ _ isSource isTwin]

theorem Writes.renamed_eq {step : StepDefinition} {instructions others : List Instruction}
    (writes : Writes projectDirectory stableCacheIds standsFor step instructions)
    (also : Writes projectDirectory stableCacheIds newer step others) :
    others = instructions.map (Instruction.renamed rename) := by
  obtain ⟨nameOf, sources, rfl⟩ := writes
  obtain ⟨newerOf, twins, rfl⟩ := also
  rw [← StepDefinition.instructions_renamed]
  apply StepDefinition.instructions_congr
  intro key isReference
  obtain ⟨source, isSource, name⟩ := sources key isReference
  obtain ⟨twin, isTwin, newName⟩ := twins key isReference
  rw [Function.comp_apply, ← name, ← newName, named _ _ _ isSource isTwin]

theorem flatten_renamed {steps : List StepDefinition} {parts others : List (List Instruction)}
    (writes : List.Forall₂ (Writes projectDirectory stableCacheIds standsFor) steps parts)
    (also : List.Forall₂ (Writes projectDirectory stableCacheIds newer) steps others) :
    others.flatten = parts.flatten.map (Instruction.renamed rename) := by
  induction writes generalizing others with
  | nil =>
      cases also
      rfl
  | cons head _ ih =>
      obtain _ | ⟨newHead, also⟩ := also
      rw [List.flatten_cons, List.flatten_cons, List.map_append, ih also,
        head.renamed_eq named newHead]

/-- **Two portraits of one definition are the same stage under other names**, if what they are
linked to is. -/
theorem Portrait.renamed
    (portrait : Portrait projectDirectory stableCacheIds standsFor definition stage)
    (alike : Portrait projectDirectory stableCacheIds newer definition other)
    (name : other.name = rename stage.name)
    (dependencies : List.Forall₂ (Renamed rename) stage.dependencies.toList
      other.dependencies.toList) : Renamed rename stage other := by
  refine .intro name (portrait.base.renamed_eq named alike.base) ?_
    (alike.tag.trans portrait.tag.symm) dependencies
  obtain ⟨parts, writes, same⟩ := portrait.instructions
  obtain ⟨others, also, more⟩ := alike.instructions
  rw [same, more, flatten_renamed named writes also]

end

/-! ## Names in a plan -/

variable {projectDirectory : HostPath} {stableCacheIds : Bool}
  {definitions : Entries StageDefinition} {target : String} {stages others : Entries Stage}
  {stage other : Stage}

namespace Depicts

/-- A name leads to the key of its stage, and from there to the name of the twin. -/
theorem renaming_eq
    (depicts : Depicts projectDirectory stableCacheIds definitions target stages) {key : String}
    (found : stages.find? key = some stage) (isOther : others.find? key = some other) :
    stages.renaming others stage.name = other.name := by
  unfold Entries.renaming
  have named : ((stages.find? key).map (·.name) == some stage.name) = true := by
    rw [found]
    exact beq_self_eq_true (some stage.name)
  cases search : stages.keys.find? fun key =>
      (stages.find? key).map (·.name) == some stage.name with
  | none => exact absurd named (List.find?_eq_none.mp search key (Entries.mem_keys_of_find? found))
  | some first =>
      have hit := List.find?_some search
      obtain ⟨held, isHeld, name⟩ := Option.map_eq_some_iff.mp (beq_iff_eq.mp hit)
      have same := depicts.apart isHeld found name
      change ((others.find? first).map (·.name)).getD stage.name = other.name
      rw [same, isOther]
      rfl

/-- Two stages of a plan are the same if they have the same name. -/
theorem eq_of_name (depicts : Depicts projectDirectory stableCacheIds definitions target stages)
    {key another : String} (found : stages.find? key = some stage)
    (isOther : stages.find? another = some other) (name : stage.name = other.name) :
    stage = other := by
  rw [depicts.apart found isOther name] at found
  exact Option.some.inj (found.symm.trans isOther)

/-- To compare two stages of a plan is to compare their names. -/
theorem compare_eq (depicts : Depicts projectDirectory stableCacheIds definitions target stages)
    {compare : Stage → Stage → Bool} (refl : ∀ stage, compare stage stage = true)
    (name_eq : ∀ stage other, compare stage other = true → stage.name = other.name)
    {key another : String} (found : stages.find? key = some stage)
    (isOther : stages.find? another = some other) :
    compare stage other = (stage.name == other.name) := by
  rw [Bool.eq_iff_iff, beq_iff_eq]
  constructor
  · exact name_eq stage other
  · intro name
    exact depicts.eq_of_name found isOther name ▸ refl stage

end Depicts

section

variable {otherDirectory : HostPath} {otherCacheIds : Bool}
  (first : Depicts projectDirectory stableCacheIds definitions target stages)
  (second : Depicts otherDirectory otherCacheIds definitions target others)
include first second

namespace Depicts

/-! ## Twins -/

/-- Twins have the same name as others exactly if these are twins of the same key. -/
theorem name_beq_of_twins {another twin : Stage}
    (twins : Twins definitions target stages others stage other)
    (more : Twins definitions target stages others another twin) :
    (other.name == twin.name) = (stage.name == another.name) := by
  obtain ⟨key, _, found, isOther⟩ := twins
  obtain ⟨needed, _, isAnother, isTwin⟩ := more
  rw [Bool.eq_iff_iff, beq_iff_eq, beq_iff_eq]
  constructor
  · intro name
    rw [second.apart isOther isTwin name, isAnother] at found
    rw [Option.some.inj found]
  · intro name
    rw [first.apart found isAnother name, isTwin] at isOther
    rw [Option.some.inj isOther]

/-- Twins compare with others as these do with the twins of the others. -/
theorem compare_eq_of_twins {compare : Stage → Stage → Bool}
    (refl : ∀ stage, compare stage stage = true)
    (name_eq : ∀ stage other, compare stage other = true → stage.name = other.name)
    {another twin : Stage} (twins : Twins definitions target stages others stage other)
    (more : Twins definitions target stages others another twin) :
    compare other twin = compare stage another := by
  have name := first.name_beq_of_twins second twins more
  obtain ⟨_, _, found, isOther⟩ := twins
  obtain ⟨_, _, isAnother, isTwin⟩ := more
  rw [first.compare_eq refl name_eq found isAnother, second.compare_eq refl name_eq isOther isTwin,
    name]

/-- One more pair of twins is linked on both sides or on neither. -/
theorem forall₂_twins_link {links more : List Stage}
    (same : List.Forall₂ (Twins definitions target stages others) links more)
    (twins : Twins definitions target stages others stage other) :
    List.Forall₂ (Twins definitions target stages others) (Stage.link links stage)
      (Stage.link more other) := by
  -- Definitions and marks of links differ between the plans, but within each plan comparing them
  -- comes down to comparing names, and names correspond.
  have isLinked : (more.any fun link => link.isVery other) =
      links.any fun link => link.isVery stage := by
    induction same with
    | nil => rfl
    | cons head _ ih =>
        rw [List.any_cons, List.any_cons, ih, first.compare_eq_of_twins second Stage.isVery_self
          (fun _ _ => Stage.name_eq_of_isVery) head twins]
  rw [Stage.link, Stage.link, isLinked]
  split
  · exact same
  · exact List.rel_append same (.cons twins .nil)

theorem forall₂_twins_foldl_link {sources twins links more : List Stage}
    (paired : List.Forall₂ (Twins definitions target stages others) sources twins)
    (same : List.Forall₂ (Twins definitions target stages others) links more) :
    List.Forall₂ (Twins definitions target stages others) (sources.foldl Stage.link links)
      (twins.foldl Stage.link more) := by
  induction paired generalizing links more with
  | nil => exact same
  | cons head _ ih => exact ih (first.forall₂_twins_link second same head)

omit first second in
/-- The stages of the same keys are twins. -/
theorem forall₂_twins {keys : List String} {sources twins : List Stage}
    (below : ∀ key ∈ keys, Relation.ReflTransGen (Refers definitions) target key)
    (stand : List.Forall₂ (fun key stage => stages.find? key = some stage) keys sources)
    (also : List.Forall₂ (fun key stage => others.find? key = some stage) keys twins) :
    List.Forall₂ (Twins definitions target stages others) sources twins := by
  induction stand generalizing twins with
  | nil =>
      cases also
      exact .nil
  | @cons key source keys _ isSource _ ih =>
      obtain _ | ⟨isTwin, also⟩ := also
      obtain ⟨isBelow, below⟩ := List.forall_mem_cons.mp below
      exact .cons ⟨key, isBelow, isSource, isTwin⟩ (ih below also)

/-- Twins are portraits of one definition, and the keys that it refers to are below the target. -/
theorem exists_portraits (twins : Twins definitions target stages others stage other) :
    ∃ definition : StageDefinition,
      (∀ key ∈ definition.references, Relation.ReflTransGen (Refers definitions) target key) ∧
      Portrait projectDirectory stableCacheIds
        (fun key stage => stages.find? key = some stage) definition stage ∧
      Portrait otherDirectory otherCacheIds
        (fun key stage => others.find? key = some stage) definition other := by
  obtain ⟨key, below, found, isOther⟩ := twins
  obtain ⟨definition, defined, portrait⟩ := first.portrait below found
  obtain ⟨_, alsoDefined, alike⟩ := second.portrait below isOther
  obtain rfl := Option.some.inj (defined.symm.trans alsoDefined)
  exact ⟨definition, fun needed refers => below.tail ⟨definition, defined, refers⟩, portrait, alike⟩

/-- **Twins are linked to twins**, one by one. -/
theorem forall₂_twins_dependencies
    (twins : Twins definitions target stages others stage other) :
    List.Forall₂ (Twins definitions target stages others) stage.dependencies.toList
      other.dependencies.toList := by
  obtain ⟨definition, below, portrait, alike⟩ := first.exists_portraits second twins
  obtain ⟨sources, stand, links⟩ := portrait.links
  obtain ⟨mates, also, more⟩ := alike.links
  rw [links, more]
  exact first.forall₂_twins_foldl_link second (forall₂_twins below stand also) .nil

/-- Twins are known by related names, and no name is confused with another. -/
theorem simulation : StageGraph.Simulation (stages.renaming others)
    (Twins definitions target stages others) where
  name twins := by
    obtain ⟨_, _, found, isOther⟩ := twins
    exact (first.renaming_eq found isOther).symm
  name_beq twins more := first.name_beq_of_twins second twins more
  equalContents twins more :=
    first.compare_eq_of_twins second
      (fun stage => Stage.equalContents_iff_agrees.mpr (Stage.Agrees.refl stage))
      (fun _ _ equal => (Stage.equalContents_iff_agrees.mp equal).name) twins more
  dependencies twins := first.forall₂_twins_dependencies second twins

/-- No two names below a stage that has a twin are changed to the same name. -/
theorem injOn_renaming {root mate : Stage}
    (roots : Twins definitions target stages others root mate) :
    Set.InjOn (stages.renaming others)
      {name | ∃ below, root.Reaches below ∧ below.name = name} := by
  have simulation := first.simulation second
  rintro _ ⟨stage, reaches, rfl⟩ _ ⟨another, alsoReaches, rfl⟩ same
  obtain ⟨other, _, twins⟩ := simulation.exists_reaches roots reaches
  obtain ⟨twin, _, more⟩ := simulation.exists_reaches roots alsoReaches
  rw [← simulation.name twins, ← simulation.name more] at same
  exact beq_iff_eq.mp ((simulation.name_beq twins more).symm.trans (beq_iff_eq.mpr same))

end Depicts

end

namespace Depicts

/-- **Twins are the same stage under other names**, if their plans belong to one directory and were
made with one option. -/
theorem renamed_of_twins
    (first : Depicts projectDirectory stableCacheIds definitions target stages)
    (second : Depicts projectDirectory stableCacheIds definitions target others)
    {sources mates : List Stage}
    (paired : List.Forall₂ (Twins definitions target stages others) sources mates) :
    List.Forall₂ (Renamed (stages.renaming others)) sources mates := by
  -- The dependencies of the first stage come before the stage, and the mates are known by the keys.
  induction sources using Stage.induction_on_dependencies generalizing mates with
  | nil =>
      cases paired
      exact .nil
  | cons stage rest dependencies more =>
      obtain _ | ⟨head, tail⟩ := paired
      obtain ⟨definition, _, portrait, alike⟩ := first.exists_portraits second head
      refine .cons (portrait.renamed ?_ alike ((first.simulation second).name head) ?_) (more tail)
      · intro _ _ _ isSource isTwin
        exact (first.renaming_eq isSource isTwin).symm
      · exact dependencies (first.forall₂_twins_dependencies second head)

end Depicts

namespace Plan

variable {names otherNames : NameSource} {text otherText : String} {file otherFile : PlanFile}
  {path otherPath projectDirectory : HostPath} {stableCacheIds : Bool} {plan other : Plan}
  {reached otherReached : Resolution} {target : String}

/-- The stages of a plan are portraits of definitions that its build file has below a target. -/
theorem depicts_of_load (parsed : PlanFile.parse text = .ok file)
    (loaded : load names text path projectDirectory stableCacheIds = (.ok plan, reached))
    (unique : (names.firstNames file.stages.size).Nodup) {definitions : Entries StageDefinition}
    (same : ∀ key, Relation.ReflTransGen (Refers definitions) target key →
      file.stages.find? key = definitions.find? key) :
    Depicts projectDirectory stableCacheIds definitions target plan.stages where
  apart := ((ends_parse parsed names path projectDirectory stableCacheIds).of_ok
    loaded).key_eq_of_name unique
  portrait below found := by
    rw [← same _ below]
    exact portrait_of_load parsed loaded found

/-- **Targets do not depend on unrelated stages.**  If two build files define the keys below a
target alike, then the target has the same graph in both plans, except that the names in it were
changed without confusing any two of them.  The stages of the two graphs come in the same order, each
pair of them being one stage under other names, and the manifests consist of their blocks, those of
the second one being the blocks of the first with the names changed. -/
theorem targets_are_isolated (parsed : PlanFile.parse text = .ok file)
    (otherParsed : PlanFile.parse otherText = .ok otherFile)
    (loaded : load names text path projectDirectory stableCacheIds = (.ok plan, reached))
    (otherLoaded : load otherNames otherText otherPath projectDirectory stableCacheIds =
      (.ok other, otherReached))
    (unique : (names.firstNames file.stages.size).Nodup)
    (otherUnique : (otherNames.firstNames otherFile.stages.size).Nodup)
    (isKey : target ∈ file.stages.keys)
    (same : ∀ key, Relation.ReflTransGen (Refers file.stages) target key →
      otherFile.stages.find? key = file.stages.find? key) :
    ∃ root twin, plan.stage target = .ok root ∧ other.stage target = .ok twin ∧
      ∃ rename : String → String,
        Set.InjOn rename {name | ∃ below, root.Reaches below ∧ below.name = name} ∧
        ∃ graph otherGraph, StageGraph.discover root = .ok graph ∧
          StageGraph.discover twin = .ok otherGraph ∧
          StageGraph.SameGraph (Stage.Renamed rename) graph otherGraph ∧
          ∃ blocks twins, graph.ordered = .ok blocks ∧ otherGraph.ordered = .ok twins ∧
            List.Forall₂ (Stage.Renamed rename) blocks twins ∧
            twins.map Stage.text = blocks.map (Stage.renamedText rename) ∧
            ∀ frontend,
              Manifest.solve frontend root = .ok (Manifest.ofStages frontend blocks) ∧
              Manifest.solve frontend twin = .ok (Manifest.ofStages frontend twins) := by
  have complete := (ends_parse parsed names path projectDirectory stableCacheIds).of_ok loaded
  have otherComplete :=
    (ends_parse otherParsed otherNames otherPath projectDirectory stableCacheIds).of_ok otherLoaded
  obtain ⟨root, isRoot⟩ := complete.all target isKey
  obtain ⟨definition, defined⟩ := Entries.exists_find?_of_mem_keys isKey
  obtain ⟨twin, isTwin⟩ := otherComplete.all target
    (Entries.mem_keys_of_find? ((same target .refl).trans defined))
  have first : Depicts projectDirectory stableCacheIds file.stages target plan.stages :=
    depicts_of_load parsed loaded unique fun _ _ => rfl
  have second : Depicts projectDirectory stableCacheIds file.stages target other.stages :=
    depicts_of_load otherParsed otherLoaded otherUnique same
  have roots : Twins file.stages target plan.stages other.stages root twin :=
    ⟨target, .refl, isRoot, isTwin⟩
  refine ⟨root, twin, stage_eq_ok_iff.mpr isRoot, stage_eq_ok_iff.mpr isTwin,
    plan.stages.renaming other.stages, first.injOn_renaming second roots, ?_⟩
  obtain ⟨_, _, solved⟩ := complete.exists_manifest unique isRoot
  obtain ⟨graph, blocks, discovers, ordered, _⟩ := Manifest.solve_eq_ok_iff.mp (solved "")
  obtain ⟨otherGraph, twins, isOther, alike, otherOrdered, paired⟩ :=
    (first.simulation second).exists_ordered roots (complete.assembled isRoot).coherent
      (otherComplete.assembled isTwin).coherent discovers ordered
  have renamed := first.renamed_of_twins second paired
  exact ⟨graph, otherGraph, discovers, isOther,
    ⟨first.renamed_of_twins second alike.stages, alike.edges⟩, blocks, twins, ordered, otherOrdered,
    renamed, Stage.map_text_of_renamed renamed, fun frontend =>
      ⟨Manifest.solve_eq_ok_iff.mpr ⟨graph, blocks, discovers, ordered, rfl⟩,
        Manifest.solve_eq_ok_iff.mpr ⟨otherGraph, twins, isOther, otherOrdered, rfl⟩⟩⟩

end Plan

/-! ## A toolbox with documentation

A stage that comes first is added to the toolbox, so every other stage has a later
name.
-/

namespace Documented

def text : String :=
  "[stages.aaa]\nfrom=\"alpine\"\nsteps=[]\n" ++ Toolbox.text

def file : PlanFile :=
  ⟨Toolbox.file.stages.insert "aaa" { image := some "alpine" }⟩

theorem parsed : PlanFile.parse text = .ok file := by cbv

/-- How loading the plan ends. -/
def loaded : Except Failure Plan × Resolution := Plan.load .standard text ⟨[]⟩ ⟨[]⟩ false

theorem exists_plan : ∃ plan reached, loaded = (.ok plan, reached) := by
  have isOk : loaded.1.toOption.isSome = true := by
    rw [loaded, Plan.load, Plan.parse, parsed]
    cbv
  exact Plan.exists_of_isSome isOk

theorem unique : (NameSource.standard.firstNames file.stages.size).Nodup := by decide

/-- Only the new key is defined differently. -/
theorem find?_eq {key : String} (isKey : key ∈ Toolbox.file.stages.keys) :
    file.stages.find? key = Toolbox.file.stages.find? key := by
  have isOld : key ≠ "aaa" := by
    rintro rfl
    exact absurd isKey (by decide +kernel)
  rw [file, Entries.find?_insert, if_neg isOld]

end Documented

/-- The app is built alike with and without the documentation. -/
theorem Plan.app_is_isolated :
    PlanFile.parse Toolbox.text = .ok Toolbox.file ∧
      PlanFile.parse Documented.text = .ok Documented.file ∧
      (NameSource.standard.firstNames Toolbox.file.stages.size).Nodup ∧
      (NameSource.standard.firstNames Documented.file.stages.size).Nodup ∧
      ∃ plan reached other otherReached, Toolbox.loaded = (.ok plan, reached) ∧
        Documented.loaded = (.ok other, otherReached) ∧
        ∃ app twin, plan.stage "app" = .ok app ∧ other.stage "app" = .ok twin ∧
          ∃ rename : String → String,
            Set.InjOn rename {name | ∃ below, app.Reaches below ∧ below.name = name} ∧
            ∃ graph otherGraph blocks twins, StageGraph.discover app = .ok graph ∧
              StageGraph.discover twin = .ok otherGraph ∧ graph.ordered = .ok blocks ∧
              otherGraph.ordered = .ok twins ∧ List.Forall₂ (Stage.Renamed rename) blocks twins ∧
              twins.map Stage.text = blocks.map (Stage.renamedText rename) ∧
              ∀ frontend,
                Manifest.solve frontend app = .ok (Manifest.ofStages frontend blocks) ∧
                Manifest.solve frontend twin = .ok (Manifest.ofStages frontend twins) := by
  obtain ⟨plan, reached, loaded⟩ := Toolbox.exists_plan
  obtain ⟨other, otherReached, otherLoaded⟩ := Documented.exists_plan
  have isKey : "app" ∈ Toolbox.file.stages.keys := by decide +kernel
  obtain ⟨app, twin, isApp, isTwin, rename, injective, graph, otherGraph, discovers, isOther, _,
    blocks, twins, ordered, otherOrdered, renamed, texts, solved⟩ :=
    targets_are_isolated Toolbox.parsed Documented.parsed loaded otherLoaded Toolbox.unique
      Documented.unique isKey fun _ leads =>
        Documented.find?_eq (mem_keys_of_reflTransGen Toolbox.parsed loaded isKey leads)
  exact ⟨Toolbox.parsed, Documented.parsed, Toolbox.unique, Documented.unique, plan, reached, other,
    otherReached, loaded, otherLoaded, app, twin, isApp, isTwin, rename, injective, graph, otherGraph,
    blocks, twins, discovers, isOther, ordered, otherOrdered, renamed, texts, solved⟩

end StageManifest
