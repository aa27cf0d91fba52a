import Mathlib.Logic.Relation
import StageManifest.Plan.Resolve

/-!
# References between the definitions of a build file

A definition refers to the stage it is built on and to the stages it copies
artifacts from.  A build file can be resolved when every definition names one
base, all references lead to definitions and none leads back to where it starts,
and no step is defective (`Resolvable`).  A failure to resolve says what is wrong
with which definition (`Failure.Blames`); where it is right to do so, the build
file cannot be resolved (`Failure.Blames.not_resolvable`).
-/

set_option autoImplicit false

namespace StageManifest

/-! ## References -/

/-- The keys that a step refers to. -/
def StepDefinition.references : StepDefinition → List String
  | .copyArtifact stage _ _ _ => [stage]
  | _ => []

/-- The keys that a definition refers to: its base and then the sources of its artifacts. -/
def StageDefinition.references (definition : StageDefinition) : List String :=
  definition.parent.toList ++ definition.steps.flatMap StepDefinition.references

/-- The definition of the one key refers to the other key. -/
def Refers (definitions : Entries StageDefinition) (user key : String) : Prop :=
  ∃ definition, definitions.find? user = some definition ∧ key ∈ definition.references

/-! ## Definitions that can be used -/

/-- A step that can be applied, whatever the stages it refers to. -/
def StepDefinition.Usable : StepDefinition → Prop
  | .run _ caches => ∀ cache ∈ caches, cache.unknownKeys = []
  | .shell words => words ≠ []
  | _ => True

/-- A definition with one base and usable steps. -/
structure StageDefinition.Usable (definition : StageDefinition) : Prop where
  oneBase : definition.image.isSome ≠ definition.parent.isSome
  steps : ∀ step ∈ definition.steps, step.Usable

/-- The definitions of a build file that can be resolved. -/
structure Resolvable (definitions : Entries StageDefinition) : Prop where
  usable : ∀ key definition, definitions.find? key = some definition → definition.Usable
  defined : ∀ user key, Refers definitions user key →
    ∃ definition, definitions.find? key = some definition
  acyclic : ∀ key, ¬ Relation.TransGen (Refers definitions) key key

/-- One definition is found under its own key only. -/
theorem find?_singleton_eq_some_iff {key other : String} {definition found : StageDefinition} :
    (Entries.ofList [(key, definition)]).find? other = some found ↔
      other = key ∧ found = definition := by
  rw [Entries.find?_ofList, List.reverse_singleton, List.lookup_cons]
  split
  next same => simp [beq_iff_eq.mp same, eq_comm]
  next different => simp [beq_eq_false_iff_ne.mp different]

/-- One definition that can be used and refers to nothing can be resolved. -/
theorem Resolvable.singleton {key : String} {definition : StageDefinition}
    (usable : definition.Usable) (noReferences : definition.references = []) :
    Resolvable (.ofList [(key, definition)]) := by
  have noneRefers : ∀ user other, ¬ Refers (.ofList [(key, definition)]) user other := by
    rintro user other ⟨found, defined, member⟩
    rw [(find?_singleton_eq_some_iff.mp defined).2, noReferences] at member
    cases member
  refine ⟨fun other found defined => ?_,
    fun user other refers => (noneRefers user other refers).elim, fun other circle => ?_⟩
  · exact (find?_singleton_eq_some_iff.mp defined).2 ▸ usable
  · obtain ⟨_, refers, _⟩ := Relation.TransGen.head'_iff.mp circle
    exact noneRefers _ _ refers

/-! ## Failures -/

/-- A definition has the defect. -/
def PlanDefect.Found (definitions : Entries StageDefinition) : PlanDefect → Prop
  | .baseNotUnique key =>
      ∃ definition, definitions.find? key = some definition ∧
        definition.image.isSome = definition.parent.isSome
  | .emptyShell key =>
      ∃ definition, definitions.find? key = some definition ∧ .shell [] ∈ definition.steps
  | .unknownMountKey key field =>
      ∃ definition, definitions.find? key = some definition ∧
        ∃ command caches, .run command caches ∈ definition.steps ∧
          ∃ cache ∈ caches, field ∈ cache.unknownKeys

/-- What a failure to resolve says about the definitions of a build file is true. -/
def Failure.Blames (path : HostPath) (definitions : Entries StageDefinition) : Failure → Prop
  | .unknownStage name referencedBy =>
      definitions.find? name = none ∧ Refers definitions referencedBy name
  | .circularStage key => Relation.TransGen (Refers definitions) key key
  | .planDefect file defect => file = path ∧ defect.Found definitions
  | _ => False

/-- Definitions with a defect cannot be resolved. -/
theorem PlanDefect.Found.not_resolvable {definitions : Entries StageDefinition}
    {defect : PlanDefect} (found : defect.Found definitions) : ¬ Resolvable definitions := by
  intro resolvable
  cases defect with
  | baseNotUnique key =>
      obtain ⟨definition, defined, same⟩ := found
      exact (resolvable.usable key definition defined).oneBase same
  | emptyShell key =>
      obtain ⟨definition, defined, isStep⟩ := found
      exact (resolvable.usable key definition defined).steps _ isStep rfl
  | unknownMountKey key field =>
      obtain ⟨definition, defined, command, caches, isStep, cache, isCache, isField⟩ := found
      have allKnown := (resolvable.usable key definition defined).steps _ isStep
      rw [allKnown cache isCache] at isField
      cases isField

/-- **A failure with good reason means that the build file cannot be resolved.** -/
theorem Failure.Blames.not_resolvable {path : HostPath} {definitions : Entries StageDefinition}
    {failure : Failure} (blames : failure.Blames path definitions) : ¬ Resolvable definitions := by
  intro resolvable
  cases failure with
  | unknownStage name referencedBy =>
      obtain ⟨missing, refers⟩ := blames
      obtain ⟨definition, defined⟩ := resolvable.defined referencedBy name refers
      rw [missing] at defined
      cases defined
  | circularStage key => exact resolvable.acyclic key blames
  | planDefect file defect => exact blames.2.not_resolvable resolvable
  | _ => exact blames.elim

end StageManifest
