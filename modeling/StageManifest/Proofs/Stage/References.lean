import StageManifest.Proofs.Stage.Growth
import StageManifest.Proofs.Stage.Reachability

/-!
# Names that a stage refers to

The text of a stage refers to other stages by name: in its base, if that is a
stage, and in instructions that copy from a stage.  A stage that grew from a base
without being handed such an instruction is linked to exactly the names it refers
to (`BuiltPlainly.mem_references_iff`), also where an artifact's source was linked
already and no link was added.
-/

set_option autoImplicit false

namespace StageManifest

/-- The stage that a base names. -/
def Base.parent? : Base → Option String
  | .image _ => none
  | .stage name => some name

/-- The stage that an instruction copies from. -/
def Instruction.source? : Instruction → Option String
  | .copy _ _ _ stage => stage
  | _ => none

theorem Base.parent?_eq_some_iff {base : Base} {name : String} :
    base.parent? = some name ↔ base = .stage name := by
  cases base <;> simp [Base.parent?]

theorem Instruction.source?_eq_some_iff {instruction : Instruction} {name : String} :
    instruction.source? = some name ↔
      ∃ path destination ownership,
        instruction = .copy path destination ownership (some name) := by
  cases instruction <;> simp [Instruction.source?]

namespace Growth

/-- A growth that is handed no copy from a stage copies from the source of its artifact only. -/
theorem sources_eq {growth : Growth}
    (plain : ∀ instruction ∈ growth.given, instruction.source? = none) :
    growth.instructions.filterMap Instruction.source? = growth.inputs.map (·.name) := by
  cases growth with
  | push | pushAll => exact List.filterMap_eq_nil_iff.mpr plain
  | _ => rfl

end Growth

namespace Stage

/-- The names that the text of a stage refers to. -/
def references (stage : Stage) : List String :=
  stage.base.parent?.toList ++ stage.instructions.filterMap Instruction.source?

theorem mem_references {stage : Stage} {name : String} :
    name ∈ stage.references ↔
      stage.base = .stage name ∨
        ∃ path destination ownership,
          Instruction.copy path destination ownership (some name) ∈ stage.instructions := by
  rw [references, List.mem_append, Option.mem_toList, Base.parent?_eq_some_iff, List.mem_filterMap]
  refine or_congr_right ⟨?_, ?_⟩
  · rintro ⟨instruction, member, isSource⟩
    obtain ⟨path, destination, ownership, rfl⟩ := Instruction.source?_eq_some_iff.mp isSource
    exact ⟨path, destination, ownership, member⟩
  · rintro ⟨path, destination, ownership, member⟩
    exact ⟨_, member, rfl⟩

/-- The stage was made on a base and grew from there, and no growth was handed an instruction that
copies from a stage. -/
inductive BuiltPlainly : Stage → Prop where
  | onImage (reference : String) (bench : Workbench) :
      BuiltPlainly ((fromImage reference).run bench).1
  | onStage (parent : Stage) (bench : Workbench) :
      BuiltPlainly ((fromStage parent).run bench).1
  | grow {stage : Stage} (growth : Growth) (bench : Workbench) :
      BuiltPlainly stage → (∀ instruction ∈ growth.given, instruction.source? = none) →
        BuiltPlainly ((growth.apply stage).run bench).1

/-- A stage that is linked to the source of an artifact lists its name. -/
theorem name_mem_of_isLinkedTo {stage source : Stage} (isLinked : stage.isLinkedTo source = true) :
    source.name ∈ stage.dependencyNames := by
  obtain ⟨dependency, depends, same⟩ := List.any_eq_true.mp isLinked
  simp only [Stage.sameDefinition, Bool.and_eq_true, beq_iff_eq] at same
  obtain ⟨⟨⟨name, _⟩, _⟩, _⟩ := same
  exact name ▸ DependsOn.name_mem depends

/-- After a growth a stage lists the names from before and those of the growth's inputs. -/
theorem mem_dependencyNames_of_grown {growth : Growth} {stage grown : Stage}
    {bench after : Workbench}
    (grows : Grown growth.instructions (growth.linked stage) stage bench grown after)
    (name : String) :
    name ∈ grown.dependencyNames ↔
      name ∈ stage.dependencyNames ∨ name ∈ growth.inputs.map (·.name) := by
  rw [dependencyNames, grows.dependencies, List.map_append, List.mem_append, ← dependencyNames]
  cases growth with
  | copyArtifact artifact destination ownership =>
      simp only [Growth.linked, Growth.inputs]
      split
      case isTrue isLinked =>
        -- No link is added here, but the name is listed already.
        constructor
        · exact fun member => member.imp_right fun never => by cases never
        · rintro (old | new)
          · exact .inl old
          · rw [List.map_singleton, List.mem_singleton] at new
            exact .inl (new ▸ name_mem_of_isLinkedTo isLinked)
      case isFalse => exact Iff.rfl
  | _ => exact Iff.rfl

/-- **A plainly built stage is linked to exactly the names it refers to.** -/
theorem BuiltPlainly.mem_references_iff {stage : Stage} (built : stage.BuiltPlainly)
    (name : String) : name ∈ stage.references ↔ name ∈ stage.dependencyNames := by
  induction built with
  | onImage reference bench => exact Iff.rfl
  | onStage parent bench => exact Iff.rfl
  | @grow stage growth bench _ plain ih =>
      have grows := growth.grown stage bench
      rw [mem_dependencyNames_of_grown grows, ← ih, references, grows.base, grows.instructions,
        List.filterMap_append, Growth.sources_eq plain, ← List.append_assoc, List.mem_append]
      rfl

end Stage

end StageManifest
