import Mathlib.Logic.Relation
import StageManifest.Graph.Discovery

/-!
# Stages below a stage

A stage reaches the stages that it depends on and all that these reach.  A
dependency is smaller than a stage that holds it (`DependsOn.sizeOf_lt`), so
stages form trees, although names may come round again.

Two stages agree when they have the same name, base, instructions and dependency
names.  Comparing definitions decides this (`sameDefinition_iff_agrees`) wherever
chains with the same end are equal.
-/

set_option autoImplicit false

namespace StageManifest.Stage

/-! ## Dependencies -/

/-- A stage is linked to another one. -/
def DependsOn (stage dependency : Stage) : Prop := dependency ∈ stage.dependencies.toList

/-- A stage needs another one, directly, through others, or because it is the same. -/
abbrev Reaches : Stage → Stage → Prop := Relation.ReflTransGen DependsOn

theorem sizeOf_le_walkWeight {stage : Stage} {pending : List Stage} (member : stage ∈ pending) :
    sizeOf stage ≤ StageGraph.walkWeight pending := by
  induction pending with
  | nil => cases member
  | cons head rest ih =>
      simp only [StageGraph.walkWeight]
      rcases List.mem_cons.mp member with rfl | member
      · exact Nat.le_add_right _ _
      · exact Nat.le_trans (ih member) (Nat.le_add_left _ _)

/-- A dependency is smaller than the stage that is linked to it. -/
theorem DependsOn.sizeOf_lt {stage dependency : Stage} (depends : stage.DependsOn dependency) :
    sizeOf dependency < sizeOf stage :=
  Nat.lt_of_le_of_lt (sizeOf_le_walkWeight depends) (StageGraph.walkWeight_dependencies_lt stage)

/-- What is below a stage is not larger than the stage. -/
theorem Reaches.sizeOf_le {stage below : Stage} (reaches : stage.Reaches below) :
    sizeOf below ≤ sizeOf stage := by
  induction reaches with
  | refl => exact Nat.le_refl _
  | tail _ depends ih => exact Nat.le_trans (Nat.le_of_lt depends.sizeOf_lt) ih

/-- Stages that come with what they are linked to include all that is below them. -/
theorem Reaches.mem_of_closed {root stage : Stage} {stages : List Stage}
    (reaches : root.Reaches stage) (member : root ∈ stages)
    (closed : ∀ stage ∈ stages, ∀ dependency, stage.DependsOn dependency → dependency ∈ stages) :
    stage ∈ stages := by
  induction reaches with
  | refl => exact member
  | tail _ depends ih => exact closed _ ih _ depends

/-- Every stage below a root but the root itself is linked from a stage below the root. -/
theorem Reaches.exists_dependsOn {root stage : Stage} (reaches : root.Reaches stage)
    (other : stage ≠ root) : ∃ user, root.Reaches user ∧ user.DependsOn stage := by
  rcases Relation.ReflTransGen.cases_tail reaches with same | found
  · exact absurd same other
  · exact found

/-- What a stage is linked to is listed by name. -/
theorem DependsOn.name_mem {stage dependency : Stage} (depends : stage.DependsOn dependency) :
    dependency.name ∈ stage.dependencyNames :=
  List.mem_map_of_mem depends

/-- Every listed name is that of a stage that is linked. -/
theorem exists_dependsOn_of_name_mem {stage : Stage} {name : String}
    (member : name ∈ stage.dependencyNames) :
    ∃ dependency, stage.DependsOn dependency ∧ dependency.name = name :=
  List.mem_map.mp member

/-- A property of lists of stages holds if it passes from the dependencies of the first stage and
the other stages to the whole list. -/
theorem induction_on_dependencies {motive : List Stage → Prop} (nil : motive [])
    (cons : ∀ stage rest, motive stage.dependencies.toList → motive rest →
      motive (stage :: rest)) (stages : List Stage) : motive stages := by
  induction weight : StageGraph.walkWeight stages using Nat.strongRecOn generalizing stages with
  | ind bound ih =>
      cases stages with
      | nil => exact nil
      | cons stage rest =>
          have lighter := StageGraph.walkWeight_dependencies_lt stage
          have positive := Nat.lt_of_le_of_lt (Nat.zero_le _) lighter
          rw [StageGraph.walkWeight] at weight
          exact cons stage rest (ih _ (by omega) _ rfl) (ih _ (by omega) _ rfl)

/-! ## Agreement -/

/-- Two stages have the same name and the same definition, in which dependencies count by name. -/
structure Agrees (first second : Stage) : Prop where
  name : first.name = second.name
  base : first.base = second.base
  instructions : first.instructions = second.instructions
  dependencyNames : first.dependencyNames = second.dependencyNames

/-- Two stages have the same name and different definitions. -/
structure Collides (first second : Stage) : Prop where
  name : first.name = second.name
  differs : first.base ≠ second.base ∨ first.instructions ≠ second.instructions ∨
    first.dependencyNames ≠ second.dependencyNames

theorem Agrees.refl (stage : Stage) : Agrees stage stage := ⟨rfl, rfl, rfl, rfl⟩

theorem Agrees.symm {first second : Stage} (agrees : Agrees first second) :
    Agrees second first :=
  ⟨agrees.name.symm, agrees.base.symm, agrees.instructions.symm, agrees.dependencyNames.symm⟩

theorem Agrees.trans {first second third : Stage} (agrees : Agrees first second)
    (further : Agrees second third) : Agrees first third :=
  ⟨agrees.name.trans further.name, agrees.base.trans further.base,
    agrees.instructions.trans further.instructions,
    agrees.dependencyNames.trans further.dependencyNames⟩

theorem Agrees.not_collides {first second : Stage} (agrees : Agrees first second) :
    ¬ Collides first second := by
  intro collides
  rcases collides.differs with base | instructions | names
  · exact base agrees.base
  · exact instructions agrees.instructions
  · exact names agrees.dependencyNames

/-- Stages with one name collide unless they agree. -/
theorem collides_of_not_agrees {first second : Stage} (name : first.name = second.name)
    (not_agrees : ¬ Agrees first second) : Collides first second := by
  refine ⟨name, Classical.byContradiction fun same => ?_⟩
  simp only [not_or, ne_eq, Classical.not_not] at same
  exact not_agrees ⟨name, same.1, same.2.1, same.2.2⟩

/-- Stages that agree are written the same way. -/
theorem Agrees.text_eq {first second : Stage} (agrees : Agrees first second) :
    first.text = second.text := by
  rw [text, text, agrees.name, agrees.base, agrees.instructions]

/-! ## Comparing definitions -/

/-- Chains of two stages are equal where they end at the same link. -/
structure EndsAgree (first second : Stage) : Prop where
  layers : first.layers.sameEnd second.layers = true → first.layers = second.layers
  dependencies : first.dependencies.sameEnd second.dependencies = true →
    first.dependencies = second.dependencies

/-- Among the stages below a root, chains that end at the same link are equal. -/
def Coherent (root : Stage) : Prop :=
  ∀ ⦃first second : Stage⦄, root.Reaches first → root.Reaches second → EndsAgree first second

/-- Under another tag a stage reaches itself and what it reached before. -/
theorem eq_or_reaches_of_withTag {root below : Stage} {tag : String}
    (reaches : (root.withTag tag).Reaches below) :
    below = root.withTag tag ∨ root.Reaches below := by
  rcases Relation.ReflTransGen.cases_head reaches with same | ⟨dependency, depends, further⟩
  · exact .inl same.symm
  · exact .inr (.head depends further)

theorem Coherent.withTag {root : Stage} (coherent : root.Coherent) (tag : String) :
    (root.withTag tag).Coherent := by
  intro first second isFirst isSecond
  rcases eq_or_reaches_of_withTag isFirst with rfl | isFirst <;>
    rcases eq_or_reaches_of_withTag isSecond with rfl | isSecond
  · exact ⟨(coherent .refl .refl).layers, (coherent .refl .refl).dependencies⟩
  · exact ⟨(coherent .refl isSecond).layers, (coherent .refl isSecond).dependencies⟩
  · exact ⟨(coherent isFirst .refl).layers, (coherent isFirst .refl).dependencies⟩
  · exact coherent isFirst isSecond

/-- Equal instructions are found to be equal, whatever links hold them. -/
theorem sameContent_of_toList_eq {first second : Chain Instruction}
    (same : first.toList = second.toList) : first.sameContent second = true := by
  have size : first.size = second.size := by
    rw [← Chain.length_toList, ← Chain.length_toList, same]
  simp [Chain.sameContent, size, same]

theorem toList_eq_of_sameContent {first second : Chain Instruction}
    (ends : first.sameEnd second = true → first = second)
    (same : first.sameContent second = true) : first.toList = second.toList := by
  simp only [Chain.sameContent, Bool.or_eq_true, Bool.and_eq_true, beq_iff_eq] at same
  rcases same with sameEnd | ⟨_, sameList⟩
  · rw [ends sameEnd]
  · exact sameList

/-- Stages that agree have the same definition, whatever links hold them. -/
theorem Agrees.sameDefinition {first second : Stage} (agrees : Agrees first second) :
    first.sameDefinition second = true := by
  have layers : first.layers.sameContent second.layers = true :=
    sameContent_of_toList_eq agrees.instructions
  simp [Stage.sameDefinition, agrees.name, agrees.base, agrees.dependencyNames, layers]

/-- **Comparing definitions decides agreement.** -/
theorem sameDefinition_iff_agrees {first second : Stage} (ends : EndsAgree first second) :
    first.sameDefinition second = true ↔ Agrees first second := by
  refine ⟨fun same => ?_, Agrees.sameDefinition⟩
  simp only [Stage.sameDefinition, Bool.and_eq_true, Bool.or_eq_true, beq_iff_eq] at same
  obtain ⟨⟨name, base⟩, ⟨layers, dependencies⟩ | ⟨names, layers⟩⟩ := same
  · have sameNames : first.dependencyNames = second.dependencyNames := by
      rw [dependencyNames, dependencyNames, ends.dependencies dependencies]
    have sameInstructions : first.instructions = second.instructions := by
      rw [instructions, instructions, ends.layers layers]
    exact ⟨name, base, sameInstructions, sameNames⟩
  · exact ⟨name, base, toList_eq_of_sameContent ends.layers layers, names⟩

end StageManifest.Stage
