import StageManifest.Proofs.Chain.Ends
import StageManifest.Stage.Growth

/-!
# What a job at the workbench does

Everything a growth changes is said once (`Growth.grown`): the name and the base
stay, the instructions and the links are those from before followed by those of
the growth, and a chain that changes ends at a mark drawn on the way.  What is
proved of a grown stage later is derived from this, and likewise for new stages
(`StageJob.made`).
-/

set_option autoImplicit false

namespace StageManifest

open Chain (EndsWithin)

/-- Work at a bench turned a stage into another one by appending the given instructions and
linking the given stages.  A chain that changed ends at a new mark, and no name was drawn. -/
structure Grown (appended : List Instruction) (linked : List Stage) (stage : Stage)
    (bench : Workbench) (grown : Stage) (after : Workbench) : Prop where
  name : grown.name = stage.name
  base : grown.base = stage.base
  instructions : grown.instructions = stage.instructions ++ appended
  dependencies : grown.dependencies.toList = stage.dependencies.toList ++ linked
  layersEnd : grown.layers = stage.layers ∨
    EndsWithin bench.nextMark after.nextMark grown.layers
  dependenciesEnd : grown.dependencies = stage.dependencies ∨
    EndsWithin bench.nextMark after.nextMark grown.dependencies
  marks : bench.nextMark ≤ after.nextMark
  names : after.names = bench.names

namespace Grown

theorem refl (stage : Stage) (bench : Workbench) : Grown [] [] stage bench stage bench where
  name := rfl
  base := rfl
  instructions := (List.append_nil _).symm
  dependencies := (List.append_nil _).symm
  layersEnd := .inl rfl
  dependenciesEnd := .inl rfl
  marks := Nat.le_refl _
  names := rfl

/-- The end of a chain after two pieces of work. -/
theorem endsWithin_trans {α : Type} {low middle high : Nat} {first second third : Chain α}
    (earlier : second = first ∨ EndsWithin low middle second)
    (later : third = second ∨ EndsWithin middle high third)
    (low_le : low ≤ middle) (le_high : middle ≤ high) :
    third = first ∨ EndsWithin low high third := by
  rcases later with same | ends
  · rw [same]
    exact earlier.imp_right fun ends => ends.mono (Nat.le_refl _) le_high
  · exact .inr (ends.mono low_le (Nat.le_refl _))

theorem trans {appended more : List Instruction} {linked further : List Stage}
    {first second third : Stage} {bench middle after : Workbench}
    (earlier : Grown appended linked first bench second middle)
    (later : Grown more further second middle third after) :
    Grown (appended ++ more) (linked ++ further) first bench third after where
  name := later.name.trans earlier.name
  base := later.base.trans earlier.base
  instructions := by rw [later.instructions, earlier.instructions, List.append_assoc]
  dependencies := by rw [later.dependencies, earlier.dependencies, List.append_assoc]
  layersEnd := endsWithin_trans earlier.layersEnd later.layersEnd earlier.marks later.marks
  dependenciesEnd :=
    endsWithin_trans earlier.dependenciesEnd later.dependenciesEnd earlier.marks later.marks
  marks := Nat.le_trans earlier.marks later.marks
  names := later.names.trans earlier.names

end Grown

namespace Stage

/-! ## Appending instructions -/

theorem grown_push (stage : Stage) (instruction : Instruction) (bench : Workbench) :
    Grown [instruction] [] stage bench ((stage.push instruction).run bench).1
      ((stage.push instruction).run bench).2 where
  name := rfl
  base := rfl
  instructions := Chain.toList_push stage.layers bench.nextMark instruction
  dependencies := (List.append_nil _).symm
  layersEnd := .inr (Chain.endsWithin_push _ _ (Nat.le_refl _) (Nat.lt_succ_self _))
  dependenciesEnd := .inl rfl
  marks := Nat.le_succ _
  names := rfl

theorem grown_pushAll (stage : Stage) (instructions : List Instruction) (bench : Workbench) :
    Grown instructions [] stage bench ((stage.pushAll instructions).run bench).1
      ((stage.pushAll instructions).run bench).2 := by
  induction instructions generalizing stage bench with
  | nil => exact .refl stage bench
  | cons instruction rest ih =>
      exact (stage.grown_push instruction bench).trans (ih _ _)

/-! ## Copying an artifact -/

/-- A stage that is linked to the source of an artifact gets the copy instruction only. -/
theorem grown_copyArtifact_of_linked {stage : Stage} {artifact : Artifact}
    (isLinked : stage.isLinkedTo artifact.source = true) (destination : String)
    (ownership : Option Ownership) (bench : Workbench) :
    Grown [.copy artifact.path destination ownership (some artifact.source.name)] [] stage bench
      ((stage.copyArtifact artifact destination ownership).run bench).1
      ((stage.copyArtifact artifact destination ownership).run bench).2 := by
  have same : (stage.copyArtifact artifact destination ownership).run bench =
      (stage.push (.copy artifact.path destination ownership (some artifact.source.name))).run
        bench := by
    simp only [copyArtifact, isLinked, if_pos]
    rfl
  rw [same]
  exact stage.grown_push _ bench

/-- A stage that is not linked to the source of an artifact gets the link as well. -/
theorem grown_copyArtifact_of_not_linked {stage : Stage} {artifact : Artifact}
    (notLinked : stage.isLinkedTo artifact.source = false) (destination : String)
    (ownership : Option Ownership) (bench : Workbench) :
    Grown [.copy artifact.path destination ownership (some artifact.source.name)]
      [artifact.source] stage bench
      ((stage.copyArtifact artifact destination ownership).run bench).1
      ((stage.copyArtifact artifact destination ownership).run bench).2 := by
  have same : (stage.copyArtifact artifact destination ownership).run bench =
      ({ stage with
          dependencies := stage.dependencies.push bench.nextMark artifact.source
          layers := stage.layers.push (bench.nextMark + 1)
            (.copy artifact.path destination ownership (some artifact.source.name)) },
        { bench with nextMark := bench.nextMark + 1 + 1 }) := by
    simp only [copyArtifact, notLinked, Bool.false_eq_true, if_false]
    rfl
  rw [same]
  constructor
  · rfl
  · rfl
  · exact Chain.toList_push _ _ _
  · exact Chain.toList_push _ _ _
  · exact .inr (Chain.endsWithin_push _ _ (Nat.le_succ _) (Nat.lt_succ_self _))
  · exact .inr (Chain.endsWithin_push _ _ (Nat.le_refl _) (by simp only; omega))
  · exact Nat.le_add_right bench.nextMark 2
  · rfl

end Stage

/-! ## Growths -/

namespace Growth

/-- The instructions that a growth takes from the caller as they are. -/
def given : Growth → List Instruction
  | .push instruction => [instruction]
  | .pushAll instructions => instructions
  | _ => []

/-- The stages that have to be at hand for a growth. -/
def inputs : Growth → List Stage
  | .copyArtifact artifact _ _ => [artifact.source]
  | _ => []

/-- The stages that a growth links to a stage: the source of an artifact, unless that very stage is
linked already. -/
def linked (growth : Growth) (stage : Stage) : List Stage :=
  match growth with
  | .copyArtifact artifact _ _ =>
      if stage.isLinkedTo artifact.source then [] else [artifact.source]
  | _ => []

theorem linked_subset_inputs (growth : Growth) (stage : Stage) :
    growth.linked stage ⊆ growth.inputs := by
  intro source member
  cases growth with
  | copyArtifact artifact destination ownership =>
      simp only [linked] at member
      split at member
      · cases member
      · exact member
  | _ => cases member

/-- **What a growth does to a stage.** -/
theorem grown (growth : Growth) (stage : Stage) (bench : Workbench) :
    Grown growth.instructions (growth.linked stage) stage bench
      ((growth.apply stage).run bench).1 ((growth.apply stage).run bench).2 := by
  cases growth with
  | tag name =>
      exact
        { name := rfl, base := rfl, instructions := (List.append_nil _).symm,
          dependencies := (List.append_nil _).symm, layersEnd := .inl rfl,
          dependenciesEnd := .inl rfl, marks := Nat.le_refl _, names := rfl }
  | copyArtifact artifact destination ownership =>
      cases isLinked : stage.isLinkedTo artifact.source with
      | true =>
          have links : (copyArtifact artifact destination ownership).linked stage = [] := by
            simp [linked, isLinked]
          rw [links]
          exact Stage.grown_copyArtifact_of_linked isLinked destination ownership bench
      | false =>
          have links : (copyArtifact artifact destination ownership).linked stage =
              [artifact.source] := by
            simp [linked, isLinked]
          rw [links]
          exact Stage.grown_copyArtifact_of_not_linked isLinked destination ownership bench
  | _ => exact stage.grown_pushAll _ bench

end Growth

/-! ## Jobs -/

/-- The stages that have to be at hand for a job. -/
def StageJob.inputs : StageJob → List Stage
  | .onImage _ => []
  | .onStage parent => [parent]
  | .grow stage growth => stage :: growth.inputs

/-- Work at a bench made a stage out of the given ones.  Each of its chains is empty, that of an
input, or ends at a new mark, and only inputs and what they depend on are linked. -/
structure Made (inputs : List Stage) (bench : Workbench) (made : Stage) (after : Workbench) :
    Prop where
  layers : made.layers = .empty ∨ (∃ input ∈ inputs, made.layers = input.layers) ∨
    EndsWithin bench.nextMark after.nextMark made.layers
  dependencies : made.dependencies = .empty ∨
    (∃ input ∈ inputs, made.dependencies = input.dependencies) ∨
    EndsWithin bench.nextMark after.nextMark made.dependencies
  sources : ∀ dependency ∈ made.dependencies.toList,
    dependency ∈ inputs ∨ ∃ input ∈ inputs, dependency ∈ input.dependencies.toList
  marks : bench.nextMark ≤ after.nextMark

/-- **What a job makes.** -/
theorem StageJob.made (job : StageJob) (bench : Workbench) :
    Made job.inputs bench (job.perform.run bench).1 (job.perform.run bench).2 := by
  cases job with
  | onImage reference =>
      exact ⟨.inl rfl, .inl rfl, fun dependency member => (List.not_mem_nil member).elim,
        Nat.le_refl _⟩
  | onStage parent =>
      refine ⟨.inl rfl, .inr (.inr ?_), ?_, Nat.le_succ _⟩
      · exact Chain.endsWithin_push _ _ (Nat.le_refl _) (Nat.lt_succ_self _)
      · intro dependency member
        exact .inl member
  | grow stage growth =>
      have grown := growth.grown stage bench
      refine ⟨.inr ?_, .inr ?_, ?_, grown.marks⟩
      · exact grown.layersEnd.imp_left fun same => ⟨stage, List.mem_cons_self, same⟩
      · exact grown.dependenciesEnd.imp_left fun same => ⟨stage, List.mem_cons_self, same⟩
      · intro dependency member
        have split : dependency ∈ stage.dependencies.toList ++ growth.linked stage :=
          grown.dependencies ▸ member
        rcases List.mem_append.mp split with old | new
        · exact .inr ⟨stage, List.mem_cons_self, old⟩
        · exact .inl (List.mem_cons_of_mem _ (growth.linked_subset_inputs stage new))

/-! ## Jobs that start a stage -/

/-- The job makes a stage on a base. -/
def StageJob.Starts : StageJob → Prop
  | .grow _ _ => False
  | _ => True

/-- Work at a bench started a stage, which drew one name and is linked to the inputs. -/
structure Started (inputs : List Stage) (bench : Workbench) (started : Stage) (after : Workbench) :
    Prop where
  name : started.name = bench.names.next.1
  dependencies : started.dependencies.toList = inputs
  names : after.names = bench.names.next.2

/-- **What a job that starts a stage makes.** -/
theorem StageJob.Starts.started {job : StageJob} (starts : job.Starts) (bench : Workbench) :
    Started job.inputs bench (job.perform.run bench).1 (job.perform.run bench).2 := by
  cases job with
  | onImage reference => exact ⟨rfl, rfl, rfl⟩
  | onStage parent => exact ⟨rfl, Chain.toList_push _ _ _, rfl⟩
  | grow stage growth => exact starts.elim

end StageManifest
