import Mathlib.Data.List.Forall2
import StageManifest.Stage.Basic

/-!
# Stages under other names

The name of a stage stands in its own block, in the base of the stages that are
built on it and in the instructions that copy from it, and nowhere else.  A stage
is another one under other names if these places were changed, in the stage and in
everything below it (`Stage.Renamed`).  The text of the new stage is then the old
text with the names changed after `FROM`, after `AS` and in `--from`
(`Stage.Renamed.text_eq`).
-/

set_option autoImplicit false

namespace StageManifest

/-- The base with another name of the stage that it stands for; an image keeps its reference. -/
def Base.renamed (rename : String → String) : Base → Base
  | .image reference => .image reference
  | .stage name => .stage (rename name)

/-- The instruction with another name of the stage that it copies from. -/
def Instruction.renamed (rename : String → String) : Instruction → Instruction
  | .copy source destination ownership stage =>
      .copy source destination ownership (stage.map rename)
  | instruction => instruction

namespace Stage

/-- The second stage is the first one under other names, down to the last dependency. -/
inductive Renamed (rename : String → String) : Stage → Stage → Prop where
  | intro {stage other : Stage} (name : other.name = rename stage.name)
      (base : other.base = stage.base.renamed rename)
      (instructions : other.instructions = stage.instructions.map (Instruction.renamed rename))
      (tag : other.tag = stage.tag)
      (dependencies : List.Forall₂ (Renamed rename) stage.dependencies.toList
        other.dependencies.toList) :
      Renamed rename stage other

/-- The text of a stage with other names after `FROM`, after `AS` and in `--from`. -/
def renamedText (rename : String → String) (stage : Stage) : String :=
  Text.joinLines
    (("FROM " ++ (stage.base.renamed rename).reference ++ " AS " ++ rename stage.name) ::
      stage.instructions.map fun instruction => (instruction.renamed rename).text)

/-- The text of a stage under other names. -/
theorem Renamed.text_eq {rename : String → String} {stage other : Stage}
    (renamed : Renamed rename stage other) : other.text = stage.renamedText rename := by
  obtain ⟨name, base, instructions, _, _⟩ := renamed
  rw [text, renamedText, name, base, instructions, List.map_map]
  rfl

theorem map_text_of_renamed {rename : String → String} {stages others : List Stage}
    (renamed : List.Forall₂ (Renamed rename) stages others) :
    others.map text = stages.map (renamedText rename) := by
  induction renamed with
  | nil => rfl
  | cons head _ ih => rw [List.map_cons, List.map_cons, head.text_eq, ih]

end Stage

end StageManifest
