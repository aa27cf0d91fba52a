import Mathlib
import StageManifest.Proofs.Graph.Arrangement
import StageManifest.Proofs.Instruction.Lines

/-!
# The blocks of a manifest

The block of a stage has one line for its base and then the lines of its
instructions (`Stage.text_eq_joinLines`).  If no text that is written as it is
given has a line feed in it and each environment instruction sets a variable
(`Stage.IsPlain`), no line of a block is empty.  Hence the empty lines of a
manifest stand between its blocks and nowhere else
(`Manifest.paragraphs_ofStages`).
-/

set_option autoImplicit false

namespace StageManifest

open Text (IsLine IsFilledLine)

namespace Stage

/-- The line that names the base and the stage. -/
def baseLine (stage : Stage) : String :=
  "FROM " ++ stage.base.reference ++ " AS " ++ stage.name

/-- The lines of a stage. -/
def lines (stage : Stage) : List String :=
  stage.baseLine :: stage.instructions.flatMap Instruction.lines

/-- What is written as it is given is one line each, and environment instructions set variables. -/
structure IsPlain (stage : Stage) : Prop where
  name : IsLine stage.name
  base : IsLine stage.base.reference
  freeTexts : ∀ instruction ∈ stage.instructions, ∀ text ∈ instruction.freeTexts, IsLine text
  noEmptyEnv : ∀ assignments, .env assignments ∈ stage.instructions → assignments.toList ≠ []

variable {stage : Stage}

/-- Every instruction of a plain stage has a line. -/
theorem IsPlain.lines_ne_nil (plain : stage.IsPlain) {instruction : Instruction}
    (isInstruction : instruction ∈ stage.instructions) : instruction.lines ≠ [] := by
  cases instruction with
  | env assignments => exact List.map_eq_nil_iff.not.mpr (plain.noEmptyEnv _ isInstruction)
  | _ => exact List.cons_ne_nil _ _

/-- **The block of a plain stage is made of its lines.** -/
theorem IsPlain.text_eq (plain : stage.IsPlain) : stage.text = Text.joinLines stage.lines := by
  have filled : ∀ group ∈ [stage.baseLine] :: stage.instructions.map Instruction.lines,
      group ≠ [] := by
    refine List.forall_mem_cons.mpr ⟨List.cons_ne_nil _ _, fun group isGroup => ?_⟩
    obtain ⟨instruction, isInstruction, rfl⟩ := List.mem_map.mp isGroup
    exact plain.lines_ne_nil isInstruction
  have joined := Text.joinLines_map_joinLines filled
  rw [List.map_cons, List.map_map, Text.joinLines_singleton, List.flatten_cons,
    List.singleton_append, ← List.flatMap_def] at joined
  rw [lines, ← joined, text]
  congr 2
  exact List.map_congr_left fun instruction _ => instruction.text_eq_joinLines

/-- No line of a plain stage is empty. -/
theorem IsPlain.isFilledLine_of_mem_lines (plain : stage.IsPlain) {line : String}
    (member : line ∈ stage.lines) : IsFilledLine line := by
  rcases List.mem_cons.mp member with rfl | later
  · exact .append (.append (.append (by decide) plain.base) (by decide)) plain.name
  · obtain ⟨instruction, isInstruction, isLine⟩ := List.mem_flatMap.mp later
    exact Instruction.isFilledLine_of_mem_lines (plain.freeTexts instruction isInstruction) isLine

/-- The block of a plain stage comes apart into its lines. -/
theorem IsPlain.splitLines_text (plain : stage.IsPlain) :
    Text.splitLines stage.text = stage.lines := by
  rw [plain.text_eq]
  exact Text.splitLines_joinLines (List.cons_ne_nil _ _) fun line isLine =>
    (plain.isFilledLine_of_mem_lines isLine).isLine

/-- A stage has a line for its base and as many as its instructions have. -/
theorem length_lines (stage : Stage) :
    stage.lines.length = 1 + (stage.instructions.map Instruction.lineCount).sum := by
  rw [lines, List.length_cons, List.length_flatMap, Nat.add_comm]
  congr 2
  exact List.map_congr_left fun instruction _ => instruction.length_lines

end Stage

namespace Manifest

/-- **The blocks of plain stages are the paragraphs of their manifest.** -/
theorem paragraphs_ofStages {frontend : String} {blocks : List Stage}
    (plainFrontend : IsLine frontend) (plain : ∀ block ∈ blocks, block.IsPlain) :
    Text.paragraphs (ofStages frontend blocks) = header frontend :: blocks.map Stage.text := by
  have texts : header frontend :: blocks.map Stage.text =
      ([header frontend] :: blocks.map Stage.lines).map Text.joinLines := by
    rw [List.map_cons, Text.joinLines_singleton, List.map_map]
    congr 1
    exact List.map_congr_left fun block isBlock => (plain block isBlock).text_eq
  have isHeader : IsFilledLine (header frontend) := .append (by decide) plainFrontend
  rw [ofStages, texts]
  refine Text.paragraphs_intercalate ?_ ?_
  · refine List.forall_mem_cons.mpr ⟨List.cons_ne_nil _ _, fun group isGroup => ?_⟩
    obtain ⟨block, _, rfl⟩ := List.mem_map.mp isGroup
    exact List.cons_ne_nil _ _
  · refine List.forall_mem_cons.mpr
      ⟨List.forall_mem_singleton.mpr ⟨isHeader.isLine, isHeader.filled⟩, fun group isGroup => ?_⟩
    obtain ⟨block, isBlock, rfl⟩ := List.mem_map.mp isGroup
    intro line isLine
    have isFilled := (plain block isBlock).isFilledLine_of_mem_lines isLine
    exact ⟨isFilled.isLine, isFilled.filled⟩

/-- **The lines of a manifest are unambiguous.**  If no text that is written as it is given has a
line feed in it and no environment instruction is empty, the manifest comes apart at its empty lines
into the header and the blocks in their order, no block has an empty line, and a block has one line
for its base and one for each instruction, or for each variable that the instruction sets. -/
theorem solve_has_unambiguous_lines {frontend manifest : String} {root : Stage}
    (assembled : root.Assembled) (solved : solve frontend root = .ok manifest)
    (plainFrontend : IsLine frontend) (plain : ∀ stage, root.Reaches stage → stage.IsPlain) :
    ∃ graph blocks, StageGraph.discover root = .ok graph ∧ graph.ordered = .ok blocks ∧
      manifest = ofStages frontend blocks ∧
      Text.paragraphs manifest = header frontend :: blocks.map Stage.text ∧
      ∀ block ∈ blocks, "" ∉ Text.splitLines block.text ∧
        Text.splitLines block.text =
          ("FROM " ++ block.base.reference ++ " AS " ++ block.name) ::
            block.instructions.flatMap Instruction.lines ∧
        (Text.splitLines block.text).length =
          1 + (block.instructions.map Instruction.lineCount).sum := by
  obtain ⟨graph, blocks, found, ordered, rfl, arranged⟩ :=
    exists_arranged_of_solve assembled.coherent solved
  have plainBlocks : ∀ block ∈ blocks, block.IsPlain := fun block isBlock =>
    plain block (arranged.reached block isBlock)
  refine ⟨graph, blocks, found, ordered, rfl, paragraphs_ofStages plainFrontend plainBlocks,
    fun block isBlock => ?_⟩
  rw [(plainBlocks block isBlock).splitLines_text]
  refine ⟨fun isEmpty => ?_, rfl, block.length_lines⟩
  exact ((plainBlocks block isBlock).isFilledLine_of_mem_lines isEmpty).filled rfl

end Manifest

/-! ## A script with two lines

The words of the command hold a line feed, and two variables are set at once.
-/

namespace Scripted

def command : Instruction := .cmd (.exec ["sh", "-c", "make\nmake install"])

def environment : Instruction := .envOf [("HOME", "/root"), ("LANG", "C")]

def begun : Stage := ⟨"app", .image "alpine", .empty, .empty, none⟩

def root : Stage :=
  { begun with layers := (Chain.empty.push 0 environment).push 1 command }

theorem assembled : root.Assembled := by
  have empty : Session ⟨.listed ["app"] "", 0⟩ [] := .start _
  have one : Session ⟨.listed [] "", 0⟩ [begun] := empty.perform (.onImage "alpine") nofun
  have two : Session ⟨.listed [] "", 2⟩ [root, begun] :=
    one.perform (.grow begun (.pushAll [environment, command]))
      (by simp [StageJob.inputs, Growth.inputs])
  exact ⟨_, _, two, List.mem_cons_self⟩

/-- The graph of the script. -/
def graph : StageGraph := ⟨[root], [[]]⟩

theorem discovered : StageGraph.discover root = .ok graph := by
  with_unfolding_all rfl

theorem ordered : graph.ordered = .ok [root] := by
  have order : Graph.topologicalOrder graph.edges = .ok [0] := by cbv
  exact StageGraph.ordered_eq_ok_iff.mpr ⟨_, order, rfl⟩

theorem solved : Manifest.solve "frontend" root = .ok (Manifest.ofStages "frontend" [root]) :=
  Manifest.solve_eq_ok_iff.mpr ⟨graph, _, discovered, ordered, rfl⟩

theorem isPlain : root.IsPlain := by
  have instructions : root.instructions = [environment, command] := rfl
  refine ⟨by decide, by decide, ?_, fun assignments member => ?_⟩
  · rw [instructions]
    decide +kernel
  · rw [instructions] at member
    rcases List.mem_cons.mp member with same | never
    · cases same
      decide +kernel
    · cases List.mem_singleton.mp never

/-- Nothing is below the script but itself. -/
theorem eq_of_reaches {stage : Stage} (reaches : root.Reaches stage) : stage = root := by
  obtain rfl | ⟨_, depends, _⟩ := Relation.ReflTransGen.cases_head reaches
  · rfl
  · cases depends

end Scripted

/-- The manifest of the script has two paragraphs, and its block has four lines. -/
theorem Manifest.solve_has_unambiguous_lines_of_script :
    Scripted.root.Assembled ∧ Text.IsLine "frontend" ∧
      (∀ stage, Scripted.root.Reaches stage → stage.IsPlain) ∧
      ∃ manifest, solve "frontend" Scripted.root = .ok manifest ∧
        Text.paragraphs manifest = ["#syntax=frontend", Scripted.root.text] ∧
        (Text.splitLines Scripted.root.text).length = 4 := by
  have plain : ∀ stage, Scripted.root.Reaches stage → stage.IsPlain := fun stage reaches =>
    Scripted.eq_of_reaches reaches ▸ Scripted.isPlain
  obtain ⟨graph, blocks, found, ordered, _, paragraphs, lines⟩ :=
    solve_has_unambiguous_lines Scripted.assembled Scripted.solved (by decide) plain
  have same : graph = Scripted.graph := Except.ok.inj (found.symm.trans Scripted.discovered)
  rw [same, Scripted.ordered, Except.ok.injEq] at ordered
  subst ordered
  refine ⟨Scripted.assembled, by decide, plain, _, Scripted.solved, paragraphs, ?_⟩
  exact (lines Scripted.root List.mem_cons_self).2.2

end StageManifest
