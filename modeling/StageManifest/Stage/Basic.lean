import StageManifest.Chain.Basic
import StageManifest.Instruction.Recipe
import StageManifest.Stage.Names

/-!
# Stages

A stage is one block of a multi-stage manifest: a name, a base, instructions and
the stages it reads from.  Stages are values.  Every operation gives a new stage
and leaves the old one as it is; what did not change is shared between the two
through chains.

Operations that append to a chain need a mark for the new link, and a new stage
needs a name.  Both are drawn from a workbench.  Only `Stage.fromImage` and
`Stage.fromStage` draw names, one each.
-/

set_option autoImplicit false

namespace StageManifest

/-- What a stage is built on. -/
inductive Base where
  | image (reference : String)
  | stage (name : String)
deriving DecidableEq, Repr

/-- The text that names the base in a manifest. -/
def Base.reference : Base → String
  | .image reference => reference
  | .stage name => name

/-- One stage of a build. -/
structure Stage where
  name : String
  base : Base
  layers : Chain Instruction
  /-- The stages this one reads from, in the order in which they were linked. -/
  dependencies : Chain Stage
  tag : Option String

/-- What is used up while stages are made: names and the marks of links. -/
structure Workbench where
  names : NameSource
  nextMark : Nat

/-- Work that draws names and marks from a workbench. -/
abbrev Assembly := StateM Workbench

namespace Workbench

/-- A workbench with a source of names and no marks used. -/
def ofNames (names : NameSource) : Workbench := ⟨names, 0⟩

/-- Draws a name. -/
def drawName : Assembly String := fun bench =>
  let (name, names) := bench.names.next
  (name, { bench with names := names })

/-- Draws a mark. -/
def drawMark : Assembly Nat := fun bench =>
  (bench.nextMark, { bench with nextMark := bench.nextMark + 1 })

end Workbench

namespace Stage

/-! ## New stages -/

/-- A new stage on an image. -/
def fromImage (reference : String) : Assembly Stage := do
  let name ← Workbench.drawName
  return ⟨name, .image reference, .empty, .empty, none⟩

/-- A new stage on another one, which becomes its first dependency. -/
def fromStage (parent : Stage) : Assembly Stage := do
  let name ← Workbench.drawName
  let mark ← Workbench.drawMark
  return ⟨name, .stage parent.name, .empty, Chain.empty.push mark parent, none⟩

/-! ## Views -/

/-- The instructions in the order of their declaration. -/
def instructions (stage : Stage) : List Instruction := stage.layers.toList

/-- The names of the dependencies, in the order in which they were linked. -/
def dependencyNames (stage : Stage) : List String := stage.dependencies.toList.map (·.name)

/-- The command of the last instruction, if that one runs a command. -/
def taskName (stage : Stage) : Option String :=
  match stage.layers.last? with
  | some (.run command _) => some command
  | _ => none

/-- The text of a stage: the line that names its base, then its instructions. -/
def text (stage : Stage) : String :=
  Text.joinLines
    (("FROM " ++ stage.base.reference ++ " AS " ++ stage.name) ::
      stage.instructions.map Instruction.text)

/-! ## Comparison -/

/-- Whether two stages hold the very same chain of dependencies. -/
def sharesDependencies (first second : Stage) : Bool :=
  first.dependencies.sameEnd second.dependencies

/-- Whether two stages have the same name, base, instructions and dependency names. -/
def sameDefinition (first second : Stage) : Bool :=
  first.name == second.name && first.base == second.base &&
    ((first.layers.sameEnd second.layers && first.dependencies.sameEnd second.dependencies) ||
      (first.dependencyNames == second.dependencyNames &&
        first.layers.sameContent second.layers))

/-! ## Growing a stage -/

/-- The stage with one more instruction. -/
def push (stage : Stage) (instruction : Instruction) : Assembly Stage := do
  let mark ← Workbench.drawMark
  return { stage with layers := stage.layers.push mark instruction }

/-- The stage with several more instructions. -/
def pushAll (stage : Stage) (instructions : List Instruction) : Assembly Stage :=
  instructions.foldlM push stage

/-- The stage with a tag. -/
def withTag (stage : Stage) (tag : String) : Stage :=
  { stage with tag := some tag }

/-- The stage that installs Debian packages. -/
def aptInstall (stage : Stage) (packages : List String) : Assembly Stage :=
  stage.push (Recipe.aptInstall packages)

/-- The stage that runs a subcommand of cargo. -/
def cargo (stage : Stage) (subcommand : String) : Assembly Stage :=
  stage.push (Recipe.cargo subcommand)

/-- The stage that installs a pinned toolchain. -/
def rustToolchain (stage : Stage) (version : String) : Assembly Stage :=
  stage.pushAll (Recipe.rustToolchain version)

end Stage

/-! ## Artifacts -/

/-- A path inside a stage, which other stages can copy. -/
structure Artifact where
  source : Stage
  path : String

/-- A path inside the file system of a stage. -/
def Stage.saveArtifact (stage : Stage) (path : String) : Artifact := ⟨stage, path⟩

/-- Whether a stage is linked to the very stage of an artifact. -/
def Stage.isLinkedTo (stage source : Stage) : Bool :=
  stage.dependencies.toList.any fun dependency =>
    dependency.sameDefinition source && dependency.sharesDependencies source

/-- The stage with an artifact copied into it.  The artifact's stage becomes a dependency unless
that very stage is one already; a different stage under a name that is linked already is still
linked, so that solving reports it. -/
def Stage.copyArtifact (stage : Stage) (artifact : Artifact) (destination : String)
    (ownership : Option Ownership) : Assembly Stage := do
  let dependencies ←
    if stage.isLinkedTo artifact.source then pure stage.dependencies
    else do
      let mark ← Workbench.drawMark
      pure (stage.dependencies.push mark artifact.source)
  let mark ← Workbench.drawMark
  return { stage with
    dependencies := dependencies
    layers := stage.layers.push mark
      (.copy artifact.path destination ownership (some artifact.source.name)) }

end StageManifest
