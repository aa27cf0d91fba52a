import StageManifest.Stage.Basic

/-!
# Jobs at the workbench

A stage is made on an image or on another stage and grows from there.  A growth
appends instructions, copies an artifact or sets the tag; which instructions it
appends is settled before the stage is known (`Growth.instructions`).
-/

set_option autoImplicit false

namespace StageManifest

/-- One way in which a stage grows. -/
inductive Growth where
  | push (instruction : Instruction)
  | pushAll (instructions : List Instruction)
  | run (command : String) (mounts : List CacheMount)
  | cmd (command : CommandForm)
  | entrypoint (command : CommandForm)
  | volume (paths : CommandForm)
  | label (pairs : List (String × String))
  | env (pairs : List (String × String))
  | expose (port : UInt16)
  | copy (source destination : String) (ownership : Option Ownership)
  | workdir (path : String)
  | user (name : String) (group : Option String)
  | arg (name : String) (default : Option String)
  | shell (words : List String)
  | aptInstall (packages : List String)
  | cargo (subcommand : String)
  | rustToolchain (version : String)
  | tag (name : String)
  | copyArtifact (artifact : Artifact) (destination : String) (ownership : Option Ownership)

namespace Growth

/-- The instructions that a growth appends. -/
def instructions : Growth → List Instruction
  | .push instruction => [instruction]
  | .pushAll instructions => instructions
  | .run command mounts => [.run command mounts]
  | .cmd command => [.cmd command]
  | .entrypoint command => [.entrypoint command]
  | .volume paths => [.volume paths]
  | .label pairs => [.labelOf pairs]
  | .env pairs => [.envOf pairs]
  | .expose port => [.expose port]
  | .copy source destination ownership => [.copy source destination ownership none]
  | .workdir path => [.workdir path]
  | .user name group => [.user name group]
  | .arg name value => [.arg name value]
  | .shell words => [.shell words]
  | .aptInstall packages => [Recipe.aptInstall packages]
  | .cargo subcommand => [Recipe.cargo subcommand]
  | .rustToolchain version => Recipe.rustToolchain version
  | .tag _ => []
  | .copyArtifact artifact destination ownership =>
      [.copy artifact.path destination ownership (some artifact.source.name)]

/-- The stage after a growth. -/
def apply (growth : Growth) (stage : Stage) : Assembly Stage :=
  match growth with
  | .tag name => return stage.withTag name
  | .copyArtifact artifact destination ownership =>
      stage.copyArtifact artifact destination ownership
  | growth => stage.pushAll growth.instructions

end Growth

/-- One job at the workbench, which makes one stage. -/
inductive StageJob where
  | onImage (reference : String)
  | onStage (parent : Stage)
  | grow (stage : Stage) (growth : Growth)

/-- The stage that a job makes. -/
def StageJob.perform : StageJob → Assembly Stage
  | .onImage reference => Stage.fromImage reference
  | .onStage parent => Stage.fromStage parent
  | .grow stage growth => growth.apply stage

end StageManifest
