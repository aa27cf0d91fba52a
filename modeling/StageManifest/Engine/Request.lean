import StageManifest.HostPath

/-!
# Requests to a build engine

A build engine is a program that reads a manifest.  A request says what to do
with the manifest; its command line is the leading arguments of the engine
followed by the options that are set, in a fixed order.
-/

set_option autoImplicit false

namespace StageManifest

/-- The programs that can build a manifest. -/
inductive EngineKind where
  | docker
  | depot (project : String)
deriving DecidableEq, Repr

namespace EngineKind

/-- The program to run. -/
def program : EngineKind → String
  | .docker => "docker"
  | .depot _ => "depot"

/-- The arguments that every build begins with. -/
def leadingArguments : EngineKind → List String
  | .docker => ["buildx", "build"]
  | .depot project => ["build", "--suppress-no-output-warning", "--project", project]

/-- The name shown to the user. -/
def display : EngineKind → String
  | .docker => "docker"
  | .depot project => "depot (" ++ project ++ ")"

end EngineKind

/-- The file name under which a manifest is kept. -/
def manifestFile : String := "Dockerfile"

/-- What to do with a manifest. -/
structure BuildRequest where
  manifestPath : HostPath := .ofText manifestFile
  context : HostPath
  tag : Option String := none
  quiet : Bool := false
  /-- The directory that the result is written to, in place of an image. -/
  output : Option HostPath := none
  push : Bool := false
deriving DecidableEq, Repr

namespace BuildRequest

/-- The name of the build in messages. -/
def label (request : BuildRequest) : String :=
  request.tag.getD "untagged build"

/-- The arguments of the engine's program. -/
def arguments (request : BuildRequest) (kind : EngineKind) : List String :=
  kind.leadingArguments ++
    (if request.quiet then ["--quiet"] else []) ++
    (match request.tag with
      | some tag => ["-t", tag]
      | none => []) ++
    (match request.output with
      | some directory => ["--output", "type=local,dest=" ++ directory.display]
      | none => []) ++
    (if request.push then ["--push"] else []) ++
    ["-f", request.manifestPath.display, request.context.display]

end BuildRequest

end StageManifest
