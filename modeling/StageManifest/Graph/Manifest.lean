import StageManifest.Graph.Discovery

/-!
# Manifests

The manifest of a root is a header that names the frontend, followed by the text
of every stage that the root needs, each after the stages it depends on.  An
empty line stands between two of these blocks.
-/

set_option autoImplicit false

namespace StageManifest.Manifest

/-- The frontend that reads a manifest if no other is asked for. -/
def defaultFrontend : String := "docker/dockerfile:1.4"

/-- The first line of a manifest. -/
def header (frontend : String) : String := "#syntax=" ++ frontend

/-- The manifest made of the given stages in their order. -/
def ofStages (frontend : String) (stages : List Stage) : String :=
  "\n\n".intercalate (header frontend :: stages.map Stage.text)

/-- The manifest of a root. -/
def solve (frontend : String) (root : Stage) : Except GraphError String :=
  match StageGraph.discover root with
  | .error failure => .error failure
  | .ok graph =>
      match graph.ordered with
      | .error failure => .error failure
      | .ok stages => .ok (ofStages frontend stages)

end StageManifest.Manifest
