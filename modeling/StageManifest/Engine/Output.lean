import StageManifest.Text.Lines

/-!
# Output of a failed build

A message about a failed build shows the last lines of what the engine wrote.
-/

set_option autoImplicit false

namespace StageManifest

/-- How many lines of output a message shows at most. -/
def shownLines : Nat := 50

/-- The last lines of an engine's two outputs, those of the second after those of the first. -/
def outputTail (standardOutput errorOutput : String) : String :=
  let all := Text.lines standardOutput ++ Text.lines errorOutput
  Text.joinLines (all.drop (all.length - shownLines))

/-- The last of the lines that were collected from an engine. -/
def collectedTail (collected : List String) : String :=
  outputTail (Text.joinLines collected) ""

end StageManifest
