import StageManifest.Text.Blank
import StageManifest.Text.Digits
import StageManifest.Text.Lines

/-!
# Progress of a build

A build engine announces each step by a line that holds a vertex, the stage with
the number of the step and the number of steps, and the instruction:
`#7 [stage-1 2/5] RUN make`.  Such lines are read and shown; other lines are
either bookkeeping of the engine or output of the commands that it runs.
-/

set_option autoImplicit false

namespace StageManifest

/-- A step that an engine has begun. -/
structure StepLine where
  stage : String
  index : Nat
  total : Nat
  instruction : String
deriving DecidableEq, Repr

namespace StepLine

/-- The numbers of steps are below this. -/
def limit : Nat := 18446744073709551616

/-- The step that a line announces. -/
def ofLine? (line : List Char) : Option StepLine := do
  let afterMark ← Text.afterStart? ['#'] line
  let (_, afterVertex) ← Text.cutFirst [' '] afterMark
  let header ← Text.afterStart? ['['] afterVertex
  let (place, instruction) ← Text.cutFirst [']', ' '] header
  let (stage, counts) ← Text.cutLast ' ' place
  let (index, total) ← Text.cutFirst ['/'] counts
  let index ← Text.decimalBelow? limit index
  let total ← Text.decimalBelow? limit total
  return ⟨String.ofList stage, index, total, String.ofList (Text.trim instruction)⟩

/-- The line that shows a step. -/
def text (step : StepLine) : String :=
  "  [" ++ step.stage ++ " " ++ Nat.repr step.index ++ "/" ++ Nat.repr step.total ++ "] " ++
    step.instruction

end StepLine

/-- The words that lines of bookkeeping have after their vertex. -/
def bookkeepingWords : List String :=
  ["DONE", "CACHED", "sha256:", "[internal]", "transferring"]

/-- Whether a line is bookkeeping of the engine. -/
def isBookkeeping (line : List Char) : Bool :=
  match Text.afterStart? ['#'] line with
  | none => false
  | some rest =>
      match Text.cutFirst [' '] rest with
      | none => false
      | some (_, body) => bookkeepingWords.any fun word => word.toList.isPrefixOf body

/-- The most characters of a line that are shown beside a progress bar. -/
def messageLimit : Nat := 60

/-- A line cut to the limit, with dots where it was cut. -/
def shortMessage (line : String) : String :=
  if line.length > messageLimit then
    String.ofList (line.toList.take (messageLimit - 3)) ++ "..."
  else line

/-! ## What is shown without a terminal -/

/-- The line that begins a build. -/
def buildingLine (label : String) : String := "Building " ++ label ++ "..."

/-- What is shown for a line of the engine. -/
def shownLine? (line : String) : Option String :=
  (StepLine.ofLine? line.toList).map StepLine.text

/-- The line that begins a task. -/
def startedLine (label : String) : String := "... " ++ label

/-- The line that ends a task well. -/
def finishedLine (label : String) : String := "[OK] " ++ label

/-- The line that ends a task badly. -/
def failedLine (label : String) : String := "[FAIL] " ++ label

/-- A success. -/
def successNote (message : String) : String := "  [OK] " ++ message

/-- A success with a detail. -/
def detailedNote (message detail : String) : String :=
  "  [OK] " ++ message ++ " (" ++ detail ++ ")"

/-- A warning with a hint. -/
def warningNote (message hint : String) : String :=
  "  [WARN] " ++ message ++ " - " ++ hint

/-- Something worth knowing. -/
def informationNote (message : String) : String := "  [INFO] " ++ message

end StageManifest
