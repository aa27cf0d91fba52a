import StageManifest.Host.Basic
import StageManifest.Text.Lines
import StageManifest.Text.Utf8

/-!
# The two outputs of an engine

An engine writes lines on its standard output and on its error output.  They are
read as they come: whenever the next line or the end of one of them is ready, it
is taken, and a line is told at once, until the ends of both have been seen.
Which one is ready first is not known, so the order of the two is a parameter.
-/

set_option autoImplicit false

namespace StageManifest

/-! ## Lines of bytes -/

/-- A piece between line feeds without the carriage return that ends it, if there is one. -/
def dropReturnByte (line : List UInt8) : List UInt8 :=
  if line.getLast? = some 0x0D then line.dropLast else line

/-- The lines made of the pieces between line feeds, up to the first that is not UTF-8. -/
def decodePieces : List (List UInt8) → List String
  | [] => []
  | [last] =>
      if last.isEmpty then [] else (Text.decode? last).toList
  | piece :: next :: rest =>
      match Text.decode? (dropReturnByte piece) with
      | some line => line :: decodePieces (next :: rest)
      | none => []

/-- The lines of an output, up to the first that is not UTF-8. -/
def outputLines (bytes : List UInt8) : List String :=
  decodePieces (bytes.splitOn 0x0A)

/-! ## Reading two outputs -/

/-- A side, and the line that was read there, or nothing if it was at its end. -/
abbrev Reading := OutputSide × Option String

/-- Tells the line that was read, if there was one. -/
def tellRead {m : Type → Type} [Monad m] (tell : String → m Unit) : Reading → m Unit
  | (_, some line) => tell line
  | (_, none) => return ()

/-- The lines that are still to come on each side; there are none once the end has been seen. -/
structure OutputReaders where
  errors : Option (List String)
  output : Option (List String)
deriving DecidableEq, Repr

namespace OutputReaders

/-- The side that is read next, if one of the two is ready first. -/
def next? (readers : OutputReaders) : (ready : OutputSide) → Option OutputSide
  | .errors =>
      if readers.errors.isSome then some .errors
      else if readers.output.isSome then some .output else none
  | .output =>
      if readers.output.isSome then some .output
      else if readers.errors.isSome then some .errors else none

/-- The lines of one side after a reading, and the line that was read unless it was the end. -/
def readSide : Option (List String) → Option String × Option (List String)
  | some (line :: rest) => (some line, some rest)
  | _ => (none, none)

/-- Reads one side. -/
def read (readers : OutputReaders) : OutputSide → Option String × OutputReaders
  | .errors =>
      let (line, rest) := readSide readers.errors
      (line, { readers with errors := rest })
  | .output =>
      let (line, rest) := readSide readers.output
      (line, { readers with output := rest })

/-- How many readings of one side are left. -/
def sideWeight : Option (List String) → Nat
  | none => 0
  | some lines => lines.length + 1

/-- How many readings are left. -/
def weight (readers : OutputReaders) : Nat :=
  sideWeight readers.errors + sideWeight readers.output

/-- A reading of a side that has not ended leaves fewer readings. -/
theorem sideWeight_readSide_lt {side : Option (List String)} (h : side.isSome) :
    sideWeight (readSide side).2 < sideWeight side := by
  match side, h with
  | some [], _ => simp [readSide, sideWeight]
  | some (_ :: _), _ => simp [readSide, sideWeight]

/-- A reading of the side that is read next leaves fewer readings. -/
theorem weight_read_lt {readers : OutputReaders} {ready side : OutputSide}
    (h : readers.next? ready = some side) : (readers.read side).2.weight < readers.weight := by
  have hopen : (side = .errors ∧ readers.errors.isSome) ∨
      (side = .output ∧ readers.output.isSome) := by
    cases ready <;> simp only [next?] at h <;> grind
  rcases hopen with ⟨rfl, hs⟩ | ⟨rfl, hs⟩
  · have := sideWeight_readSide_lt hs
    simp only [read, weight]
    omega
  · have := sideWeight_readSide_lt hs
    simp only [read, weight]
    omega

/-- Reads both sides to their ends and answers with the lines that were collected before and those
that are read.  Each reading is observed as it is made, whether it gives a line or the end.  The
schedule says which side is ready first at each reading; after its end the error output is. -/
def relay {m : Type → Type} [Monad m] (observe : Reading → m Unit) (schedule : List OutputSide)
    (readers : OutputReaders) (collected : List String) : m (List String) :=
  match _next : readers.next? (schedule.headD .errors) with
  | none => return collected
  | some side => do
      observe (side, (readers.read side).1)
      relay observe schedule.tail (readers.read side).2 (collected ++ (readers.read side).1.toList)
termination_by readers.weight
decreasing_by exact weight_read_lt _next

end OutputReaders

/-- The two outputs of a program, from their starts. -/
def ProgramResult.readers (result : ProgramResult) : OutputReaders :=
  ⟨some (outputLines result.errors), some (outputLines result.output)⟩

end StageManifest
