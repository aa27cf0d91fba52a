import StageManifest.HostPath
import StageManifest.Text.Digits

/-!
# The host

The host is the machine on which the program runs: its files, the programs that
can be run on it, and the two texts that the user sees.  The program uses it
through this interface in the effects of some monad.
-/

set_option autoImplicit false

namespace StageManifest

/-- What can be found at a path. -/
inductive EntryKind where
  | file
  | directory
deriving DecidableEq, Repr

/-- How important something is that is told on the way. -/
inductive NoteLevel where
  | information
  | detail
deriving DecidableEq, Repr

namespace NoteLevel

/-- The verbosity from which notes of a level are told. -/
def threshold : NoteLevel → Nat
  | .information => 1
  | .detail => 2

/-- The word for a level at the start of a line, five characters wide. -/
def label : NoteLevel → String
  | .information => " INFO"
  | .detail => "DEBUG"

/-- A character of a note.  Characters that a terminal would obey are written as escapes. -/
def noteCharacter (character : Char) : List Char :=
  let code := character.toNat
  if code = 0x07 || code = 0x08 || code = 0x0C || code = 0x1B || code = 0x7F then
    "\\x".toList ++ Text.hexDigits 2 code
  else if 0x80 ≤ code && code ≤ 0x9F then
    "\\u\x7b".toList ++ Text.hexDigits 2 code ++ ['}']
  else [character]

/-- The line that tells a note. -/
def line (level : NoteLevel) (message : String) : String :=
  level.label ++ " " ++ String.ofList (message.toList.flatMap noteCharacter)

end NoteLevel

/-! ## Programs -/

/-- A program with what it is given. -/
structure ProgramCall where
  program : String
  arguments : List String
  environment : List (String × String) := []
deriving DecidableEq, Repr

/-- One of the two outputs of a program. -/
inductive OutputSide where
  | errors
  | output
deriving DecidableEq, Repr

/-- What a program did. -/
structure ProgramResult where
  output : List UInt8
  errors : List UInt8
  succeeded : Bool
  /-- Which of the outputs is ready first, each time that one of them is read; the error output is
  after the end of the list. -/
  readiness : List OutputSide := []
deriving DecidableEq, Repr

/-- Why a program did not run. -/
inductive ProgramFault where
  | missing
  | unusable
deriving DecidableEq, Repr

/-! ## The interface -/

/-- A host, in the effects of a monad. -/
structure Host (m : Type → Type) where
  workingDirectory : m HostPath
  homeDirectory : m HostPath
  kindAt : HostPath → m (Option EntryKind)
  /-- The text of a file; there is none if the file cannot be read or is not UTF-8. -/
  readText : HostPath → m (Option String)
  writeText : HostPath → String → m Bool
  /-- Makes a directory and the directories above it and answers whether it is there. -/
  makeDirectories : HostPath → m Bool
  removeDirectory : HostPath → m Unit
  freshName : m String
  run : ProgramCall → m (Except ProgramFault ProgramResult)
  print : String → m Unit
  report : String → m Unit
  note : NoteLevel → String → m Unit

namespace Host

variable {m : Type → Type}

/-- The host with notes told as lines, as far as a verbosity asks for them. -/
def withVerbosity [Monad m] (host : Host m) (verbosity : Nat) : Host m :=
  { host with
    note := fun level message =>
      if level.threshold ≤ verbosity then host.report (level.line message) else pure () }

/-- Whether there is a file at a path. -/
def isFile [Monad m] (host : Host m) (path : HostPath) : m Bool :=
  return (← host.kindAt path) == some .file

/-- Whether there is anything at a path. -/
def hasEntry [Monad m] (host : Host m) (path : HostPath) : m Bool :=
  return (← host.kindAt path).isSome

end Host

end StageManifest
