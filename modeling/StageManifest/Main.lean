import StageManifest.Action.Perform

/-!
# The program on a real machine

The files, the environment and the two outputs of the machine as a host.  This
layer starts no other programs, so on this host no engine answers, and the
actions that need none are complete.
-/

set_option autoImplicit false

namespace StageManifest.RealHost

/-- What a piece of work yields, unless it fails. -/
def attempt {α : Type} (work : IO α) : IO (Option α) :=
  try
    let result ← work
    return some result
  catch _ => return none

/-- Whether a piece of work succeeds. -/
def succeeds (work : IO Unit) : IO Bool :=
  return (← attempt work).isSome

/-- What is at a path. -/
def kindAt (path : HostPath) : IO (Option EntryKind) := do
  let found ← attempt do
    let place ← IO.FS.realPath path.display
    return (← place.metadata).type
  return found.map fun
    | .dir => .directory
    | _ => .file

/-- The text of a file. -/
def readText (path : HostPath) : IO (Option String) := do
  let content ← attempt (IO.FS.readBinFile path.display)
  return content.bind fun bytes => Text.decode? bytes.toList

/-- Sixteen random bytes as a name. -/
def freshName : IO String :=
  return groupedIdentifier (← IO.getRandomBytes 16).toList

/-- The machine that this program runs on. -/
def host : Host IO where
  workingDirectory := return .ofText (← IO.currentDir).toString
  homeDirectory := return .ofText ((← IO.getEnv "HOME").getD ".")
  kindAt := kindAt
  readText := readText
  writeText path text := succeeds (IO.FS.writeFile path.display text)
  makeDirectories path := succeeds (IO.FS.createDirAll path.display)
  removeDirectory path := do
    let _ ← attempt (IO.FS.removeDirAll path.display)
    return ()
  freshName := freshName
  run _ := return .error .missing
  print line := IO.println line
  report line := IO.eprintln line
  note _ _ := return ()

/-- The variables of the environment that options may be taken from. -/
def environment : IO CommandLine.Environment := do
  let value ← IO.getEnv Invocation.configVariable
  return (value.map fun text => (Invocation.configVariable, text)).toList

end StageManifest.RealHost

/-- Runs the program. -/
def main (arguments : List String) : IO UInt32 := do
  let code ← StageManifest.RealHost.host.runProgram (← StageManifest.RealHost.environment) arguments
  return UInt32.ofNat code
