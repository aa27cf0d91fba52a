import StageManifest.Host.Basic
import StageManifest.Host.Files

/-!
# Hosts as values

A machine is a host whose state is a value: a tree of files, the programs that
are installed, and records of what was run and written.  An installed program
answers every call alike; a call that only asks for its version is not recorded.
-/

set_option autoImplicit false

namespace StageManifest

/-- How a program behaves when it is run. -/
structure InstalledProgram where
  output : List UInt8 := []
  status : Nat := 0
  versionStatus : Nat := 0
deriving DecidableEq, Repr

/-- A run of a program. -/
structure ProgramUse where
  call : ProgramCall
  manifest : Option (List UInt8)
deriving DecidableEq, Repr

/-- A host as a value. -/
structure Machine where
  files : FileTree
  here : Location
  home : Location
  programs : List (String × InstalledProgram) := []
  uses : List ProgramUse := []
  printed : List String := []
  reported : List String := []

namespace Machine

/-- The argument that asks a program for its version. -/
def versionFlag : String := "--version"

/-- The argument after which the file of a manifest is named. -/
def manifestFlag : String := "-f"

/-- The argument that follows another one. -/
def argumentAfter? (flag : String) : List String → Option String
  | [] => none
  | [_] => none
  | first :: second :: rest =>
      if first = flag then some second else argumentAfter? flag (second :: rest)

/-- The content of the file at a path. -/
def content? (machine : Machine) (path : HostPath) : Option (List UInt8) :=
  match machine.files.find? machine.here path with
  | some (.file content) => some content
  | _ => none

/-- The most bytes of an argument. -/
def argumentLimit : Nat := 131071

/-- Whether arguments can be handed to a program: none of them is longer than the limit or holds a
zero character, which would end it. -/
def canPass (arguments : List String) : Bool :=
  arguments.all fun argument =>
    argument.utf8ByteSize ≤ argumentLimit && !argument.toList.contains '\x00'

/-- Runs a program. -/
def runProgram (call : ProgramCall) : StateM Machine (Except ProgramFault ProgramResult) := do
  let machine ← get
  if !canPass call.arguments then return .error .unusable
  match machine.programs.lookup call.program with
  | none => return .error .missing
  | some program =>
      if call.arguments = [versionFlag] then
        return .ok (.mk [] [] (program.versionStatus == 0) [])
      else
        let manifest := (argumentAfter? manifestFlag call.arguments).bind fun file =>
          machine.content? (.ofText file)
        set { machine with uses := machine.uses ++ [ProgramUse.mk call manifest] }
        return .ok (.mk program.output [] (program.status == 0) [])

/-- The name of the directory that a build uses and removes again. -/
def scratchName : String := "scratch"

/-- A machine as a host. -/
def host : Host (StateM Machine) where
  workingDirectory := return (← get).here.path
  homeDirectory := return (← get).home.path
  kindAt path := do
    let machine ← get
    return (machine.files.find? machine.here path).map fun
      | .directory => .directory
      | .file _ => .file
  readText path := return ((← get).content? path).bind Text.decode?
  writeText path text := do
    let machine ← get
    match machine.files.write? machine.here path (Text.encode text) with
    | none => return false
    | some files =>
        set { machine with files := files }
        return true
  makeDirectories path := do
    let machine ← get
    let (files, made) := machine.files.makeDirectories machine.here path
    set { machine with files := files }
    return made
  removeDirectory path := modify fun machine =>
    { machine with files := machine.files.removeAt machine.here path }
  freshName := return scratchName
  run := runProgram
  print line := modify fun machine => { machine with printed := machine.printed ++ [line] }
  report line := modify fun machine => { machine with reported := machine.reported ++ [line] }
  note _ _ := return ()

end Machine

end StageManifest
