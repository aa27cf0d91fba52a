import StageManifest.CommandLine.Grammar

/-!
# Reading command lines

Arguments are read from left to right, and the arguments after the name of a
command belong to that command.  A value is checked when the next argument of
its command has been recognised, so a later argument that nobody knows is
reported first.  After `--` every argument is positional.
-/

set_option autoImplicit false

namespace StageManifest.CommandLine

/-- An argument that was begun and is not yet noted. -/
inductive Pending where
  | nothing
  | awaiting (name : String) (kind : ValueKind)
  | holding (name : String) (kind : ValueKind) (text : String)
deriving DecidableEq, Repr

/-- How far the arguments of one command have been read. -/
structure Progression where
  given : Given := []
  pending : Pending := .nothing
  position : Nat := 0
  escaped : Bool := false
deriving DecidableEq, Repr

namespace Progression

/-- Notes a value, which must be the first under its name. -/
def note (state : Progression) (name : String) (kind : ValueKind) (text : String) :
    Except Halt Progression :=
  if state.given.has name then .error .conflict
  else if kind.admits text then .ok { state with given := state.given ++ [(name, text)] }
  else .error .invalidValue

/-- Notes the argument that was begun. -/
def settle (state : Progression) : Except Halt Progression :=
  match state.pending with
  | .nothing => .ok state
  | .awaiting _ _ => .error .invalidValue
  | .holding name kind text => { state with pending := .nothing }.note name kind text

/-- Takes an option that needs no value; `path` is the full name of the command. -/
def take (state : Progression) (path name : String) (effect : OptionEffect) :
    Except Halt Progression := do
  let settled ← state.settle
  match effect with
  | .switch => settled.note name .text ""
  | .count => return { settled with given := settled.given ++ [(name, "")] }
  | .value kind => return { settled with pending := .awaiting name kind }
  | .help => throw .help
  | .version => throw (.version path)

/-- Takes an option together with its value. -/
def attach (state : Progression) (name : String) (kind : ValueKind) (text : List Char) :
    Except Halt Progression := do
  (← state.settle).note name kind (String.ofList text)

/-- Whether an option waits for its value. -/
def isAwaiting (state : Progression) : Bool :=
  match state.pending with
  | .awaiting _ _ => true
  | _ => false

end Progression

namespace Command

variable {α : Type}

/-! ## Single arguments -/

/-- Reads what stands after two dashes. -/
def readLong (command : Command α) (path : String) (text : List Char) (state : Progression) :
    Except Halt Progression :=
  let (name, value?) :=
    match Text.cutFirst ['='] text with
    | some (name, value) => (name, some value)
    | none => (text, none)
  match command.optionNamed? (String.ofList name) with
  | none => .error .unknownArgument
  | some option =>
      match option.effect, value? with
      | .value kind, some value => state.attach option.name kind value
      | _, some _ => .error .unwantedValue
      | effect, none => state.take path option.name effect

/-- Reads the letters after one dash.  The first letter of an option that takes a value is followed
by that value, before which an equals sign is dropped. -/
def readLetters (command : Command α) (path : String) :
    List Char → Progression → Except Halt Progression
  | [], state => .ok state
  | letter :: rest, state =>
      match command.optionLettered? letter with
      | none => .error .unknownArgument
      | some option =>
          match option.effect, rest with
          | .value kind, '=' :: value => state.attach option.name kind value
          | .value kind, first :: value => state.attach option.name kind (first :: value)
          | effect, _ => do
              let taken ← state.take path option.name effect
              readLetters command path rest taken

/-- Reads a positional argument. -/
def readPositional (command : Command α) (text : String) (state : Progression) :
    Except Halt Progression :=
  match command.positionals[state.position]? with
  | some positional => do
      let settled ← state.settle
      return { settled with
        pending := .holding positional.name positional.kind text
        position := settled.position + 1 }
  | none =>
      if state.escaped && command.namesCommand text then .error .unknownArgument
      else if command.hasCommands then .error .unknownCommand
      else .error .unknownArgument

/-- Reads an argument that names no command. -/
def readArgument (command : Command α) (path text : String) (state : Progression) :
    Except Halt Progression :=
  if state.escaped then command.readPositional text state
  else
    match text.toList with
    | ['-', '-'] => .ok { state with escaped := true }
    | '-' :: '-' :: name => command.readLong path name state
    | '-' :: letter :: letters => command.readLetters path (letter :: letters) state
    | _ =>
        match state.pending with
        | .awaiting name kind => .ok { state with pending := .holding name kind text }
        | _ => command.readPositional text state

/-! ## Whole command lines -/

/-- Checks the values that the environment gives to options which the command line leaves out, and
says whether there are any. -/
def readEnvironment (command : Command α) (environment : Environment) (given : Given) :
    Except Halt Bool :=
  command.options.foldlM
    (fun any option =>
      match option.effect, option.variableName.bind fun name => environment.lookup name with
      | .value kind, some text =>
          if given.has option.name then .ok any
          else if kind.admits text then .ok true
          else .error .invalidValue
      | _, _ => .ok any)
    false

/-- Ends a command that another one follows. -/
def close (command : Command α) (environment : Environment) (state : Progression) :
    Except Halt Given := do
  let settled ← state.settle
  let _ ← command.readEnvironment environment settled.given
  return settled.given

/-- Ends a command that none follows. -/
def complete (command : Command α) (environment : Environment) (state : Progression) :
    Except Halt (Given × α) := do
  let settled ← state.settle
  let any ← command.readEnvironment environment settled.given
  match command.meaning with
  | none =>
      if settled.given.isEmpty && !any then throw .nothingGiven else throw .missingCommand
  | some meaning =>
      match meaning settled.given with
      | some result => return (settled.given, result)
      | none => throw .missingArgument

/-- What happens when help is asked for on the command with the given names. -/
def helpOn : Command α → List String → Halt
  | _, [] => .help
  | command, name :: rest =>
      match command.command? name with
      | some below => below.helpOn rest
      | none =>
          if command.hasCommands && name == helpName && rest.isEmpty then .help
          else .unknownCommand

/-- Reads the arguments of a command.  The result is what was given to each command, the outermost
first, and what the innermost one asks for. -/
def readFrom (environment : Environment) : (command : Command α) → (path : String) →
    (arguments : List String) → Progression → Except Halt (List Given × α)
  | command, _, [], state => do
      let (given, result) ← command.complete environment state
      return ([given], result)
  | command, path, argument :: rest, state =>
      if !state.escaped && !state.isAwaiting && command.namesCommand argument then
        match command.command? argument with
        | none => .error (command.helpOn rest)
        | some below => do
            let (levels, result) ←
              readFrom environment below (path ++ "-" ++ below.name) rest {}
            let given ← command.close environment state
            return (given :: levels, result)
      else do
        let next ← command.readArgument path argument state
        readFrom environment command path rest next

/-- Reads a command line without the name of the program. -/
def read (command : Command α) (environment : Environment) (arguments : List String) :
    Except Halt (List Given × α) :=
  readFrom environment command command.name arguments {}

end Command

end StageManifest.CommandLine
