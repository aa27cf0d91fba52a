import StageManifest.Text.Lines

/-!
# Grammars of command lines

A command has options, positional arguments and commands below it.  An option
is written with its long name or its letter; some options take a value.  What a
complete command asks for is a function of what was given to it, so a grammar
says both what may be written and what it means.
-/

set_option autoImplicit false

namespace StageManifest.CommandLine

/-- What a value may be. -/
inductive ValueKind where
  | text
  | path
  | word (allowed : List String)
deriving DecidableEq, Repr

/-- Whether a text is a value of a kind. -/
def ValueKind.admits : ValueKind → String → Bool
  | .text, _ => true
  | .path, written => written ≠ ""
  | .word allowed, written => allowed.contains written

/-- What an option does. -/
inductive OptionEffect where
  | switch
  | count
  | value (kind : ValueKind)
  | help
  | version
deriving DecidableEq, Repr

/-- An option. -/
structure OptionRule where
  /-- The long name, which is also the name under which the option is found. -/
  name : String
  letter : Option Char := none
  effect : OptionEffect
  /-- The environment variable that gives the value if the command line does not. -/
  variableName : Option String := none
deriving DecidableEq, Repr

/-- A positional argument. -/
structure PositionalRule where
  name : String
  kind : ValueKind
deriving DecidableEq, Repr

/-! ## What was given -/

/-- The variables of the environment, with their values. -/
abbrev Environment := List (String × String)

/-- The arguments that were given to a command, by name and in order.  A switch is given with an
empty text, and an option that counts is there once for every time it was written. -/
abbrev Given := List (String × String)

namespace Given

/-- The value that was given under a name. -/
def value? (given : Given) (name : String) : Option String := given.lookup name

/-- Whether anything was given under a name. -/
def has (given : Given) (name : String) : Bool := (given.value? name).isSome

/-- How often something was given under a name. -/
def count (given : Given) (name : String) : Nat := given.countP fun argument => argument.1 == name

end Given

/-- A command and what it may be given. -/
inductive Command (α : Type) where
  /-- A command.  `meaning` is absent if a command below it has to follow; it has no result if an
  argument that the command needs is missing. -/
  | mk (name : String) (options : List OptionRule) (positionals : List PositionalRule)
      (meaning : Option (Given → Option α)) (commands : List (Command α))

namespace Command

variable {α : Type}

/-- The name of the command. -/
def name : Command α → String
  | .mk name _ _ _ _ => name

/-- The options of the command. -/
def options : Command α → List OptionRule
  | .mk _ options _ _ _ => options

/-- The positional arguments of the command. -/
def positionals : Command α → List PositionalRule
  | .mk _ _ positionals _ _ => positionals

/-- What the command asks for if no command follows it. -/
def meaning : Command α → Option (Given → Option α)
  | .mk _ _ _ meaning _ => meaning

/-- The commands below the command. -/
def commands : Command α → List (Command α)
  | .mk _ _ _ _ commands => commands

/-- The command with a name below a command. -/
def command? (command : Command α) (name : String) : Option (Command α) :=
  command.commands.find? fun below => below.name == name

/-- Whether commands follow a command. -/
def hasCommands (command : Command α) : Bool := !command.commands.isEmpty

/-- The command that shows help on the commands beside it. -/
def helpName : String := "help"

/-- Whether a word names a command below a command. -/
def namesCommand (command : Command α) (word : String) : Bool :=
  command.hasCommands && (word == helpName || (command.command? word).isSome)

/-- The option with a long name. -/
def optionNamed? (command : Command α) (name : String) : Option OptionRule :=
  command.options.find? fun option => option.name == name

/-- The option with a letter. -/
def optionLettered? (command : Command α) (letter : Char) : Option OptionRule :=
  command.options.find? fun option => option.letter == some letter

end Command

/-! ## Why there is nothing to do -/

/-- Why a command line asks for nothing that could be done. -/
inductive Halt where
  | unknownArgument
  | invalidValue
  | missingArgument
  | conflict
  | unknownCommand
  | missingCommand
  | unwantedValue
  | help
  /-- The version was asked for, of a command with the given full name. -/
  | version (command : String)
  | nothingGiven
deriving DecidableEq, Repr

namespace Halt

/-- Whether what was asked for was shown. -/
def isAnswer : Halt → Bool
  | .help | .version _ => true
  | _ => false

/-- The exit code of the program. -/
def exitCode (halt : Halt) : Nat := if halt.isAnswer then 0 else 2

end Halt

end StageManifest.CommandLine
