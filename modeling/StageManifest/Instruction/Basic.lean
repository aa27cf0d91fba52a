import StageManifest.Entries
import StageManifest.Instruction.CacheMount
import StageManifest.Text.Json
import StageManifest.Text.Lines

/-!
# Build instructions

The closed set of instructions that a stage of a manifest is made of, and the
text of each.  An instruction is one line, except that an environment
instruction has one line for each variable.  Nothing is validated here: values
are written as they are given.

Variables and labels are kept as sorted entries, so their text does not depend
on the order in which they were given.
-/

set_option autoImplicit false

namespace StageManifest

/-- The owner given to copied files. -/
structure Ownership where
  user : String
  group : String
deriving DecidableEq, Repr

/-- The two ways to write a command. -/
inductive CommandForm where
  | shell (line : String)
  | exec (words : List String)
deriving DecidableEq, Repr

/-- The text of a command: the line itself, or the words as a JSON array. -/
def CommandForm.text : CommandForm → String
  | .shell line => line
  | .exec words => Text.jsonArray words

/-- One instruction of a stage. -/
inductive Instruction where
  | run (command : String) (mounts : List CacheMount)
  /-- Copies files from the build context or from another stage. -/
  | copy (source destination : String) (ownership : Option Ownership) (stage : Option String)
  | env (assignments : Entries String)
  | expose (port : UInt16)
  | workdir (path : String)
  | cmd (command : CommandForm)
  | entrypoint (command : CommandForm)
  | label (labels : Entries String)
  | volume (paths : CommandForm)
  | user (name : String) (group : Option String)
  | arg (name : String) (default : Option String)
  | shell (words : List String)
deriving DecidableEq

namespace Instruction

/-- An instruction that sets the given variables; of two with one name the later wins. -/
def envOf (pairs : List (String × String)) : Instruction :=
  .env (Entries.ofList pairs)

/-- An instruction that attaches the given labels; of two with one key the later wins. -/
def labelOf (pairs : List (String × String)) : Instruction :=
  .label (Entries.ofList pairs)

/-- The flag that mounts a cache. -/
def mountFlag (mount : CacheMount) : String :=
  "--mount=" ++ mount.text

/-- The words of a copy instruction. -/
def copyWords (source destination : String) (ownership : Option Ownership)
    (stage : Option String) : List String :=
  ["COPY"] ++
    (ownership.map fun owner => "--chown=" ++ owner.user ++ ":" ++ owner.group).toList ++
    (stage.map fun name => "--from=" ++ name).toList ++
    [source, destination]

/-- The text of an instruction, without a line feed after it. -/
def text : Instruction → String
  | .run command [] => "RUN " ++ command
  | .run command mounts => "RUN " ++ " ".intercalate (mounts.map mountFlag) ++ " " ++ command
  | .copy source destination ownership stage =>
      " ".intercalate (copyWords source destination ownership stage)
  | .env assignments =>
      Text.joinLines (assignments.toList.map fun (name, value) => "ENV " ++ name ++ " " ++ value)
  | .expose port => "EXPOSE " ++ Nat.repr port.toNat
  | .workdir path => "WORKDIR " ++ path
  | .cmd command => "CMD " ++ command.text
  | .entrypoint command => "ENTRYPOINT " ++ command.text
  | .label labels =>
      "LABEL " ++
        " ".intercalate (labels.toList.map fun (key, value) =>
          "\"" ++ key ++ "\"=\"" ++ value ++ "\"")
  | .volume paths => "VOLUME " ++ paths.text
  | .user name none => "USER " ++ name
  | .user name (some group) => "USER " ++ name ++ ":" ++ group
  | .arg name none => "ARG " ++ name
  | .arg name (some value) => "ARG " ++ name ++ "=\"" ++ value ++ "\""
  | .shell words => "SHELL " ++ Text.jsonArray words

end Instruction

end StageManifest
