import StageManifest.Instruction.Basic
import StageManifest.Toml.Parse

/-!
# Build files

A build file declares stages under keys.  A stage names an image or another
stage as its base and lists steps; a step is a table with one key that says what
kind of step it is.  Some steps have a short form, a plain string, beside the
long one.

A table of a build file has no keys beyond those its schema names, except where
every key is data.  The long form of a run step, of a user and of an argument is
looser: keys beyond the named ones are passed over.
-/

set_option autoImplicit false

namespace StageManifest

/-- A cache mount as it is declared. -/
structure MountDefinition where
  mount : CacheMount
  stable : Bool
  unknownKeys : List String
deriving DecidableEq

/-- A step as it is declared. -/
inductive StepDefinition where
  | run (command : String) (caches : List MountDefinition)
  | copy (source destination : String) (ownership : Option Ownership)
  | copyArtifact (stage path destination : String) (ownership : Option Ownership)
  | env (assignments : List (String × Toml.Value))
  | label (labels : List (String × Toml.Value))
  | expose (port : UInt16)
  | workdir (path : String)
  | user (name : String) (group : Option String)
  | cmd (command : CommandForm)
  | entrypoint (command : CommandForm)
  | volume (paths : CommandForm)
  | arg (name : String) (default : Option Toml.Value)
  | shell (words : List String)
  | aptInstall (packages : List String)
  | cargo (subcommand : String)
  | rustToolchain (version : String)

/-- A stage as it is declared. -/
structure StageDefinition where
  image : Option String := none
  parent : Option String := none
  tag : Option String := none
  description : Option String := none
  steps : List StepDefinition := []

/-- A build file. -/
structure PlanFile where
  stages : Entries StageDefinition := .empty

namespace PlanFile

open Toml (Value Decoded Shape ShapeField)

/-! ## Values with several readings -/

/-- A string and nothing else. -/
def stringOf? : Value → Option String
  | .string text => some text
  | _ => none

/-- An array of strings. -/
def stringsOf? : Value → Option (List String)
  | .array _ items => items.mapM stringOf?
  | _ => none

/-- An unsigned integer of 32 bits. -/
def uint32Of? : Value → Option UInt32
  | .integer number =>
      if 0 ≤ number.toInt && number.toInt < 4294967296 then some (UInt32.ofNat number.toInt.toNat)
      else none
  | _ => none

/-- A truth value. -/
def booleanOf? : Value → Option Bool
  | .boolean truth => some truth
  | _ => none

/-- A way of sharing, by its keyword or as a table with that key and nothing under it. -/
def sharingOf? : Value → Option Sharing
  | .string keyword => Sharing.ofKeyword? keyword
  | .table [(keyword, .table [])] => Sharing.ofKeyword? keyword
  | _ => none

/-- The entry with a key, if there is one, by its reading; a value without a reading is refused. -/
def optionalEntry {α : Type} (entries : List (String × Value)) (key : String)
    (reading : Value → Option α) : Option (Option α) :=
  match entries.lookup key with
  | none => some none
  | some value => (reading value).map some

/-- The keys of a cache mount. -/
def mountKeys : List String :=
  ["stable_id", "target", "sharing", "id", "source", "uid", "gid", "mode", "readonly"]

/-- A cache mount with the given entries. -/
def mountOfEntries? (entries : List (String × Value)) : Option MountDefinition := do
  let stable ← optionalEntry entries "stable_id" booleanOf?
  let target ← optionalEntry entries "target" stringOf?
  let sharing ← optionalEntry entries "sharing" sharingOf?
  let id ← optionalEntry entries "id" stringOf?
  let source ← optionalEntry entries "source" stringOf?
  let uid ← optionalEntry entries "uid" uint32Of?
  let gid ← optionalEntry entries "gid" uint32Of?
  let mode ← optionalEntry entries "mode" uint32Of?
  let readOnly ← optionalEntry entries "readonly" booleanOf?
  let unknown := entries.filter fun (key, _) => !mountKeys.contains key
  if unknown.all fun (_, value) => (Toml.decodeData .closed value).isOk then
    some
      { mount :=
          { target := target.getD "", sharing := sharing, id := id, source := source, uid := uid,
            gid := gid, mode := mode, readOnly := readOnly.getD false }
        stable := stable.getD false
        unknownKeys :=
          (unknown.map (·.1)).mergeSort fun first second => decide (first ≤ second) }
  else none

/-- A cache mount. -/
def mountOf? : Value → Option MountDefinition
  | .table entries => mountOfEntries? entries
  | .datetime moment => mountOfEntries? [(Toml.dateKey, .string moment.text)]
  | _ => none

/-- A run step: a command, or a table with a command and its caches. -/
def runOf? : Value → Option StepDefinition
  | .string command => some (.run command [])
  | .table entries => do
      let command ← (entries.lookup "command").bind stringOf?
      let caches ← optionalEntry entries "cache" fun value =>
        match value with
        | .array _ items => items.mapM mountOf?
        | _ => none
      return .run command (caches.getD [])
  | _ => none

/-- A user: a name, or a table with a name and a group. -/
def userOf? : Value → Option StepDefinition
  | .string name => some (.user name none)
  | .table entries => do
      let name ← (entries.lookup "name").bind stringOf?
      let group ← (entries.lookup "group").bind stringOf?
      return .user name (some group)
  | _ => none

/-- A command: a line, or a list of words. -/
def commandOf? : Value → Option CommandForm
  | .string line => some (.shell line)
  | value => (stringsOf? value).map .exec

/-- An argument: a name, or a table with a name and perhaps a default. -/
def argOf? : Value → Option StepDefinition
  | .string name => some (.arg name none)
  | .table entries => do
      let name ← (entries.lookup "name").bind stringOf?
      let value ← optionalEntry entries "default" fun value =>
        (Toml.decodeData .closed value).toOption
      return .arg name value
  | _ => none

/-- What a reading answers, or the failure of a value without one. -/
def readAs {α : Type} (type : String) (reading : Value → Option α) (value : Value) : Decoded α :=
  match reading value with
  | some answer => .ok answer
  | none => Toml.mismatched (.noReading type)

/-! ## Records -/

/-- The owner of copied files while it is decoded. -/
structure OwnershipFields where
  user : Option String := none
  group : Option String := none

/-- The schema of an owner. -/
def ownershipShape : Shape OwnershipFields :=
  ⟨"ChownDef",
    [⟨"user", false, fun value fields => do
        return { fields with user := some (← Toml.decodeString .document value) }⟩,
      ⟨"group", false, fun value fields => do
        return { fields with group := some (← Toml.decodeString .document value) }⟩],
    true⟩

/-- An owner. -/
def decodeOwnership (value : Value) : Decoded Ownership := do
  let fields ← ownershipShape.decode .document {} value
  let user ← Toml.requireField "user" fields.user
  let group ← Toml.requireField "group" fields.group
  return ⟨user, group⟩

/-- A copy step while it is decoded; the stage is given only for artifacts. -/
structure CopyFields where
  stage : Option String := none
  source : Option String := none
  destination : Option String := none
  ownership : Option Ownership := none

/-- The field of a copy step with the source path. -/
def sourceField (name : String) : ShapeField CopyFields :=
  ⟨name, false, fun value fields => do
    return { fields with source := some (← Toml.decodeString .document value) }⟩

/-- The field of a copy step with the destination. -/
def destinationField : ShapeField CopyFields :=
  ⟨"dest", false, fun value fields => do
    return { fields with destination := some (← Toml.decodeString .document value) }⟩

/-- The field of a copy step with the owner. -/
def ownershipField : ShapeField CopyFields :=
  ⟨"chown", false, fun value fields => do
    return { fields with ownership := some (← decodeOwnership value) }⟩

/-- The field of a copy step with the stage of an artifact. -/
def stageField : ShapeField CopyFields :=
  ⟨"stage", false, fun value fields => do
    return { fields with stage := some (← Toml.decodeString .document value) }⟩

/-- The schema of a copy from the build context. -/
def copyShape : Shape CopyFields :=
  ⟨"CopyDef", [sourceField "src", destinationField, ownershipField], true⟩

/-- The schema of a copy of an artifact. -/
def artifactShape : Shape CopyFields :=
  ⟨"ArtifactDef", [stageField, sourceField "path", destinationField, ownershipField], true⟩

/-- A copy from the build context. -/
def decodeCopy (value : Value) : Decoded StepDefinition := do
  let fields ← copyShape.decode .document {} value
  let source ← Toml.requireField "src" fields.source
  let destination ← Toml.requireField "dest" fields.destination
  return .copy source destination fields.ownership

/-- A copy of an artifact. -/
def decodeArtifact (value : Value) : Decoded StepDefinition := do
  let fields ← artifactShape.decode .document {} value
  let stage ← Toml.requireField "stage" fields.stage
  let path ← Toml.requireField "path" fields.source
  let destination ← Toml.requireField "dest" fields.destination
  return .copyArtifact stage path destination fields.ownership

/-! ## Steps -/

/-- A list of strings. -/
def decodeStrings (value : Value) : Decoded (List String) :=
  Toml.decodeArray .document (Toml.decodeString .document) value

/-- A table of data. -/
def decodeVariables (value : Value) : Decoded (List (String × Value)) :=
  Toml.decodeMap .document (Toml.decodeData .loose) value

/-- The kinds of steps with the decoders of their payloads. -/
def stepCases : List (String × (Value → Decoded StepDefinition)) :=
  [("run", readAs "RunDef" runOf?),
    ("copy", decodeCopy),
    ("copy_artifact", decodeArtifact),
    ("env", fun value => (decodeVariables value).map .env),
    ("label", fun value => (decodeVariables value).map .label),
    ("expose", fun value => (Toml.decodeUInt16 .document value).map .expose),
    ("workdir", fun value => (Toml.decodeString .document value).map .workdir),
    ("user", readAs "UserDef" userOf?),
    ("cmd", fun value => (readAs "CommandDef" commandOf? value).map .cmd),
    ("entrypoint", fun value => (readAs "CommandDef" commandOf? value).map .entrypoint),
    ("volume", fun value => (readAs "CommandDef" commandOf? value).map .volume),
    ("arg", readAs "ArgDef" argOf?),
    ("shell", fun value => (decodeStrings value).map .shell),
    ("apt_install", fun value => (decodeStrings value).map .aptInstall),
    ("cargo", fun value => (Toml.decodeString .document value).map .cargo),
    ("rust_toolchain", fun value => (Toml.decodeString .document value).map .rustToolchain)]

/-- A step. -/
def decodeStep (value : Value) : Decoded StepDefinition := do
  let (kind, payload) ← Toml.decodeCase .document value
  match stepCases.lookup kind with
  | none => Toml.mismatched (.unknownCase kind (stepCases.map (·.1)))
  | some decoder => Toml.decodePayload decoder payload

/-! ## Stages -/

/-- The schema of a stage. -/
def stageShape : Shape StageDefinition :=
  ⟨"StageDef",
    [⟨"from", false, fun value stage => do
        return { stage with image := some (← Toml.decodeString .document value) }⟩,
      ⟨"from_stage", false, fun value stage => do
        return { stage with parent := some (← Toml.decodeString .document value) }⟩,
      ⟨"tag", false, fun value stage => do
        return { stage with tag := some (← Toml.decodeString .document value) }⟩,
      ⟨"description", false, fun value stage => do
        return { stage with description := some (← Toml.decodeString .document value) }⟩,
      ⟨"steps", true, fun value stage => do
        return { stage with steps := ← Toml.decodeArray .document decodeStep value }⟩],
    true⟩

/-- The schema of a build file. -/
def fileShape : Shape PlanFile :=
  ⟨"PlanFile",
    [⟨"stages", true, fun value file => do
        let stages ← Toml.decodeMap .document (stageShape.decode .document {}) value
        return { file with stages := Entries.ofList stages }⟩],
    true⟩

/-- The build file that a value holds. -/
def decode (value : Value) : Decoded PlanFile :=
  fileShape.decode .document {} value

/-- The build file that a text holds. -/
def parse (text : String) : Except Toml.DocumentFault PlanFile :=
  Toml.parseAs decode text

end PlanFile

end StageManifest
