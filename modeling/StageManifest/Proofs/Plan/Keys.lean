import StageManifest.Proofs.Plan.Resolution
import StageManifest.Proofs.Plan.Tables

/-!
# Keys that a build file does not define

Tables of most kinds are refused if they have a key that their kind does not
define.  The tables of a run step, of a user and of an argument are looser: there
such keys can be dropped and added without a difference to what is read
(`PlanFile.decode_trim`).  So a build file that has a plan has undefined keys in
loose tables only, and its plan does not depend on them
(`Plan.load_checks_keys`).
-/

set_option autoImplicit false

namespace StageManifest

open Toml (Value Decoded members changeMembers)

namespace PlanFile

/-! ## Keys that are passed over -/

namespace TableKind

/-- The entries whose keys the kind defines. -/
def known (kind : TableKind) (entries : List (String × Value)) : List (String × Value) :=
  entries.filter fun entry => kind.keys.contains entry.1

/-- A value of the kind without the keys that loose tables do not define. -/
def trim (kind : TableKind) : Value → Value
  | .table entries => .table (if kind.isLoose then kind.known entries else entries)
  | value => value

/-- A value of the kind after a change of the values of other kinds that it holds. -/
def changeInside (kind : TableKind) (change : TableKind → Value → Value) : Value → Value :=
  changeMembers kind.keys fun key held =>
    match kind.places.lookup key with
    | some (nesting, child) => nesting.change (change child) held
    | none => held

/-- Keys that a kind does not define do not matter when one that it defines is looked up. -/
theorem lookup_known {kind : TableKind} {key : String} (isKey : key ∈ kind.keys)
    (entries : List (String × Value)) : (kind.known entries).lookup key = entries.lookup key := by
  induction entries with
  | nil => rfl
  | cons entry rest ih =>
      rw [known, List.filter_cons]
      split
      · rw [List.lookup_cons, List.lookup_cons, ← known, ih]
      next isOther =>
        have different : (key == entry.1) = false := by
          refine beq_eq_false_iff_ne.mpr fun same => isOther ?_
          rwa [← same, List.contains_iff_mem]
        rw [List.lookup_cons, different, ← known, ih]

end TableKind

/-- A document without the keys that its loose tables do not define. -/
def trim : Value → Value :=
  TableKind.file.changeInside fun _ =>
    TableKind.stage.changeInside fun _ => TableKind.step.changeInside TableKind.trim

theorem runOf?_trim (value : Value) : runOf? (TableKind.run.trim value) = runOf? value := by
  cases value with
  | table entries =>
      have command := TableKind.lookup_known (show "command" ∈ TableKind.run.keys by decide) entries
      have cache := TableKind.lookup_known (show "cache" ∈ TableKind.run.keys by decide) entries
      simp only [TableKind.trim, TableKind.isLoose, if_true, runOf?, optionalEntry, command, cache]
  | _ => rfl

theorem userOf?_trim (value : Value) : userOf? (TableKind.user.trim value) = userOf? value := by
  cases value with
  | table entries =>
      have name := TableKind.lookup_known (show "name" ∈ TableKind.user.keys by decide) entries
      have group := TableKind.lookup_known (show "group" ∈ TableKind.user.keys by decide) entries
      simp only [TableKind.trim, TableKind.isLoose, if_true, userOf?, name, group]
  | _ => rfl

theorem argOf?_trim (value : Value) : argOf? (TableKind.arg.trim value) = argOf? value := by
  cases value with
  | table entries =>
      have name := TableKind.lookup_known (show "name" ∈ TableKind.arg.keys by decide) entries
      have default := TableKind.lookup_known (show "default" ∈ TableKind.arg.keys by decide) entries
      simp only [TableKind.trim, TableKind.isLoose, if_true, argOf?, optionalEntry, name, default]
  | _ => rfl

/-- A kind that is not loose is left as it is. -/
theorem TableKind.trim_of_strict {kind : TableKind} (strict : kind.isLoose = false)
    (value : Value) : kind.trim value = value := by
  cases value with
  | table entries => rw [TableKind.trim, strict, if_neg Bool.false_ne_true]
  | _ => rfl

/-- The payload of a step is read the same way without the keys that it does not define. -/
theorem payload_trim {key : String} {decoder : Value → Decoded StepDefinition}
    (found : stepCases.lookup key = some decoder) {nesting : Nesting} {child : TableKind}
    (place : TableKind.step.places.lookup key = some (nesting, child)) (payload : Value) :
    decoder (nesting.change child.trim payload) = decoder payload := by
  have member := Toml.mem_of_lookup place
  simp only [TableKind.places, List.mem_cons, List.not_mem_nil, or_false, Prod.mk.injEq] at member
  rcases member with ⟨rfl, rfl, rfl⟩ | ⟨rfl, rfl, rfl⟩ | ⟨rfl, rfl, rfl⟩ | ⟨rfl, rfl, rfl⟩ |
    ⟨rfl, rfl, rfl⟩
  · cases found
    simp only [Nesting.change, readAs, runOf?_trim]
  · rw [Nesting.change, TableKind.trim_of_strict rfl]
  · rw [Nesting.change, TableKind.trim_of_strict rfl]
  · cases found
    simp only [Nesting.change, readAs, userOf?_trim]
  · cases found
    simp only [Nesting.change, readAs, argOf?_trim]

theorem decodeStep_trim (value : Value) :
    decodeStep (TableKind.step.changeInside TableKind.trim value) = decodeStep value := by
  match value with
  | .table [] | .table (_ :: _ :: _) | .array _ _ => rfl
  | .table [(key, payload)] =>
      simp only [decodeStep, TableKind.changeInside, changeMembers, List.map_cons, List.map_nil,
        Toml.decodeCase, bind, Except.bind]
      split
      · rfl
      next decoder found =>
        simp only [Toml.decodePayload]
        split
        next nesting child place => exact payload_trim found place payload
        · rfl
  | .string _ | .integer _ | .float _ | .boolean _ | .datetime _ => rfl

theorem decodeStage_trim {change : Value → Value}
    (same : ∀ step, decodeStep (change step) = decodeStep step) (value : Value)
    (start : StageDefinition) :
    stageShape.decode .document start (TableKind.stage.changeInside (fun _ => change) value) =
      stageShape.decode .document start value := by
  refine Toml.Shape.decode_changeMembers (fun field isField held record => ?_) value
  simp only [stageShape, List.mem_cons, List.not_mem_nil, or_false] at isField
  rcases isField with rfl | rfl | rfl | rfl | rfl
  case inr.inr.inr.inr =>
    cases held with
    | array form items =>
        have sameItems : (items.map change).mapM decodeStep = items.mapM decodeStep := by
          rw [List.mapM_map]
          exact congrArg (fun step => items.mapM step) (funext same)
        simp only [TableKind.places, List.lookup_cons, beq_self_eq_true, Nesting.change,
          Toml.decodeArray, sameItems]
    | _ => rfl
  all_goals rfl

/-- **A build file is read the same way without the keys that its loose tables do not define.** -/
theorem decode_trim (value : Value) : decode (trim value) = decode value := by
  unfold decode trim
  refine Toml.Shape.decode_changeMembers (fun field isField held record => ?_) value
  simp only [fileShape, List.mem_singleton] at isField
  subst isField
  cases held with
  | table entries =>
      have sameStages := Toml.decodeEntries_map
        (fun stage => decodeStage_trim decodeStep_trim stage {}) entries
      simp only [TableKind.places, List.lookup_cons, beq_self_eq_true, Nesting.change,
        Toml.decodeMap, sameStages]
  | _ => rfl

end PlanFile

namespace Plan

open PlanFile (Contains)

/-- A text that has a plan is a document with a build file. -/
theorem exists_parsed {names : NameSource} {text : String} {path projectDirectory : HostPath}
    {stableCacheIds : Bool} {plan : Plan}
    (loaded : (load names text path projectDirectory stableCacheIds).1 = .ok plan) :
    ∃ entries file, Toml.readDocument text = some entries ∧
      PlanFile.decode (.table entries) = .ok file ∧ PlanFile.parse text = .ok file := by
  cases parsed : PlanFile.parse text with
  | error fault =>
      rw [load, parse, parsed] at loaded
      cases loaded
  | ok file =>
      have read := parsed
      unfold PlanFile.parse Toml.parseAs at read
      split at read
      · cases read
      next entries isDocument =>
        split at read
        · cases read
        next decoded isDecoded =>
          cases read
          exact ⟨entries, file, isDocument, isDecoded, rfl⟩

/-- The definitions of a build file that has a plan can be used. -/
theorem usable_of_load {names : NameSource} {text : String} {file : PlanFile}
    {path projectDirectory : HostPath} {stableCacheIds : Bool} {plan : Plan}
    (parsed : PlanFile.parse text = .ok file)
    (loaded : (load names text path projectDirectory stableCacheIds).1 = .ok plan)
    (key : String) (definition : StageDefinition)
    (defined : file.stages.find? key = some definition) : definition.Usable := by
  have ends := ends_parse parsed names path projectDirectory stableCacheIds
  have complete := ends.of_ok (Prod.ext loaded rfl)
  obtain ⟨stages, progress⟩ := complete.progress
  obtain ⟨stage, found⟩ := complete.all key (Entries.mem_keys_of_find? defined)
  rw [complete.find?_eq key] at found
  obtain ⟨same, isSame, usable, _⟩ := progress.built.represents found
  rw [defined, Option.some.injEq] at isSame
  exact isSame ▸ usable

/-- **Undefined keys are refused, except in loose tables, where they are passed over.**  In a build
file that has a plan every table that is not loose holds defined keys only, and build files that
differ only in undefined keys of loose tables have the same plan. -/
theorem load_checks_keys {names : NameSource} {text : String} {path projectDirectory : HostPath}
    {stableCacheIds : Bool} {plan : Plan}
    (loaded : (load names text path projectDirectory stableCacheIds).1 = .ok plan) :
    ∃ entries, Toml.readDocument text = some entries ∧
      (∀ kind table, Contains (.table entries) kind (.table table) → kind.isLoose = false →
        ∀ entry ∈ table, entry.1 ∈ kind.keys) ∧
      ∀ other others, Toml.readDocument other = some others →
        PlanFile.trim (.table others) = PlanFile.trim (.table entries) →
        load names other path projectDirectory stableCacheIds =
          load names text path projectDirectory stableCacheIds := by
  obtain ⟨entries, file, isDocument, decoded, parsed⟩ := exists_parsed loaded
  have usable := usable_of_load parsed loaded
  have distinct := Toml.distinct_of_readDocument isDocument
  refine ⟨entries, isDocument, fun kind table contains strict => ?_, ?_⟩
  · exact (PlanFile.accepted_of_contains usable decoded distinct contains).keys strict
  · intro other others isOther same
    have sameFile : PlanFile.parse other = PlanFile.parse text := by
      rw [PlanFile.parse, PlanFile.parse, Toml.parseAs, Toml.parseAs, isOther, isDocument]
      simp only [← PlanFile.decode_trim (.table others), same, PlanFile.decode_trim]
    rw [load, load, parse, parse, sameFile]

end Plan

/-! ## A misspelled key

The run step of the only stage has its mounts under a misspelled key.
-/

namespace Misspelled

def text : String :=
  "[stages.default]\nfrom=\"alpine\"\nsteps=[\x7brun=\x7bcommand=\"make\"," ++
    "cahce=[\x7btarget=\"/c\"\x7d]\x7d\x7d]"

/-- The text without the misspelled key. -/
def plainText : String :=
  "[stages.default]\nfrom=\"alpine\"\nsteps=[\x7brun=\x7bcommand=\"make\"\x7d\x7d]"

def run : List (String × Value) :=
  [("command", .string "make"),
    ("cahce", .array .brackets [.table [("target", .string "/c")]])]

def stage (run : List (String × Value)) : Value :=
  .table [("from", .string "alpine"),
    ("steps", .array .brackets [.table [("run", .table run)]])]

def entries (run : List (String × Value)) : List (String × Value) :=
  [("stages", .table [("default", stage run)])]

def file : PlanFile :=
  ⟨.ofList [("default", { image := some "alpine", steps := [.run "make" []] })]⟩

theorem read : Toml.readDocument text = some (entries run) := by cbv

theorem read_plain : Toml.readDocument plainText = some (entries [("command", .string "make")]) := by
  cbv

theorem parsed : PlanFile.parse text = .ok file := by
  rw [PlanFile.parse, Toml.parseAs, read]
  cbv

theorem parsed_plain : PlanFile.parse plainText = .ok file := by
  rw [PlanFile.parse, Toml.parseAs, read_plain]
  cbv

/-- How loading the plan ends. -/
def loaded : Except Failure Plan × Resolution := Plan.load .standard text ⟨[]⟩ ⟨[]⟩ false

theorem exists_plan : ∃ plan, loaded.1 = .ok plan := by
  have isOk : loaded.1.toOption.isSome = true := by
    rw [loaded, Plan.load, Plan.parse, parsed]
    cbv
  cases same : loaded.1 with
  | error failure =>
      rw [same] at isOk
      cases isOk
  | ok plan => exact ⟨plan, rfl⟩

theorem contains_run : PlanFile.Contains (.table (entries run)) .run (.table run) := by
  have inFile : ("stages", .table [("default", stage run)]) ∈
      members PlanFile.TableKind.file.keys (.table (entries run)) := List.mem_cons_self
  have inStage : ("steps", .array .brackets [.table [("run", .table run)]]) ∈
      members PlanFile.TableKind.stage.keys (stage run) := List.mem_cons_of_mem _ List.mem_cons_self
  have inStep : ("run", .table run) ∈
      members PlanFile.TableKind.step.keys (.table [("run", .table run)]) := List.mem_cons_self
  exact ((PlanFile.Contains.root.inside inFile List.mem_cons_self List.mem_cons_self).inside inStage
    List.mem_cons_self List.mem_cons_self).inside inStep List.mem_cons_self List.mem_cons_self

end Misspelled

namespace Plan

/-- What is checked in the text with the misspelled key. -/
theorem load_checks_misspelled :
    ∃ plan, Misspelled.loaded.1 = .ok plan ∧
      (∀ table, PlanFile.Contains (.table (Misspelled.entries Misspelled.run)) .stage (.table table) →
        ∀ entry ∈ table, entry.1 ∈ PlanFile.TableKind.stage.keys) ∧
      load .standard Misspelled.plainText ⟨[]⟩ ⟨[]⟩ false = Misspelled.loaded := by
  obtain ⟨plan, loaded⟩ := Misspelled.exists_plan
  obtain ⟨entries, isDocument, strict, loose⟩ := load_checks_keys loaded
  cases Option.some.inj (Misspelled.read.symm.trans isDocument)
  exact ⟨plan, loaded, fun table contains => strict .stage table contains rfl,
    loose Misspelled.plainText _ Misspelled.read_plain rfl⟩

/-- **A misspelled key of a run step is passed over**: the build file has the plan that it has
without the key. -/
theorem load_passes_over_misspelled :
    (∃ plan, Misspelled.loaded.1 = .ok plan) ∧
      Toml.readDocument Misspelled.text = some (Misspelled.entries Misspelled.run) ∧
      PlanFile.Contains (.table (Misspelled.entries Misspelled.run)) .run (.table Misspelled.run) ∧
      "cahce" ∈ Misspelled.run.map (·.1) ∧ "cahce" ∉ PlanFile.TableKind.run.keys ∧
      load .standard Misspelled.plainText ⟨[]⟩ ⟨[]⟩ false = Misspelled.loaded := by
  refine ⟨Misspelled.exists_plan, Misspelled.read, Misspelled.contains_run, by decide, by decide, ?_⟩
  rw [Misspelled.loaded, load, load, parse, parse, Misspelled.parsed, Misspelled.parsed_plain]

end Plan

end StageManifest
