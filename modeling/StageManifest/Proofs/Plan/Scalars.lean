import StageManifest.Proofs.Plan.Closure
import StageManifest.Proofs.Plan.Keys
import StageManifest.Proofs.Plan.Portrait
import StageManifest.Proofs.Toml.Expressions

/-!
# Scalars of a build file

The values of variables and labels and the defaults of arguments come to the
instructions of a stage as texts (`Renders`).  A string comes as it is.  The text of
an integer or a truth value is an expression of it.  A date or time comes as the
table that stands for it in a document, so its text is read as that table and not as
the date or time.

Reading leaves scalars alone (`renders_scalarText`).  The steps of a document are
those of a definition, one by one, and the instructions of a stage are those of the
steps, so the text of each scalar is found in the instruction of its step
(`Plan.load_renders_scalars`).
-/

set_option autoImplicit false

namespace StageManifest

open Toml (Value members Expresses)

/-! ## Texts of scalars -/

/-- How a scalar is written: a string as it is, an integer or a truth value as an expression of it,
and a date or time as an expression of the table that stands for it. -/
def Renders : Value → String → Prop
  | .string content, text => text = content
  | .integer number, text => Expresses text (.integer number)
  | .boolean truth, text => Expresses text (.boolean truth)
  | .datetime moment, text => Expresses text (Toml.dateTable moment)
  | _, _ => True

/-- **A scalar that is read as data is written in its own way.** -/
theorem renders_scalarText {dates : Toml.DateTable} {value data : Value}
    (decoded : Toml.decodeData dates value = .ok data) : Renders value (scalarText data) := by
  cases value with
  | string content =>
      cases decoded
      rfl
  | integer number =>
      cases decoded
      exact Toml.expresses_valueText (Value.isPlain_integer number) .compact
  | boolean truth =>
      cases decoded
      exact Toml.expresses_valueText (Value.isPlain_boolean truth) .compact
  | datetime moment =>
      cases decoded
      exact Toml.expresses_singleton .compact Toml.dateKey moment.text
  | _ => exact trivial

/-- Each value of a table of data is found under its key. -/
theorem find?_scalarTexts {vars : List (String × Value)} {data : List (String × Value)}
    (decoded : PlanFile.decodeVariables (.table vars) = .ok data)
    (distinct : Toml.DistinctKeys vars) {name : String} {value : Value}
    (member : (name, value) ∈ vars) :
    ∃ text, (Entries.ofList (scalarTexts data)).find? name = some text ∧ Renders value text := by
  obtain ⟨sameKeys, each⟩ := Toml.decodeEntries_eq_ok decoded
  obtain ⟨datum, isDatum, isEntry⟩ := each _ member
  have keys : (scalarTexts data).map (·.1) = vars.map (·.1) := by
    rw [← sameKeys, scalarTexts, List.map_map]
    rfl
  have distinctTexts : Toml.DistinctKeys (scalarTexts data) := by
    rw [Toml.DistinctKeys, keys]
    exact distinct
  have isText : (name, scalarText datum) ∈ scalarTexts data :=
    List.mem_map.mpr ⟨_, isEntry, rfl⟩
  exact ⟨_, Toml.find?_ofList_of_mem distinctTexts isText, renders_scalarText isDatum⟩

/-! ## Scalars of steps -/

/-- The instructions of a step have a text for each of its variables, of its labels or for its
default, and it is the text of that scalar. -/
structure RendersScalars (item : Value) (part : List Instruction) : Prop where
  env : ∀ vars, item = .table [("env", .table vars)] →
    ∃ assignments, part = [.env assignments] ∧ ∀ name value, (name, value) ∈ vars →
      ∃ text, assignments.find? name = some text ∧ Renders value text
  label : ∀ vars, item = .table [("label", .table vars)] →
    ∃ labels, part = [.label labels] ∧ ∀ name value, (name, value) ∈ vars →
      ∃ text, labels.find? name = some text ∧ Renders value text
  arg : ∀ fields value, item = .table [("arg", .table fields)] → ("default", value) ∈ fields →
    ∃ name text, ("name", .string name) ∈ fields ∧ part = [.arg name (some text)] ∧
      Renders value text

/-- An argument with a default has a name, and its default was read as data. -/
theorem exists_of_argOf? {fields : List (String × Value)} {step : StepDefinition}
    (read : PlanFile.argOf? (.table fields) = some step) (distinct : Toml.DistinctKeys fields)
    {value : Value} (member : ("default", value) ∈ fields) :
    ∃ name data, ("name", .string name) ∈ fields ∧ step = .arg name (some data) ∧
      Toml.decodeData .closed value = .ok data := by
  have found : fields.lookup "default" = some value := Toml.lookup_of_mem distinct member
  simp only [PlanFile.argOf?, PlanFile.optionalEntry, found, Option.bind_eq_bind,
    Option.bind_eq_some_iff, Option.map_eq_some_iff] at read
  obtain ⟨name, ⟨held, isHeld, isName⟩, _, ⟨data, decoded, rfl⟩, same⟩ := read
  cases held with
  | string content =>
      cases isName
      cases same
      refine ⟨name, data, Toml.mem_of_lookup isHeld, rfl, ?_⟩
      cases result : Toml.decodeData .closed value with
      | error failure =>
          rw [result] at decoded
          cases decoded
      | ok datum =>
          rw [result] at decoded
          cases decoded
          rfl
  | _ => cases isName

/-- The payload of a step has distinct keys if the step has. -/
theorem distinct_payload {key : String} {entries : List (String × Value)}
    (distinct : (Value.table [(key, .table entries)]).Distinct) : Toml.DistinctKeys entries := by
  cases distinct with
  | table _ each => exact (each _ List.mem_cons_self).keys

/-- **The instructions of a step carry its scalars.** -/
theorem rendersScalars_of_decodeStep {item : Value} {step : StepDefinition}
    (decoded : PlanFile.decodeStep item = .ok step) (distinct : item.Distinct)
    (projectDirectory : HostPath) (stableCacheIds : Bool) (nameOf : String → String) :
    RendersScalars item (step.instructions projectDirectory stableCacheIds nameOf) where
  env := by
    rintro vars rfl
    obtain ⟨_, _, _, ⟨⟩, ⟨⟩, read⟩ := PlanFile.decodeStep_table decoded
    obtain ⟨data, isData, rfl⟩ := Toml.map_eq_ok_iff.mp read
    exact ⟨_, rfl, fun _ _ => find?_scalarTexts isData (distinct_payload distinct)⟩
  label := by
    rintro vars rfl
    obtain ⟨_, _, _, ⟨⟩, ⟨⟩, read⟩ := PlanFile.decodeStep_table decoded
    obtain ⟨data, isData, rfl⟩ := Toml.map_eq_ok_iff.mp read
    exact ⟨_, rfl, fun _ _ => find?_scalarTexts isData (distinct_payload distinct)⟩
  arg := by
    rintro fields value rfl member
    obtain ⟨_, _, _, ⟨⟩, ⟨⟩, read⟩ := PlanFile.decodeStep_table decoded
    obtain ⟨name, data, isName, rfl, isData⟩ :=
      exists_of_argOf? (PlanFile.reading_of_readAs read) (distinct_payload distinct) member
    exact ⟨name, _, isName, rfl, renders_scalarText isData⟩

/-! ## Scalars of plans -/

namespace Plan

section

variable {names : NameSource} {text : String} {path projectDirectory : HostPath}
  {stableCacheIds : Bool} {plan : Plan} {reached : Resolution}

/-- The key of a definition has a stage, and it is the portrait of the definition. -/
theorem exists_portrait {file : PlanFile} (parsed : PlanFile.parse text = .ok file)
    (loaded : load names text path projectDirectory stableCacheIds = (.ok plan, reached))
    {key : String} {definition : StageDefinition}
    (defined : file.stages.find? key = some definition) :
    ∃ stage, plan.stage key = .ok stage ∧
      Portrait projectDirectory stableCacheIds
        (fun key stage => plan.stages.find? key = some stage) definition stage := by
  have complete := (ends_parse parsed names path projectDirectory stableCacheIds).of_ok loaded
  obtain ⟨stage, found⟩ := complete.all key (Entries.mem_keys_of_find? defined)
  obtain ⟨_, isDefinition, portrait⟩ := portrait_of_load parsed loaded found
  cases Option.some.inj (defined.symm.trans isDefinition)
  exact ⟨stage, stage_eq_ok_iff.mpr found, portrait⟩

/-- **Scalars are written in their own way in a plan.**  The steps of a stage in the document are
its instructions, step by step, and these carry the scalars of the steps: strings as they are,
integers and truth values as expressions of them, dates and times as the tables that stand for
them. -/
theorem load_renders_scalars
    (loaded : load names text path projectDirectory stableCacheIds = (.ok plan, reached)) :
    ∃ entries, Toml.readDocument text = some entries ∧
      ∀ stages key value form items, ("stages", .table stages) ∈ entries →
        (key, value) ∈ stages →
        ("steps", .array form items) ∈ members PlanFile.TableKind.stage.keys value →
        ∃ stage parts, plan.stage key = .ok stage ∧ stage.instructions = parts.flatten ∧
          List.Forall₂ RendersScalars items parts := by
  obtain ⟨entries, file, isDocument, decoded, parsed⟩ := exists_parsed (congrArg Prod.fst loaded)
  have distinct := Toml.distinct_of_readDocument isDocument
  refine ⟨entries, isDocument, fun stages key value form items isStages isStage isSteps => ?_⟩
  have inRoot : ("stages", .table stages) ∈
      members PlanFile.TableKind.file.keys (.table entries) := isStages
  obtain ⟨definition, isDefinition, defined⟩ :=
    PlanFile.exists_definition decoded distinct inRoot isStage
  have distinctStages : (Value.table stages).Distinct := distinct.of_mem_members inRoot
  have distinctStage : value.Distinct := by
    cases distinctStages with
    | table _ each => exact each _ isStage
  have steps := PlanFile.mapM_decodeStep_eq isDefinition distinctStage isSteps
  obtain ⟨stage, isStage, portrait⟩ := exists_portrait parsed loaded defined
  obtain ⟨parts, writes, instructions⟩ := portrait.instructions
  refine ⟨stage, parts, isStage, instructions, ?_⟩
  have distinctItems : ∀ item ∈ items, item.Distinct := by
    cases distinctStage.of_mem_members isSteps with
    | array each => exact each
  have written := (List.forall₂_and_left items parts).mpr
    ⟨distinctItems, Toml.forall₂_of_mapM_ok steps writes⟩
  refine written.imp fun item part => ?_
  rintro ⟨distinctItem, step, isStep, nameOf, _, rfl⟩
  exact rendersScalars_of_decodeStep isStep distinctItem _ _ _

end

end Plan

/-! ## A date as a variable

The only stage has a date and a number as variables, a label, and an argument with a default.
-/

namespace Dated

def text : String :=
  "[stages.default]\nfrom = \"alpine\"\nsteps = [" ++
    "\x7b env = \x7b DAY = 1979-05-27, PORT = 8080 \x7d \x7d, " ++
    "\x7b label = \x7b team = \"infra\" \x7d \x7d, " ++
    "\x7b arg = \x7b name = \"DEBUG\", default = true \x7d \x7d]\n"

def day : Toml.DateTime := .localDate ⟨1979, 5, 27⟩

def assignments : List (String × Value) := [("DAY", .datetime day), ("PORT", .integer 8080)]

def labels : List (String × Value) := [("team", .string "infra")]

def argument : List (String × Value) := [("name", .string "DEBUG"), ("default", .boolean true)]

def steps : List Value :=
  [.table [("env", .table assignments)], .table [("label", .table labels)],
    .table [("arg", .table argument)]]

def stage : Value := .table [("from", .string "alpine"), ("steps", .array .brackets steps)]

def entries : List (String × Value) := [("stages", .table [("default", stage)])]

def definition : StageDefinition :=
  { image := some "alpine"
    steps := [.env assignments, .label labels, .arg "DEBUG" (some (.boolean true))] }

def file : PlanFile := ⟨.ofList [("default", definition)]⟩

/-- How loading the plan ends. -/
def loaded : Except Failure Plan × Resolution := Plan.load .standard text ⟨[]⟩ ⟨[]⟩ false

theorem read : Toml.readDocument text = some entries := by cbv

theorem parsed : PlanFile.parse text = .ok file := by
  rw [PlanFile.parse, Toml.parseAs, read]
  cbv

theorem resolvable : Resolvable file.stages := by
  refine .singleton ⟨by decide, fun step isStep => ?_⟩ rfl
  simp only [definition, List.mem_cons, List.not_mem_nil, or_false] at isStep
  rcases isStep with rfl | rfl | rfl <;> exact trivial

/-- The instructions of the stage are those of its steps. -/
theorem exists_plan : ∃ plan reached stage, loaded = (.ok plan, reached) ∧
    plan.stage "default" = .ok stage ∧
    stage.instructions = [.envOf (scalarTexts assignments), .labelOf (scalarTexts labels),
      .arg "DEBUG" (some (scalarText (.boolean true)))] := by
  obtain ⟨plan, reached, planned⟩ :=
    Plan.exists_load_of_resolvable parsed resolvable .standard ⟨[]⟩ ⟨[]⟩ false
  obtain ⟨stage, isStage, portrait⟩ :=
    Plan.exists_portrait parsed planned (find?_singleton_eq_some_iff.mpr ⟨rfl, rfl⟩)
  obtain ⟨parts, writes, same⟩ := portrait.instructions
  obtain _ | ⟨⟨_, _, rfl⟩, _ | ⟨⟨_, _, rfl⟩, _ | ⟨⟨_, _, rfl⟩, _ | _⟩⟩⟩ := writes
  exact ⟨plan, reached, stage, planned, isStage, same⟩

end Dated

namespace Plan

/-- The number, the label and the default are written in their own way. -/
theorem load_renders_scalars_of_dated :
    ∃ plan reached stage assignments labels port debug, Dated.loaded = (.ok plan, reached) ∧
      plan.stage "default" = .ok stage ∧
      stage.instructions = [.env assignments, .label labels, .arg "DEBUG" (some debug)] ∧
      assignments.find? "PORT" = some port ∧ Expresses port (.integer 8080) ∧
      labels.find? "team" = some "infra" ∧ Expresses debug (.boolean true) := by
  obtain ⟨plan, reached, _, loaded, _⟩ := Dated.exists_plan
  obtain ⟨entries, isDocument, renders⟩ := load_renders_scalars loaded
  cases Option.some.inj (Dated.read.symm.trans isDocument)
  have isSteps : ("steps", .array .brackets Dated.steps) ∈
      members PlanFile.TableKind.stage.keys Dated.stage := List.mem_cons_of_mem _ List.mem_cons_self
  obtain ⟨stage, parts, isStage, same, each⟩ :=
    renders _ _ _ _ _ List.mem_cons_self List.mem_cons_self isSteps
  obtain _ | ⟨first, _ | ⟨second, _ | ⟨third, _ | _⟩⟩⟩ := each
  obtain ⟨assignments, rfl, values⟩ := first.env _ rfl
  obtain ⟨labels, rfl, texts⟩ := second.label _ rfl
  obtain ⟨name, debug, isName, rfl, isDebug⟩ :=
    third.arg _ _ rfl (List.mem_cons_of_mem _ List.mem_cons_self)
  obtain ⟨port, isPort, writesPort⟩ := values "PORT" _ (List.mem_cons_of_mem _ List.mem_cons_self)
  obtain ⟨_, isTeam, rfl⟩ := texts "team" _ List.mem_cons_self
  have sameName : name = "DEBUG" := by
    simpa [Dated.argument] using isName
  subst sameName
  exact ⟨plan, reached, stage, assignments, labels, port, debug, loaded, isStage, same, isPort,
    writesPort, isTeam, isDebug⟩

/-- **A date is not written as it reads in the document**: its text is no expression of a date or
time. -/
theorem load_renders_date_as_table :
    Toml.readDocument Dated.text = some Dated.entries ∧
      ("DAY", .datetime Dated.day) ∈ Dated.assignments ∧
      ∃ plan reached stage assignments text, Dated.loaded = (.ok plan, reached) ∧
        plan.stage "default" = .ok stage ∧ .env assignments ∈ stage.instructions ∧
        assignments.find? "DAY" = some text ∧
        text = "\x7b \"$__toml_private_datetime\" = \"1979-05-27\" \x7d" ∧
        ∀ moment, ¬ Expresses text (.datetime moment) := by
  obtain ⟨plan, reached, stage, loaded, isStage, same⟩ := Dated.exists_plan
  refine ⟨Dated.read, List.mem_cons_self, plan, reached, stage, _,
    scalarText (.datetime Dated.day), loaded, isStage, same ▸ List.mem_cons_self, ?_, ?_, ?_⟩
  · rw [Entries.find?_ofList]
    rfl
  · have written : Dated.day.text = "1979-05-27" := by cbv
    rw [scalarText, written]
    decide +kernel
  · exact fun moment => Toml.not_expresses_datetime
      (Toml.expresses_singleton .compact Toml.dateKey Dated.day.text)

end Plan

end StageManifest
