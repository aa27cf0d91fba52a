import StageManifest.Proofs.Plan.References
import StageManifest.Proofs.Toml.Record

/-!
# Tables of a build file

The tables of a build file are of ten kinds, and each kind defines its keys; the
tables of variables and labels, whose keys are data, are none of them.  A value
is where one of a kind belongs if keys and positions lead there from the document
(`PlanFile.Contains`).

In a build file whose definitions can be used, every such value was read into a
part of it (`PlanFile.accepted_of_contains`), one kind after another.  Hence the
tables of seven kinds hold only keys that their kinds define
(`PlanFile.Accepted.keys`).
-/

set_option autoImplicit false

namespace StageManifest

open Toml (Value Decoded members)

namespace PlanFile

/-! ## Kinds of tables -/

/-- The kinds of tables whose keys are not data. -/
inductive TableKind where
  | file
  | stage
  | step
  | run
  | mount
  | copy
  | artifact
  | owner
  | user
  | arg
deriving DecidableEq, Repr

/-- How a value holds values of one kind. -/
inductive Nesting where
  /-- The value is of the kind itself. -/
  | itself
  | asItems
  | asEntries
deriving DecidableEq, Repr

namespace Nesting

/-- The values that are held. -/
def held : Nesting → Value → List Value
  | .itself, value => [value]
  | .asItems, .array _ items => items
  | .asEntries, .table entries => entries.map (·.2)
  | _, _ => []

/-- The value after a change of the values that it holds. -/
def change (change : Value → Value) : Nesting → Value → Value
  | .itself, value => change value
  | .asItems, .array form items => .array form (items.map change)
  | .asEntries, .table entries => .table (entries.map fun entry => (entry.1, change entry.2))
  | _, value => value

end Nesting

namespace TableKind

/-- The keys that a kind of tables defines. -/
def keys : TableKind → List String
  | .file => ["stages"]
  | .stage => ["from", "from_stage", "tag", "description", "steps"]
  | .step =>
      ["run", "copy", "copy_artifact", "env", "label", "expose", "workdir", "user", "cmd",
        "entrypoint", "volume", "arg", "shell", "apt_install", "cargo", "rust_toolchain"]
  | .run => ["command", "cache"]
  | .mount =>
      ["stable_id", "target", "sharing", "id", "source", "uid", "gid", "mode", "readonly"]
  | .copy => ["src", "dest", "chown"]
  | .artifact => ["stage", "path", "dest", "chown"]
  | .owner => ["user", "group"]
  | .user => ["name", "group"]
  | .arg => ["name", "default"]

/-- Whether tables of the kind may have other keys. -/
def isLoose : TableKind → Bool
  | .run | .user | .arg => true
  | _ => false

/-- The keys under which tables of the kind hold values of another one. -/
def places : TableKind → List (String × Nesting × TableKind)
  | .file => [("stages", .asEntries, .stage)]
  | .stage => [("steps", .asItems, .step)]
  | .step =>
      [("run", .itself, .run), ("copy", .itself, .copy), ("copy_artifact", .itself, .artifact),
        ("user", .itself, .user), ("arg", .itself, .arg)]
  | .run => [("cache", .asItems, .mount)]
  | .copy | .artifact => [("chown", .itself, .owner)]
  | _ => []

end TableKind

/-- In a document with the given root there is a value where one of the kind belongs. -/
inductive Contains (root : Value) : TableKind → Value → Prop where
  | root : Contains root .file root
  | inside {kind child : TableKind} {value held inner : Value} {key : String} {nesting : Nesting} :
      Contains root kind value → (key, held) ∈ members kind.keys value →
        (key, nesting, child) ∈ kind.places → inner ∈ nesting.held held →
        Contains root child inner

theorem Contains.distinct {root value : Value} {kind : TableKind}
    (contains : Contains root kind value) (distinct : root.Distinct) : value.Distinct := by
  induction contains with
  | root => exact distinct
  | @inside kind child value held inner key nesting _ member _ isHeld ih =>
      have distinctHeld := ih.of_mem_members member
      cases nesting with
      | itself => exact List.mem_singleton.mp isHeld ▸ distinctHeld
      | asItems =>
          cases distinctHeld with
          | array each => exact each inner isHeld
          | _ => cases isHeld
      | asEntries =>
          cases distinctHeld with
          | table _ each =>
              obtain ⟨entry, isEntry, rfl⟩ := List.mem_map.mp isHeld
              exact each entry isEntry
          | _ => cases isHeld

/-! ## What was accepted -/

/-- The value of a kind was read into a part of the build file, without an unknown key in the mounts
there. -/
def Accepted (file : PlanFile) : TableKind → Value → Prop
  | .file, value => decode value = .ok file
  | .stage, value => ∃ key definition, stageShape.decode .document {} value = .ok definition ∧
      file.stages.find? key = some definition
  | .step, value => ∃ step, decodeStep value = .ok step ∧ step.Usable
  | .run, value => ∃ command caches, runOf? value = some (.run command caches) ∧
      ∀ cache ∈ caches, cache.unknownKeys = []
  | .mount, value => ∃ mount, mountOf? value = some mount ∧ mount.unknownKeys = []
  | .copy, value => ∃ step, decodeCopy value = .ok step
  | .artifact, value => ∃ step, decodeArtifact value = .ok step
  | .owner, value => ∃ owner, decodeOwnership value = .ok owner
  | .user, _ | .arg, _ => True

/-- What an accepted reading answered. -/
theorem reading_of_readAs {α : Type} {type : String} {reading : Value → Option α} {value : Value}
    {answer : α} (read : readAs type reading value = .ok answer) : reading value = some answer := by
  unfold readAs at read
  split at read
  next same =>
    cases read
    exact same
  · cases read

/-- A run step is read into a run step. -/
theorem exists_run_of_runOf? {value : Value} {step : StepDefinition}
    (read : runOf? value = some step) : ∃ command caches, step = .run command caches := by
  unfold runOf? at read
  split at read
  · cases read
    exact ⟨_, _, rfl⟩
  · simp only [Option.bind_eq_bind, Option.bind_eq_some_iff] at read
    obtain ⟨command, _, caches, _, same⟩ := read
    cases same
    exact ⟨_, _, rfl⟩
  · cases read

/-- A mount without unknown keys is read from its own keys only. -/
theorem key_mem_mountKeys {entries : List (String × Value)} {mount : MountDefinition}
    (read : mountOf? (.table entries) = some mount) (known : mount.unknownKeys = []) :
    ∀ entry ∈ entries, entry.1 ∈ mountKeys := by
  simp only [mountOf?, mountOfEntries?, Option.bind_eq_bind, Option.bind_eq_some_iff] at read
  obtain ⟨_, _, _, _, _, _, _, _, _, _, _, _, _, _, _, _, _, _, read⟩ := read
  split at read
  · cases read
    intro entry isEntry
    have none : (entries.filter fun entry => !mountKeys.contains entry.1) = [] := by
      have noLength := congrArg List.length known
      rw [List.length_mergeSort, List.length_map] at noLength
      exact List.length_eq_zero_iff.mp noLength
    simpa using List.filter_eq_nil_iff.mp none entry isEntry
  · cases read

/-- A step that is a table has one key, and its payload is read by the decoder of that key. -/
theorem decodeStep_table {entries : List (String × Value)} {step : StepDefinition}
    (decoded : decodeStep (.table entries) = .ok step) :
    ∃ key payload decoder, entries = [(key, payload)] ∧ stepCases.lookup key = some decoder ∧
      decoder payload = .ok step := by
  match entries with
  | [] => cases decoded
  | _ :: _ :: _ => cases decoded
  | [(key, payload)] =>
      simp only [decodeStep, Toml.decodeCase, bind, Except.bind] at decoded
      split at decoded
      · cases decoded
      next decoder found => exact ⟨key, payload, decoder, rfl, found, decoded⟩

/-- A stage of a document is read into the definition of its key. -/
theorem exists_definition {file : PlanFile} {value inner : Value} {key : String}
    {entries : List (String × Value)} (decoded : decode value = .ok file)
    (distinct : value.Distinct)
    (member : ("stages", .table entries) ∈ members TableKind.file.keys value)
    (isEntry : (key, inner) ∈ entries) :
    ∃ definition, stageShape.decode .document {} inner = .ok definition ∧
      file.stages.find? key = some definition := by
  have kept : fileShape.Assigned fileShape.fields[0].name (.table entries) file :=
    Toml.Shape.assigned_of_decode rfl (by decide) distinct decoded member
  obtain ⟨before, after, assigned, stays⟩ := kept.exists_assign (by decide) (List.getElem_mem _)
  cases read : Toml.decodeMap .document (stageShape.decode .document {}) (.table entries) with
  | error failure => simp [fileShape, read, bind, Except.bind] at assigned
  | ok stages =>
      simp only [fileShape, List.getElem_cons_zero, read, bind, Except.bind, pure,
        Except.pure, Except.ok.injEq] at assigned
      obtain ⟨sameKeys, each⟩ := Toml.decodeEntries_eq_ok read
      obtain ⟨definition, isDefinition, isStage⟩ := each _ isEntry
      have distinctHeld : (Value.table entries).Distinct := distinct.of_mem_members member
      have distinctStages : Toml.DistinctKeys stages := by
        rw [Toml.DistinctKeys, sameKeys]
        exact distinctHeld.keys
      refine ⟨definition, isDefinition, ?_⟩
      have unchanged : file.stages = Entries.ofList stages := by
        refine stays (fun other => other.stages = Entries.ofList stages) ?_ (assigned ▸ rfl)
        intro other isOther different
        cases List.mem_singleton.mp isOther
        exact (different rfl).elim
      rw [unchanged]
      exact Toml.find?_ofList_of_mem distinctStages isStage

/-- The items under the steps of a stage are read into the steps of its definition. -/
theorem mapM_decodeStep_eq {value : Value} {definition : StageDefinition} {form : Toml.ArrayForm}
    {items : List Value} (decoded : stageShape.decode .document {} value = .ok definition)
    (distinct : value.Distinct)
    (member : ("steps", .array form items) ∈ members TableKind.stage.keys value) :
    items.mapM decodeStep = .ok definition.steps := by
  have kept : stageShape.Assigned stageShape.fields[4].name (.array form items) definition :=
    Toml.Shape.assigned_of_decode rfl (by decide) distinct decoded member
  obtain ⟨before, after, assigned, stays⟩ := kept.exists_assign (by decide) (List.getElem_mem _)
  cases read : Toml.decodeArray .document decodeStep (.array form items) with
  | error failure => simp [stageShape, read, bind, Except.bind] at assigned
  | ok steps =>
      simp only [stageShape, List.getElem_cons_succ, List.getElem_cons_zero, read, bind,
        Except.bind, pure, Except.pure, Except.ok.injEq] at assigned
      have unchanged : definition.steps = steps := by
        refine stays (fun other => other.steps = steps) ?_ (assigned ▸ rfl)
        intro other isOther different text first second changed same
        simp only [stageShape, List.mem_cons, List.not_mem_nil, or_false] at isOther
        rcases isOther with rfl | rfl | rfl | rfl | rfl
        case inr.inr.inr.inr => exact (different rfl).elim
        all_goals
          simp only [bind, Except.bind, pure, Except.pure] at changed
          split at changed
          · cases changed
          · cases changed
            exact same
      rw [unchanged]
      exact read

namespace Accepted

variable {file : PlanFile} {value held inner : Value} {key : String}

/-- What an accepted build file holds as a stage was accepted. -/
theorem stage (accepted : file.Accepted .file value) (distinct : value.Distinct)
    (member : ("stages", held) ∈ members TableKind.file.keys value)
    (isHeld : inner ∈ Nesting.asEntries.held held) : file.Accepted .stage inner := by
  cases held with
  | table entries =>
      obtain ⟨entry, isEntry, rfl⟩ := List.mem_map.mp isHeld
      exact ⟨entry.1, exists_definition accepted distinct member isEntry⟩
  | _ => cases isHeld

/-- What an accepted stage holds as a step was accepted. -/
theorem step (usable : ∀ key definition, file.stages.find? key = some definition →
      definition.Usable) (accepted : file.Accepted .stage value) (distinct : value.Distinct)
    (member : ("steps", held) ∈ members TableKind.stage.keys value)
    (isHeld : inner ∈ Nesting.asItems.held held) : file.Accepted .step inner := by
  obtain ⟨key, definition, decoded, defined⟩ := accepted
  cases held with
  | array form items =>
      obtain ⟨step, isStep, read⟩ :=
        Toml.exists_of_mapM_ok (mapM_decodeStep_eq decoded distinct member) isHeld
      exact ⟨step, read, (usable key definition defined).steps step isStep⟩
  | _ => cases isHeld

/-- The payload of an accepted step was accepted. -/
theorem payload {child : TableKind} (accepted : file.Accepted .step value)
    (member : (key, held) ∈ members TableKind.step.keys value)
    (place : (key, .itself, child) ∈ TableKind.step.places) : file.Accepted child held := by
  obtain ⟨step, decoded, usable⟩ := accepted
  cases value with
  | array form items => cases decoded
  | table entries =>
      obtain ⟨only, payload, decoder, rfl, found, read⟩ := decodeStep_table decoded
      obtain ⟨rfl, rfl⟩ := Prod.mk.inj (List.mem_singleton.mp member)
      simp only [TableKind.places, List.mem_cons, List.not_mem_nil, or_false, Prod.mk.injEq,
        true_and] at place
      rcases place with ⟨rfl, rfl⟩ | ⟨rfl, rfl⟩ | ⟨rfl, rfl⟩ | ⟨rfl, rfl⟩ | ⟨rfl, rfl⟩
      · cases found
        have isRun := reading_of_readAs read
        obtain ⟨command, caches, rfl⟩ := exists_run_of_runOf? isRun
        exact ⟨command, caches, isRun, usable⟩
      · cases found
        exact ⟨step, read⟩
      · cases found
        exact ⟨step, read⟩
      · exact trivial
      · exact trivial
  | _ => cases member

/-- What an accepted run step holds as a mount was accepted. -/
theorem mount (accepted : file.Accepted .run value) (distinct : value.Distinct)
    (member : ("cache", held) ∈ members TableKind.run.keys value)
    (isHeld : inner ∈ Nesting.asItems.held held) : file.Accepted .mount inner := by
  obtain ⟨command, caches, read, known⟩ := accepted
  cases value with
  | array form items => cases read
  | table entries =>
      have found : entries.lookup "cache" = some held := Toml.lookup_of_mem distinct.keys member
      simp only [runOf?, optionalEntry, found, Option.bind_eq_bind, Option.bind_eq_some_iff,
        Option.map_eq_some_iff] at read
      obtain ⟨_, _, _, ⟨mounts, isRead, rfl⟩, same⟩ := read
      cases same
      cases held with
      | array form items =>
          obtain ⟨mount, isMount, same⟩ := Toml.exists_of_mapM_some isRead isHeld
          exact ⟨mount, same, known mount isMount⟩
      | _ => cases isHeld
  | _ => cases member

/-- The owner in a copy was read. -/
theorem owner {shape : Toml.Shape CopyFields} {fields : CopyFields} (strict : shape.strict = true)
    (nodup : shape.names.Nodup) (isField : ownershipField ∈ shape.fields)
    (distinct : value.Distinct) (decoded : shape.decode .document {} value = .ok fields)
    (member : ("chown", held) ∈ members shape.names value) : file.Accepted .owner held := by
  have kept : shape.Assigned ownershipField.name held fields :=
    Toml.Shape.assigned_of_decode strict nodup distinct decoded member
  obtain ⟨before, after, assigned, _⟩ := kept.exists_assign nodup isField
  cases read : decodeOwnership held with
  | error failure => simp [ownershipField, read, bind, Except.bind] at assigned
  | ok owner => exact ⟨owner, read⟩

/-- **What an accepted value holds was accepted.** -/
theorem inside {kind child : TableKind} {nesting : Nesting}
    (usable : ∀ key definition, file.stages.find? key = some definition → definition.Usable)
    (accepted : file.Accepted kind value) (distinct : value.Distinct)
    (member : (key, held) ∈ members kind.keys value) (place : (key, nesting, child) ∈ kind.places)
    (isHeld : inner ∈ nesting.held held) : file.Accepted child inner := by
  cases kind with
  | file =>
      cases List.mem_singleton.mp place
      exact accepted.stage distinct member isHeld
  | stage =>
      cases List.mem_singleton.mp place
      exact accepted.step usable distinct member isHeld
  | step =>
      have direct : nesting = .itself := by
        simp only [TableKind.places, List.mem_cons, List.not_mem_nil, or_false,
          Prod.mk.injEq] at place
        rcases place with h | h | h | h | h <;> exact h.2.1
      subst direct
      rw [List.mem_singleton.mp isHeld]
      exact accepted.payload member place
  | run =>
      cases List.mem_singleton.mp place
      exact accepted.mount distinct member isHeld
  | copy =>
      cases List.mem_singleton.mp place
      obtain ⟨_, decoded⟩ := accepted
      obtain ⟨fields, decoded, _⟩ := Toml.exists_of_bind_eq_ok decoded
      rw [List.mem_singleton.mp isHeld]
      exact owner rfl (by decide) (by simp [copyShape]) distinct decoded member
  | artifact =>
      cases List.mem_singleton.mp place
      obtain ⟨_, decoded⟩ := accepted
      obtain ⟨fields, decoded, _⟩ := Toml.exists_of_bind_eq_ok decoded
      rw [List.mem_singleton.mp isHeld]
      exact owner rfl (by decide) (by simp [artifactShape]) distinct decoded member
  | _ => cases place

/-- **An accepted table has defined keys only**, if its kind is not loose. -/
theorem keys {kind : TableKind} {entries : List (String × Value)}
    (accepted : file.Accepted kind (.table entries)) (strict : kind.isLoose = false) :
    ∀ entry ∈ entries, entry.1 ∈ kind.keys := by
  cases kind with
  | file => exact Toml.Shape.key_mem_names rfl accepted
  | stage =>
      obtain ⟨_, _, decoded, _⟩ := accepted
      exact Toml.Shape.key_mem_names rfl decoded
  | step =>
      obtain ⟨step, decoded, _⟩ := accepted
      obtain ⟨key, payload, decoder, rfl, found, _⟩ := decodeStep_table decoded
      have isCase : key ∈ stepCases.map (·.1) := List.mem_map_of_mem (Toml.mem_of_lookup found)
      exact List.forall_mem_singleton.mpr isCase
  | mount =>
      obtain ⟨mount, read, known⟩ := accepted
      exact key_mem_mountKeys read known
  | copy =>
      obtain ⟨_, decoded⟩ := accepted
      obtain ⟨fields, decoded, _⟩ := Toml.exists_of_bind_eq_ok decoded
      exact Toml.Shape.key_mem_names rfl decoded
  | artifact =>
      obtain ⟨_, decoded⟩ := accepted
      obtain ⟨fields, decoded, _⟩ := Toml.exists_of_bind_eq_ok decoded
      exact Toml.Shape.key_mem_names rfl decoded
  | owner =>
      obtain ⟨_, decoded⟩ := accepted
      obtain ⟨fields, decoded, _⟩ := Toml.exists_of_bind_eq_ok decoded
      exact Toml.Shape.key_mem_names rfl decoded
  | run | user | arg => cases strict

end Accepted

/-- Every value of a kind in an accepted build file was accepted. -/
theorem accepted_of_contains {file : PlanFile} {root value : Value} {kind : TableKind}
    (usable : ∀ key definition, file.stages.find? key = some definition → definition.Usable)
    (accepted : decode root = .ok file) (distinct : root.Distinct)
    (contains : Contains root kind value) :
    file.Accepted kind value := by
  induction contains with
  | root => exact accepted
  | inside contains member place isHeld ih =>
      exact ih.inside usable (contains.distinct distinct) member place isHeld

end PlanFile

end StageManifest
