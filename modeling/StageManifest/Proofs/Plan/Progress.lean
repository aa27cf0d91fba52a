import Mathlib.Data.List.Nodup
import StageManifest.Proofs.Plan.Built
import StageManifest.Proofs.Stage.Names
import StageManifest.Proofs.Stage.Session

/-!
# The progress of resolution

While a build file is resolved, the bench is in a session that has every built
stage at hand, each key is begun at most once and draws one name, and a key that is
being resolved has not been built (`Progress`).  A stage is begun (`Progress.start`),
grows step by step while others are resolved (`Underway.grow`,
`Underway.later`) and is then built for good (`Underway.finish`).
-/

set_option autoImplicit false

namespace StageManifest

/-- Stages are begun for defined keys only, and for each of them at most once. -/
structure BegunOnce (definitions : Entries StageDefinition) (state : Resolution) : Prop where
  once : (state.begun.map (·.1)).Nodup
  defined : ∀ entry ∈ state.begun, entry.1 ∈ definitions.keys

/-- Every stage that was begun drew one name, and nothing else did. -/
structure Drawn (names : NameSource) (state : Resolution) : Prop where
  source : state.bench.names = names.after state.begun.length
  drawn : state.begun.map (·.2) = names.firstNames state.begun.length

section Begun

variable {definitions : Entries StageDefinition} {names : NameSource} {state : Resolution}
  {key name : String} {bench : Workbench}

/-- Another key is begun. -/
theorem BegunOnce.begin (begunOnce : BegunOnce definitions state) (isKey : key ∈ definitions.keys)
    (notBegun : key ∉ state.begun.map (·.1)) :
    BegunOnce definitions
      { state with bench := bench, begun := state.begun ++ [(key, name)] } where
  once := by
    rw [List.map_append, List.map_singleton]
    exact List.nodup_append_comm.mp (List.nodup_cons.mpr ⟨notBegun, begunOnce.once⟩)
  defined := by
    intro entry isEntry
    rcases List.mem_append.mp isEntry with old | new
    · exact begunOnce.defined entry old
    · rw [List.mem_singleton.mp new]
      exact isKey

/-- Another key is begun with the next name. -/
theorem Drawn.begin (drawn : Drawn names state) (isNext : name = state.bench.names.next.1)
    (source : bench.names = state.bench.names.next.2) :
    Drawn names { state with bench := bench, begun := state.begun ++ [(key, name)] } where
  source := by
    rw [List.length_append, List.length_singleton, NameSource.after, ← drawn.source]
    exact source
  drawn := by
    rw [List.map_append, drawn.drawn, List.length_append, List.length_singleton,
      NameSource.firstNames_succ, ← drawn.source, ← isNext]
    rfl

end Begun

/-- Resolution came to a state with some stages at hand, while some keys are being resolved and the
stages of some keys are opened, that is, begun and not yet built. -/
structure Progress (definitions : Entries StageDefinition) (names : NameSource)
    (resolving opened : List String) (state : Resolution) (stages : List Stage) : Prop where
  session : Session state.bench stages
  built : Built definitions state.built
  atHand : ∀ key stage, state.built.lookup key = some stage → stage ∈ stages
  waiting : ∀ key ∈ resolving, state.built.lookup key = none
  begunOnce : BegunOnce definitions state
  drawn : Drawn names state
  settled : ∀ entry ∈ state.begun,
    entry.1 ∈ opened ∨ ∃ stage, state.built.lookup entry.1 = some stage
  recorded : ∀ key stage, state.built.lookup key = some stage → (key, stage.name) ∈ state.begun

/-- What was at hand, built and begun in a state is so in a later one. -/
structure Later (state : Resolution) (stages : List Stage) (after : Resolution)
    (more : List Stage) : Prop where
  atHand : stages ⊆ more
  built : ∀ key stage, state.built.lookup key = some stage → after.built.lookup key = some stage
  begun : state.begun ⊆ after.begun

theorem Later.refl (state : Resolution) (stages : List Stage) : Later state stages state stages :=
  ⟨List.Subset.refl _, fun _ _ found => found, List.Subset.refl _⟩

theorem Later.trans {first second third : Resolution} {stages more most : List Stage}
    (earlier : Later first stages second more) (later : Later second more third most) :
    Later first stages third most where
  atHand := List.Subset.trans earlier.atHand later.atHand
  built := fun key stage found => later.built key stage (earlier.built key stage found)
  begun := List.Subset.trans earlier.begun later.begun

namespace Later

variable {state after : Resolution} {stages more : List Stage}

/-- A stage that is made on the way is at hand as well. -/
theorem make (later : Later state stages after more) {next : Resolution}
    (built : next.built = after.built) (begun : after.begun ⊆ next.begun) (stage : Stage) :
    Later state stages next (stage :: more) where
  atHand := List.subset_cons_of_subset _ later.atHand
  built := built ▸ later.built
  begun := List.Subset.trans later.begun begun

/-- A stage that is built on the way leaves the others as they were. -/
theorem build (later : Later state stages after more) {key : String}
    (isNew : after.built.lookup key = none) (stage : Stage) :
    Later state stages { after with built := (key, stage) :: after.built } more where
  atHand := later.atHand
  built := fun other source found => Built.lookup_cons isNew (later.built other source found)
  begun := later.begun

end Later

/-- The stage of a key was begun and grew until it represents the given keys. -/
structure Underway (definitions : Entries StageDefinition) (names : NameSource)
    (resolving opened : List String) (key : String) (keys : List String) (stage : Stage)
    (state : Resolution) (stages : List Stage) : Prop where
  progress : Progress definitions names (key :: resolving) (key :: opened) state stages
  atHand : stage ∈ stages
  recorded : (key, stage.name) ∈ state.begun
  represents : Represents state.built keys stage

variable {definitions : Entries StageDefinition} {names : NameSource}
  {resolving opened keys more : List String} {key : String} {stage : Stage}
  {state after : Resolution} {stages others : List Stage}

namespace Progress

/-- Nothing has happened before the first key. -/
theorem initial (definitions : Entries StageDefinition) (names : NameSource) :
    Progress definitions names [] [] { bench := .ofNames names } [] where
  session := .start names
  built := .nil
  atHand := nofun
  waiting := nofun
  begunOnce := ⟨List.nodup_nil, nofun⟩
  drawn := ⟨rfl, rfl⟩
  settled := nofun
  recorded := nofun

/-- A key that was not built can be resolved. -/
theorem resolve (progress : Progress definitions names resolving opened state stages)
    (absent : state.built.lookup key = none) :
    Progress definitions names (key :: resolving) opened state stages :=
  { progress with waiting := List.forall_mem_cons.mpr ⟨absent, progress.waiting⟩ }

/-- What a key is supplied with is at hand. -/
theorem inputs_subset (progress : Progress definitions names resolving opened state stages)
    {inputs : List Stage} (supplied : Supplied state.built keys inputs) : inputs ⊆ stages := by
  intro input isInput
  obtain ⟨key, _, found⟩ := supplied.exists_key isInput
  exact progress.atHand key input found

/-- **A stage is begun.**  It draws the next name. -/
theorem start (progress : Progress definitions names (key :: resolving) opened state stages)
    (notOpened : key ∉ opened) (isKey : key ∈ definitions.keys) {job : StageJob}
    (starts : job.Starts) (supplied : Supplied state.built keys job.inputs) :
    Underway definitions names resolving opened key keys (job.perform.run state.bench).1
      { state with
        bench := (job.perform.run state.bench).2
        begun := state.begun ++ [(key, (job.perform.run state.bench).1.name)] }
      ((job.perform.run state.bench).1 :: stages) := by
  have started := starts.started state.bench
  have notBegun : key ∉ state.begun.map (·.1) := by
    intro begun
    obtain ⟨entry, isEntry, rfl⟩ := List.mem_map.mp begun
    rcases progress.settled entry isEntry with isOpened | ⟨stage, found⟩
    · exact notOpened isOpened
    · rw [progress.waiting _ List.mem_cons_self] at found
      cases found
  refine
    { progress :=
        { session := progress.session.perform job (progress.inputs_subset supplied)
          built := progress.built
          atHand := fun key stage found => List.mem_cons_of_mem _ (progress.atHand key stage found)
          waiting := progress.waiting
          begunOnce := progress.begunOnce.begin isKey notBegun
          drawn := progress.drawn.begin started.name started.names
          settled := ?_
          recorded := fun key stage found =>
            List.mem_append_left _ (progress.recorded key stage found) }
      atHand := List.mem_cons_self
      recorded := List.mem_append_right _ List.mem_cons_self
      represents := .of_started started supplied }
  intro entry isEntry
  rcases List.mem_append.mp isEntry with old | new
  · exact (progress.settled entry old).imp_left (List.mem_cons_of_mem _)
  · rw [List.mem_singleton.mp new]
    exact .inl List.mem_cons_self

end Progress

namespace Underway

/-- A stage waits while others are resolved. -/
theorem later (underway : Underway definitions names resolving opened key keys stage state stages)
    (progress : Progress definitions names (key :: resolving) (key :: opened) after others)
    (isLater : Later state stages after others) :
    Underway definitions names resolving opened key keys stage after others where
  progress := progress
  atHand := isLater.atHand underway.atHand
  recorded := isLater.begun underway.recorded
  represents := underway.represents.mono isLater.built

/-- **A stage grows.**  It keeps its name, and no other name is drawn. -/
theorem grow (underway : Underway definitions names resolving opened key keys stage state stages)
    {growth : Growth} (supplied : Supplied state.built more growth.inputs) :
    Underway definitions names resolving opened key (keys ++ more)
      ((growth.apply stage).run state.bench).1
      { state with bench := ((growth.apply stage).run state.bench).2 }
      (((growth.apply stage).run state.bench).1 :: stages) := by
  have progress := underway.progress
  have grows := growth.grown stage state.bench
  have inputs : ∀ input ∈ (StageJob.grow stage growth).inputs, input ∈ stages :=
    List.forall_mem_cons.mpr ⟨underway.atHand, progress.inputs_subset supplied⟩
  exact
    { progress :=
        { session := progress.session.perform (.grow stage growth) inputs
          built := progress.built
          atHand := fun key stage found => List.mem_cons_of_mem _ (progress.atHand key stage found)
          waiting := progress.waiting
          begunOnce := ⟨progress.begunOnce.once, progress.begunOnce.defined⟩
          drawn := ⟨grows.names.trans progress.drawn.source, progress.drawn.drawn⟩
          settled := progress.settled
          recorded := progress.recorded }
      atHand := List.mem_cons_self
      recorded := grows.name ▸ underway.recorded
      represents := underway.represents.grow supplied grows }

/-- A stage gets its tag. -/
theorem tag (underway : Underway definitions names resolving opened key keys stage state stages)
    (tag : String) :
    Underway definitions names resolving opened key keys (stage.withTag tag) state
      (stage.withTag tag :: stages) := by
  have supplied : Supplied state.built [] (Growth.tag tag).inputs := .nil _
  have grew := underway.grow supplied
  rwa [List.append_nil] at grew

/-- **A stage is built.**  From now on it is the stage of its key. -/
theorem finish {definition : StageDefinition}
    (underway : Underway definitions names resolving opened key definition.references stage state
      stages)
    (notResolving : key ∉ resolving) (defined : definitions.find? key = some definition)
    (usable : definition.Usable) :
    Progress definitions names resolving opened
      { state with built := (key, stage) :: state.built } stages := by
  have progress := underway.progress
  have isNew : state.built.lookup key = none := progress.waiting key List.mem_cons_self
  constructor
  · exact progress.session
  · exact .cons progress.built isNew defined usable underway.represents
  · intro other source found
    rw [lookup_cons_eq] at found
    split at found
    · cases found
      exact underway.atHand
    · exact progress.atHand other source found
  · intro other isResolving
    have different : other ≠ key := fun same => notResolving (same ▸ isResolving)
    rw [lookup_cons_eq, if_neg different]
    exact progress.waiting other (List.mem_cons_of_mem _ isResolving)
  · exact ⟨progress.begunOnce.once, progress.begunOnce.defined⟩
  · exact ⟨progress.drawn.source, progress.drawn.drawn⟩
  · intro entry isEntry
    rw [lookup_cons_eq]
    split
    · exact .inr ⟨stage, rfl⟩
    case isFalse different =>
      exact (progress.settled entry isEntry).imp_left fun isOpened =>
        (List.mem_cons.mp isOpened).resolve_left different
  · intro other source found
    rw [lookup_cons_eq] at found
    split at found
    case isTrue same =>
      cases found
      exact same ▸ underway.recorded
    · exact progress.recorded other source found

end Underway

end StageManifest
