import StageManifest.Proofs.Plan.Growth
import StageManifest.Proofs.Stage.References

/-!
# Stages built from definitions

The stages that were built are kept under their keys, the latest first.  Each of
them represents its definition: it is linked to the stages built for the keys that
the definition refers to, and to no others (`Represents`).  What a stage is linked
to was built before it and never changes after (`Built`), so no reference leads
back to where it starts (`Built.not_transGen_refers`).
-/

set_option autoImplicit false

namespace StageManifest

/-! ## What a stage is linked to -/

/-- The stage is linked to the stages built for the keys, and to no others. -/
structure Represents (built : List (String × Stage)) (keys : List String) (stage : Stage) :
    Prop where
  sources : ∀ dependency, stage.DependsOn dependency →
    ∃ key ∈ keys, built.lookup key = some dependency
  linked : ∀ key ∈ keys, ∃ source, built.lookup key = some source ∧
    source.name ∈ stage.dependencyNames

namespace Represents

variable {built later : List (String × Stage)} {keys more : List String} {stage grown : Stage}
  {bench after : Workbench}

/-- What was built stays, so a stage goes on representing its keys. -/
theorem mono (represents : Represents built keys stage)
    (kept : ∀ key source, built.lookup key = some source → later.lookup key = some source) :
    Represents later keys stage where
  sources := by
    intro dependency depends
    obtain ⟨key, isKey, found⟩ := represents.sources dependency depends
    exact ⟨key, isKey, kept key dependency found⟩
  linked := by
    intro key isKey
    obtain ⟨source, found, listed⟩ := represents.linked key isKey
    exact ⟨source, kept key source found, listed⟩

/-- A new stage represents the key of its base. -/
theorem of_started {inputs : List Stage} (started : Started inputs bench stage after)
    (supplied : Supplied built keys inputs) : Represents built keys stage where
  sources := by
    intro dependency depends
    exact supplied.exists_key (started.dependencies ▸ depends)
  linked := by
    intro key isKey
    obtain ⟨source, isInput, found⟩ := supplied.exists_input isKey
    have depends : source ∈ stage.dependencies.toList := started.dependencies ▸ isInput
    exact ⟨source, found, Stage.DependsOn.name_mem depends⟩

/-- A growth adds the keys of its inputs. -/
theorem grow {growth : Growth} (represents : Represents built keys stage)
    (supplied : Supplied built more growth.inputs)
    (grows : Grown growth.instructions (growth.linked stage) stage bench grown after) :
    Represents built (keys ++ more) grown where
  sources := by
    intro dependency depends
    have split : dependency ∈ stage.dependencies.toList ++ growth.linked stage :=
      grows.dependencies ▸ depends
    rcases List.mem_append.mp split with old | new
    · obtain ⟨key, isKey, found⟩ := represents.sources dependency old
      exact ⟨key, List.mem_append_left _ isKey, found⟩
    · obtain ⟨key, isKey, found⟩ := supplied.exists_key (growth.linked_subset_inputs stage new)
      exact ⟨key, List.mem_append_right _ isKey, found⟩
  linked := by
    intro key isKey
    rcases List.mem_append.mp isKey with old | new
    · obtain ⟨source, found, listed⟩ := represents.linked key old
      exact ⟨source, found, (Stage.mem_dependencyNames_of_grown grows _).mpr (.inl listed)⟩
    · obtain ⟨source, isInput, found⟩ := supplied.exists_input new
      refine ⟨source, found, (Stage.mem_dependencyNames_of_grown grows _).mpr (.inr ?_)⟩
      exact List.mem_map_of_mem isInput

end Represents

/-! ## What was built -/

/-- What is built under a key hides what was there before, and nothing else. -/
theorem lookup_cons_eq (built : List (String × Stage)) (key other : String) (stage : Stage) :
    ((key, stage) :: built).lookup other =
      if other = key then some stage else built.lookup other := by
  rw [List.lookup_cons]
  by_cases same : other = key
  · rw [if_pos same, beq_iff_eq.mpr same]
  · rw [if_neg same, beq_eq_false_iff_ne.mpr same]

/-- The stages were built one after another, the last one first, each from a usable definition under
a new key and from stages built before it. -/
inductive Built (definitions : Entries StageDefinition) : List (String × Stage) → Prop where
  | nil : Built definitions []
  | cons {built : List (String × Stage)} {key : String} {stage : Stage}
      {definition : StageDefinition} :
      Built definitions built → built.lookup key = none →
        definitions.find? key = some definition → definition.Usable →
        Represents built definition.references stage → Built definitions ((key, stage) :: built)

namespace Built

variable {definitions : Entries StageDefinition} {built : List (String × Stage)}

/-- A stage that is added under a new key does not change what was built. -/
theorem lookup_cons {key other : String} {stage source : Stage} (isNew : built.lookup key = none)
    (found : built.lookup other = some source) :
    ((key, stage) :: built).lookup other = some source := by
  have different : other ≠ key := by
    rintro rfl
    rw [isNew] at found
    cases found
  rw [lookup_cons_eq, if_neg different]
  exact found

/-- What was built under a key represents the definition of that key. -/
theorem represents (isBuilt : Built definitions built) {key : String} {stage : Stage}
    (found : built.lookup key = some stage) :
    ∃ definition, definitions.find? key = some definition ∧ definition.Usable ∧
      Represents built definition.references stage := by
  induction isBuilt with
  | nil => cases found
  | @cons older first firstStage definition _ isNew defined usable represents ih =>
      rw [lookup_cons_eq] at found
      split at found
      case isTrue same =>
        cases found
        rw [same]
        exact ⟨definition, defined, usable,
          represents.mono fun _ _ => lookup_cons isNew⟩
      case isFalse =>
        obtain ⟨definition, defined, usable, represents⟩ := ih found
        exact ⟨definition, defined, usable,
          represents.mono fun _ _ => lookup_cons isNew⟩

/-- What the definition of a built stage refers to was built. -/
theorem lookup_of_refers (isBuilt : Built definitions built) {user key : String} {stage : Stage}
    (found : built.lookup user = some stage) (refers : Refers definitions user key) :
    ∃ source, built.lookup key = some source ∧ source.name ∈ stage.dependencyNames := by
  obtain ⟨definition, defined, _, represents⟩ := isBuilt.represents found
  obtain ⟨same, isSame, isReference⟩ := refers
  rw [defined, Option.some.injEq] at isSame
  exact represents.linked key (isSame ▸ isReference)

/-- A built stage depends on stages built for keys that its definition refers to. -/
theorem exists_refers (isBuilt : Built definitions built) {user : String}
    {stage dependency : Stage} (found : built.lookup user = some stage)
    (depends : stage.DependsOn dependency) :
    ∃ key, Refers definitions user key ∧ built.lookup key = some dependency := by
  obtain ⟨definition, defined, _, represents⟩ := isBuilt.represents found
  obtain ⟨key, isReference, isFound⟩ := represents.sources dependency depends
  exact ⟨key, ⟨definition, defined, isReference⟩, isFound⟩

/-- Along references one stays among what was built. -/
theorem lookup_of_reflTransGen (isBuilt : Built definitions built) {user key : String}
    {stage : Stage} (found : built.lookup user = some stage)
    (refers : Relation.ReflTransGen (Refers definitions) user key) :
    ∃ source, built.lookup key = some source := by
  induction refers with
  | refl => exact ⟨stage, found⟩
  | tail _ refers ih =>
      obtain ⟨middle, isMiddle⟩ := ih
      obtain ⟨source, isFound, _⟩ := isBuilt.lookup_of_refers isMiddle refers
      exact ⟨source, isFound⟩

/-- No references lead from a built stage back to it. -/
theorem not_transGen_refers (isBuilt : Built definitions built) {key : String} {stage : Stage}
    (found : built.lookup key = some stage) :
    ¬ Relation.TransGen (Refers definitions) key key := by
  intro returns
  induction isBuilt generalizing stage with
  | nil => cases found
  | @cons older first firstStage definition olderBuilt isNew defined _ represents ih =>
      rw [lookup_cons_eq] at found
      split at found
      case isFalse => exact ih found
      case isTrue same =>
        -- The first reference leads to something older, and from there one never gets here.
        subst same
        obtain ⟨next, ⟨own, isOwn, isReference⟩, back⟩ := Relation.TransGen.head'_iff.mp returns
        rw [defined, Option.some.injEq] at isOwn
        obtain ⟨source, isOlder, _⟩ := represents.linked next (isOwn ▸ isReference)
        obtain ⟨again, isAgain⟩ := olderBuilt.lookup_of_reflTransGen isOlder back
        rw [isNew] at isAgain
        cases isAgain

/-- **Definitions whose stages were all built can be resolved.** -/
theorem resolvable (isBuilt : Built definitions built)
    (all : ∀ key ∈ definitions.keys, ∃ stage, built.lookup key = some stage) :
    Resolvable definitions where
  usable := by
    intro key definition defined
    obtain ⟨stage, found⟩ := all key (Entries.mem_keys_of_find? defined)
    obtain ⟨same, isSame, usable, _⟩ := isBuilt.represents found
    rw [defined, Option.some.injEq] at isSame
    exact isSame ▸ usable
  defined := by
    rintro user key ⟨definition, defined, isReference⟩
    obtain ⟨stage, found⟩ := all user (Entries.mem_keys_of_find? defined)
    obtain ⟨source, isSource, _⟩ :=
      isBuilt.lookup_of_refers found ⟨definition, defined, isReference⟩
    obtain ⟨own, isOwn, _⟩ := isBuilt.represents isSource
    exact ⟨own, isOwn⟩
  acyclic := by
    intro key returns
    obtain ⟨next, ⟨definition, defined, _⟩, _⟩ := Relation.TransGen.head'_iff.mp returns
    obtain ⟨stage, found⟩ := all key (Entries.mem_keys_of_find? defined)
    exact isBuilt.not_transGen_refers found returns

end Built

end StageManifest
