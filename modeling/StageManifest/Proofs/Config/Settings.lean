import StageManifest.Config.Edit
import StageManifest.Proofs.Toml.Record

/-!
# Settings by their keys

A configuration is known by what it says about each key (`Config.eq_of_value?`).
Changing a setting changes what is said about its key to what the text for the
value stands for (`Config.exists_value?_set`), and nothing else
(`Config.value?_set_of_ne`).
-/

set_option autoImplicit false

namespace StageManifest

variable {config changed : Config} {key value : String}

/-- What a configuration says about a key. -/
def Config.value? (config : Config) : (key : String) → Option Toml.Value
  | "general.log_format" => some (.string config.general.logFormat)
  | "build.syntax" => some (.string config.build.frontend)
  | "build.tag_prefix" => some (.string config.build.tagPrefix)
  | "build.default_file" => some (.string config.build.defaultFile)
  | "build.stable_cache_ids" => some (.boolean config.build.stableCacheIds)
  | "engine.kind" => some (.string config.engine.choice.keyword)
  | "engine.project" => config.engine.project.map .string
  | _ => none

/-! ## Values -/

theorem EngineChoice.eq_of_keyword_eq {first second : EngineChoice}
    (same : first.keyword = second.keyword) : first = second := by
  cases first <;> cases second <;> first | rfl | exact absurd same (by decide)

/-- An engine is chosen by its keyword. -/
theorem keyword_of_parseEngine {choice : EngineChoice} (parsed : parseEngine value = .ok choice) :
    choice.keyword = value := by
  unfold parseEngine at parsed
  split at parsed
  next found =>
    cases parsed
    obtain ⟨_, _, split, _⟩ := List.lookup_eq_some_iff.mp found
    have member : (value, choice) ∈ Config.engineCases :=
      split ▸ List.mem_append_right _ List.mem_cons_self
    simp only [Config.engineCases, List.mem_cons, Prod.mk.injEq, List.not_mem_nil,
      or_false] at member
    rcases member with ⟨rfl, rfl⟩ | ⟨rfl, rfl⟩ <;> rfl
  · cases parsed

theorem eq_of_parseLogFormat {format : String} (parsed : parseLogFormat value = .ok format) :
    format = value := by
  unfold parseLogFormat at parsed
  split at parsed
  · exact (Except.ok.inj parsed).symm
  · cases parsed

/-! ## Settings -/

namespace Config

/-- **A configuration is known by what it says about each key.** -/
theorem eq_of_value? {first second : Config}
    (same : ∀ key, first.value? key = second.value? key) : first = second := by
  obtain ⟨⟨logFormat⟩, ⟨frontend, tagPrefix, defaultFile, stableCacheIds⟩, choice, project⟩ := first
  obtain ⟨⟨otherFormat⟩, ⟨otherFrontend, otherPrefix, otherFile, otherIds⟩, otherChoice,
    otherProject⟩ := second
  have sameFormat : some (Toml.Value.string logFormat) = some (.string otherFormat) :=
    same "general.log_format"
  have sameFrontend : some (Toml.Value.string frontend) = some (.string otherFrontend) :=
    same "build.syntax"
  have samePrefix : some (Toml.Value.string tagPrefix) = some (.string otherPrefix) :=
    same "build.tag_prefix"
  have sameFile : some (Toml.Value.string defaultFile) = some (.string otherFile) :=
    same "build.default_file"
  have sameIds : some (Toml.Value.boolean stableCacheIds) = some (.boolean otherIds) :=
    same "build.stable_cache_ids"
  have sameKeyword : some (Toml.Value.string choice.keyword) = some (.string otherChoice.keyword) :=
    same "engine.kind"
  have sameProject : project.map Toml.Value.string = otherProject.map .string :=
    same "engine.project"
  cases sameFormat
  cases sameFrontend
  cases samePrefix
  cases sameFile
  cases sameIds
  cases EngineChoice.eq_of_keyword_eq (Toml.Value.string.inj (Option.some.inj sameKeyword))
  cases Option.map_injective (fun _ _ => Toml.Value.string.inj) sameProject
  rfl

/-- A changed setting is what the text for its value stands for. -/
theorem exists_value?_set (isSet : config.set key value = .ok changed) :
    ∃ written, documentValue key value = .ok written ∧ changed.value? key = some written := by
  unfold set at isSet
  split at isSet
  case h_1 =>
    obtain ⟨format, parsed, ⟨⟩⟩ := Toml.exists_of_bind_eq_ok isSet
    rw [eq_of_parseLogFormat parsed]
    exact ⟨_, rfl, rfl⟩
  case h_5 =>
    obtain ⟨truth, parsed, ⟨⟩⟩ := Toml.exists_of_bind_eq_ok isSet
    refine ⟨.boolean truth, ?_, rfl⟩
    rw [documentValue, if_pos rfl, parsed]
    rfl
  case h_6 =>
    obtain ⟨choice, parsed, ⟨⟩⟩ := Toml.exists_of_bind_eq_ok isSet
    refine ⟨.string value, rfl, ?_⟩
    rw [← keyword_of_parseEngine parsed]
    rfl
  case h_8 => cases isSet
  all_goals
    cases isSet
    exact ⟨_, rfl, rfl⟩

/-- The other settings are what they were. -/
theorem value?_set_of_ne (isSet : config.set key value = .ok changed) {other : String}
    (different : other ≠ key) : changed.value? other = config.value? other := by
  unfold set at isSet
  split at isSet
  all_goals
    first
    | cases isSet
    | obtain ⟨_, _, ⟨⟩⟩ := Toml.exists_of_bind_eq_ok isSet
  all_goals
    unfold value?
    split <;> first | rfl | exact absurd rfl different

/-- Whether a value is accepted for a key does not depend on the configuration. -/
theorem exists_set_of_set (isSet : config.set key value = .ok changed) (other : Config) :
    ∃ after, other.set key value = .ok after := by
  unfold set at isSet ⊢
  split at isSet
  case h_1 =>
    obtain ⟨_, parsed, _⟩ := Toml.exists_of_bind_eq_ok isSet
    exact ⟨_, by rw [parsed]; rfl⟩
  case h_5 =>
    obtain ⟨_, parsed, _⟩ := Toml.exists_of_bind_eq_ok isSet
    exact ⟨_, by rw [parsed]; rfl⟩
  case h_6 =>
    obtain ⟨_, parsed, _⟩ := Toml.exists_of_bind_eq_ok isSet
    exact ⟨_, by rw [parsed]; rfl⟩
  case h_8 => cases isSet
  all_goals exact ⟨_, rfl⟩

/-- **A setting that is changed in one configuration gives what it gives in another one exactly if
they say the same about the other keys.** -/
theorem set_eq_iff (isSet : config.set key value = .ok changed) (other : Config) :
    other.set key value = .ok changed ↔
      ∀ name, name ≠ key → config.value? name = other.value? name := by
  constructor
  · intro same name different
    rw [← value?_set_of_ne isSet different, value?_set_of_ne same different]
  · intro agree
    obtain ⟨after, isAfter⟩ := exists_set_of_set isSet other
    obtain ⟨written, isWritten, holds⟩ := exists_value?_set isSet
    obtain ⟨otherWritten, isOther, otherHolds⟩ := exists_value?_set isAfter
    cases Except.ok.inj (isWritten.symm.trans isOther)
    have same : after = changed := by
      refine eq_of_value? fun name => ?_
      by_cases isKey : name = key
      · rw [isKey, holds, otherHolds]
      · rw [value?_set_of_ne isSet isKey, value?_set_of_ne isAfter isKey, agree name isKey]
    rw [isAfter, same]

end Config

end StageManifest
