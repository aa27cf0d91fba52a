import StageManifest.Config.Layers
import StageManifest.Proofs.Toml.Sections

/-!
# The text of a configuration

The text of a configuration is a document of three sections, and loading it gives
the configuration again, whatever texts the settings hold
(`Config.parseAs_text`).
-/

set_option autoImplicit false

namespace StageManifest.Config

open Toml (Value)

/-- The sections of a configuration with their pairs. -/
def sections (config : Config) : List (String × List (String × Value)) :=
  [("general", [("log_format", .string config.general.logFormat)]),
    ("build",
      [("syntax", .string config.build.frontend),
        ("tag_prefix", .string config.build.tagPrefix),
        ("default_file", .string config.build.defaultFile),
        ("stable_cache_ids", .boolean config.build.stableCacheIds)]),
    ("engine",
      ("kind", .string config.engine.choice.keyword) ::
        (config.engine.project.map fun project => ("project", .string project)).toList)]

theorem sectionEntries_sections (config : Config) :
    Toml.sectionEntries config.sections = config.entries := rfl

theorem isPlain_of_mem_sections (config : Config) :
    ∀ entry ∈ config.sections, ∀ pair ∈ entry.2, pair.2.IsPlain := by
  obtain ⟨general, build, choice, project⟩ := config
  cases project <;> simp [sections, or_imp, forall_and]

theorem nodup_of_mem_sections (config : Config) :
    ∀ entry ∈ config.sections, (entry.2.map (·.1)).Nodup := by
  obtain ⟨general, build, choice, project⟩ := config
  cases project <;> simp [sections]

/-- The entries of a configuration are fitted to it. -/
theorem decode_entries (config : Config) :
    decode .document (.table config.entries) = .ok config := by
  obtain ⟨⟨logFormat⟩, ⟨frontend, tagPrefix, defaultFile, stableCacheIds⟩, choice, project⟩ := config
  cases choice <;> cases project <;> rfl

/-- **The text of a configuration holds the configuration.** -/
theorem parseAs_text (config : Config) :
    Toml.parseAs (decode .document) config.text = .ok config := by
  have names : (config.sections.map (·.1)).Nodup := by simp [sections]
  have read := Toml.readDocument_sections .spacious (isPlain_of_mem_sections config)
    (nodup_of_mem_sections config) names
  rw [sectionEntries_sections] at read
  rw [Toml.parseAs, text, read]
  simp only [decode_entries]

end StageManifest.Config
