import StageManifest.Proofs.Config.Settings
import StageManifest.Proofs.Toml.Paths
import StageManifest.Proofs.Toml.Views

/-!
# Settings of a document

A configuration is read setting by setting: each setting stands at a path of the
document, its section and its field, and is read from what the document holds
there (`Config.decode_eq_ok_iff`).
-/

set_option autoImplicit false

namespace StageManifest.Config

open Toml (Mode Decoded)

/-! ## Settings of one section -/

/-- The setting that a value stands for under a key. -/
def readSetting (mode : Mode) (key : String) (held : Toml.Value) : Decoded Toml.Value :=
  if key = "build.stable_cache_ids" then (Toml.decodeBoolean mode held).map .boolean
  else if key = "engine.kind" then
    (Toml.decodeChoice mode engineCases held).map fun choice => .string choice.keyword
  else (Toml.decodeString mode held).map .string

/-- The key of a field in a section. -/
def keyIn (name field : String) : String := name ++ "." ++ field

/-- What a value says about a field of a section. -/
def readIn (mode : Mode) (name field : String) (held : Toml.Value) : Decoded (Option Toml.Value) :=
  (readSetting mode (keyIn name field) held).map some

/-- What a configuration says about a field of a section. -/
def saidIn (name field : String) (config : Config) : Option Toml.Value :=
  config.value? (keyIn name field)

variable (mode : Mode)

theorem readIn_of_string (name field : String)
    (isText : keyIn name field ≠ "build.stable_cache_ids" ∧ keyIn name field ≠ "engine.kind")
    (held : Toml.Value) :
    readIn mode name field held =
      (Toml.decodeString mode held).map fun text => some (.string text) := by
  rw [readIn, readSetting, if_neg isText.1, if_neg isText.2]
  cases Toml.decodeString mode held <;> rfl

theorem readIn_of_boolean (held : Toml.Value) :
    readIn mode "build" "stable_cache_ids" held =
      (Toml.decodeBoolean mode held).map fun truth => some (.boolean truth) := by
  rw [readIn, readSetting, if_pos (by decide)]
  cases Toml.decodeBoolean mode held <;> rfl

theorem readIn_of_choice (held : Toml.Value) :
    readIn mode "engine" "kind" held =
      (Toml.decodeChoice mode engineCases held).map fun choice =>
        some (.string choice.keyword) := by
  rw [readIn, readSetting, if_neg (by decide), if_pos (by decide)]
  cases Toml.decodeChoice mode engineCases held <;> rfl

theorem views_generalShape :
    (generalShape mode).Views (readIn mode "general") fun field general =>
      saidIn "general" field { general := general } := by
  refine Toml.Shape.views_of_puts rfl ?_ ?_
  · intro field isField
    obtain rfl := List.mem_singleton.mp isField
    refine ⟨_, _, _, _, fun _ _ => rfl, readIn_of_string mode "general" "log_format" (by decide),
      fun _ _ => rfl, ?_⟩
    intro _ _ name isName different
    exact absurd (List.mem_singleton.mp isName) different
  · intro first second same
    have sameFormat := same "log_format" List.mem_cons_self
    simp only [saidIn, keyIn, String.reduceAppend, value?, Option.some.injEq,
      Toml.Value.string.injEq] at sameFormat
    cases first
    cases second
    cases sameFormat
    rfl

theorem views_buildShape :
    (buildShape mode).Views (readIn mode "build") fun field build =>
      saidIn "build" field { build := build } := by
  refine Toml.Shape.views_of_puts rfl ?_ ?_
  · intro field isField
    simp only [buildShape, List.mem_cons, List.not_mem_nil, or_false] at isField
    rcases isField with rfl | rfl | rfl | rfl
    on_goal 1 => refine ⟨_, _, _, _, fun _ _ => rfl,
      readIn_of_string mode "build" "syntax" (by decide), fun _ _ => rfl, ?_⟩
    on_goal 2 => refine ⟨_, _, _, _, fun _ _ => rfl,
      readIn_of_string mode "build" "tag_prefix" (by decide), fun _ _ => rfl, ?_⟩
    on_goal 3 => refine ⟨_, _, _, _, fun _ _ => rfl,
      readIn_of_string mode "build" "default_file" (by decide), fun _ _ => rfl, ?_⟩
    on_goal 4 => refine ⟨_, _, _, _, fun _ _ => rfl, readIn_of_boolean mode, fun _ _ => rfl, ?_⟩
    all_goals
      intro answer record name isName different
      simp only [Toml.Shape.names, buildShape, List.map_cons, List.map_nil, List.mem_cons,
        List.not_mem_nil, or_false] at isName
      rcases isName with rfl | rfl | rfl | rfl
    all_goals first | rfl | exact absurd rfl different
  · intro first second same
    simp [buildShape, Toml.Shape.names, saidIn, keyIn, value?] at same
    cases first
    cases second
    simp_all

theorem views_engineShape :
    (engineShape mode).Views (readIn mode "engine") fun field engine =>
      saidIn "engine" field { engine := engine } := by
  refine Toml.Shape.views_of_puts rfl ?_ ?_
  · intro field isField
    simp only [engineShape, List.mem_cons, List.not_mem_nil, or_false] at isField
    rcases isField with rfl | rfl
    on_goal 1 => refine ⟨_, _, _, _, fun _ _ => rfl, readIn_of_choice mode, fun _ _ => rfl, ?_⟩
    on_goal 2 => refine ⟨_, _, _, _, fun _ _ => rfl,
      readIn_of_string mode "engine" "project" (by decide), fun _ _ => rfl, ?_⟩
    all_goals
      intro answer record name isName different
      simp only [Toml.Shape.names, engineShape, List.map_cons, List.map_nil, List.mem_cons,
        List.not_mem_nil, or_false] at isName
      rcases isName with rfl | rfl
    all_goals first | rfl | exact absurd rfl different
  · intro first second same
    simp [engineShape, Toml.Shape.names, saidIn, keyIn, value?] at same
    cases first
    cases second
    exact congrArg₂ _ (EngineChoice.eq_of_keyword_eq same.1)
      (Option.map_injective (fun _ _ => Toml.Value.string.inj) same.2)

/-! ## Sections -/

/-- The sections of a document are tables where they are present. -/
def HasSections (source : Toml.Value) : Prop :=
  ∀ name ∈ (shape .document).names, ∀ held, source.under? name = some held → held.isTable = true

/-- The part of a configuration that a section holds. -/
def only (config : Config) : (name : String) → Config
  | "general" => { general := config.general }
  | "build" => { build := config.build }
  | "engine" => { engine := config.engine }
  | _ => {}

/-- The configuration that a section holds. -/
def readSection (mode : Mode) (name : String) (held : Toml.Value) : Decoded Config :=
  match name with
  | "general" => ((generalShape mode).decode mode {} held).map fun general => { general := general }
  | "build" => ((buildShape mode).decode mode {} held).map fun build => { build := build }
  | "engine" => ((engineShape mode).decode mode {} held).map fun engine => { engine := engine }
  | _ => .ok {}

theorem mem_sectionNames_iff {mode : Mode} {name : String} :
    name ∈ (shape mode).names ↔ name = "general" ∨ name = "build" ∨ name = "engine" := by
  simp [shape, Toml.Shape.names]

theorem views_shape :
    (shape mode).Views (readSection mode) fun name config => config.only name := by
  refine Toml.Shape.views_of_puts rfl ?_ ?_
  · intro field isField
    simp only [shape, List.mem_cons, List.not_mem_nil, or_false] at isField
    rcases isField with rfl | rfl | rfl
    all_goals
      refine ⟨_, _, _, _, fun _ _ => rfl, fun _ => rfl, fun _ _ => rfl, ?_⟩
      intro answer record name isName different
      rcases mem_sectionNames_iff.mp isName with rfl | rfl | rfl
    all_goals first | rfl | exact absurd rfl different
  · intro first second same
    simp [shape, Toml.Shape.names, only] at same
    cases first
    cases second
    simp_all

/-! ## Settings at their paths -/

/-- The path of a setting in a document: its section and its field. -/
def settingPath (key : String) : List String :=
  match splitConfigKey key with
  | .ok (name, field) => [name, field]
  | .error _ => []

/-- A configuration says about a key what a document holds at the path of the key, or what is said
by default if it holds nothing there. -/
def Follows (mode : Mode) (source : Toml.Value) (config : Config) (key : String) : Prop :=
  ((source.at? (settingPath key)).elim (.ok (({} : Config).value? key)) fun held =>
    (readSetting mode key held).map some) = .ok (config.value? key)

theorem at?_pair (name field : String) (source : Toml.Value) :
    source.at? [name, field] = (source.under? name).bind (Toml.Value.under? field) := by
  rw [Toml.Value.at?_cons]
  refine congrArg (Option.bind _) (funext fun held => ?_)
  rw [Toml.Value.at?_cons]
  cases held.under? field <;> rfl

variable {mode} {source : Toml.Value} {config : Config}

/-- The key of a field in a section is split into the two again. -/
theorem splitConfigKey_keyIn {name : String} (noDot : '.' ∉ name.toList) (field : String) :
    splitConfigKey (keyIn name field) = .ok (name, field) := by
  have cut : Text.cutFirst ['.'] (keyIn name field).toList = some (name.toList, field.toList) := by
    rw [keyIn, String.toList_append, String.toList_append, List.append_assoc]
    exact Text.cutFirst_append noDot field.toList
  simp [splitConfigKey, cut]

theorem settingPath_eq {key name field : String} (isKey : splitConfigKey key = .ok (name, field)) :
    settingPath key = [name, field] := by
  rw [settingPath, isKey]

/-- The keys of the settings are the fields of the sections. -/
theorem forall_configKeyNames_iff (mode : Mode) {holds : String → Prop} :
    (∀ key ∈ configKeyNames, holds key) ↔
      (∀ field ∈ (generalShape mode).names, holds (keyIn "general" field)) ∧
        (∀ field ∈ (buildShape mode).names, holds (keyIn "build" field)) ∧
          ∀ field ∈ (engineShape mode).names, holds (keyIn "engine" field) := by
  simp [configKeyNames, Toml.Shape.names, generalShape, buildShape, engineShape, keyIn, and_assoc]

/-- Every setting is a field of a section. -/
theorem exists_splitConfigKey {key : String} (isKey : key ∈ configKeyNames) :
    ∃ name ∈ (shape .document).names, ∃ field, key = keyIn name field ∧
      splitConfigKey key = .ok (name, field) := by
  revert key
  rw [forall_configKeyNames_iff .document]
  refine ⟨fun field _ => ⟨"general", by decide, field, rfl, splitConfigKey_keyIn (by decide) field⟩,
    fun field _ => ⟨"build", by decide, field, rfl, splitConfigKey_keyIn (by decide) field⟩,
    fun field _ => ⟨"engine", by decide, field, rfl, splitConfigKey_keyIn (by decide) field⟩⟩

/-- A section is read setting by setting. -/
theorem readSection_iff {σ : Type} {schema : Toml.Shape σ} {name : String} {embed : σ → Config}
    (start result : σ) (config : Config)
    (views : schema.Views (readIn mode name) fun field part => saidIn name field (embed part))
    (isTable : ∀ held, source.under? name = some held → held.isTable = true)
    (distinct : source.Distinct) (noDot : '.' ∉ name.toList)
    (injective : Function.Injective embed) (isStart : embed start = {})
    (isPart : ∀ field ∈ schema.names, saidIn name field (embed result) = saidIn name field config) :
    ((source.under? name).elim (.ok (embed start)) fun held =>
        (schema.decode mode start held).map embed) = .ok (embed result) ↔
      ∀ field ∈ schema.names, Follows mode source config (keyIn name field) := by
  have same : ((source.under? name).elim (.ok (embed start)) fun held =>
        (schema.decode mode start held).map embed) = .ok (embed result) ↔
      (source.under? name).elim (.ok start) (schema.decode mode start) = .ok result := by
    cases source.under? name with
    | none => simp [injective.eq_iff]
    | some held =>
        rw [Option.elim_some, Option.elim_some]
        cases schema.decode mode start held with
        | error failure => simp [Except.map]
        | ok answer => simp [Except.map, injective.eq_iff]
  rw [same, views.elim_decode_eq_ok_iff mode _ isTable
    (fun held found => distinct.of_under? found) start result]
  refine forall₂_congr fun field isField => ?_
  rw [Follows, settingPath_eq (splitConfigKey_keyIn noDot field), at?_pair, isPart field isField,
    isStart]
  rfl

/-- **A configuration is read setting by setting.** -/
theorem decode_eq_ok_iff (distinct : source.Distinct) (isTable : source.isTable = true)
    (sections : HasSections source) :
    decode mode source = .ok config ↔ ∀ key ∈ configKeyNames, Follows mode source config key := by
  have general := readSection_iff {} config.general config
    (views_generalShape mode) (sections "general" (by decide)) distinct (by decide)
    (fun first second same => congrArg Config.general same) rfl
    (by simp [Toml.Shape.names, generalShape, saidIn, keyIn, value?])
  have build := readSection_iff {} config.build config
    (views_buildShape mode) (sections "build" (by decide)) distinct (by decide)
    (fun first second same => congrArg Config.build same) rfl
    (by simp [Toml.Shape.names, buildShape, saidIn, keyIn, value?])
  have engine := readSection_iff {} config.engine config
    (views_engineShape mode) (sections "engine" (by decide)) distinct (by decide)
    (fun first second same => congrArg Config.engine same) rfl
    (by simp [Toml.Shape.names, engineShape, saidIn, keyIn, value?])
  rw [forall_configKeyNames_iff mode, ← general, ← build, ← engine]
  have whole := (views_shape mode).elim_decode_eq_ok_iff mode (some source)
    (fun value isSource => Option.some.inj isSource ▸ isTable)
    (fun value isSource => Option.some.inj isSource ▸ distinct) {} config
  refine whole.trans ?_
  simp only [shape, Toml.Shape.names, List.map_cons, List.map_nil, List.forall_mem_cons,
    List.not_mem_nil, false_implies, implies_true, and_true]
  exact Iff.rfl

/-! ## Layers -/

section Layers

variable {base overlay : Toml.Value} {name : String}

/-- A section that is a table if it is there is open for its fields. -/
theorem open_pair (isTable : source.isTable = true)
    (isSection : ∀ held, source.under? name = some held → held.isTable = true) (field : String) :
    source.Open [name, field] := by
  rw [Toml.Value.open_cons_iff]
  refine ⟨isTable, fun child isChild => ?_⟩
  rw [Toml.Value.open_cons_iff]
  exact ⟨isSection child isChild, fun held _ => Toml.Value.open_nil held⟩

/-- The sections of merged documents are tables if those of both documents are. -/
theorem HasSections.merge (sectionsBase : HasSections base) (sections : HasSections overlay)
    (distinct : overlay.Distinct) (isTable : overlay.isTable = true) :
    HasSections (Toml.merge base overlay) := by
  intro name isName held found
  rw [Toml.under?_merge distinct isTable] at found
  cases above : overlay.under? name with
  | none =>
      rw [above] at found
      exact sectionsBase name isName held found
  | some value =>
      rw [above] at found
      have isSection := sections name isName value above
      obtain rfl := Option.some.inj found
      cases base.under? name with
      | none => exact isSection
      | some existing => exact (Toml.isTable_merge existing value).trans isSection

/-- **Merged documents hold for a setting what the overlay holds**, laid over what the base holds, or
what the base holds if the overlay holds nothing. -/
theorem at?_merge_pair (sections : HasSections overlay) (distinct : overlay.Distinct)
    (isTable : overlay.isTable = true) (isName : name ∈ (shape .document).names) (field : String)
    (base : Toml.Value) :
    (Toml.merge base overlay).at? [name, field] =
      (overlay.at? [name, field]).elim (base.at? [name, field]) fun held =>
        some ((base.at? [name, field]).elim held (Toml.merge · held)) := by
  cases found : overlay.at? [name, field] with
  | some held => exact Toml.at?_merge_of_some distinct found base
  | none =>
      exact Toml.at?_merge_of_open distinct found
        (open_pair isTable (sections name isName) field) base

end Layers

end StageManifest.Config
