import StageManifest.Proofs.Config.Decoding

/-!
# Settings of documents and of their data

A setting can be read from a document, or from the data that the document stands
for.  The two readings agree (`Config.decode_document_iff`) except that data has a
text for a date where a document has something like a table.  The engine may be
said by a table too, whose only entry holds nothing
(`Config.decodeChoice_table_eq_ok_iff`).
-/

set_option autoImplicit false

namespace StageManifest.Config

open Toml (Mode Value)

variable {mode : Mode} {source held read data : Value} {config : Config} {key : String}

/-! ## Choices that are tables -/

theorem readSetting_kind :
    readSetting mode "engine.kind" held =
      (Toml.decodeChoice mode engineCases held).map fun choice => .string choice.keyword :=
  rfl

/-- Only the engine may be said by a table. -/
theorem eq_kind_of_readSetting (isTable : held.isTable = true)
    (reads : readSetting mode key held = .ok read) : key = "engine.kind" := by
  unfold readSetting at reads
  cases held with
  | table entries =>
      split at reads
      · cases reads
      · split at reads
        next isKind => exact isKind
        next => cases reads
  | _ => cases isTable

/-- A choice that is said by a table is said by its only entry, which holds nothing. -/
theorem decodeChoice_table_eq_ok_iff {α : Type} {cases : List (String × α)} {choice : α}
    {entries : List (String × Value)} :
    Toml.decodeChoice mode cases (.table entries) = .ok choice ↔
      ∃ word payload, entries = [(word, payload)] ∧ cases.lookup word = some choice ∧
        Toml.decodeNoPayload mode (some payload) = .ok () := by
  constructor
  · intro decoded
    obtain ⟨⟨word, payload⟩, isCase, decoded⟩ := Toml.exists_of_bind_eq_ok decoded
    match entries with
    | [] => cases isCase
    | [(first, held)] =>
        cases isCase
        dsimp only at decoded
        split at decoded
        · cases decoded
        next found =>
          obtain ⟨_, isEmpty, same⟩ := Toml.exists_of_bind_eq_ok decoded
          cases same
          exact ⟨_, _, rfl, found, isEmpty⟩
    | _ :: _ :: _ => cases isCase
  · rintro ⟨word, payload, rfl, found, isEmpty⟩
    simp only [Toml.decodeChoice, Toml.decodeCase, bind, Except.bind, found, isEmpty]
    rfl

/-- The payload of a case without one is an empty table or an empty array. -/
theorem eq_empty_of_decodeNoPayload {payload : Value}
    (decoded : Toml.decodeNoPayload mode (some payload) = .ok ()) :
    payload = .emptyTable ∨ ∃ form, payload = .array form [] := by
  cases payload with
  | table entries =>
      cases entries with
      | nil => exact .inl rfl
      | cons entry rest => cases decoded
  | array form items =>
      cases items with
      | nil => exact .inr ⟨form, rfl⟩
      | cons item rest =>
          simp only [Toml.decodeNoPayload, List.isEmpty_cons, Bool.false_eq_true, if_false]
            at decoded
          split at decoded <;> cases decoded
  | _ => cases decoded

/-! ## Documents and their data -/

variable {dates : Toml.DateTable}

theorem decodeString_document_iff (undated : held.Undated)
    (decoded : Toml.decodeData dates held = .ok data) {text : String} :
    Toml.decodeString .document held = .ok text ↔
      Toml.decodeString .merged data = .ok text ∧ ∀ moment, held ≠ .datetime moment := by
  cases held with
  | table entries =>
      obtain ⟨results, rfl, _⟩ := undated.exists_table decoded
      exact ⟨nofun, nofun⟩
  | array form items =>
      rw [Toml.decodeData] at decoded
      obtain ⟨results, _, rfl⟩ := Toml.map_eq_ok_iff.mp decoded
      exact ⟨nofun, nofun⟩
  | string content =>
      cases decoded
      exact ⟨fun same => ⟨same, nofun⟩, And.left⟩
  | datetime moment => exact ⟨nofun, fun both => absurd rfl (both.2 moment)⟩
  | _ =>
      cases decoded
      exact ⟨nofun, nofun⟩

theorem decodeBoolean_document_iff (undated : held.Undated)
    (decoded : Toml.decodeData dates held = .ok data) {truth : Bool} :
    Toml.decodeBoolean .document held = .ok truth ↔
      Toml.decodeBoolean .merged data = .ok truth := by
  cases held with
  | table entries =>
      obtain ⟨results, rfl, _⟩ := undated.exists_table decoded
      exact ⟨nofun, nofun⟩
  | array form items =>
      rw [Toml.decodeData] at decoded
      obtain ⟨results, _, rfl⟩ := Toml.map_eq_ok_iff.mp decoded
      exact ⟨nofun, nofun⟩
  | boolean truth =>
      cases decoded
      exact Iff.rfl
  | _ =>
      cases decoded
      exact ⟨nofun, nofun⟩

/-- The data of a table has the keys of the table. -/
theorem lookup_isSome_eq {entries results : List (String × Value)}
    (each : ∀ key, (entries.lookup key).mapM (Toml.decodeData dates) = .ok (results.lookup key))
    (key : String) : (results.lookup key).isSome = (entries.lookup key).isSome := by
  have read := each key
  cases found : entries.lookup key with
  | none =>
      rw [found] at read
      rw [← Except.ok.inj read]
  | some value =>
      rw [found, Option.mapM_some] at read
      obtain ⟨result, _, same⟩ := Toml.exists_of_bind_eq_ok read
      rw [← Except.ok.inj same]
      rfl

/-- Entries with the keys of no entries are none. -/
theorem eq_nil_of_sameKeys {entries others : List (String × Value)}
    (same : ∀ key, (others.lookup key).isSome = (entries.lookup key).isSome)
    (isNil : entries = []) : others = [] := by
  cases others with
  | nil => rfl
  | cons entry rest => simpa [isNil] using same entry.1

/-- Entries with the key of a single entry are a single entry. -/
theorem exists_single_of_sameKeys {entries others : List (String × Value)} {word : String}
    (distinct : Toml.DistinctKeys others)
    (same : ∀ key, (others.lookup key).isSome = (entries.lookup key).isSome)
    (single : entries = [(word, held)]) : ∃ other, others = [(word, other)] := by
  have isWord (name : String) (value : Value) (member : (name, value) ∈ others) : name = word := by
    have found := same name
    rw [Toml.lookup_of_mem distinct member, single] at found
    by_contra different
    rw [List.lookup_cons, beq_eq_false_iff_ne.mpr different] at found
    cases found
  match others with
  | [] =>
      have found := same word
      rw [single, List.lookup_cons_self] at found
      cases found
  | [(name, value)] => exact ⟨value, by rw [isWord name value List.mem_cons_self]⟩
  | (name, value) :: (other, otherValue) :: rest =>
      have first := isWord name value List.mem_cons_self
      have second := isWord other otherValue (List.mem_cons_of_mem _ List.mem_cons_self)
      obtain ⟨notAgain, _⟩ := List.nodup_cons.mp distinct
      exact absurd (List.mem_map.mpr ⟨_, List.mem_cons_self, second.trans first.symm⟩) notAgain

theorem decodeNoPayload_document_iff {payload : Value} (undated : payload.Undated)
    (decoded : Toml.decodeData dates payload = .ok data) :
    Toml.decodeNoPayload .document (some payload) = .ok () ↔
      Toml.decodeNoPayload .merged (some data) = .ok () := by
  cases payload with
  | table entries =>
      obtain ⟨results, rfl, each⟩ := undated.exists_table decoded
      have sameKeys := lookup_isSome_eq each
      have sameEmpty : entries = [] ↔ results = [] :=
        ⟨eq_nil_of_sameKeys sameKeys, eq_nil_of_sameKeys fun key => (sameKeys key).symm⟩
      simp only [Toml.decodeNoPayload, List.isEmpty_iff, sameEmpty]
  | array form items =>
      rw [Toml.decodeData] at decoded
      obtain ⟨results, isRead, rfl⟩ := Toml.map_eq_ok_iff.mp decoded
      cases items with
      | nil =>
          cases isRead
          exact ⟨fun _ => rfl, fun _ => rfl⟩
      | cons item rest =>
          rw [Toml.decodeDataItems] at isRead
          obtain ⟨first, _, isRead⟩ := Toml.exists_of_bind_eq_ok isRead
          obtain ⟨others, _, same⟩ := Toml.exists_of_bind_eq_ok isRead
          cases same
          constructor
          · intro isEmpty
            rcases eq_empty_of_decodeNoPayload isEmpty with same | ⟨_, same⟩ <;> cases same
          · intro isEmpty
            rcases eq_empty_of_decodeNoPayload isEmpty with same | ⟨_, same⟩ <;> cases same
  | _ =>
      cases decoded
      exact ⟨nofun, nofun⟩

/-- A choice is said by the only entry of a table exactly if its data says so. -/
theorem decodeChoice_document_iff {α : Type} {cases : List (String × α)} {choice : α}
    (undated : held.Undated) (distinct : held.Distinct)
    (decoded : Toml.decodeData dates held = .ok data) :
    Toml.decodeChoice .document cases held = .ok choice ↔
      Toml.decodeChoice .merged cases data = .ok choice := by
  cases held with
  | table entries =>
      have rising := Toml.isData_of_decodeData decoded
      obtain ⟨results, rfl, each⟩ := undated.exists_table decoded
      have sameKeys := lookup_isSome_eq each
      have samePayload (word : String) (payload read : Value)
          (isEntry : entries = [(word, payload)])
          (isResult : results = [(word, read)]) :
          Toml.decodeNoPayload .document (some payload) = .ok () ↔
            Toml.decodeNoPayload .merged (some read) = .ok () := by
        have below := each word
        rw [isEntry, isResult, List.lookup_cons_self, List.lookup_cons_self, Option.mapM_some]
          at below
        obtain ⟨_, isRead, same⟩ := Toml.exists_of_bind_eq_ok below
        cases same
        exact decodeNoPayload_document_iff
          (undated.of_lookup (isEntry ▸ List.lookup_cons_self)) isRead
      rw [decodeChoice_table_eq_ok_iff, decodeChoice_table_eq_ok_iff]
      constructor
      · rintro ⟨word, payload, isEntry, found, isEmpty⟩
        obtain ⟨read, isResult⟩ :=
          exists_single_of_sameKeys rising.distinct.keys sameKeys isEntry
        exact ⟨word, read, isResult, found,
          (samePayload word payload read isEntry isResult).mp isEmpty⟩
      · rintro ⟨word, read, isResult, found, isEmpty⟩
        obtain ⟨payload, isEntry⟩ :=
          exists_single_of_sameKeys distinct.keys (fun key => (sameKeys key).symm) isResult
        exact ⟨word, payload, isEntry, found,
          (samePayload word payload read isEntry isResult).mpr isEmpty⟩
  | array form items =>
      rw [Toml.decodeData] at decoded
      obtain ⟨results, _, rfl⟩ := Toml.map_eq_ok_iff.mp decoded
      exact ⟨nofun, nofun⟩
  | string content =>
      cases decoded
      exact Iff.rfl
  | _ =>
      cases decoded
      exact ⟨nofun, nofun⟩

/-- **A setting is read from a document as from its data**, but for a date, whose text only data
has. -/
theorem readSetting_document_iff (undated : held.Undated) (distinct : held.Distinct)
    (decoded : Toml.decodeData dates held = .ok data) (key : String) (read : Value) :
    readSetting .document key held = .ok read ↔
      readSetting .merged key data = .ok read ∧ ∀ moment, held ≠ .datetime moment := by
  unfold readSetting
  split
  · rw [Toml.map_eq_ok_iff, Toml.map_eq_ok_iff]
    constructor
    · rintro ⟨truth, isRead, same⟩
      refine ⟨⟨truth, (decodeBoolean_document_iff undated decoded).mp isRead, same⟩, ?_⟩
      rintro moment rfl
      cases isRead
    · rintro ⟨⟨truth, isRead, same⟩, _⟩
      exact ⟨truth, (decodeBoolean_document_iff undated decoded).mpr isRead, same⟩
  · split
    · rw [Toml.map_eq_ok_iff, Toml.map_eq_ok_iff]
      constructor
      · rintro ⟨choice, isRead, same⟩
        refine ⟨⟨choice, (decodeChoice_document_iff undated distinct decoded).mp isRead, same⟩, ?_⟩
        rintro moment rfl
        cases isRead
      · rintro ⟨⟨choice, isRead, same⟩, _⟩
        exact ⟨choice, (decodeChoice_document_iff undated distinct decoded).mpr isRead, same⟩
    · rw [Toml.map_eq_ok_iff, Toml.map_eq_ok_iff]
      constructor
      · rintro ⟨text, isRead, same⟩
        obtain ⟨isRead, notDate⟩ := (decodeString_document_iff undated decoded).mp isRead
        exact ⟨⟨text, isRead, same⟩, notDate⟩
      · rintro ⟨⟨text, isRead, same⟩, notDate⟩
        exact ⟨text, (decodeString_document_iff undated decoded).mpr ⟨isRead, notDate⟩, same⟩

/-- No setting of a document is a date. -/
def NoDates (source : Value) : Prop :=
  ∀ key ∈ configKeyNames, ∀ moment, source.at? (settingPath key) ≠ some (.datetime moment)

/-- A configuration follows a document in a setting exactly if it follows the data and the setting
is no date. -/
theorem follows_document_iff (undated : source.Undated) (distinct : source.Distinct)
    (decoded : Toml.decodeData dates source = .ok data) :
    Follows .document source config key ↔
      Follows .merged data config key ∧
        ∀ moment, source.at? (settingPath key) ≠ some (.datetime moment) := by
  have below := undated.mapM_at? decoded (settingPath key)
  unfold Follows
  cases found : source.at? (settingPath key) with
  | none =>
      rw [found] at below
      rw [← Except.ok.inj below]
      exact ⟨fun same => ⟨same, nofun⟩, And.left⟩
  | some held =>
      rw [found, Option.mapM_some] at below
      obtain ⟨heldData, isHeld, same⟩ := Toml.exists_of_bind_eq_ok below
      rw [← Except.ok.inj same]
      have reads := readSetting_document_iff (undated.of_at? found) (distinct.of_at? found) isHeld
      simp only [Option.elim_some, Toml.map_eq_ok_iff, reads, Option.some.injEq, ne_eq]
      constructor
      · rintro ⟨read, ⟨isRead, notDate⟩, same⟩
        exact ⟨⟨read, isRead, same⟩, notDate⟩
      · rintro ⟨⟨read, isRead, same⟩, notDate⟩
        exact ⟨read, ⟨isRead, notDate⟩, same⟩

/-- The sections of a document's data are tables if those of the document are. -/
theorem HasSections.of_decodeData {entries : List (String × Value)}
    (sections : HasSections (.table entries)) (undated : (Value.table entries).Undated)
    (decoded : Toml.decodeData dates (.table entries) = .ok data) : HasSections data := by
  obtain ⟨results, rfl, each⟩ := undated.exists_table decoded
  intro name isName held found
  have below := each name
  cases above : entries.lookup name with
  | none =>
      rw [above] at below
      cases (Except.ok.inj below).trans found
  | some value =>
      have isTable := sections name isName value above
      have undatedValue := undated.of_lookup above
      rw [above, Option.mapM_some] at below
      obtain ⟨result, isRead, same⟩ := Toml.exists_of_bind_eq_ok below
      cases (Except.ok.inj same).trans found
      cases value with
      | table content =>
          obtain ⟨_, rfl, _⟩ := undatedValue.exists_table isRead
          rfl
      | _ => cases isTable

/-- **A document is read as its data, unless a setting is a date.** -/
theorem decode_document_iff {entries : List (String × Value)}
    (undated : (Value.table entries).Undated)
    (distinct : (Value.table entries).Distinct) (sections : HasSections (.table entries))
    (decoded : Toml.decodeData dates (.table entries) = .ok data) :
    decode .document (.table entries) = .ok config ↔
      decode .merged data = .ok config ∧ NoDates (.table entries) := by
  have isData := Toml.isData_of_decodeData decoded
  have sectionsData := sections.of_decodeData undated decoded
  obtain ⟨results, rfl, _⟩ := undated.exists_table decoded
  rw [decode_eq_ok_iff distinct rfl sections, decode_eq_ok_iff isData.distinct rfl sectionsData]
  simp only [follows_document_iff undated distinct decoded, NoDates]
  exact forall₂_and

end StageManifest.Config
