import StageManifest.Proofs.Toml.Paths

/-!
# Records known by their parts

Where each field reads its value into a part of the record of its own, and the
record is known by its parts, reading entries is reading the parts one by one
(`Shape.Views.ofEntries_eq_ok_iff`): the order of the entries does not matter, and
keys that are no names of fields do not matter either.  A record that is left out
is read like an empty table (`Shape.Views.elim_decode_eq_ok_iff`).  Entries that make
no record hold a part that cannot be read, whose failure is that of the record
(`Shape.Views.exists_of_ofEntries_eq_error`).
-/

set_option autoImplicit false

namespace StageManifest.Toml.Shape

variable {σ α : Type} {shape : Shape σ} {read : String → Value → Decoded α} {part : String → σ → α}
  {record result : σ} {entries : List (String × Value)}

/-- Each field reads its value into its own part of a record, which is known by its parts. -/
structure Views (shape : Shape σ) (read : String → Value → Decoded α) (part : String → σ → α) :
    Prop where
  lenient : shape.strict = false
  reads : ∀ field ∈ shape.fields, ∀ value record changed,
    field.assign value record = .ok changed →
      read field.name value = .ok (part field.name changed)
  keeps : ∀ field ∈ shape.fields, ∀ value record changed,
    field.assign value record = .ok changed →
      ∀ name ∈ shape.names, name ≠ field.name → part name changed = part name record
  refuses : ∀ field ∈ shape.fields, ∀ value record error,
    field.assign value record = .error error → read field.name value = .error error
  ext : ∀ first second, (∀ name ∈ shape.names, part name first = part name second) → first = second

/-- A field decodes its value and puts the answer into a record, where its own part says the answer
and the other parts stay as they were. -/
structure Puts {β : Type} (shape : Shape σ) (read : String → Value → Decoded α)
    (part : String → σ → α) (field : ShapeField σ) (decode : Value → Decoded β) (put : β → σ → σ)
    (say : β → α) : Prop where
  assign : ∀ value record, field.assign value record = do return put (← decode value) record
  reads : ∀ value, read field.name value = (decode value).map say
  said : ∀ answer record, part field.name (put answer record) = say answer
  keeps : ∀ answer record, ∀ name ∈ shape.names, name ≠ field.name →
    part name (put answer record) = part name record

/-- A record is known by its parts if each field decodes its value and puts the answer into its
part. -/
theorem views_of_puts (lenient : shape.strict = false)
    (puts : ∀ field ∈ shape.fields, ∃ (β : Type) (decode : Value → Decoded β) (put : β → σ → σ)
      (say : β → α), shape.Puts read part field decode put say)
    (ext : ∀ first second, (∀ name ∈ shape.names, part name first = part name second) →
      first = second) : shape.Views read part where
  lenient := lenient
  reads := by
    intro field isField value record changed assigned
    obtain ⟨β, decode, put, say, puts⟩ := puts field isField
    rw [puts.assign] at assigned
    obtain ⟨answer, decoded, ⟨⟩⟩ := exists_of_bind_eq_ok assigned
    rw [puts.reads, puts.said, decoded]
    rfl
  keeps := by
    intro field isField value record changed assigned
    obtain ⟨β, decode, put, say, puts⟩ := puts field isField
    rw [puts.assign] at assigned
    obtain ⟨answer, decoded, ⟨⟩⟩ := exists_of_bind_eq_ok assigned
    exact puts.keeps answer record
  refuses := by
    intro field isField value record error refused
    obtain ⟨β, decode, put, say, puts⟩ := puts field isField
    rw [puts.assign] at refused
    rw [puts.reads]
    cases decoded : decode value with
    | error failure =>
        rw [decoded] at refused
        cases refused
        rfl
    | ok answer =>
        rw [decoded] at refused
        cases refused
  ext := ext

namespace Views

/-- An entry that no field has does not count. -/
theorem lookup_cons_of_find?_eq_none {key : String} {value : Value}
    (unknown : (shape.fields.find? fun field => field.name == key) = none) {name : String}
    (isName : name ∈ shape.names) :
    ((key, value) :: entries).lookup name = entries.lookup name := by
  obtain ⟨field, isField, rfl⟩ := List.mem_map.mp isName
  have different : field.name ≠ key := by simpa using List.find?_eq_none.mp unknown field isField
  rw [List.lookup_cons, beq_eq_false_iff_ne.mpr different]

/-- **Entries are read part by part**: a part is read from what the entries hold under its name, and
stays as it was if they hold nothing there. -/
theorem ofEntries_eq_ok_iff (views : shape.Views read part) (distinct : DistinctKeys entries)
    (record result : σ) :
    shape.ofEntries entries record = .ok result ↔
      ∀ name ∈ shape.names,
        (entries.lookup name).elim (.ok (part name record)) (read name) =
          .ok (part name result) := by
  induction entries generalizing record with
  | nil =>
      rw [ofEntries]
      constructor
      · rintro ⟨⟩ name _
        rfl
      · intro same
        exact congrArg Except.ok (views.ext _ _ fun name isName => Except.ok.inj (same name isName))
  | cons entry rest ih =>
      obtain ⟨key, value⟩ := entry
      obtain ⟨notAgain, distinctRest⟩ := List.nodup_cons.mp distinct
      have absent : rest.lookup key = none := by
        refine List.lookup_eq_none_iff.mpr fun pair member => bne_iff_ne.mpr fun again => ?_
        exact notAgain (List.mem_map.mpr ⟨pair, member, again.symm⟩)
      rw [ofEntries]
      split
      next unknown =>
        rw [views.lenient, if_neg Bool.false_ne_true, ih distinctRest]
        refine forall₂_congr fun name isName => ?_
        rw [lookup_cons_of_find?_eq_none unknown isName]
      next field found =>
        have isField := List.mem_of_find?_eq_some found
        obtain rfl : field.name = key := by simpa using List.find?_some found
        have isName : field.name ∈ shape.names := List.mem_map_of_mem isField
        split
        next failure fails =>
          refine ⟨by rintro ⟨⟩, fun each => ?_⟩
          have answers := each field.name isName
          rw [List.lookup_cons_self] at answers
          cases (views.refuses field isField _ _ _ fails).symm.trans answers
        next changed assigned =>
          rw [ih distinctRest]
          refine forall₂_congr fun name isName => ?_
          by_cases same : name = field.name
          · rw [same, absent, List.lookup_cons_self]
            exact Iff.of_eq (congrArg (· = _) (views.reads field isField _ _ _ assigned).symm)
          · rw [List.lookup_cons, beq_eq_false_iff_ne.mpr same,
              views.keeps field isField _ _ _ assigned name isName same]

/-- **A record that may be left out is read part by part** from the table that holds it. -/
theorem elim_decode_eq_ok_iff (views : shape.Views read part) (mode : Mode) (held : Option Value)
    (isTable : ∀ value ∈ held, value.isTable = true) (distinct : ∀ value ∈ held, value.Distinct)
    (start result : σ) :
    held.elim (.ok start) (shape.decode mode start) = .ok result ↔
      ∀ name ∈ shape.names,
        (held.bind (Value.under? name)).elim (.ok (part name start)) (read name) =
          .ok (part name result) := by
  cases held with
  | none =>
      have noKeys : DistinctKeys ([] : List (String × Value)) := List.nodup_nil
      exact views.ofEntries_eq_ok_iff noKeys start result
  | some value =>
      have isTable := isTable value rfl
      cases value with
      | table content => exact views.ofEntries_eq_ok_iff (distinct _ rfl).keys start result
      | _ => cases isTable

/-- **Entries that make no record hold a part that cannot be read**, and the failure is that of the
part. -/
theorem exists_of_ofEntries_eq_error (views : shape.Views read part)
    (distinct : DistinctKeys entries) {error : DecodeError}
    (fails : shape.ofEntries entries record = .error error) :
    ∃ name ∈ shape.names, ∃ value inner, entries.lookup name = some value ∧
      read name value = .error inner ∧ error = inner.under name := by
  induction entries generalizing record with
  | nil => cases fails
  | cons entry rest ih =>
      obtain ⟨key, value⟩ := entry
      obtain ⟨notAgain, distinctRest⟩ := List.nodup_cons.mp distinct
      have inRest {record : σ} (fails : shape.ofEntries rest record = .error error) :
          ∃ name ∈ shape.names, ∃ held inner, ((key, value) :: rest).lookup name = some held ∧
            read name held = .error inner ∧ error = inner.under name := by
        obtain ⟨name, isName, held, inner, found, refused, same⟩ := ih distinctRest fails
        have different : name ≠ key := by
          rintro rfl
          exact notAgain (List.mem_map.mpr ⟨_, mem_of_lookup found, rfl⟩)
        refine ⟨name, isName, held, inner, ?_, refused, same⟩
        rw [List.lookup_cons, beq_eq_false_iff_ne.mpr different, found]
      rw [ofEntries] at fails
      split at fails
      next unknown =>
        rw [views.lenient, if_neg Bool.false_ne_true] at fails
        exact inRest fails
      next field found =>
        have isField := List.mem_of_find?_eq_some found
        obtain rfl : field.name = key := by simpa using List.find?_some found
        split at fails
        next inner refused =>
          cases fails
          exact ⟨field.name, List.mem_map_of_mem isField, value, inner, List.lookup_cons_self,
            views.refuses field isField _ _ _ refused, rfl⟩
        next changed assigned => exact inRest fails

end Views

end StageManifest.Toml.Shape
