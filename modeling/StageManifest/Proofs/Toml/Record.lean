import Mathlib.Data.List.Forall2
import StageManifest.Proofs.Toml.Distinct
import StageManifest.Toml.Decode

/-!
# Records read from values

A record is read from the entries of a table or from the items of an array, which
stand for the fields in their order; either way the value has members under the
names of fields (`members`).  Where no key comes twice, what a member sets in the
record stays set, because no other field changes it
(`Shape.assigned_of_decode`).  A change of the members that no field notices
does not change the record (`Shape.decode_changeMembers`).
-/

set_option autoImplicit false

namespace StageManifest.Toml

/-! ## Members -/

/-- The members of a value under the names of fields, in whose order an array lists them. -/
def members (names : List String) : Value → List (String × Value)
  | .table entries => entries
  | .array _ items => names.zip items
  | _ => []

/-- Items in which those that stand for fields are changed, each in its own way. -/
def changeItems (change : String → Value → Value) : (names : List String) → List Value → List Value
  | name :: names, item :: items => change name item :: changeItems change names items
  | _, items => items

/-- A value in which each member is changed in its own way. -/
def changeMembers (names : List String) (change : String → Value → Value) : Value → Value
  | .table entries => .table (entries.map fun entry => (entry.1, change entry.1 entry.2))
  | .array form items => .array form (changeItems change names items)
  | value => value

theorem length_changeItems (change : String → Value → Value) (names : List String)
    (items : List Value) : (changeItems change names items).length = items.length := by
  fun_induction changeItems change names items with
  | case1 name names item items ih => rw [List.length_cons, ih, List.length_cons]
  | case2 => rfl

theorem Value.Distinct.of_mem_members {names : List String} {value held : Value} {key : String}
    (distinct : value.Distinct) (member : (key, held) ∈ members names value) : held.Distinct := by
  cases distinct with
  | table _ each => exact each _ member
  | array each => exact each held (List.of_mem_zip member).2
  | _ => cases member

/-! ## Lists and maps -/

/-- What goes on from an answer and succeeds had that answer. -/
theorem exists_of_bind_eq_ok {ε α β : Type} {work : Except ε α} {next : α → Except ε β} {answer : β}
    (succeeds : (work >>= next) = .ok answer) :
    ∃ first, work = .ok first ∧ next first = .ok answer := by
  cases work with
  | error failure => cases succeeds
  | ok first => exact ⟨first, rfl, succeeds⟩

/-- What an answer is changed into had that answer. -/
theorem map_eq_ok_iff {ε α β : Type} {work : Except ε α} {change : α → β} {answer : β} :
    work.map change = .ok answer ↔ ∃ first, work = .ok first ∧ change first = answer := by
  cases work with
  | error failure => exact ⟨nofun, by rintro ⟨_, ⟨⟩, _⟩⟩
  | ok first =>
      constructor
      · rintro ⟨⟩
        exact ⟨first, rfl, rfl⟩
      · rintro ⟨_, ⟨⟩, rfl⟩
        rfl

/-- Changing answers does not change a failure. -/
theorem map_eq_error_iff {ε α β : Type} {work : Except ε α} {change : α → β} {failure : ε} :
    work.map change = .error failure ↔ work = .error failure := by
  cases work with
  | error first => exact ⟨fun same => by cases same; rfl, fun same => by cases same; rfl⟩
  | ok first => exact ⟨nofun, nofun⟩

/-- Telling a failure in other words does not change an answer. -/
theorem mapError_eq_ok_iff {ε ε' α : Type} {work : Except ε α} {tell : ε → ε'} {answer : α} :
    work.mapError tell = .ok answer ↔ work = .ok answer := by
  cases work with
  | error failure => exact ⟨nofun, nofun⟩
  | ok first =>
      exact ⟨fun same => congrArg Except.ok (Except.ok.inj same), fun same => by rw [same]; rfl⟩

/-- A failure in other words is a failure. -/
theorem mapError_eq_error_iff {ε ε' α : Type} {work : Except ε α} {tell : ε → ε'} {failure : ε'} :
    work.mapError tell = .error failure ↔ ∃ first, work = .error first ∧ tell first = failure := by
  cases work with
  | error first =>
      constructor
      · rintro ⟨⟩
        exact ⟨first, rfl, rfl⟩
      · rintro ⟨_, ⟨⟩, rfl⟩
        rfl
  | ok answer => exact ⟨nofun, by rintro ⟨_, ⟨⟩, _⟩⟩

theorem exists_of_mapM_ok {ε α β : Type} {work : α → Except ε β} {items : List α}
    {results : List β} (done : items.mapM work = .ok results) {item : α} (member : item ∈ items) :
    ∃ result ∈ results, work item = .ok result := by
  induction items generalizing results with
  | nil => cases member
  | cons first rest ih =>
      rw [List.mapM_cons] at done
      obtain ⟨answer, isFirst, done⟩ := exists_of_bind_eq_ok done
      obtain ⟨answers, isRest, done⟩ := exists_of_bind_eq_ok done
      cases done
      rcases List.mem_cons.mp member with rfl | member
      · exact ⟨answer, List.mem_cons_self, isFirst⟩
      · obtain ⟨result, isResult, same⟩ := ih isRest member
        exact ⟨result, List.mem_cons_of_mem _ isResult, same⟩

/-- What is related to the answers of a reading, one by one, is related to what was read. -/
theorem forall₂_of_mapM_ok {ε α β γ : Type} {work : α → Except ε β} {related : β → γ → Prop}
    {items : List α} {results : List β} {others : List γ} (done : items.mapM work = .ok results)
    (each : List.Forall₂ related results others) :
    List.Forall₂ (fun item other => ∃ result, work item = .ok result ∧ related result other)
      items others := by
  induction items generalizing results others with
  | nil =>
      cases done
      cases each
      exact .nil
  | cons item rest ih =>
      rw [List.mapM_cons] at done
      obtain ⟨result, isFirst, done⟩ := exists_of_bind_eq_ok done
      obtain ⟨results, isRest, done⟩ := exists_of_bind_eq_ok done
      cases done
      cases each with
      | cons first each => exact .cons ⟨result, isFirst, first⟩ (ih isRest each)

theorem exists_of_mapM_some {α β : Type} {reading : α → Option β} {items : List α}
    {results : List β} (done : items.mapM reading = some results) {item : α}
    (member : item ∈ items) : ∃ result ∈ results, reading item = some result := by
  induction items generalizing results with
  | nil => cases member
  | cons first rest ih =>
      simp only [List.mapM_cons, Option.bind_eq_bind, Option.bind_eq_some_iff] at done
      obtain ⟨answer, isFirst, answers, isRest, same⟩ := done
      cases same
      rcases List.mem_cons.mp member with rfl | member
      · exact ⟨answer, List.mem_cons_self, isFirst⟩
      · obtain ⟨result, isResult, same⟩ := ih isRest member
        exact ⟨result, List.mem_cons_of_mem _ isResult, same⟩

/-- A map has the keys of the entries it is read from, and every entry was read. -/
theorem decodeEntries_eq_ok {α : Type} {entry : Value → Decoded α}
    {entries : List (String × Value)} {results : List (String × α)}
    (decoded : decodeEntries entry entries = .ok results) :
    results.map (·.1) = entries.map (·.1) ∧
      ∀ member ∈ entries, ∃ result, entry member.2 = .ok result ∧ (member.1, result) ∈ results := by
  induction entries generalizing results with
  | nil =>
      cases decoded
      exact ⟨rfl, List.forall_mem_nil _⟩
  | cons first rest ih =>
      unfold decodeEntries at decoded
      split at decoded
      · cases decoded
      next answer isFirst =>
        cases isRest : decodeEntries entry rest with
        | error failure =>
            rw [isRest] at decoded
            cases decoded
        | ok answers =>
            rw [isRest] at decoded
            cases decoded
            obtain ⟨keys, each⟩ := ih isRest
            refine ⟨by rw [List.map_cons, List.map_cons, keys], List.forall_mem_cons.mpr ⟨?_, ?_⟩⟩
            · exact ⟨answer, isFirst, List.mem_cons_self⟩
            · intro member isMember
              obtain ⟨result, same, isResult⟩ := each member isMember
              exact ⟨result, same, List.mem_cons_of_mem _ isResult⟩

theorem decodeEntries_map {α : Type} {change : Value → Value} {entry : Value → Decoded α}
    (same : ∀ value, entry (change value) = entry value) (entries : List (String × Value)) :
    decodeEntries entry (entries.map fun pair => (pair.1, change pair.2)) =
      decodeEntries entry entries := by
  induction entries with
  | nil => rfl
  | cons first rest ih => simp only [List.map_cons, decodeEntries, same, ih]

/-! ## Records -/

namespace Shape

variable {σ : Type} {shape : Shape σ} {record result : σ} {key : String} {value : Value}

/-- The names of the fields. -/
def names (shape : Shape σ) : List String := shape.fields.map (·.name)

/-- A property of records that fields with another name keep. -/
def OthersKeep (shape : Shape σ) (name : String) (holds : σ → Prop) : Prop :=
  ∀ field ∈ shape.fields, field.name ≠ name → ∀ value before after,
    field.assign value before = .ok after → holds before → holds after

/-- Some field with the name was assigned the value, and what only this field can change holds of
the result as soon as it held after the assignment. -/
def Assigned (shape : Shape σ) (name : String) (value : Value) (result : σ) : Prop :=
  ∃ field ∈ shape.fields, field.name = name ∧ ∃ before after,
    field.assign value before = .ok after ∧
      ∀ holds, shape.OthersKeep name holds → holds after → holds result

theorem Assigned.exists_assign {field : ShapeField σ}
    (assigned : shape.Assigned field.name value result) (nodup : shape.names.Nodup)
    (isField : field ∈ shape.fields) :
    ∃ before after, field.assign value before = .ok after ∧
      ∀ holds, shape.OthersKeep field.name holds → holds after → holds result := by
  obtain ⟨other, isOther, isName, assigned⟩ := assigned
  exact List.inj_on_of_nodup_map nodup isOther isField isName ▸ assigned

/-- A strict record is read only from keys that are names of fields. -/
theorem key_mem_names {entries : List (String × Value)} (strict : shape.strict = true)
    (decoded : shape.ofEntries entries record = .ok result) :
    ∀ entry ∈ entries, entry.1 ∈ shape.names := by
  induction entries generalizing record with
  | nil => exact List.forall_mem_nil _
  | cons entry rest ih =>
      unfold ofEntries at decoded
      split at decoded
      · rw [if_pos strict] at decoded
        cases decoded
      next field found =>
        have isName : field.name = entry.1 := by simpa using List.find?_some found
        split at decoded
        · cases decoded
        · exact List.forall_mem_cons.mpr
            ⟨isName ▸ List.mem_map_of_mem (List.mem_of_find?_eq_some found), ih decoded⟩

/-- Entries with other keys keep what only one field can change. -/
theorem OthersKeep.ofEntries {holds : σ → Prop} (keeps : shape.OthersKeep key holds)
    {entries : List (String × Value)} (others : ∀ entry ∈ entries, entry.1 ≠ key)
    (decoded : shape.ofEntries entries record = .ok result) (start : holds record) :
    holds result := by
  induction entries generalizing record with
  | nil =>
      cases decoded
      exact start
  | cons entry rest ih =>
      obtain ⟨other, others⟩ := List.forall_mem_cons.mp others
      unfold Shape.ofEntries at decoded
      split at decoded
      · split at decoded
        · cases decoded
        · exact ih others decoded start
      next field found =>
        have isName : field.name = entry.1 := by simpa using List.find?_some found
        split at decoded
        · cases decoded
        next changed assigned =>
          exact ih others decoded (keeps field (List.mem_of_find?_eq_some found)
            (isName ▸ other) _ _ _ assigned start)

theorem assigned_of_ofEntries {entries : List (String × Value)} (strict : shape.strict = true)
    (distinct : DistinctKeys entries) (decoded : shape.ofEntries entries record = .ok result)
    (member : (key, value) ∈ entries) : shape.Assigned key value result := by
  induction entries generalizing record with
  | nil => cases member
  | cons entry rest ih =>
      obtain ⟨notAgain, distinct⟩ := List.nodup_cons.mp distinct
      unfold ofEntries at decoded
      split at decoded
      · rw [if_pos strict] at decoded
        cases decoded
      next field found =>
        split at decoded
        · cases decoded
        next changed assigned =>
          rcases List.mem_cons.mp member with rfl | member
          · have isName : field.name = key := by simpa using List.find?_some found
            refine ⟨field, List.mem_of_find?_eq_some found, isName, record, changed, assigned, ?_⟩
            refine fun holds keeps => keeps.ofEntries (fun entry isEntry same => ?_) decoded
            exact notAgain (List.mem_map.mpr ⟨entry, isEntry, same⟩)
          · exact ih distinct decoded member

/-- Items for other fields keep what only one field can change. -/
theorem OthersKeep.ofItems {holds : σ → Prop} (keeps : shape.OthersKeep key holds)
    {fields : List (ShapeField σ)} (isField : fields ⊆ shape.fields)
    (others : ∀ field ∈ fields, field.name ≠ key) {position left : Nat} {items : List Value}
    (decoded : shape.ofItems position fields items record = .ok (result, left))
    (start : holds record) : holds result := by
  fun_induction Shape.ofItems shape position fields items record with
  | case1 =>
      cases decoded
      exact start
  | case2 => cases decoded
  | case3 position field fields item items record changed assigned ih =>
      obtain ⟨other, others⟩ := List.forall_mem_cons.mp others
      have first := List.cons_subset.mp isField
      exact ih first.2 others decoded (keeps field first.1 other _ _ _ assigned start)
  | case4 position field fields record optional ih =>
      exact ih (List.cons_subset.mp isField).2 (List.forall_mem_cons.mp others).2 decoded start
  | case5 => cases decoded

theorem assigned_of_ofItems {fields : List (ShapeField σ)} (isField : fields ⊆ shape.fields)
    (nodup : (fields.map (·.name)).Nodup) {position left : Nat} {items : List Value}
    (decoded : shape.ofItems position fields items record = .ok (result, left))
    (member : (key, value) ∈ (fields.map (·.name)).zip items) :
    shape.Assigned key value result := by
  fun_induction Shape.ofItems shape position fields items record with
  | case1 => cases member
  | case2 => cases decoded
  | case3 position field fields item items record changed assigned ih =>
      obtain ⟨notAgain, nodup⟩ := List.nodup_cons.mp nodup
      have first := List.cons_subset.mp isField
      rcases List.mem_cons.mp member with same | member
      · cases same
        refine ⟨field, first.1, rfl, record, changed, assigned, ?_⟩
        refine fun holds keeps => keeps.ofItems first.2 (fun other isOther same => ?_) decoded
        exact notAgain (List.mem_map.mpr ⟨other, isOther, same⟩)
      · exact ih first.2 nodup decoded member
  | case4 => cases member
  | case5 => cases decoded

/-- **Every member of a value is assigned to its field**, and no other field changes what it sets
there. -/
theorem assigned_of_decode {mode : Mode} {source : Value} (strict : shape.strict = true)
    (nodup : shape.names.Nodup) (distinct : source.Distinct)
    (decoded : shape.decode mode record source = .ok result)
    (member : (key, value) ∈ members shape.names source) : shape.Assigned key value result := by
  cases distinct with
  | table keys _ => exact assigned_of_ofEntries strict keys decoded member
  | @array form items _ =>
      simp only [decode, bind, Except.bind] at decoded
      split at decoded
      · cases decoded
      next answer read =>
        split at decoded
        · cases decoded
        · cases decoded
          exact assigned_of_ofItems (List.Subset.refl _) nodup read member
  | _ => cases member

/-! ## Members that no field tells apart -/

section Changed

variable {change : String → Value → Value}

theorem ofEntries_map
    (same : ∀ field ∈ shape.fields, ∀ value record,
      field.assign (change field.name value) record = field.assign value record)
    (entries : List (String × Value)) (record : σ) :
    shape.ofEntries (entries.map fun entry => (entry.1, change entry.1 entry.2)) record =
      shape.ofEntries entries record := by
  induction entries generalizing record with
  | nil => rfl
  | cons entry rest ih =>
      simp only [List.map_cons, ofEntries, ih]
      split
      · rfl
      next field found =>
        have isName : field.name = entry.1 := by simpa using List.find?_some found
        rw [← isName, same field (List.mem_of_find?_eq_some found)]

theorem ofItems_changeItems {fields : List (ShapeField σ)}
    (same : ∀ field ∈ fields, ∀ value record,
      field.assign (change field.name value) record = field.assign value record)
    (position : Nat) (items : List Value) (record : σ) :
    shape.ofItems position fields (changeItems change (fields.map (·.name)) items) record =
      shape.ofItems position fields items record := by
  induction fields generalizing position items record with
  | nil => rw [List.map_nil, changeItems]; nofun
  | cons field fields ih =>
      obtain ⟨first, others⟩ := List.forall_mem_cons.mp same
      cases items with
      | nil => rfl
      | cons item items =>
          simp only [List.map_cons, changeItems, ofItems, first, ih others]

/-- **A record does not notice changes of members that no field notices.** -/
theorem decode_changeMembers {mode : Mode}
    (same : ∀ field ∈ shape.fields, ∀ value record,
      field.assign (change field.name value) record = field.assign value record)
    (source : Value) :
    shape.decode mode record (changeMembers shape.names change source) =
      shape.decode mode record source := by
  cases source with
  | table entries => exact ofEntries_map same entries record
  | array form items =>
      simp only [changeMembers, decode, names, ofItems_changeItems same, length_changeItems]
  | _ => rfl

end Changed

end Shape

end StageManifest.Toml
