import Mathlib.Data.List.Nodup
import StageManifest.Entries
import StageManifest.Toml.Document

/-!
# Keys of a document

No table of a document has a key twice, at any depth (`distinct_of_readDocument`).
The tables under construction have this property from the start: an entry is
added only under a key that is not there (`Section.Distinct.append`), and whatever
else happens to a table keeps its keys or drops one of them.
-/

set_option autoImplicit false

namespace StageManifest.Toml

/-! ## Distinct keys -/

/-- The keys of entries are distinct. -/
def DistinctKeys {α : Type} (entries : List (String × α)) : Prop :=
  (entries.map (·.1)).Nodup

/-- No table of the value has a key twice. -/
inductive Value.Distinct : Value → Prop where
  | string (text : String) : Distinct (.string text)
  | integer (number : Int64) : Distinct (.integer number)
  | float (number : Binary64) : Distinct (.float number)
  | boolean (truth : Bool) : Distinct (.boolean truth)
  | datetime (moment : DateTime) : Distinct (.datetime moment)
  | array {form : ArrayForm} {items : List Value} :
      (∀ item ∈ items, item.Distinct) → Distinct (.array form items)
  | table {entries : List (String × Value)} :
      DistinctKeys entries → (∀ entry ∈ entries, entry.2.Distinct) → Distinct (.table entries)

/-- No table of the draft has a key twice. -/
inductive Draft.Distinct : Draft → Prop where
  | value {value : Value} : value.Distinct → Distinct (.value value)
  | table {content : Section Draft} :
      DistinctKeys content.entries → (∀ entry ∈ content.entries, entry.2.Distinct) →
        Distinct (.table content)
  | tables {items : List (Section Draft)} :
      (∀ item ∈ items, (Draft.table item).Distinct) → Distinct (.tables items)

/-- Neither the table under construction nor any table inside has a key twice. -/
abbrev Section.Distinct (content : Section Draft) : Prop := (Draft.table content).Distinct

theorem Value.Distinct.keys {entries : List (String × Value)}
    (distinct : (Value.table entries).Distinct) : DistinctKeys entries := by
  cases distinct with
  | table keys _ => exact keys

section Lists

variable {α : Type} {entries : List (String × α)} {key : String} {value : α}

theorem mem_of_lookup (found : entries.lookup key = some value) : (key, value) ∈ entries := by
  obtain ⟨before, after, rfl, _⟩ := List.lookup_eq_some_iff.mp found
  simp

/-- Where keys are distinct, every entry is found under its key. -/
theorem lookup_of_mem (distinct : DistinctKeys entries) (member : (key, value) ∈ entries) :
    entries.lookup key = some value := by
  cases found : entries.lookup key with
  | none => exact absurd (List.lookup_eq_none_iff.mp found _ member) (by simp)
  | some other =>
      have same := List.inj_on_of_nodup_map distinct (mem_of_lookup found) member rfl
      rw [(Prod.mk.inj same).2]

theorem distinctKeys_append (distinct : DistinctKeys entries) (isNew : entries.lookup key = none) :
    DistinctKeys (entries ++ [(key, value)]) := by
  rw [DistinctKeys, List.map_append, List.map_singleton, List.nodup_append]
  refine ⟨distinct, List.nodup_singleton _, ?_⟩
  rintro old isOld new isKey rfl
  obtain ⟨entry, isEntry, rfl⟩ := List.mem_map.mp isOld
  exact absurd (List.lookup_eq_none_iff.mp isNew entry isEntry) (by simp_all)

/-- Of pairs with distinct keys every one is among the entries made of them. -/
theorem find?_ofList_of_mem (distinct : DistinctKeys entries) (member : (key, value) ∈ entries) :
    (Entries.ofList entries).find? key = some value := by
  rw [Entries.find?_ofList]
  refine lookup_of_mem ?_ (List.mem_reverse.mpr member)
  rw [DistinctKeys, List.map_reverse]
  exact List.nodup_reverse.mpr distinct

end Lists

namespace Section.Distinct

variable {content : Section Draft} {key : String} {entry : Draft}

theorem keys (distinct : content.Distinct) : DistinctKeys content.entries := by
  cases distinct with
  | table keys _ => exact keys

theorem entries (distinct : content.Distinct) :
    ∀ entry ∈ content.entries, entry.2.Distinct := by
  cases distinct with
  | table _ entries => exact entries

theorem ofNoEntries (implicit dotted : Bool) : (⟨implicit, dotted, []⟩ : Section Draft).Distinct :=
  .table List.nodup_nil fun _ never => (List.not_mem_nil never).elim

theorem of_find? (distinct : content.Distinct) (found : content.find? key = some entry) :
    entry.Distinct :=
  distinct.entries _ (mem_of_lookup found)

theorem append (distinct : content.Distinct) (isNew : content.find? key = none)
    (added : entry.Distinct) : (content.append key entry).Distinct := by
  refine .table (distinctKeys_append distinct.keys isNew) fun other member => ?_
  rcases List.mem_append.mp member with old | new
  · exact distinct.entries other old
  · rw [List.mem_singleton.mp new]
    exact added

theorem replace (distinct : content.Distinct) (changed : entry.Distinct) :
    (content.replace key entry).Distinct := by
  have sameKeys : (content.replace key entry).entries.map (·.1) =
      content.entries.map (·.1) := by
    rw [Section.replace, List.map_map]
    refine List.map_congr_left fun pair _ => ?_
    by_cases same : pair.1 = key <;> simp [same]
  have keys : DistinctKeys (content.replace key entry).entries := by
    rw [DistinctKeys, sameKeys]
    exact distinct.keys
  refine .table keys fun other member => ?_
  obtain ⟨pair, isPair, rfl⟩ := List.mem_map.mp member
  split
  · exact changed
  · exact distinct.entries pair isPair

theorem remove (distinct : content.Distinct) : (content.remove key).Distinct :=
  .table (distinct.keys.sublist (List.filter_sublist.map _)) fun other member =>
    distinct.entries other (List.mem_of_mem_filter member)

end Section.Distinct

theorem Draft.Distinct.of_getLast? {items : List (Section Draft)} {last : Section Draft}
    (distinct : (Draft.tables items).Distinct) (isLast : items.getLast? = some last) :
    last.Distinct := by
  cases distinct with
  | tables each => exact each last (List.mem_of_getLast? isLast)

/-! ## Changes deep inside -/

/-- A change that keeps the keys of tables distinct. -/
def KeepsDistinct (change : Section Draft → Option (Section Draft)) : Prop :=
  ∀ ⦃content changed : Section Draft⦄, content.Distinct → change content = some changed →
    changed.Distinct

theorem keepsDistinct_descend {dotted : Bool} {change : Section Draft → Option (Section Draft)}
    (keeps : KeepsDistinct change) (path : List String) :
    KeepsDistinct (descend dotted change path) := by
  induction path with
  | nil => exact keeps
  | cons key path ih =>
      intro content changed distinct descended
      rw [descend] at descended
      cases found : content.find? key with
      | none =>
          simp only [found, Option.map_eq_some_iff] at descended
          obtain ⟨made, below, rfl⟩ := descended
          exact distinct.append found (ih (.ofNoEntries true dotted) below)
      | some draft =>
          have held := distinct.of_find? found
          cases draft with
          | value value => simp [found] at descended
          | table child =>
              simp only [found] at descended
              split at descended
              · cases descended
              · obtain ⟨made, below, rfl⟩ := Option.map_eq_some_iff.mp descended
                exact distinct.replace (ih held below)
          | tables items =>
              simp only [found] at descended
              split at descended
              · cases descended
              next last isLast =>
                obtain ⟨made, below, rfl⟩ := Option.map_eq_some_iff.mp descended
                refine distinct.replace (.tables fun item member => ?_)
                cases held with
                | tables each =>
                    rcases List.mem_append.mp member with old | new
                    · exact each item (List.dropLast_subset _ old)
                    · rw [List.mem_singleton.mp new]
                      exact ih (each last (List.mem_of_getLast? isLast)) below

theorem keepsDistinct_assign {value : Value} (distinct : value.Distinct) (path : List String)
    (key : String) : KeepsDistinct (assign path key value) := by
  refine keepsDistinct_descend (fun found changed distinctFound assigned => ?_) path
  split at assigned
  · cases assigned
  · split at assigned
    · cases assigned
    next isNew =>
      cases assigned
      exact distinctFound.append isNew (.value distinct)

theorem keepsDistinct_assignAll {pairs : List (List String × Value)}
    (distinct : ∀ pair ∈ pairs, pair.2.Distinct) : KeepsDistinct (assignAll pairs) := by
  induction pairs with
  | nil =>
      rintro content _ distinctContent ⟨⟩
      exact distinctContent
  | cons pair rest ih =>
      intro content changed distinctContent assigned
      simp only [assignAll, Option.bind_eq_bind, Option.bind_eq_some_iff] at assigned
      obtain ⟨⟨path, last⟩, _, next, isNext, rest⟩ := assigned
      exact ih (fun pair member => distinct pair (List.mem_cons_of_mem _ member))
        (keepsDistinct_assign (distinct pair List.mem_cons_self) path last distinctContent isNext)
        rest

/-! ## From drafts to values -/

theorem draftEntries_eq_map (entries : List (String × Draft)) :
    draftEntries entries = entries.map fun entry => (entry.1, entry.2.toValue) := by
  induction entries with
  | nil => rfl
  | cons entry rest ih => rw [draftEntries, ih, List.map_cons]

theorem draftItems_eq_map (items : List (Section Draft)) :
    draftItems items = items.map fun item => (Draft.table item).toValue := by
  induction items with
  | nil => rfl
  | cons item rest ih => rw [draftItems, ih, List.map_cons, Draft.toValue]

/-- A draft without repeated keys makes a value without repeated keys. -/
theorem Draft.Distinct.toValue {draft : Draft} (distinct : draft.Distinct) :
    draft.toValue.Distinct := by
  induction distinct with
  | value distinct => exact distinct
  | table keys _ ih =>
      rw [Draft.toValue, draftEntries_eq_map]
      refine .table (by rwa [DistinctKeys, List.map_map]) fun entry member => ?_
      obtain ⟨held, isHeld, rfl⟩ := List.mem_map.mp member
      exact ih held isHeld
  | tables _ ih =>
      rw [Draft.toValue, draftItems_eq_map]
      refine .array fun item member => ?_
      obtain ⟨held, isHeld, rfl⟩ := List.mem_map.mp member
      exact ih held isHeld

theorem distinct_of_inlineTable? {pairs : List (List String × Value)} {value : Value}
    (distinct : ∀ pair ∈ pairs, pair.2.Distinct) (made : inlineTable? pairs = some value) :
    value.Distinct := by
  obtain ⟨content, assigned, rfl⟩ := Option.map_eq_some_iff.mp made
  exact (keepsDistinct_assignAll distinct (.ofNoEntries _ _) assigned).toValue

/-! ## Values -/

theorem distinct_of_scalarOf? {text : List Char} {value : Value}
    (read : scalarOf? text = some value) : value.Distinct := by
  unfold scalarOf? at read
  split at read
  · cases read
    exact .boolean true
  split at read
  · cases read
    exact .boolean false
  split at read
  · cases read
    exact .datetime _
  split at read
  · cases read
    exact .float _
  · obtain ⟨number, _, rfl⟩ := Option.map_eq_some_iff.mp read
    exact .integer number

theorem distinct_of_readScalar? {text rest : List Char} {value : Value}
    (read : readScalar? text = some (value, rest)) : value.Distinct := by
  obtain ⟨held, isHeld, same⟩ := Option.map_eq_some_iff.mp read
  cases same
  exact distinct_of_scalarOf? isHeld

/-- What the readers of values, items and pairs answer has no key twice. -/
structure ReadsDistinct (fuel : Nat) : Prop where
  value : ∀ nesting text value rest, readValue fuel nesting text = some (value, rest) →
    value.Distinct
  items : ∀ nesting text items rest, readItems fuel nesting text = some (items, rest) →
    ∀ item ∈ items, item.Distinct
  pairs : ∀ nesting text pairs rest, readPairs fuel nesting text = some (pairs, rest) →
    ∀ pair ∈ pairs, pair.2.Distinct

theorem readsDistinct (fuel : Nat) : ReadsDistinct fuel := by
  induction fuel with
  | zero => exact ⟨nofun, nofun, nofun⟩
  | succ fuel ih =>
      constructor
      · intro nesting text value rest read
        unfold readValue at read
        split at read
        · split at read
          · cases read
          · obtain ⟨⟨items, after⟩, isRead, same⟩ := Option.map_eq_some_iff.mp read
            cases same
            exact .array (ih.items _ _ _ _ isRead)
        · split at read
          · cases read
          · simp only [Option.bind_eq_bind] at read
            split at read
            · simp only [Option.bind_some, Option.bind_eq_some_iff] at read
              obtain ⟨table, made, same⟩ := read
              cases same
              exact distinct_of_inlineTable? (List.forall_mem_nil _) made
            · simp only [Option.bind_eq_some_iff] at read
              obtain ⟨⟨pairs, after⟩, isRead, table, made, same⟩ := read
              cases same
              exact distinct_of_inlineTable? (ih.pairs _ _ _ _ isRead) made
        · obtain ⟨_, _, same⟩ := Option.map_eq_some_iff.mp read
          cases same
          exact .string _
        · obtain ⟨_, _, same⟩ := Option.map_eq_some_iff.mp read
          cases same
          exact .string _
        · exact distinct_of_readScalar? read
      · intro nesting text items rest read
        unfold readItems at read
        split at read
        · cases read
          nofun
        · simp only [Option.bind_eq_bind, Option.bind_eq_some_iff] at read
          obtain ⟨⟨item, after⟩, isItem, read⟩ := read
          have first := ih.value _ _ _ _ isItem
          split at read
          · obtain ⟨⟨more, _⟩, isRead, same⟩ := Option.map_eq_some_iff.mp read
            cases same
            exact List.forall_mem_cons.mpr ⟨first, ih.items _ _ _ _ isRead⟩
          · cases read
            exact List.forall_mem_singleton.mpr first
          · cases read
      · intro nesting text pairs rest read
        unfold readPairs at read
        simp only [Option.bind_eq_bind, Option.bind_eq_some_iff] at read
        obtain ⟨⟨key, after⟩, _, read⟩ := read
        split at read
        · simp only [Option.bind_eq_some_iff] at read
          obtain ⟨⟨value, _⟩, isValue, read⟩ := read
          have first := ih.value _ _ _ _ isValue
          split at read
          · obtain ⟨⟨more, _⟩, isRead, same⟩ := Option.map_eq_some_iff.mp read
            cases same
            exact List.forall_mem_cons.mpr ⟨first, ih.pairs _ _ _ _ isRead⟩
          · cases read
            exact List.forall_mem_singleton.mpr first
          · cases read
        · cases read

theorem distinct_of_readPair {text rest : List Char} {key : List String} {value : Value}
    (read : readPair text = some ((key, value), rest)) : value.Distinct := by
  simp only [readPair, Option.bind_eq_bind, Option.bind_eq_some_iff] at read
  obtain ⟨_, _, read⟩ := read
  split at read
  · simp only [Option.bind_eq_some_iff] at read
    obtain ⟨⟨held, _⟩, isHeld, _, _, same⟩ := read
    cases same
    exact (readsDistinct _).value _ _ _ _ isHeld
  · cases read

/-! ## Documents -/

/-- No table of a document under construction has a key twice. -/
structure Building.Distinct (building : Building) : Prop where
  root : building.root.Distinct
  current : building.current.Distinct

namespace Building.Distinct

variable {building changed : Building} {key : List String}

theorem start : Building.start.Distinct := ⟨.ofNoEntries _ _, .ofNoEntries _ _⟩

theorem close {root : Section Draft} (distinct : building.Distinct)
    (closed : building.close = some root) : root.Distinct := by
  unfold Building.close at closed
  split at closed
  · cases closed
    exact distinct.current
  · refine keepsDistinct_descend (fun parent changed distinctParent put => ?_) _ distinct.root closed
    split at put
    · split at put
      next isNew =>
        cases put
        refine distinctParent.append isNew (.tables fun item member => ?_)
        rw [List.mem_singleton.mp member]
        exact distinct.current
      next items found =>
        cases put
        refine distinctParent.replace (.tables fun item member => ?_)
        rcases List.mem_append.mp member with old | new
        · cases distinctParent.of_find? found with
          | tables each => exact each item old
        · rw [List.mem_singleton.mp new]
          exact distinct.current
      next => cases put
    · split at put
      next isNew =>
        cases put
        exact distinctParent.append isNew distinct.current
      next => cases put

theorem addPair {value : Value} (distinct : building.Distinct) (isValue : value.Distinct)
    (added : building.addPair key value = some changed) : changed.Distinct := by
  simp only [Building.addPair, Option.bind_eq_bind, Option.bind_eq_some_iff] at added
  obtain ⟨⟨path, last⟩, _, current, assigned, same⟩ := added
  cases same
  exact ⟨distinct.root, keepsDistinct_assign isValue path last distinct.current assigned⟩

theorem reach? {path : List String} {content reached : Section Draft} (distinct : content.Distinct)
    (found : Building.reach? path content = some reached) : reached.Distinct := by
  induction path generalizing content with
  | nil =>
      cases found
      exact distinct
  | cons key path ih =>
      unfold Building.reach? at found
      split at found
      · cases found
        exact .ofNoEntries _ _
      · cases found
      next child isChild => exact ih (distinct.of_find? isChild) found
      next items isItems =>
        obtain ⟨last, isLast, found⟩ := Option.bind_eq_some_iff.mp found
        exact ih ((distinct.of_find? isItems).of_getLast? isLast) found

theorem reopened? {parent : Section Draft} {last : String} {entries : List (String × Draft)}
    (distinct : parent.Distinct) (found : Building.reopened? parent last = some entries)
    (implicit dotted : Bool) : (⟨implicit, dotted, entries⟩ : Section Draft).Distinct := by
  unfold Building.reopened? at found
  split at found
  · cases found
    exact .ofNoEntries _ _
  next child isChild =>
    split at found
    · cases found
      have held : child.Distinct := distinct.of_find? isChild
      exact .table held.keys held.entries
    · cases found
  · cases found

theorem openTable (distinct : building.Distinct) (opened : building.openTable key = some changed) :
    changed.Distinct := by
  simp only [Building.openTable, Option.bind_eq_bind, Option.bind_eq_some_iff] at opened
  obtain ⟨closed, isClosed, ⟨path, last⟩, _, parent, isParent, entries, isReopened, root, removed,
    same⟩ := opened
  cases same
  have distinctClosed := distinct.close isClosed
  refine ⟨keepsDistinct_descend ?_ path distinctClosed removed,
    reopened? (reach? distinctClosed isParent) isReopened _ _⟩
  rintro content _ distinctContent ⟨⟩
  exact distinctContent.remove

theorem openItem (distinct : building.Distinct) (opened : building.openItem key = some changed) :
    changed.Distinct := by
  simp only [Building.openItem, Option.bind_eq_bind, Option.bind_eq_some_iff] at opened
  obtain ⟨closed, isClosed, ⟨path, last⟩, _, root, isRoot, same⟩ := opened
  cases same
  refine ⟨keepsDistinct_descend (fun parent changed distinctParent put => ?_) path
    (distinct.close isClosed) isRoot, .ofNoEntries _ _⟩
  split at put
  next isNew =>
    cases put
    exact distinctParent.append isNew (.tables nofun)
  next =>
    cases put
    exact distinctParent
  next => cases put

theorem readStatements {fuel : Nat} {text : List Char} (distinct : building.Distinct)
    (read : Toml.readStatements fuel building text = some changed) : changed.Distinct := by
  induction fuel generalizing building text with
  | zero => cases read
  | succ fuel ih =>
      unfold Toml.readStatements at read
      split at read
      · cases read
        exact distinct
      · obtain ⟨_, _, read⟩ := Option.bind_eq_some_iff.mp read
        exact ih distinct read
      · exact ih distinct read
      · exact ih distinct read
      · simp only [Option.bind_eq_bind, Option.bind_eq_some_iff] at read
        obtain ⟨⟨key, rest⟩, _, next, opened, read⟩ := read
        exact ih (distinct.openItem opened) read
      · simp only [Option.bind_eq_bind, Option.bind_eq_some_iff] at read
        obtain ⟨⟨key, rest⟩, _, next, opened, read⟩ := read
        exact ih (distinct.openTable opened) read
      · simp only [Option.bind_eq_bind, Option.bind_eq_some_iff] at read
        obtain ⟨⟨⟨key, value⟩, rest⟩, isPair, next, added, read⟩ := read
        exact ih (distinct.addPair (distinct_of_readPair isPair) added) read

end Building.Distinct

/-- **No table of a document has a key twice.** -/
theorem distinct_of_readDocument {text : String} {entries : List (String × Value)}
    (read : readDocument text = some entries) : (Value.table entries).Distinct := by
  obtain ⟨building, isRead, finished⟩ := Option.bind_eq_some_iff.mp read
  obtain ⟨root, closed, rfl⟩ := Option.map_eq_some_iff.mp finished
  exact ((Building.Distinct.start.readStatements isRead).close closed).toValue

end StageManifest.Toml
