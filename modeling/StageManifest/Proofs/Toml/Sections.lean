import StageManifest.Proofs.Toml.Integers
import StageManifest.Proofs.Toml.Strings
import StageManifest.Toml.Document

/-!
# Reading written pairs and sections

A document of pairs or of sections that hold strings, integers and truth values is
read back with all its entries in their order (`Toml.readDocument_pairs`,
`Toml.readDocument_sections`).  It is read statement by statement: what a statement
leads to is said once for a pair and once for a header, whatever follows it
(`Toml.Leads`).
-/

set_option autoImplicit false

namespace StageManifest.Toml

variable {layout : Layout} {key name : String} {value : Value}

/-! ## Plain values -/

/-- A value that is a string, an integer or a truth value. -/
def Value.IsPlain : Value → Prop
  | .string _ => True
  | .integer _ => True
  | .boolean _ => True
  | _ => False

@[simp]
theorem Value.isPlain_string (text : String) : (Value.string text).IsPlain := trivial

@[simp]
theorem Value.isPlain_integer (number : Int64) : (Value.integer number).IsPlain := trivial

@[simp]
theorem Value.isPlain_boolean (truth : Bool) : (Value.boolean truth).IsPlain := trivial

theorem not_isSection_of_isPlain (plain : value.IsPlain) : isSection value = false := by
  cases value with
  | string text => rfl
  | integer number => rfl
  | boolean truth => rfl
  | _ => exact plain.elim

/-! ## Starts -/

/-- A character that a written key or a plain value may start with. -/
def IsStart (character : Char) : Prop :=
  isBareKeyCharacter character = true ∨ character = '"' ∨ character = '\x27'

instance : DecidablePred IsStart := fun character =>
  inferInstanceAs (Decidable (isBareKeyCharacter character = true ∨ character = '"' ∨
    character = '\x27'))

theorem IsStart.ne {first other : Char} (isStart : IsStart first) (notStart : ¬ IsStart other) :
    first ≠ other := by
  rintro rfl
  exact notStart isStart

theorem exists_head_quoteAs (form : QuoteForm) (text : List Char) :
    ∃ quote more, quoteAs form text = quote :: more ∧ (quote = '"' ∨ quote = '\x27') := by
  cases form with
  | basic => exact ⟨_, _, rfl, .inl rfl⟩
  | literal => exact ⟨_, _, rfl, .inr rfl⟩
  | multilineBasic => exact ⟨_, _, rfl, .inl rfl⟩
  | multilineLiteral => exact ⟨_, _, rfl, .inr rfl⟩

theorem exists_head_quoteKey (key : String) :
    ∃ first more, (quoteKey key).toList = first :: more ∧ IsStart first := by
  unfold quoteKey
  split
  next bare =>
    rw [isBareKey, Bool.and_eq_true, Bool.not_eq_true', List.isEmpty_eq_false_iff,
      List.all_eq_true] at bare
    obtain ⟨first, more, starts⟩ := List.exists_cons_of_ne_nil bare.1
    exact ⟨first, more, starts, .inl (bare.2 first (starts ▸ List.mem_cons_self))⟩
  · rw [String.toList_ofList]
    obtain ⟨quote, more, starts, isQuote⟩ := exists_head_quoteAs (keyForm key.toList) key.toList
    exact ⟨quote, more, starts, .inr isQuote⟩

theorem exists_head_valueText (layout : Layout) (plain : value.IsPlain) :
    ∃ first more, (valueText layout value).toList = first :: more ∧ IsStart first := by
  cases value with
  | string text =>
      rw [valueText, quoteValue, String.toList_ofList]
      obtain ⟨quote, more, starts, isQuote⟩ :=
        exists_head_quoteAs (valueForm text.toList) text.toList
      exact ⟨quote, more, starts, .inr isQuote⟩
  | integer number =>
      obtain ⟨first, more, starts, isFirst, _⟩ := exists_head_repr number.toInt
      rw [valueText]
      refine ⟨first, more, starts, .inl ?_⟩
      rcases isFirst with rfl | isDigit
      · rfl
      · simp [isBareKeyCharacter, Char.isAlphanum, isDigit]
  | boolean truth =>
      rw [valueText]
      cases truth with
      | true => exact ⟨_, _, rfl, .inl (by decide)⟩
      | false => exact ⟨_, _, rfl, .inl (by decide)⟩
  | _ => exact plain.elim

theorem skipBlank_of_isStart {first : Char} (isStart : IsStart first) (rest : List Char) :
    skipBlank (first :: rest) = first :: rest := by
  rw [skipBlank, List.dropWhile_cons, if_neg]
  have notSpace : first ≠ ' ' := isStart.ne (by decide)
  have notTab : first ≠ '\t' := isStart.ne (by decide)
  simp [notSpace, notTab]

/-! ## Keys and values -/

/-- A key of one part is read up to what follows it. -/
theorem readKey_quoteKey (key : String) {rest : List Char}
    (ends : ∀ first ∈ rest.head?, isBareKeyCharacter first = false)
    (notDot : ∀ more, skipBlank rest ≠ '.' :: more) :
    readKey ((quoteKey key).toList ++ rest) = some ([key], skipBlank rest) := by
  obtain ⟨head, more, starts, isStart⟩ := exists_head_quoteKey key
  have skipped : skipBlank ((quoteKey key).toList ++ rest) = (quoteKey key).toList ++ rest := by
    rw [starts, List.cons_append, skipBlank_of_isStart isStart]
  have limit : nestingLimit = 78 + 1 := rfl
  rw [readKey, limit, readKeyParts, skipped, readSimpleKey_quoteKey key ends]
  simp only [Option.bind_eq_bind, Option.bind_some, String.ofList_toList]

/-- A text that starts with a dash or a digit is a plain scalar. -/
theorem readWholeValue_of_isNumber {first : Char} (isFirst : first = '-' ∨ first.isDigit = true)
    (rest : List Char) : readWholeValue (first :: rest) = readScalar? (first :: rest) := by
  have notOpening : ∀ other, other ≠ '-' → other.isDigit = false →
      ∀ more, first :: rest = other :: more → False := by
    rintro other notSign notDigit more same
    obtain ⟨rfl, -⟩ := List.cons.inj same
    exact isFirst.elim notSign (Bool.false_ne_true ∘ notDigit.symm.trans)
  rw [readWholeValue, readValue]
  · exact notOpening '[' (by decide) rfl
  · exact notOpening '\x7b' (by decide) rfl
  · exact notOpening '"' (by decide) rfl
  · exact notOpening '\x27' (by decide) rfl

/-- A string is read from its expression, at any depth. -/
theorem readValue_quoteValue (fuel nesting : Nat) (text : String) {rest : List Char}
    (endsDouble : rest.head? ≠ some '"') (endsSingle : rest.head? ≠ some '\x27') :
    readValue (fuel + 1) nesting ((quoteValue text).toList ++ rest) =
      some (.string text, rest) := by
  have read := readString_quoteValue text rest endsDouble endsSingle
  obtain ⟨quote, more, starts, isQuote⟩ := exists_head_quoteAs (valueForm text.toList) text.toList
  have written : (quoteValue text).toList = quote :: more := by
    rw [quoteValue, String.toList_ofList, starts]
  rw [written, List.cons_append] at read ⊢
  rcases isQuote with rfl | rfl
  · simp only [readValue, read, Option.map_some, String.ofList_toList]
  · simp only [readValue, read, Option.map_some, String.ofList_toList]

/-- A plain value is read up to the end of its line. -/
theorem readWholeValue_valueText (plain : value.IsPlain) (rest : List Char) :
    readWholeValue ((valueText layout value).toList ++ '\n' :: rest) =
      some (value, '\n' :: rest) := by
  cases value with
  | string text =>
      rw [valueText, readWholeValue]
      exact readValue_quoteValue _ _ text (by simp) (by simp)
  | integer number =>
      have read := readScalar?_repr number rest
      obtain ⟨first, more, starts, isFirst, _⟩ := exists_head_repr number.toInt
      rw [starts, List.cons_append] at read
      rw [valueText, starts, List.cons_append, readWholeValue_of_isNumber isFirst, read]
  | boolean truth =>
      rw [valueText]
      cases truth with
      | true => rfl
      | false => rfl
  | _ => exact plain.elim

/-! ## Statements -/

/-- The line of an entry. -/
def pairLine (layout : Layout) (pair : String × Value) : List Char :=
  (quoteKey pair.1).toList ++ ' ' :: '=' :: ' ' :: ((valueText layout pair.2).toList ++ ['\n'])

/-- The line of a header. -/
def headerLine (name : String) : List Char :=
  '[' :: ((quoteKey name).toList ++ [']', '\n'])

/-- The text of a section: its header with its lines. -/
def sectionText (layout : Layout) (entry : String × List (String × Value)) : List Char :=
  headerLine entry.1 ++ entry.2.flatMap (pairLine layout)

theorem readPair_line (layout : Layout) (key : String) (plain : value.IsPlain) (rest : List Char) :
    readPair (pairLine layout (key, value) ++ rest) = some (([key], value), rest) := by
  obtain ⟨first, more, starts, isStart⟩ := exists_head_valueText layout plain
  have skipped : skipBlank (' ' :: ((valueText layout value).toList ++ '\n' :: rest)) =
      (valueText layout value).toList ++ '\n' :: rest := by
    rw [starts, List.cons_append]
    exact skipBlank_of_isStart isStart _
  have line : pairLine layout (key, value) ++ rest =
      (quoteKey key).toList ++
        ' ' :: '=' :: ' ' :: ((valueText layout value).toList ++ '\n' :: rest) := by
    simp [pairLine]
  have afterKey : skipBlank (' ' :: '=' :: ' ' :: ((valueText layout value).toList ++ '\n' :: rest)) =
      '=' :: ' ' :: ((valueText layout value).toList ++ '\n' :: rest) := rfl
  rw [line, readPair, readKey_quoteKey key (by simp; decide) (by rw [afterKey]; simp), afterKey]
  simp only [Option.bind_eq_bind, Option.bind_some, skipped, readWholeValue_valueText plain]
  rfl

theorem readTableHeader_line (name : String) (rest : List Char) :
    readTableHeader ((quoteKey name).toList ++ ']' :: '\n' :: rest) = some ([name], rest) := by
  have afterKey : skipBlank (']' :: '\n' :: rest) = ']' :: '\n' :: rest := rfl
  rw [readTableHeader, readKey_quoteKey name (by simp; decide) (by rw [afterKey]; simp), afterKey]
  rfl

/-! ## What statements lead to -/

/-- Reading the text leads from one document under construction to another. -/
def Leads (building : Building) (text : List Char) (last : Building) : Prop :=
  ∀ fuel, text.length < fuel → readStatements fuel building text = some last

namespace Leads

variable {building next last : Building} {text rest : List Char}

theorem nil (building : Building) : Leads building [] building := by
  rintro (_ | fuel) room
  · exact (Nat.not_lt_zero _ room).elim
  · rfl

theorem lineFeed (leads : Leads building rest last) : Leads building ('\n' :: rest) last := by
  rintro (_ | fuel) room
  · exact (Nat.not_lt_zero _ room).elim
  · exact leads fuel (Nat.lt_of_succ_lt_succ room)

/-- A line with a pair adds it. -/
theorem pair (plain : value.IsPlain) (added : building.addPair [key] value = some next)
    (leads : Leads next rest last) :
    Leads building (pairLine layout (key, value) ++ rest) last := by
  rintro (_ | fuel) room
  · exact (Nat.not_lt_zero _ room).elim
  · obtain ⟨first, more, starts, isStart⟩ := exists_head_quoteKey key
    have read := readPair_line layout key plain rest
    obtain ⟨tail, line⟩ : ∃ tail, pairLine layout (key, value) ++ rest = first :: tail := by
      rw [pairLine, starts]
      exact ⟨_, rfl⟩
    have shorter : rest.length < fuel := by
      have lengths := congrArg List.length line
      rw [pairLine] at room
      simp only [List.length_append, List.length_cons] at room
      omega
    rw [line] at read ⊢
    rw [readStatements, skipBlank_of_isStart isStart]
    split
    next never => cases never
    next same => exact (isStart.ne (by decide) (List.cons.inj same).1).elim
    next same => exact (isStart.ne (by decide) (List.cons.inj same).1).elim
    next same => exact (isStart.ne (by decide) (List.cons.inj same).1).elim
    next same => exact (isStart.ne (by decide) (List.cons.inj same).1).elim
    next same => exact (isStart.ne (by decide) (List.cons.inj same).1).elim
    · simp only [read, added, Option.bind_eq_bind, Option.bind_some]
      exact leads fuel shorter

/-- A line with a header opens its table. -/
theorem header (opened : building.openTable [name] = some next) (leads : Leads next rest last) :
    Leads building (headerLine name ++ rest) last := by
  rintro (_ | fuel) room
  · exact (Nat.not_lt_zero _ room).elim
  · have read := readTableHeader_line name rest
    have line : headerLine name ++ rest = '[' :: ((quoteKey name).toList ++ ']' :: '\n' :: rest) := by
      simp [headerLine]
    have shorter : rest.length < fuel := by
      rw [line] at room
      simp only [List.length_append, List.length_cons] at room
      omega
    have notBlank : skipBlank ('[' :: ((quoteKey name).toList ++ ']' :: '\n' :: rest)) =
      '[' :: ((quoteKey name).toList ++ ']' :: '\n' :: rest) := rfl
    rw [line, readStatements, notBlank]
    split
    next never => cases never
    next same => cases same
    next same => cases same
    next same => cases same
    next same =>
      -- A key does not start with a bracket.
      obtain ⟨first, more, starts, isStart⟩ := exists_head_quoteKey name
      rw [starts] at same
      exact (isStart.ne (by decide) (List.cons.inj (List.cons.inj same).2).1).elim
    next same =>
      cases same
      simp only [read, opened, Option.bind_eq_bind, Option.bind_some]
      exact leads fuel shorter
    next never => exact (never _ rfl).elim

end Leads

/-! ## Tables of plain entries -/

/-- The table that pairs make. -/
def ofPairs (pairs : List (String × Value)) : Section Draft :=
  ⟨false, false, pairs.map fun pair => (pair.1, .value pair.2)⟩

/-- The document that sections make. -/
def ofSections (sections : List (String × List (String × Value))) : Section Draft :=
  ⟨false, false, sections.map fun entry => (entry.1, .table (ofPairs entry.2))⟩

theorem lookup_map_eq_none {α β : Type} (change : α → β) {entries : List (String × α)}
    (fresh : key ∉ entries.map (·.1)) :
    (entries.map fun entry => (entry.1, change entry.2)).lookup key = none := by
  rw [List.lookup_eq_none_iff]
  intro entry member
  obtain ⟨original, isOriginal, rfl⟩ := List.mem_map.mp member
  rw [bne_iff_ne]
  rintro rfl
  exact fresh (List.mem_map_of_mem isOriginal)

/-- Where keys are distinct, one is not among those before it. -/
theorem not_mem_of_nodup {α : Type} {before after : List (String × α)} {entry : String × α}
    (distinct : ((before ++ entry :: after).map (·.1)).Nodup) : entry.1 ∉ before.map (·.1) := by
  rw [List.map_append, List.map_cons, List.nodup_append] at distinct
  exact fun member => distinct.2.2 _ member _ List.mem_cons_self rfl

theorem find?_ofPairs {pairs : List (String × Value)} (fresh : key ∉ pairs.map (·.1)) :
    (ofPairs pairs).find? key = none :=
  lookup_map_eq_none Draft.value fresh

theorem find?_ofSections {sections : List (String × List (String × Value))}
    (fresh : name ∉ sections.map (·.1)) : (ofSections sections).find? name = none :=
  lookup_map_eq_none (fun pairs => Draft.table (ofPairs pairs)) fresh

theorem draftEntries_ofPairs (pairs : List (String × Value)) :
    draftEntries (ofPairs pairs).entries = pairs := by
  unfold ofPairs
  induction pairs with
  | nil => rfl
  | cons pair rest ih =>
      rw [List.map_cons, draftEntries, Draft.toValue]
      exact congrArg _ ih

theorem draftEntries_ofSections (sections : List (String × List (String × Value))) :
    draftEntries (ofSections sections).entries =
      sections.map fun entry => (entry.1, .table entry.2) := by
  unfold ofSections
  induction sections with
  | nil => rfl
  | cons entry rest ih =>
      rw [List.map_cons, List.map_cons, draftEntries, ← ih]
      have table : (Draft.table (ofPairs entry.2)).toValue = .table entry.2 := by
        rw [Draft.toValue.eq_def]
        exact congrArg Value.table (draftEntries_ofPairs entry.2)
      rw [table]

namespace Building

variable {building : Building} {pairs : List (String × Value)}
  {done : List (String × List (String × Value))}

theorem addPair_ofPairs (isCurrent : building.current = ofPairs pairs)
    (fresh : key ∉ pairs.map (·.1)) :
    building.addPair [key] value =
      some { building with current := ofPairs (pairs ++ [(key, value)]) } := by
  have assigned : assign [] key value (ofPairs pairs) = some (ofPairs (pairs ++ [(key, value)])) := by
    rw [assign, descend, find?_ofPairs fresh]
    simp [ofPairs, Section.append]
  rw [addPair, isCurrent]
  simp only [splitKey?, List.getLast?_singleton, Option.map_some, List.dropLast_singleton,
    Option.bind_eq_bind, Option.bind_some, assigned]
  rfl

theorem openTable_ofSections (closes : building.close = some (ofSections done))
    (fresh : name ∉ done.map (·.1)) :
    building.openTable [name] = some ⟨ofSections done, ofPairs [], [name], false⟩ := by
  have kept : (ofSections done).remove name = ofSections done := by
    refine congrArg (Section.mk false false) (List.filter_eq_self.mpr fun entry member => ?_)
    obtain ⟨original, isOriginal, rfl⟩ := List.mem_map.mp member
    rw [bne_iff_ne]
    rintro rfl
    exact fresh (List.mem_map_of_mem isOriginal)
  rw [openTable, closes]
  simp only [splitKey?, List.getLast?_singleton, Option.map_some, List.dropLast_singleton,
    Option.bind_eq_bind, Option.bind_some, reach?, reopened?, find?_ofSections fresh, descend, kept]
  rfl

theorem close_ofPairs (fresh : name ∉ done.map (·.1)) :
    close ⟨ofSections done, ofPairs pairs, [name], false⟩ =
      some (ofSections (done ++ [(name, pairs)])) := by
  rw [close]
  simp only [splitKey?, List.getLast?_singleton, Option.map_some, List.dropLast_singleton, descend,
    find?_ofSections fresh]
  simp [ofSections, Section.append]

end Building

namespace Leads

variable {building last : Building} {rest : List Char}

/-- Lines of pairs add them. -/
theorem pairs {done pairs : List (String × Value)} (isCurrent : building.current = ofPairs done)
    (plain : ∀ pair ∈ pairs, pair.2.IsPlain) (distinct : ((done ++ pairs).map (·.1)).Nodup)
    (leads : Leads { building with current := ofPairs (done ++ pairs) } rest last) :
    Leads building (pairs.flatMap (pairLine layout) ++ rest) last := by
  induction pairs generalizing done building with
  | nil =>
      rw [List.append_nil, ← isCurrent] at leads
      exact leads
  | cons first others ih =>
      obtain ⟨firstPlain, othersPlain⟩ := List.forall_mem_cons.mp plain
      have fresh := not_mem_of_nodup distinct
      rw [List.append_cons] at distinct leads
      rw [List.flatMap_cons, List.append_assoc]
      refine .pair firstPlain (Building.addPair_ofPairs isCurrent fresh) ?_
      exact ih rfl othersPlain distinct leads

/-- A header with its pairs adds a section. -/
theorem block {done : List (String × List (String × Value))} {pairs : List (String × Value)}
    (closes : building.close = some (ofSections done)) (fresh : name ∉ done.map (·.1))
    (plain : ∀ pair ∈ pairs, pair.2.IsPlain) (distinct : (pairs.map (·.1)).Nodup)
    (leads : Leads ⟨ofSections done, ofPairs pairs, [name], false⟩ rest last) :
    Leads building (headerLine name ++ (pairs.flatMap (pairLine layout) ++ rest)) last := by
  refine .header (Building.openTable_ofSections closes fresh) ?_
  exact Leads.pairs rfl plain distinct leads

/-- Sections with line feeds before them are added. -/
theorem blocks (layout : Layout) {done sections : List (String × List (String × Value))}
    (closes : building.close = some (ofSections done))
    (plain : ∀ entry ∈ sections, ∀ pair ∈ entry.2, pair.2.IsPlain)
    (distinctPairs : ∀ entry ∈ sections, (entry.2.map (·.1)).Nodup)
    (distinct : ((done ++ sections).map (·.1)).Nodup) :
    ∃ last, last.close = some (ofSections (done ++ sections)) ∧
      Leads building (sections.flatMap fun entry => '\n' :: sectionText layout entry) last := by
  induction sections generalizing done building with
  | nil => exact ⟨building, by rw [closes, List.append_nil], nil building⟩
  | cons first others ih =>
      obtain ⟨firstPlain, othersPlain⟩ := List.forall_mem_cons.mp plain
      obtain ⟨firstDistinct, othersDistinct⟩ := List.forall_mem_cons.mp distinctPairs
      have fresh := not_mem_of_nodup distinct
      rw [List.append_cons] at distinct ⊢
      obtain ⟨last, closed, leads⟩ :=
        ih (Building.close_ofPairs fresh) othersPlain othersDistinct distinct
      refine ⟨last, closed, ?_⟩
      rw [List.flatMap_cons, List.cons_append, sectionText, List.append_assoc]
      exact .lineFeed (block closes fresh firstPlain firstDistinct leads)

end Leads

/-! ## The text of sections -/

theorem toList_pairTexts (layout : Layout) (pairs : List (String × Value)) :
    (String.join ((pairTexts layout pairs).map (· ++ "\n"))).toList =
      pairs.flatMap (pairLine layout) := by
  rw [String.toList_join, List.flatMap_map]
  induction pairs with
  | nil => rfl
  | cons pair rest ih =>
      rw [pairTexts, List.flatMap_cons, List.flatMap_cons, ih]
      simp [pairLine]

/-- The lines of plain entries are written one after the other. -/
theorem toList_bodyText (layout : Layout) {pairs : List (String × Value)}
    (plain : ∀ pair ∈ pairs, pair.2.IsPlain) :
    (bodyText layout pairs).toList = pairs.flatMap (pairLine layout) := by
  have kept : (pairs.filter fun pair => !isSection pair.2) = pairs :=
    List.filter_eq_self.mpr fun pair member => by
      rw [not_isSection_of_isPlain (plain pair member)]
      rfl
  rw [bodyText]
  refine (congrArg (fun kept => (String.join ((pairTexts layout kept).map (· ++ "\n"))).toList)
    kept).trans ?_
  exact toList_pairTexts layout pairs

theorem entryBlocks_of_isPlain {path : List String} {pairs : List (String × Value)}
    (plain : ∀ pair ∈ pairs, pair.2.IsPlain) : entryBlocks layout path pairs = [] := by
  induction pairs with
  | nil => rfl
  | cons pair rest ih =>
      obtain ⟨first, others⟩ := List.forall_mem_cons.mp plain
      rw [entryBlocks, not_isSection_of_isPlain first, ih others]
      rfl

/-- The block of a section is never left out. -/
theorem exists_block (layout : Layout) (name : String) {pairs : List (String × Value)}
    (plain : ∀ pair ∈ pairs, pair.2.IsPlain) :
    ∃ block, sectionBlocks layout [name] (.table pairs) = [block] ∧
      block.toList = sectionText layout (name, pairs) := by
  have body := toList_bodyText layout plain
  have written : ((bodyText layout pairs).isEmpty && !pairs.isEmpty) = false := by
    cases pairs with
    | nil => rw [List.isEmpty_nil, Bool.not_true, Bool.and_false]
    | cons pair rest =>
        have notEmpty : bodyText layout (pair :: rest) ≠ "" := by
          intro isEmpty
          rw [isEmpty, List.flatMap_cons, pairLine] at body
          simp at body
        rw [String.isEmpty_eq_false_iff.mpr notEmpty, Bool.false_and]
  refine ⟨"[" ++ pathText [name] ++ "]\n" ++ bodyText layout pairs, ?_, ?_⟩
  · rw [sectionBlocks, tableBlock, entryBlocks_of_isPlain plain]
    simp only [written, Bool.false_eq_true, if_false, List.append_nil]
  · rw [String.toList_append, body]
    simp [sectionText, headerLine, pathText]

/-- Plain entries are written one after the other. -/
theorem toList_documentText_pairs (layout : Layout) {pairs : List (String × Value)}
    (plain : ∀ pair ∈ pairs, pair.2.IsPlain) :
    (documentText layout pairs).toList = pairs.flatMap (pairLine layout) := by
  have body := toList_bodyText layout plain
  rw [documentText, entryBlocks_of_isPlain plain]
  simp only [List.append_nil]
  split
  next isEmpty =>
    rw [String.isEmpty_iff.mp isEmpty] at body
    rw [← body]
    rfl
  next => rw [String.toList_intercalate, List.map_singleton, List.intercalate_singleton, body]

theorem dropByteOrderMark_pairs (layout : Layout) (pairs : List (String × Value)) :
    dropByteOrderMark (pairs.flatMap (pairLine layout)) = pairs.flatMap (pairLine layout) := by
  cases pairs with
  | nil => rfl
  | cons pair rest =>
      obtain ⟨first, more, starts, isStart⟩ := exists_head_quoteKey pair.1
      have notMark : first ≠ '\ufeff' := isStart.ne (by decide)
      rw [List.flatMap_cons, pairLine, starts, List.cons_append, List.cons_append]
      unfold dropByteOrderMark
      split
      next same => exact absurd (List.cons.inj same).1 notMark
      next => rfl

/-- **A document of plain entries is read back.** -/
theorem readDocument_pairs (layout : Layout) {pairs : List (String × Value)}
    (plain : ∀ pair ∈ pairs, pair.2.IsPlain) (distinct : (pairs.map (·.1)).Nodup) :
    readDocument (documentText layout pairs) = some pairs := by
  have isStart : Building.start.current = ofPairs [] := rfl
  have leads : Leads .start (pairs.flatMap (pairLine layout) ++ [])
      { Building.start with current := ofPairs pairs } :=
    Leads.pairs isStart plain distinct (.nil _)
  rw [List.append_nil] at leads
  rw [readDocument, toList_documentText_pairs layout plain, dropByteOrderMark_pairs,
    leads _ (Nat.lt_succ_self _), Option.bind_some, Building.finish]
  exact congrArg some (draftEntries_ofPairs pairs)

/-- The entries of a document of sections. -/
def sectionEntries (sections : List (String × List (String × Value))) : List (String × Value) :=
  sections.map fun entry => (entry.1, .table entry.2)

theorem map_entryBlocks (layout : Layout) {sections : List (String × List (String × Value))}
    (plain : ∀ entry ∈ sections, ∀ pair ∈ entry.2, pair.2.IsPlain) :
    (entryBlocks layout [] (sectionEntries sections)).map String.toList =
      sections.map (sectionText layout) := by
  induction sections with
  | nil => rfl
  | cons first others ih =>
      obtain ⟨firstPlain, othersPlain⟩ := List.forall_mem_cons.mp plain
      obtain ⟨block, isBlock, text⟩ := exists_block layout first.1 firstPlain
      rw [sectionEntries, List.map_cons, entryBlocks, ← sectionEntries, List.map_append,
        ih othersPlain]
      simp only [isSection, if_true, List.nil_append, isBlock, List.map_cons, List.map_nil, text,
        List.singleton_append]

theorem bodyText_sectionEntries (sections : List (String × List (String × Value))) :
    bodyText layout (sectionEntries sections) = "" := by
  have none : ((sectionEntries sections).filter fun pair => !isSection pair.2) = [] := by
    refine List.filter_eq_nil_iff.mpr fun pair member => ?_
    obtain ⟨entry, _, rfl⟩ := List.mem_map.mp member
    exact Bool.false_ne_true
  rw [bodyText]
  exact congrArg (fun kept => String.join ((pairTexts layout kept).map (· ++ "\n"))) none

/-- Sections are written one after the other with line feeds between them. -/
theorem toList_documentText (layout : Layout) {first : String × List (String × Value)}
    {others : List (String × List (String × Value))}
    (plain : ∀ entry ∈ first :: others, ∀ pair ∈ entry.2, pair.2.IsPlain) :
    (documentText layout (sectionEntries (first :: others))).toList =
      sectionText layout first ++ others.flatMap fun entry => '\n' :: sectionText layout entry := by
  have empty : ("" : String).isEmpty = true := rfl
  rw [documentText, bodyText_sectionEntries]
  simp only [empty, if_true, List.nil_append]
  rw [String.toList_intercalate, map_entryBlocks layout plain]
  clear plain
  induction others generalizing first with
  | nil => simp
  | cons second more ih =>
      rw [List.map_cons, List.map_cons, List.intercalate_cons_cons, ← List.map_cons, ih,
        List.flatMap_cons]
      simp

theorem Leads.of_lineFeed {building last : Building} {rest : List Char}
    (leads : Leads building ('\n' :: rest) last) : Leads building rest last :=
  fun fuel room => leads (fuel + 1) (Nat.succ_lt_succ room)

/-- **A document of sections with plain entries is read back.** -/
theorem readDocument_sections (layout : Layout) {sections : List (String × List (String × Value))}
    (plain : ∀ entry ∈ sections, ∀ pair ∈ entry.2, pair.2.IsPlain)
    (distinctPairs : ∀ entry ∈ sections, (entry.2.map (·.1)).Nodup)
    (distinct : (sections.map (·.1)).Nodup) :
    readDocument (documentText layout (sectionEntries sections)) =
      some (sectionEntries sections) := by
  cases sections with
  | nil => rfl
  | cons first others =>
      have text := toList_documentText layout plain
      have noMark : dropByteOrderMark (sectionText layout first ++
          others.flatMap fun entry => '\n' :: sectionText layout entry) =
        sectionText layout first ++ others.flatMap fun entry => '\n' :: sectionText layout entry := rfl
      have closed : Building.start.close = some (ofSections []) := rfl
      obtain ⟨last, closes, leads⟩ := Leads.blocks layout closed plain distinctPairs distinct
      rw [List.flatMap_cons, List.cons_append] at leads
      rw [readDocument, text]
      simp only [noMark]
      rw [leads.of_lineFeed _ (Nat.lt_succ_self _), Option.bind_some, Building.finish, closes,
        Option.map_some, List.nil_append, draftEntries_ofSections]
      rfl

end StageManifest.Toml
