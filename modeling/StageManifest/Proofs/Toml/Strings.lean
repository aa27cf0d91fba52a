import StageManifest.Toml.Unquote

/-!
# Reading written strings

A string is written in one of four forms, and what is written is read as that
string (`Toml.readString_quoteValue`).  Keys are written bare or in one of the
forms on one line, and read as well (`Toml.readSimpleKey_quoteKey`).

Between three quotes, quotes of the text may stand in front of the closing ones.
The proofs therefore go along the text with the run of quotes before it, which
nothing has been decided about yet.
-/

set_option autoImplicit false

namespace StageManifest.Toml

/-! ## Characters -/

theorem isPlainCharacter_of_not_needsEscape {character : Char}
    (free : needsEscape character = false) (sameLine : character ≠ '\n') :
    isPlainCharacter character = true := by
  simp only [needsEscape, isPlainCharacter, bne, beq_iff_eq, Bool.or_eq_false_iff,
    Bool.and_eq_false_iff, decide_eq_false_iff_not, Bool.or_eq_true, Bool.and_eq_true,
    decide_eq_true_eq, Bool.not_eq_true', Bool.not_eq_false', beq_eq_false_iff_ne] at free ⊢
  obtain ⟨(large | isTab) | isFeed, notDelete⟩ := free
  · exact .inr ⟨Nat.not_lt.mp large, notDelete⟩
  · exact .inl isTab
  · exact absurd isFeed sameLine

theorem ne_of_isPlainCharacter {character : Char} (plain : isPlainCharacter character = true) :
    character ≠ '\n' ∧ character ≠ '\r' := by
  constructor <;> rintro rfl <;> cases plain

/-- The digits of an escape are those of the character. -/
theorem codePoint?_of_needsEscape {character : Char} (hidden : needsEscape character = true) :
    codePoint? ([4096, 256, 16, 1].map fun unit =>
      Text.upperHexDigit (character.toNat / unit % 16)) = some character := by
  have small : character.toNat < 128 := by
    simp only [needsEscape, Bool.or_eq_true, Bool.and_eq_true, decide_eq_true_eq, beq_iff_eq]
      at hidden
    omega
  have each : ∀ code : Fin 128, codePoint? ([4096, 256, 16, 1].map fun unit =>
      Text.upperHexDigit (code.val / unit % 16)) = some (Char.ofNat code.val) := by decide +kernel
  rw [each ⟨character.toNat, small⟩, Char.ofNat_toNat]

/-- What may be written for a character, apart from double quotes that may stand. -/
inductive Escaped (multiline : Bool) (character : Char) : List Char → Prop where
  | letter {letter : Char} (stands : escapeLetter? letter = some character) :
      Escaped multiline character ['\\', letter]
  | lineFeed (spans : multiline = true) (isFeed : character = '\n') :
      Escaped multiline character ['\n']
  | codePoint (hidden : needsEscape character = true) :
      Escaped multiline character (codePointEscape character)
  | plain (isPlain : isPlainCharacter character = true) (notQuote : character ≠ '"')
      (notBackslash : character ≠ '\\') : Escaped multiline character [character]

/-- A character is a double quote that may stand, or it is written in one of the ways. -/
theorem escape_cons (character : Char) (multiline : Bool) (allowedQuotes run : Nat)
    (rest : List Char) :
    (character = '"' ∧ run < allowedQuotes ∧
      escape multiline allowedQuotes run (character :: rest) =
        '"' :: escape multiline allowedQuotes (run + 1) rest) ∨
    ∃ written, Escaped multiline character written ∧
      escape multiline allowedQuotes run (character :: rest) =
        written ++ escape multiline allowedQuotes 0 rest := by
  rw [escape]
  split
  next isQuote =>
    subst isQuote
    split
    next room => exact .inl ⟨rfl, room, rfl⟩
    · exact .inr ⟨['\\', '"'], .letter rfl, rfl⟩
  next notQuote =>
  refine .inr ⟨_, ?_, rfl⟩
  have ofCode : ∀ {code : Nat}, character.toNat = code → Char.ofNat code = character :=
    fun same => same ▸ Char.ofNat_toNat character
  split
  next isBackslash =>
    subst isBackslash
    exact .letter rfl
  next notBackslash =>
  split
  next same => exact .letter (same ▸ rfl)
  split
  next same => exact .letter (same ▸ rfl)
  split
  next isFeed =>
    cases multiline with
    | true => exact .lineFeed rfl isFeed
    | false => exact .letter (isFeed ▸ rfl)
  next notFeed =>
  split
  next isCode => exact .letter (ofCode isCode ▸ rfl)
  split
  next isCode => exact .letter (ofCode isCode ▸ rfl)
  split
  next hidden => exact .codePoint hidden
  next shown =>
    exact .plain (isPlainCharacter_of_not_needsEscape (Bool.eq_false_iff.mpr shown) notFeed)
      notQuote notBackslash

/-- What is written for a character starts with no double quote and no carriage return, and with a
line feed only if it is one. -/
theorem Escaped.exists_head {multiline : Bool} {character : Char} {written : List Char}
    (escaped : Escaped multiline character written) :
    ∃ first more, written = first :: more ∧ first ≠ '"' ∧ first ≠ '\r' ∧
      (first = '\n' → character = '\n') := by
  cases escaped with
  | letter stands => exact ⟨_, _, rfl, by decide, by decide, nofun⟩
  | lineFeed spans isFeed => exact ⟨_, _, rfl, by decide, by decide, fun _ => isFeed⟩
  | codePoint hidden => exact ⟨_, _, rfl, by decide, by decide, nofun⟩
  | plain isPlain notQuote notBackslash =>
      exact ⟨_, _, rfl, notQuote, (ne_of_isPlainCharacter isPlain).2, id⟩

/-- An escape letter is none of the characters that stand for something else after a backslash. -/
theorem ne_of_escapeLetter? {letter character : Char}
    (stands : escapeLetter? letter = some character) :
    letter ≠ 'u' ∧ letter ≠ 'U' ∧ letter ≠ '\r' := by
  refine ⟨?_, ?_, ?_⟩ <;> rintro rfl <;> cases stands


/-! ## Double quotes on one line -/

theorem readBasic_escaped {character : Char} {written : List Char}
    (escaped : Escaped false character written) (rest : List Char) :
    readBasic (written ++ rest) = prepend character (readBasic rest) := by
  cases escaped with
  | letter stands =>
      obtain ⟨notShort, notLong, _⟩ := ne_of_escapeLetter? stands
      simp [readBasic, stands, notShort, notLong]
  | lineFeed spans _ => cases spans
  | codePoint hidden =>
      have code := codePoint?_of_needsEscape hidden
      simp only [List.map_cons, List.map_nil, Nat.div_one] at code
      simp [codePointEscape, readBasic, code]
  | plain isPlain notQuote notBackslash => simp [readBasic, isPlain, notBackslash]

/-- A text with escapes is read up to the closing quote. -/
theorem readBasic_escape (text rest : List Char) (run : Nat) :
    readBasic (escape false 0 run text ++ '"' :: rest) = some (text, rest) := by
  induction text generalizing run with
  | nil => rfl
  | cons character more ih =>
      obtain ⟨_, never, _⟩ | ⟨written, escaped, same⟩ := escape_cons character false 0 run more
      · exact (Nat.not_lt_zero run never).elim
      · rw [same, List.append_assoc, readBasic_escaped escaped, ih]
        rfl

/-! ## Single quotes on one line -/

/-- A text without single quotes and line ends is read up to the closing quote. -/
theorem readLiteral_append {text : List Char} (plain : ∀ character ∈ text,
    isPlainCharacter character = true ∧ character ≠ '\x27') (rest : List Char) :
    readLiteral (text ++ '\x27' :: rest) = some (text, rest) := by
  induction text with
  | nil => rfl
  | cons character more ih =>
      obtain ⟨first, others⟩ := List.forall_mem_cons.mp plain
      rw [List.cons_append, readLiteral, if_pos first.1, ih others]
      · rfl
      · exact first.2

/-! ## Three double quotes -/

theorem readMultilineBasic_escaped {character : Char} {written : List Char}
    (escaped : Escaped true character written) (rest : List Char) :
    readMultilineBasic .content (written ++ rest) =
      prepend character (readMultilineBasic .content rest) := by
  cases escaped with
  | letter stands =>
      obtain ⟨notShort, notLong, notReturn⟩ := ne_of_escapeLetter? stands
      simp [readMultilineBasic, stands, notShort, notLong, notReturn]
  | lineFeed _ isFeed =>
      subst isFeed
      simp [readMultilineBasic]
  | codePoint hidden =>
      have code := codePoint?_of_needsEscape hidden
      simp only [List.map_cons, List.map_nil, Nat.div_one] at code
      simp [codePointEscape, readMultilineBasic, code]
  | plain isPlain notQuote notBackslash =>
      obtain ⟨notFeed, notReturn⟩ := ne_of_isPlainCharacter isPlain
      simp [readMultilineBasic, isPlain, notBackslash, notQuote, notReturn]

/-- Up to two double quotes belong to the text if no further one follows. -/
theorem readMultilineBasic_quotes {run : Nat} (few : run ≤ 2) {first : Char}
    (notQuote : first ≠ '"') (rest : List Char) :
    readMultilineBasic .content (List.replicate run '"' ++ first :: rest) =
      (readMultilineBasic .content (first :: rest)).map fun reading =>
        (List.replicate run '"' ++ reading.1, reading.2) := by
  have plain : isPlainCharacter '"' = true := by decide
  have one : readMultilineBasic .content ('"' :: first :: rest) =
      prepend '"' (readMultilineBasic .content (first :: rest)) := by
    simp [readMultilineBasic, notQuote, plain]
  have two : readMultilineBasic .content ('"' :: '"' :: first :: rest) =
      prepend '"' (readMultilineBasic .content ('"' :: first :: rest)) := by
    rw [readMultilineBasic] <;> simp [notQuote, plain]
  match run, few with
  | 0, _ => simp
  | 1, _ => exact one
  | 2, _ =>
      rw [one, prepend, prepend, Option.map_map] at two
      exact two

/-- A text with escapes is read up to the closing quotes; a run of quotes before it belongs to it. -/
theorem readMultilineBasic_escape {run : Nat} (few : run ≤ 2) (text : List Char) {rest : List Char}
    (ends : rest.head? ≠ some '"') :
    readMultilineBasic .content
        (List.replicate run '"' ++ (escape true 2 run text ++ '"' :: '"' :: '"' :: rest)) =
      some (List.replicate run '"' ++ text, rest) := by
  have noQuote : ∀ more, rest ≠ '"' :: more := by
    rintro more rfl
    exact ends rfl
  induction text generalizing run with
  | nil =>
      match run, few with
      | 0, _ => simp [escape, readMultilineBasic, noQuote]
      | 1, _ => simp [escape, readMultilineBasic]
      | 2, _ => simp [escape, readMultilineBasic, List.replicate]
  | cons character more ih =>
      obtain ⟨rfl, room, same⟩ | ⟨written, escaped, same⟩ := escape_cons character true 2 run more
      · have below : run + 1 ≤ 2 := room
        have reads := ih below
        rw [List.replicate_succ', List.append_assoc, List.append_assoc] at reads
        rw [same]
        exact reads
      · obtain ⟨first, others, starts, notQuote, _⟩ := escaped.exists_head
        have reads := readMultilineBasic_escaped escaped
          (escape true 2 0 more ++ '"' :: '"' :: '"' :: rest)
        have below := ih (Nat.zero_le 2)
        rw [List.replicate_zero, List.nil_append, List.nil_append] at below
        rw [below] at reads
        rw [same, List.append_assoc, starts, List.cons_append, readMultilineBasic_quotes few notQuote,
          ← List.cons_append, ← starts, reads]
        rfl

/-! ## Three single quotes -/

/-- What has no run of a character does not contain it. -/
theorem not_mem_of_longestRun {wanted : Char} {run : Nat} {text : List Char}
    (noRun : longestRun wanted run text = 0) : run = 0 ∧ wanted ∉ text := by
  induction text generalizing run with
  | nil => exact ⟨noRun, List.not_mem_nil⟩
  | cons character rest ih =>
      rw [longestRun] at noRun
      split at noRun
      · cases (ih noRun).1
      next different =>
        obtain ⟨here, later⟩ := Nat.max_eq_zero_iff.mp noRun
        refine ⟨here, fun member => ?_⟩
        rcases List.mem_cons.mp member with same | member
        · exact different same.symm
        · exact (ih later).2 member

theorem readMultilineLiteral_quotes {run : Nat} (few : run ≤ 2) {first : Char}
    (notQuote : first ≠ '\x27') (rest : List Char) :
    readMultilineLiteral (List.replicate run '\x27' ++ first :: rest) =
      (readMultilineLiteral (first :: rest)).map fun reading =>
        (List.replicate run '\x27' ++ reading.1, reading.2) := by
  have plain : isPlainCharacter '\x27' = true := by decide
  have one : readMultilineLiteral ('\x27' :: first :: rest) =
      prepend '\x27' (readMultilineLiteral (first :: rest)) := by
    rw [readMultilineLiteral] <;> simp [notQuote, plain]
  have two : readMultilineLiteral ('\x27' :: '\x27' :: first :: rest) =
      prepend '\x27' (readMultilineLiteral ('\x27' :: first :: rest)) := by
    rw [readMultilineLiteral] <;> simp [notQuote, plain]
  match run, few with
  | 0, _ => simp
  | 1, _ => exact one
  | 2, _ =>
      rw [one, prepend, prepend, Option.map_map] at two
      exact two

/-- A text with short runs of single quotes is read up to the closing quotes; a run of quotes before
it belongs to it. -/
theorem readMultilineLiteral_append {run : Nat} {text : List Char}
    (short : longestRun '\x27' run text ≤ 2)
    (shown : ∀ character ∈ text, needsEscape character = false)
    {rest : List Char} (ends : rest.head? ≠ some '\x27') :
    readMultilineLiteral
        (List.replicate run '\x27' ++ (text ++ '\x27' :: '\x27' :: '\x27' :: rest)) =
      some (List.replicate run '\x27' ++ text, rest) := by
  have noQuote : ∀ more, rest ≠ '\x27' :: more := by
    rintro more rfl
    exact ends rfl
  induction text generalizing run with
  | nil =>
      match run, short with
      | 0, _ => simp [readMultilineLiteral, noQuote]
      | 1, _ => simp [readMultilineLiteral]
      | 2, _ => simp [readMultilineLiteral, List.replicate]
  | cons character more ih =>
      obtain ⟨firstShown, othersShown⟩ := List.forall_mem_cons.mp shown
      by_cases isQuote : character = '\x27'
      · subst isQuote
        rw [longestRun, if_pos rfl] at short
        have reads := ih short othersShown
        rw [List.replicate_succ', List.append_assoc, List.append_assoc] at reads
        exact reads
      · rw [longestRun, if_neg isQuote] at short
        have reads := ih (Nat.le_trans (Nat.le_max_right _ _) short) othersShown
        rw [List.replicate_zero, List.nil_append, List.nil_append] at reads
        have step : readMultilineLiteral
            (character :: (more ++ '\x27' :: '\x27' :: '\x27' :: rest)) =
          prepend character (readMultilineLiteral (more ++ '\x27' :: '\x27' :: '\x27' :: rest)) := by
          have allowed : isPlainCharacter character = true ∨ character = '\n' := by
            by_cases isFeed : character = '\n'
            · exact .inr isFeed
            · exact .inl (isPlainCharacter_of_not_needsEscape firstShown isFeed)
          have notReturn : character ≠ '\r' := by
            rintro rfl
            cases firstShown
          rw [readMultilineLiteral] <;> simp [isQuote, allowed, notReturn]
        rw [List.cons_append,
          readMultilineLiteral_quotes (Nat.le_trans (Nat.le_max_left _ _) short) isQuote, step, reads]
        rfl

/-! ## Values -/

/-- A line end that is written after the opening quotes is dropped again, and no other one. -/
theorem dropFirstLineEnd_open {text body : List Char}
    (feeds : ∀ first ∈ body.head?, first ≠ '\r' ∧ (first = '\n' → '\n' ∈ text)) :
    dropFirstLineEnd ((if text.contains '\n' then ['\n'] else []) ++ body) = body := by
  split
  · rfl
  next noFeed =>
    rw [List.nil_append]
    cases body with
    | nil => rfl
    | cons first rest =>
        obtain ⟨notReturn, feed⟩ := feeds first rfl
        have notFeed : first ≠ '\n' := fun same => noFeed (List.contains_iff_mem.mpr (feed same))
        rw [dropFirstLineEnd]
        · rintro more ⟨rfl⟩
          exact notFeed rfl
        · rintro more ⟨rfl⟩
          exact notReturn rfl

theorem readString_basic (text : List Char) {rest : List Char} (ends : rest.head? ≠ some '"') :
    readString (quoteAs .basic text ++ rest) = some (text, rest) := by
  have body : quoteAs .basic text ++ rest = '"' :: (escape false 0 0 text ++ '"' :: rest) := by
    simp [quoteAs]
  rw [body, readString]
  · exact readBasic_escape text rest 0
  · -- Two more quotes would have to follow the first one.
    intro more same
    cases text with
    | nil =>
        rw [escape, List.nil_append, List.cons.injEq] at same
        exact ends (same.2 ▸ rfl)
    | cons character others =>
        obtain ⟨_, never, _⟩ | ⟨written, escaped, isWritten⟩ :=
          escape_cons character false 0 0 others
        · exact Nat.not_lt_zero 0 never
        · obtain ⟨first, tail, rfl, notQuote, _⟩ := escaped.exists_head
          rw [isWritten, List.cons_append, List.cons_append, List.cons.injEq] at same
          exact notQuote same.1

theorem readString_literal {text : List Char} (plain : ∀ character ∈ text,
    isPlainCharacter character = true ∧ character ≠ '\x27') {rest : List Char}
    (ends : rest.head? ≠ some '\x27') :
    readString (quoteAs .literal text ++ rest) = some (text, rest) := by
  have body : quoteAs .literal text ++ rest = '\x27' :: (text ++ '\x27' :: rest) := by
    simp [quoteAs]
  rw [body, readString]
  · exact readLiteral_append plain rest
  · intro more same
    cases text with
    | nil =>
        rw [List.nil_append, List.cons.injEq] at same
        exact ends (same.2 ▸ rfl)
    | cons character others =>
        rw [List.cons_append, List.cons.injEq] at same
        exact (plain character List.mem_cons_self).2 same.1

theorem readString_multilineBasic (text : List Char) {rest : List Char}
    (ends : rest.head? ≠ some '"') :
    readString (quoteAs .multilineBasic text ++ rest) = some (text, rest) := by
  have body : quoteAs .multilineBasic text ++ rest = '"' :: '"' :: '"' ::
      ((if text.contains '\n' then ['\n'] else []) ++
        (escape true 2 0 text ++ '"' :: '"' :: '"' :: rest)) := by
    simp [quoteAs, openMultiline]
  rw [body, readString, dropFirstLineEnd_open]
  · exact readMultilineBasic_escape (Nat.zero_le 2) text ends
  · intro first isFirst
    cases text with
    | nil =>
        cases isFirst
        exact ⟨by decide, by decide⟩
    | cons character others =>
        obtain ⟨_, _, same⟩ | ⟨written, escaped, same⟩ := escape_cons character true 2 0 others
        · rw [same] at isFirst
          cases isFirst
          exact ⟨by decide, nofun⟩
        · obtain ⟨head, tail, rfl, _, notReturn, feed⟩ := escaped.exists_head
          rw [same] at isFirst
          cases isFirst
          exact ⟨notReturn, fun isFeed => feed isFeed ▸ List.mem_cons_self⟩

theorem readString_multilineLiteral {text : List Char} (short : longestRun '\x27' 0 text ≤ 2)
    (shown : ∀ character ∈ text, needsEscape character = false) {rest : List Char}
    (ends : rest.head? ≠ some '\x27') :
    readString (quoteAs .multilineLiteral text ++ rest) = some (text, rest) := by
  have body : quoteAs .multilineLiteral text ++ rest = '\x27' :: '\x27' :: '\x27' ::
      ((if text.contains '\n' then ['\n'] else []) ++
        (text ++ '\x27' :: '\x27' :: '\x27' :: rest)) := by
    simp [quoteAs, openMultiline]
  rw [body, readString, dropFirstLineEnd_open]
  · exact readMultilineLiteral_append short shown ends
  · intro first isFirst
    cases text with
    | nil =>
        cases isFirst
        exact ⟨by decide, by decide⟩
    | cons character others =>
        cases isFirst
        refine ⟨?_, fun same => same ▸ List.mem_cons_self⟩
        rintro rfl
        cases shown _ List.mem_cons_self

/-- **What is written for a string is read as the string**, unless a quote follows. -/
theorem readString_quoteValue (text : String) (rest : List Char) (endsDouble : rest.head? ≠ some '"')
    (endsSingle : rest.head? ≠ some '\x27') :
    readString ((quoteValue text).toList ++ rest) = some (text.toList, rest) := by
  rw [quoteValue, String.toList_ofList]
  generalize text.toList = characters
  have plain : characters.any needsEscape = false → '\n' ∉ characters →
      ∀ character ∈ characters, isPlainCharacter character = true := by
    intro shown noFeed character member
    refine isPlainCharacter_of_not_needsEscape ?_ fun same => noFeed (same ▸ member)
    exact Bool.eq_false_iff.mpr (List.any_eq_false.mp shown character member)
  unfold valueForm
  simp only [Bool.and_eq_true, Bool.not_eq_true', beq_iff_eq, decide_eq_true_eq]
  split
  · exact readString_basic characters endsDouble
  split
  next form =>
    obtain ⟨⟨shown, noSingle⟩, noFeed⟩ := form
    refine readString_literal (fun character member => ⟨?_, ?_⟩) endsSingle
    · exact plain shown (by simpa using noFeed) character member
    · rintro rfl
      exact (not_mem_of_longestRun noSingle).2 member
  split
  · exact readString_multilineBasic characters endsDouble
  split
  next form =>
    refine readString_multilineLiteral form.2 (fun character member => ?_) endsSingle
    exact Bool.eq_false_iff.mpr (List.any_eq_false.mp form.1 character member)
  split
  · exact readString_multilineBasic characters endsDouble
  · exact readString_basic characters endsDouble

/-! ## Keys -/

/-- A bare key ends where something else follows. -/
theorem readSimpleKey_bare {key rest : List Char} (bare : isBareKey key = true)
    (ends : ∀ first ∈ rest.head?, isBareKeyCharacter first = false) :
    readSimpleKey (key ++ rest) = some (key, rest) := by
  rw [isBareKey, Bool.and_eq_true, Bool.not_eq_true', List.isEmpty_eq_false_iff,
    List.all_eq_true] at bare
  obtain ⟨someKey, allBare⟩ := bare
  have restStarts : rest.takeWhile isBareKeyCharacter = [] ∧
      rest.dropWhile isBareKeyCharacter = rest := by
    cases rest with
    | nil => exact ⟨rfl, rfl⟩
    | cons first more => simp [ends first rfl]
  have taken : (key ++ rest).takeWhile isBareKeyCharacter = key := by
    rw [List.takeWhile_append_of_pos allBare, restStarts.1, List.append_nil]
  have dropped : (key ++ rest).dropWhile isBareKeyCharacter = rest := by
    rw [List.dropWhile_append_of_pos allBare, restStarts.2]
  obtain ⟨first, more, rfl⟩ := List.exists_cons_of_ne_nil someKey
  have firstBare := allBare first List.mem_cons_self
  rw [List.cons_append] at taken dropped ⊢
  rw [readSimpleKey]
  · simp only [taken, dropped]
    rfl
  · rintro others ⟨rfl⟩
    cases firstBare
  · rintro others ⟨rfl⟩
    cases firstBare

/-- **What is written for a key is read as the key**, where no character of a bare key follows. -/
theorem readSimpleKey_quoteKey (key : String) {rest : List Char}
    (ends : ∀ first ∈ rest.head?, isBareKeyCharacter first = false) :
    readSimpleKey ((quoteKey key).toList ++ rest) = some (key.toList, rest) := by
  unfold quoteKey
  split
  next bare => exact readSimpleKey_bare bare ends
  rw [String.toList_ofList]
  generalize key.toList = characters
  have asBasic : readSimpleKey (quoteAs .basic characters ++ rest) = some (characters, rest) := by
    have body : quoteAs .basic characters ++ rest =
        '"' :: (escape false 0 0 characters ++ '"' :: rest) := by simp [quoteAs]
    rw [body]
    exact readBasic_escape characters rest 0
  unfold keyForm
  simp only [Bool.and_eq_true, Bool.not_eq_true', Bool.or_eq_false_iff]
  split
  · exact asBasic
  split
  next form =>
    obtain ⟨⟨shown, noFeed⟩, noSingle⟩ := form
    have body : quoteAs .literal characters ++ rest = '\x27' :: (characters ++ '\x27' :: rest) := by
      simp [quoteAs]
    rw [body]
    refine readLiteral_append (fun character member => ⟨?_, ?_⟩) rest
    · refine isPlainCharacter_of_not_needsEscape ?_ ?_
      · exact Bool.eq_false_iff.mpr (List.any_eq_false.mp shown character member)
      · rintro rfl
        simp [member] at noFeed
    · rintro rfl
      simp [member] at noSingle
  · exact asBasic

end StageManifest.Toml
