import StageManifest.Proofs.Text.Digits
import StageManifest.Proofs.Text.Paragraphs
import StageManifest.Text.Json

/-!
# Reading JSON arrays of strings

A JSON text is a sequence of brackets, commas and strings with blank characters
between them.  In a string, a backslash escapes a character by a letter or by a unit of
UTF-16, and a control character below U+0020 may not stand for itself.  An array of
strings has a comma between each two of its strings (`readJsonStrings?`).

What is written for a list of texts is read as that list, whatever characters they
hold (`readJsonStrings?_jsonArray`): the quote and the backslash never stand for
themselves, so no text ends early.  There are no control characters in it
(`isControlFree_jsonArray`), so it is one line.
-/

set_option autoImplicit false

namespace StageManifest.Text

/-! ## Reading -/

/-- The parts of a JSON array of strings. -/
inductive JsonToken where
  | opening
  | closing
  | comma
  | text (content : String)
deriving DecidableEq

/-- The characters that may stand between the parts of a JSON text. -/
def isJsonBlank (character : Char) : Bool :=
  character == ' ' || character == '\t' || character == '\n' || character == '\r'

/-- The character that a letter behind a backslash stands for. -/
def jsonEscape? : Char → Option Char
  | '"' => some '"'
  | '\\' => some '\\'
  | '/' => some '/'
  | 'b' => some '\x08'
  | 'f' => some '\x0c'
  | 'n' => some '\n'
  | 'r' => some '\r'
  | 't' => some '\t'
  | _ => none

/-- The characters of units of UTF-16, where a character may also be one whole unit.  A high
surrogate is followed by a low one, and there are no other low ones. -/
def charactersOf? : List Nat → Option (List Char)
  | [] => some []
  | unit :: rest =>
      if 0xD800 ≤ unit && unit ≤ 0xDBFF then
        match rest with
        | low :: rest =>
            if 0xDC00 ≤ low && low ≤ 0xDFFF then
              let character := Char.ofNat (0x10000 + (unit - 0xD800) * 0x400 + (low - 0xDC00))
              (charactersOf? rest).map (character :: ·)
            else none
        | [] => none
      else if 0xDC00 ≤ unit && unit ≤ 0xDFFF then none
      else (charactersOf? rest).map (Char.ofNat unit :: ·)

/-- The parts of a JSON text.  Within a string, its units until then are given, the last one
first. -/
def jsonTokens : (inside : Option (List Nat)) → List Char → Option (List JsonToken)
  | none, [] => some []
  | none, '[' :: rest => (jsonTokens none rest).map (.opening :: ·)
  | none, ']' :: rest => (jsonTokens none rest).map (.closing :: ·)
  | none, ',' :: rest => (jsonTokens none rest).map (.comma :: ·)
  | none, '"' :: rest => jsonTokens (some []) rest
  | none, character :: rest => if isJsonBlank character then jsonTokens none rest else none
  | some _, [] => none
  | some units, '"' :: rest =>
      (charactersOf? units.reverse).bind fun characters =>
        (jsonTokens none rest).map (.text (String.ofList characters) :: ·)
  | some units, '\\' :: 'u' :: first :: second :: third :: fourth :: rest =>
      (digitsValue 16 0 [first, second, third, fourth]).bind fun unit =>
        jsonTokens (some (unit :: units)) rest
  | some units, '\\' :: letter :: rest =>
      (jsonEscape? letter).bind fun character =>
        jsonTokens (some (character.toNat :: units)) rest
  | some units, character :: rest =>
      if character = '\\' ∨ character.toNat < 0x20 then none
      else jsonTokens (some (character.toNat :: units)) rest

/-- The strings of an array behind the first one. -/
def laterStrings? : List JsonToken → Option (List String)
  | [.closing] => some []
  | .comma :: .text item :: rest => (laterStrings? rest).map (item :: ·)
  | _ => none

/-- The strings of an array. -/
def stringsOf? : List JsonToken → Option (List String)
  | [.opening, .closing] => some []
  | .opening :: .text item :: rest => (laterStrings? rest).map (item :: ·)
  | _ => none

/-- The strings of the JSON array that a text is. -/
def readJsonStrings? (text : String) : Option (List String) :=
  (jsonTokens none text.toList).bind stringsOf?

/-- An escaped character, a surrogate pair and blanks. -/
example : readJsonStrings? "[ \"\\u00e9\\/\",\n\"\\ud83d\\ude00\" ]" = some ["é/", "😀"] := by
  decide +kernel

/-! ## Writing and reading -/

/-- Characters are no surrogates. -/
theorem charactersOf?_map_toNat (characters : List Char) :
    charactersOf? (characters.map Char.toNat) = some characters := by
  induction characters with
  | nil => rfl
  | cons character rest ih =>
      have valid : character.toNat < 0xD800 ∨
        0xDFFF < character.toNat ∧ character.toNat < 0x110000 := character.valid
      have notHigh : (0xD800 ≤ character.toNat && character.toNat ≤ 0xDBFF) = false := by
        simp only [Bool.and_eq_false_iff, decide_eq_false_iff_not]
        omega
      have notLow : (0xDC00 ≤ character.toNat && character.toNat ≤ 0xDFFF) = false := by
        simp only [Bool.and_eq_false_iff, decide_eq_false_iff_not]
        omega
      rw [List.map_cons]
      unfold charactersOf?
      simp [notHigh, notLow, ih, Char.ofNat_toNat]

theorem digitValue?_hexDigit {value : Nat} (small : value < 16) :
    digitValue? 16 (hexDigit value) = some value := by
  revert value
  decide

/-- What is written for a character in a string is read as that character. -/
theorem jsonTokens_jsonCharacter (units : List Nat) (character : Char) (rest : List Char) :
    jsonTokens (some units) (jsonCharacter character ++ rest) =
      jsonTokens (some (character.toNat :: units)) rest := by
  unfold jsonCharacter
  split
  · simp [jsonTokens, jsonEscape?]
  · simp [jsonTokens, jsonEscape?]
  · simp [jsonTokens, jsonEscape?]
  · simp [jsonTokens, jsonEscape?]
  · simp [jsonTokens, jsonEscape?]
  next notQuote notBackslash _ _ _ =>
    split
    next code => simp [jsonTokens, jsonEscape?, code]
    split
    next code => simp [jsonTokens, jsonEscape?, code]
    split
    next small =>
      have zero : digitValue? 16 '0' = some 0 := by decide
      have high := digitValue?_hexDigit (by omega : character.toNat / 16 < 16)
      have low := digitValue?_hexDigit (by omega : character.toNat % 16 < 16)
      have unit : digitsValue 16 0
          ['0', '0', hexDigit (character.toNat / 16), hexDigit (character.toNat % 16)] =
            some character.toNat := by
        simp only [digitsValue, zero, high, low, Option.some.injEq]
        omega
      simp [jsonTokens, unit]
    next large =>
      rw [List.singleton_append, jsonTokens]
      · exact if_neg (not_or.mpr ⟨notBackslash, large⟩)
      · exact notQuote
      · exact fun _ _ _ _ _ same _ => notBackslash same
      · exact fun _ _ same _ => notBackslash same

/-- What is written for a text is read as its characters. -/
theorem jsonTokens_flatMap (units : List Nat) (characters rest : List Char) :
    jsonTokens (some units) (characters.flatMap jsonCharacter ++ rest) =
      jsonTokens (some ((characters.map Char.toNat).reverse ++ units)) rest := by
  induction characters generalizing units with
  | nil => rfl
  | cons character others ih =>
      rw [List.flatMap_cons, List.append_assoc, jsonTokens_jsonCharacter, ih]
      simp

/-- **A written string is one token, and it holds the text.** -/
theorem jsonTokens_jsonString (text : String) (rest : List Char) :
    jsonTokens none ((jsonString text).toList ++ rest) =
      (jsonTokens none rest).map (.text text :: ·) := by
  have whole : (jsonString text).toList ++ rest =
      '"' :: (text.toList.flatMap jsonCharacter ++ '"' :: rest) := by
    simp [jsonString]
  rw [whole, jsonTokens, jsonTokens_flatMap, jsonTokens, List.append_nil, List.reverse_reverse,
    charactersOf?_map_toNat, Option.bind_some, String.ofList_toList]

/-- Strings with a comma before each are read up to the end of the array. -/
theorem exists_laterStrings (items : List String) :
    ∃ tokens, jsonTokens none
        (items.flatMap (fun item => ',' :: (jsonString item).toList) ++ [']']) = some tokens ∧
      laterStrings? tokens = some items := by
  induction items with
  | nil => exact ⟨[.closing], rfl, rfl⟩
  | cons item rest ih =>
      obtain ⟨tokens, isTokens, read⟩ := ih
      refine ⟨.comma :: .text item :: tokens, ?_, ?_⟩
      · rw [List.flatMap_cons, List.cons_append, List.cons_append, jsonTokens, List.append_assoc,
          jsonTokens_jsonString, isTokens]
        rfl
      · rw [laterStrings?, read]
        rfl

theorem intercalate_cons_eq_flatMap (first : String) (rest : List String) :
    (",".intercalate (first :: rest)).toList =
      first.toList ++ rest.flatMap fun item => ',' :: item.toList := by
  induction rest generalizing first with
  | nil => simp
  | cons next rest ih => simp [String.intercalate_cons_cons, ih]

/-- **An array of strings is read as the list of the strings**, whatever they are. -/
theorem readJsonStrings?_jsonArray (items : List String) :
    readJsonStrings? (jsonArray items) = some items := by
  cases items with
  | nil => rfl
  | cons first rest =>
      obtain ⟨tokens, isTokens, read⟩ := exists_laterStrings rest
      have whole : (jsonArray (first :: rest)).toList =
          '[' :: ((jsonString first).toList ++
            (rest.flatMap (fun item => ',' :: (jsonString item).toList) ++ [']'])) := by
        rw [jsonArray, String.toList_append, String.toList_append, List.map_cons,
          intercalate_cons_eq_flatMap, List.flatMap_map, List.append_assoc, List.append_assoc]
        rfl
      rw [readJsonStrings?, whole, jsonTokens, jsonTokens_jsonString, isTokens, Option.map_some,
        Option.map_some, Option.bind_some, stringsOf?, read]
      rfl

/-! ## Control characters -/

/-- There is no control character below U+0020 in the text. -/
def IsControlFree (text : String) : Prop := ∀ character ∈ text.toList, 0x20 ≤ character.toNat

theorem isControlFree_append {first second : String} :
    IsControlFree (first ++ second) ↔ IsControlFree first ∧ IsControlFree second := by
  simp only [IsControlFree, String.toList_append, List.forall_mem_append]

/-- A line feed is a control character. -/
theorem IsControlFree.isLine {text : String} (free : IsControlFree text) : IsLine text := by
  intro member
  exact absurd (free '\n' member) (by decide)

theorem le_toNat_hexDigit {value : Nat} (small : value < 16) : 0x20 ≤ (hexDigit value).toNat := by
  revert value
  decide

/-- No character is written with control characters. -/
theorem le_toNat_of_mem_jsonCharacter (character : Char) :
    ∀ written ∈ jsonCharacter character, 0x20 ≤ written.toNat := by
  unfold jsonCharacter
  split
  · simp
  · simp
  · simp
  · simp
  · simp
  · split
    · simp
    split
    · simp
    split
    next small =>
      have high := le_toNat_hexDigit (by omega : character.toNat / 16 < 16)
      have low := le_toNat_hexDigit (by omega : character.toNat % 16 < 16)
      simp [high, low]
    next large => simpa using large

theorem isControlFree_jsonString (text : String) : IsControlFree (jsonString text) := by
  rw [jsonString, isControlFree_append, isControlFree_append]
  refine ⟨⟨by simp [IsControlFree], fun written member => ?_⟩, by simp [IsControlFree]⟩
  rw [String.toList_ofList] at member
  obtain ⟨character, _, inside⟩ := List.mem_flatMap.mp member
  exact le_toNat_of_mem_jsonCharacter character written inside

/-- **There are no control characters in an array of strings**, whatever the strings are. -/
theorem isControlFree_jsonArray (items : List String) : IsControlFree (jsonArray items) := by
  rw [jsonArray, isControlFree_append, isControlFree_append]
  refine ⟨⟨by simp [IsControlFree], fun written member => ?_⟩, by simp [IsControlFree]⟩
  by_contra control
  refine not_mem_intercalate ?_ ?_ member
  · intro isComma
    cases List.mem_singleton.mp isComma
    exact control (by decide)
  · intro piece isPiece inside
    obtain ⟨item, _, rfl⟩ := List.mem_map.mp isPiece
    exact control (isControlFree_jsonString item written inside)

end StageManifest.Text
