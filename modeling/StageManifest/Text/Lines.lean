/-!
# Lines and pieces of text

Text read from a build engine, a build file or a command line is cut at single
characters.  A line ends at a line feed, a carriage return directly before that
line feed belongs to the ending, and text after the last line feed is a line
only when it is not empty.

The cutting functions work on lists of characters, where each of them has a
law that puts the pieces together again: `cutFirst_eq_some` and
`cutLast_eq_some` say that the pieces with the separator between them are the
text.
-/

set_option autoImplicit false

namespace StageManifest.Text

/-! ## Lines -/

/-- A line without the carriage return that ends it, if there is one. -/
def dropCarriageReturn (line : List Char) : List Char :=
  if line.getLast? = some '\r' then line.dropLast else line

/-- The lines of a text given as the pieces between its line feeds. -/
def linesOfPieces : List (List Char) → List (List Char)
  | [] => []
  | [last] => if last.isEmpty then [] else [last]
  | line :: next :: rest => dropCarriageReturn line :: linesOfPieces (next :: rest)

/-- The lines of a text, without their endings. -/
def lines (text : String) : List String :=
  (linesOfPieces (text.toList.splitOn '\n')).map String.ofList

/-- The given lines as one text, a line feed between each two. -/
def joinLines (pieces : List String) : String :=
  "\n".intercalate pieces

/-! ## Cutting at a separator -/

/-- The text before and after the first occurrence of a separator. -/
def cutFirst (separator : List Char) : List Char → Option (List Char × List Char)
  | [] => if separator.isEmpty then some ([], []) else none
  | character :: rest =>
      if separator.isPrefixOf (character :: rest) then
        some ([], (character :: rest).drop separator.length)
      else
        (cutFirst separator rest).map fun (before, after) => (character :: before, after)

/-- The text before and after the last occurrence of a separator character. -/
def cutLast (separator : Char) : List Char → Option (List Char × List Char)
  | [] => none
  | character :: rest =>
      match cutLast separator rest with
      | some (before, after) => some (character :: before, after)
      | none => if character = separator then some ([], rest) else none

/-- The text after a leading piece, if the text starts with it. -/
def afterStart? : (start : List Char) → List Char → Option (List Char)
  | [], text => some text
  | _ :: _, [] => none
  | expected :: start, character :: rest =>
      if character = expected then afterStart? start rest else none

/-- The pieces of a first cut, with the separator between them, are the text. -/
theorem cutFirst_eq_some {separator text before after : List Char}
    (h : cutFirst separator text = some (before, after)) :
    text = before ++ separator ++ after := by
  induction text generalizing before with
  | nil =>
      simp only [cutFirst] at h
      split at h
      · rename_i hs
        simp only [Option.some.injEq, Prod.mk.injEq] at h
        obtain ⟨rfl, rfl⟩ := h
        simpa using List.isEmpty_iff.1 hs
      · cases h
  | cons character rest ih =>
      simp only [cutFirst] at h
      split at h
      · rename_i hs
        simp only [Option.some.injEq, Prod.mk.injEq] at h
        obtain ⟨rfl, rfl⟩ := h
        obtain ⟨tail, ht⟩ := List.isPrefixOf_iff_prefix.1 hs
        simp [← ht]
      · obtain ⟨pair, hp, he⟩ := Option.map_eq_some_iff.1 h
        obtain ⟨b, a⟩ := pair
        simp only [Prod.mk.injEq] at he
        obtain ⟨rfl, rfl⟩ := he
        simp [ih hp]

/-- A text is cut at the first of its separators. -/
theorem cutFirst_append {separator : Char} {before : List Char} (absent : separator ∉ before)
    (after : List Char) :
    cutFirst [separator] (before ++ separator :: after) = some (before, after) := by
  induction before with
  | nil => simp [cutFirst, List.isPrefixOf]
  | cons character before ih =>
      obtain ⟨other, absent⟩ : separator ≠ character ∧ separator ∉ before := by
        simpa using absent
      have notHere : ([separator].isPrefixOf (character :: (before ++ separator :: after))) = false := by
        simpa [List.isPrefixOf] using other
      rw [List.cons_append, cutFirst, notHere, ih absent]
      rfl

/-- The pieces of a last cut, with the separator between them, are the text. -/
theorem cutLast_eq_some {separator : Char} {text before after : List Char}
    (h : cutLast separator text = some (before, after)) :
    text = before ++ separator :: after := by
  induction text generalizing before after with
  | nil => cases h
  | cons character rest ih =>
      simp only [cutLast] at h
      split at h
      · rename_i b a hc
        simp only [Option.some.injEq, Prod.mk.injEq] at h
        obtain ⟨rfl, rfl⟩ := h
        simp [ih hc]
      · split at h
        · rename_i hs
          simp only [Option.some.injEq, Prod.mk.injEq] at h
          obtain ⟨rfl, rfl⟩ := h
          simp [hs]
        · cases h

/-- What is left after a leading piece completes that piece to the text. -/
theorem afterStart?_eq_some {start text rest : List Char} :
    afterStart? start text = some rest ↔ text = start ++ rest := by
  induction start generalizing text with
  | nil => simp [afterStart?, eq_comm]
  | cons expected start ih =>
      cases text with
      | nil => simp [afterStart?]
      | cons character tail =>
          simp only [afterStart?]
          split
          · rename_i h
            simp [ih, h]
          · rename_i h
            simp [h]

end StageManifest.Text
