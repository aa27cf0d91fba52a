import Mathlib.Data.List.Basic
import StageManifest.Text.Digits
import StageManifest.Text.Lines

/-!
# Texts of one line and paragraphs

A text is one line if there is no line feed in it.  Lines that are joined come
apart again at the line feeds (`splitLines_joinLines`), but when they are read as the
lines of a text an empty last one is lost (`lines_joinLines`).  Blocks of lines,
with an empty line between each two, come apart again at the empty lines, if no
line of a block is empty (`paragraphs_intercalate`).
-/

set_option autoImplicit false

namespace StageManifest.Text

/-! ## Texts of one line -/

/-- There is no line feed in the text. -/
def IsLine (text : String) : Prop := '\n' ∉ text.toList

instance (text : String) : Decidable (IsLine text) :=
  inferInstanceAs (Decidable ('\n' ∉ text.toList))

theorem isLine_append {first second : String} :
    IsLine (first ++ second) ↔ IsLine first ∧ IsLine second := by
  simp only [IsLine, String.toList_append, List.mem_append, not_or]

/-! ## Characters that a text lacks -/

section

variable {character : Char}

/-- A character that is neither in the pieces nor between them is not in the joined text. -/
theorem not_mem_intercalate {separator : String} {pieces : List String}
    (between : character ∉ separator.toList)
    (absent : ∀ piece ∈ pieces, character ∉ piece.toList) :
    character ∉ (separator.intercalate pieces).toList := by
  induction pieces with
  | nil => exact List.not_mem_nil
  | cons piece rest ih =>
      obtain ⟨inPiece, others⟩ := List.forall_mem_cons.mp absent
      cases rest with
      | nil => rwa [String.intercalate_singleton]
      | cons next rest =>
          rw [String.intercalate_cons_cons, String.toList_append, String.toList_append]
          simp only [List.mem_append, not_or]
          exact ⟨⟨inPiece, between⟩, ih others⟩

variable (other : character.isDigit = false)
include other

/-- A number in a base of at most ten is written with digits only. -/
theorem not_mem_toDigits {base : Nat} (positive : 0 < base) (small : base ≤ 10) (value : Nat) :
    character ∉ Nat.toDigits base value := by
  intro member
  have isDigit := Nat.isDigit_of_mem_toDigits positive small member
  rw [other] at isDigit
  cases isDigit

theorem not_mem_repr (value : Nat) : character ∉ (Nat.repr value).toList := by
  rw [Nat.repr_eq_ofList_toDigits, String.toList_ofList]
  exact not_mem_toDigits other (by decide) (by decide) value

theorem not_mem_paddedDigits {base : Nat} (positive : 0 < base) (small : base ≤ 10)
    (width value : Nat) : character ∉ (paddedDigits base width value).toList := by
  rw [paddedDigits, String.toList_ofList, zeroPadded, List.mem_append, not_or]
  constructor
  · intro member
    rw [List.eq_of_mem_replicate member] at other
    exact absurd other (by decide)
  · exact not_mem_toDigits other positive small value

end

/-! ## Lines -/

theorem joinLines_singleton (line : String) : joinLines [line] = line :=
  String.intercalate_singleton

theorem joinLines_cons (line : String) {rest : List String} (more : rest ≠ []) :
    joinLines (line :: rest) = line ++ "\n" ++ joinLines rest := by
  obtain ⟨next, others, rfl⟩ := List.exists_cons_of_ne_nil more
  exact String.intercalate_cons_cons

/-- More lines are joined behind a line feed. -/
theorem joinLines_append {first second : List String} (someFirst : first ≠ [])
    (someSecond : second ≠ []) :
    joinLines (first ++ second) = joinLines first ++ "\n" ++ joinLines second :=
  String.intercalate_append_of_ne_nil someFirst someSecond

/-- Joining joined lines joins all the lines. -/
theorem joinLines_map_joinLines {groups : List (List String)}
    (filled : ∀ group ∈ groups, group ≠ []) :
    joinLines (groups.map joinLines) = joinLines groups.flatten := by
  induction groups with
  | nil => rfl
  | cons group rest ih =>
      obtain ⟨isFilled, others⟩ := List.forall_mem_cons.mp filled
      cases rest with
      | nil => simp [joinLines_singleton]
      | cons next rest =>
          have more : (next :: rest).flatten ≠ [] := by
            rw [List.flatten_cons]
            exact List.append_ne_nil_of_left_ne_nil (others next List.mem_cons_self) _
          rw [List.map_cons, joinLines_cons _ (by simp), ih others,
            List.flatten_cons (l := group), joinLines_append isFilled more]

/-- The texts between the line feeds of a text. -/
def splitLines (text : String) : List String :=
  (text.toList.splitOn '\n').map String.ofList

/-- The pieces between the line feeds of joined lines are the lines. -/
theorem splitOn_joinLines {lines : List String} (filled : lines ≠ [])
    (areLines : ∀ line ∈ lines, IsLine line) :
    (joinLines lines).toList.splitOn '\n' = lines.map String.toList := by
  have characters : (joinLines lines).toList = ['\n'].intercalate (lines.map String.toList) :=
    String.toList_intercalate
  rw [characters]
  refine List.splitOn_intercalate '\n' ?_ (by simpa using filled)
  intro pieces member
  obtain ⟨line, isLine, rfl⟩ := List.mem_map.mp member
  exact areLines line isLine

/-- **Joined lines come apart at the line feeds.** -/
theorem splitLines_joinLines {lines : List String} (filled : lines ≠ [])
    (areLines : ∀ line ∈ lines, IsLine line) : splitLines (joinLines lines) = lines := by
  rw [splitLines, splitOn_joinLines filled areLines, List.map_map]
  simp [Function.comp_def]

/-- Lines that are joined to the same text are the same, if there are any. -/
theorem joinLines_inj {first second : List String} (filled : first ≠ []) (otherFilled : second ≠ [])
    (areLines : ∀ line ∈ first, IsLine line) (alsoLines : ∀ line ∈ second, IsLine line) :
    joinLines first = joinLines second ↔ first = second := by
  constructor
  · intro same
    rw [← splitLines_joinLines filled areLines, same, splitLines_joinLines otherFilled alsoLines]
  · rintro rfl
    rfl

/-! ## Reading joined lines -/

/-- The text is read as a line as it is: there is no line feed in it and no carriage return at its
end. -/
def IsWholeLine (text : String) : Prop := IsLine text ∧ text.toList.getLast? ≠ some '\r'

instance (text : String) : Decidable (IsWholeLine text) :=
  inferInstanceAs (Decidable (_ ∧ _))

/-- The lines without the last one if that is empty. -/
def withoutEmptyEnd (lines : List String) : List String :=
  if lines.getLast? = some "" then lines.dropLast else lines

theorem withoutEmptyEnd_concat_empty (lines : List String) :
    withoutEmptyEnd (lines ++ [""]) = lines := by
  rw [withoutEmptyEnd, if_pos List.getLast?_concat, List.dropLast_concat]

/-- The pieces between line feeds are the lines, but an empty last one is none. -/
theorem linesOfPieces_map_toList {lines : List String}
    (whole : ∀ line ∈ lines, IsWholeLine line) :
    (linesOfPieces (lines.map String.toList)).map String.ofList = withoutEmptyEnd lines := by
  induction lines with
  | nil => rfl
  | cons line rest ih =>
      obtain ⟨isWhole, others⟩ := List.forall_mem_cons.mp whole
      cases rest with
      | nil =>
          by_cases isEmpty : line = ""
          · subst isEmpty
            rfl
          · simp [linesOfPieces, withoutEmptyEnd, isEmpty]
      | cons next rest =>
          have kept : dropCarriageReturn line.toList = line.toList := if_neg isWhole.2
          have later := ih others
          rw [withoutEmptyEnd, List.map_cons] at later
          rw [withoutEmptyEnd, List.getLast?_cons_cons, List.map_cons, List.map_cons, linesOfPieces,
            kept, List.map_cons, later, String.ofList_toList]
          split
          · rfl
          · rfl

/-- **Joined lines are read as the lines they were, but an empty last one is lost.** -/
theorem lines_joinLines {lines : List String} (whole : ∀ line ∈ lines, IsWholeLine line) :
    Text.lines (joinLines lines) = withoutEmptyEnd lines := by
  cases lines with
  | nil => rfl
  | cons line rest =>
      rw [Text.lines, splitOn_joinLines (List.cons_ne_nil _ _) fun line member =>
        (whole line member).1, linesOfPieces_map_toList whole]

/-! ## Paragraphs -/

/-- The blocks of lines between the empty lines of a text. -/
def paragraphs (text : String) : List String :=
  ((splitLines text).splitOn "").map joinLines

/-- There is a line in blocks with empty lines between them, if there is one in the first. -/
theorem intercalate_ne_nil {group : List String} (filled : group ≠ []) (rest : List (List String)) :
    [""].intercalate (group :: rest) ≠ [] := by
  cases rest with
  | nil => simpa using filled
  | cons next rest => simp [List.intercalate_cons_cons]

/-- A line in blocks with empty lines between them is one of these or in a block. -/
theorem mem_intercalate {groups : List (List String)} {line : String}
    (member : line ∈ [""].intercalate groups) : line = "" ∨ ∃ group ∈ groups, line ∈ group := by
  induction groups with
  | nil => cases member
  | cons group rest ih =>
      cases rest with
      | nil => exact .inr ⟨group, List.mem_cons_self, by simpa using member⟩
      | cons next rest =>
          rw [List.intercalate_cons_cons, List.mem_append, List.mem_append,
            List.mem_singleton] at member
          rcases member with (inside | isEmpty) | later
          · exact .inr ⟨group, List.mem_cons_self, inside⟩
          · exact .inl isEmpty
          · refine (ih later).imp_right fun ⟨other, isOther, inside⟩ => ?_
            exact ⟨other, List.mem_cons_of_mem _ isOther, inside⟩

/-- Blocks with two line feeds between them have an empty line between them. -/
theorem intercalate_map_joinLines {groups : List (List String)}
    (filled : ∀ group ∈ groups, group ≠ []) :
    "\n\n".intercalate (groups.map joinLines) = joinLines ([""].intercalate groups) := by
  induction groups with
  | nil => rfl
  | cons group rest ih =>
      obtain ⟨isFilled, others⟩ := List.forall_mem_cons.mp filled
      cases rest with
      | nil => simp
      | cons next rest =>
          have more := intercalate_ne_nil (others next List.mem_cons_self) rest
          have feeds : "\n\n" = "\n" ++ "\n" := rfl
          rw [List.map_cons, List.map_cons, String.intercalate_cons_cons, ← List.map_cons,
            ih others, List.intercalate_cons_cons, List.append_assoc,
            joinLines_append isFilled (by simp), List.singleton_append, joinLines_cons _ more, feeds]
          simp only [String.append_assoc, String.empty_append]

/-- **Blocks of lines come apart at the empty lines between them.** -/
theorem paragraphs_intercalate {group : List String} {rest : List (List String)}
    (filled : ∀ block ∈ group :: rest, block ≠ [])
    (areLines : ∀ block ∈ group :: rest, ∀ line ∈ block, IsLine line ∧ line ≠ "") :
    paragraphs ("\n\n".intercalate ((group :: rest).map joinLines)) =
      (group :: rest).map joinLines := by
  have lines : splitLines (joinLines ([""].intercalate (group :: rest))) =
      [""].intercalate (group :: rest) := by
    have someLine := intercalate_ne_nil (filled group List.mem_cons_self) rest
    refine splitLines_joinLines someLine fun line member => ?_
    rcases mem_intercalate member with rfl | ⟨block, isBlock, inside⟩
    · decide
    · exact (areLines block isBlock line inside).1
  have apart : ([""].intercalate (group :: rest)).splitOn "" = group :: rest := by
    refine List.splitOn_intercalate "" (fun block isBlock inside => ?_) (List.cons_ne_nil _ _)
    exact (areLines block isBlock "" inside).2 rfl
  rw [intercalate_map_joinLines filled, paragraphs, lines, apart]

end StageManifest.Text
