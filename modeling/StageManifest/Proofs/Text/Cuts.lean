import Mathlib.Data.List.DropRight
import Mathlib.Data.List.Infix
import StageManifest.Text.Blank
import StageManifest.Text.Lines

/-!
# Where a text is cut

The pieces of a cut, with the separator between them, are the text.  A text may be
such a composition in several ways, and the cut at the first separator is the one
with no separator that ends earlier (`cutFirst_eq_some_iff`), the cut at the last
one that with no separator later (`cutLast_eq_some_iff`).

In the same way a trimmed text is what stands between blank characters, neither
starting nor ending with one (`trim_eq_iff`).
-/

set_option autoImplicit false

namespace StageManifest.Text

/-! ## The first other item -/

section

variable {α : Type} {p : α → Bool} {front inner : List α} (inside : ∀ item ∈ front, p item = true)
  (start : ∀ item ∈ inner.head?, p item = false)
include inside start

/-- All items before the first other one are dropped. -/
theorem dropWhile_append : (front ++ inner).dropWhile p = inner := by
  rw [List.dropWhile_append_of_pos inside]
  cases inner with
  | nil => rfl
  | cons item rest => simp [start item rfl]

/-- All items before the first other one are taken. -/
theorem takeWhile_append : (front ++ inner).takeWhile p = front := by
  rw [List.takeWhile_append_of_pos inside]
  cases inner with
  | nil => simp
  | cons item rest => simp [start item rfl]

end

/-! ## The first separator -/

/-- No separator ends before the one at which a text is cut. -/
theorem not_infix_of_cutFirst {separator text before after : List Char} (nonempty : separator ≠ [])
    (cut : cutFirst separator text = some (before, after)) :
    ¬ separator <:+: before ++ separator.dropLast := by
  induction text generalizing before with
  | nil =>
      rw [cutFirst, if_neg (by simpa using nonempty)] at cut
      cases cut
  | cons character rest ih =>
      have whole := cutFirst_eq_some cut
      rw [cutFirst] at cut
      split at cut
      next starts =>
        cases cut
        intro inside
        have short := inside.length_le
        have long := List.length_pos_of_ne_nil nonempty
        simp only [List.nil_append, List.length_dropLast] at short
        omega
      next elsewhere =>
        obtain ⟨⟨front, back⟩, later, same⟩ := Option.map_eq_some_iff.mp cut
        cases same
        rw [List.cons_append, List.infix_cons_iff]
        rintro (here | further)
        · apply elsewhere
          rw [List.isPrefixOf_iff_prefix, whole]
          refine here.trans ?_
          simp only [List.cons_append, List.cons_prefix_cons, true_and, List.append_assoc,
            List.prefix_append_right_inj]
          exact (List.dropLast_prefix separator).trans (List.prefix_append _ _)
        · exact ih later further

/-- A text is cut where its first separator ends. -/
theorem cutFirst_of_not_infix {separator before : List Char} (after : List Char)
    (nonempty : separator ≠ []) (absent : ¬ separator <:+: before ++ separator.dropLast) :
    cutFirst separator (before ++ separator ++ after) = some (before, after) := by
  induction before with
  | nil =>
      obtain ⟨first, others, rfl⟩ := List.exists_cons_of_ne_nil nonempty
      have starts : (first :: others).isPrefixOf (first :: (others ++ after)) = true := by
        simp [List.isPrefixOf_iff_prefix]
      rw [List.nil_append, List.cons_append, cutFirst, if_pos starts]
      simp
  | cons character before ih =>
      rw [List.cons_append, List.infix_cons_iff, not_or] at absent
      have elsewhere :
          separator.isPrefixOf (character :: (before ++ separator ++ after)) = false := by
        rw [Bool.eq_false_iff]
        intro starts
        apply absent.1
        -- A separator at the start would end within the shorter text.
        refine List.prefix_of_prefix_length_le (List.isPrefixOf_iff_prefix.mp starts) ?_ ?_
        · simp only [List.cons_prefix_cons, true_and, List.append_assoc,
            List.prefix_append_right_inj]
          exact (List.dropLast_prefix separator).trans (List.prefix_append _ _)
        · simp only [List.length_cons, List.length_append, List.length_dropLast]
          omega
      simp only [List.cons_append, cutFirst, elsewhere, ih absent.2]
      simp

/-- **A text is cut at its first separator**: no separator ends earlier. -/
theorem cutFirst_eq_some_iff {separator text before after : List Char}
    (nonempty : separator ≠ []) :
    cutFirst separator text = some (before, after) ↔
      text = before ++ separator ++ after ∧ ¬ separator <:+: before ++ separator.dropLast := by
  constructor
  · intro cut
    exact ⟨cutFirst_eq_some cut, not_infix_of_cutFirst nonempty cut⟩
  · rintro ⟨rfl, absent⟩
    exact cutFirst_of_not_infix after nonempty absent

/-- A text is cut at the first occurrence of a character. -/
theorem cutFirst_singleton_eq_some_iff {separator : Char} {text before after : List Char} :
    cutFirst [separator] text = some (before, after) ↔
      text = before ++ separator :: after ∧ separator ∉ before := by
  rw [cutFirst_eq_some_iff (List.cons_ne_nil _ _)]
  simp [List.singleton_infix_iff]

/-- A text is cut at the first occurrence of two characters that differ. -/
theorem cutFirst_pair_eq_some_iff {first second : Char} (different : first ≠ second)
    {text before after : List Char} :
    cutFirst [first, second] text = some (before, after) ↔
      text = before ++ [first, second] ++ after ∧ ¬ [first, second] <:+: before := by
  rw [cutFirst_eq_some_iff (List.cons_ne_nil _ _)]
  refine and_congr_right fun _ => not_congr ?_
  have notLast : ¬ [first, second] <:+ before ++ [first] := by
    intro ends
    have last := ends.getLast (List.cons_ne_nil _ _)
    simp only [List.getLast_append_singleton, List.getLast_cons_cons, List.getLast_singleton]
      at last
    exact different last.symm
  simp [List.infix_concat_iff, notLast]

/-! ## The last separator -/

theorem cutLast_eq_none_iff {separator : Char} {text : List Char} :
    cutLast separator text = none ↔ separator ∉ text := by
  induction text with
  | nil => simp [cutLast]
  | cons character rest ih =>
      rw [cutLast]
      split
      next found => simp [← ih, found]
      next missing =>
        have absent := ih.mp missing
        by_cases same : character = separator
        · simp [same]
        · simp [same, absent, Ne.symm same]

/-- No separator comes after the one at which a text is cut. -/
theorem not_mem_of_cutLast {separator : Char} {text before after : List Char}
    (cut : cutLast separator text = some (before, after)) : separator ∉ after := by
  induction text generalizing before with
  | nil => cases cut
  | cons character rest ih =>
      rw [cutLast] at cut
      split at cut
      next later =>
        cases cut
        exact ih later
      next missing =>
        split at cut
        · cases cut
          exact cutLast_eq_none_iff.mp missing
        · cases cut

/-- **A text is cut at its last separator**: none comes later. -/
theorem cutLast_eq_some_iff {separator : Char} {text before after : List Char} :
    cutLast separator text = some (before, after) ↔
      text = before ++ separator :: after ∧ separator ∉ after := by
  constructor
  · intro cut
    exact ⟨cutLast_eq_some cut, not_mem_of_cutLast cut⟩
  · rintro ⟨rfl, absent⟩
    induction before with
    | nil => simp [cutLast, cutLast_eq_none_iff.mpr absent]
    | cons character before ih => rw [List.cons_append, cutLast, ih]

/-! ## Blank characters at the ends -/

/-- The text holds the other one between blank characters, and that one neither starts nor ends
with a blank character. -/
structure TrimsTo (text inner : List Char) : Prop where
  split : ∃ front back, text = front ++ inner ++ back ∧
    (∀ character ∈ front, isBlank character = true) ∧ ∀ character ∈ back, isBlank character = true
  start : ∀ character ∈ inner.head?, isBlank character = false
  finish : ∀ character ∈ inner.getLast?, isBlank character = false

theorem trimEnd_eq_rdropWhile (text : List Char) : trimEnd text = text.rdropWhile isBlank := rfl

theorem trimsTo_trim (text : List Char) : TrimsTo text (trim text) where
  split := by
    refine ⟨text.takeWhile isBlank, (trimStart text).rtakeWhile isBlank, ?_, ?_, ?_⟩
    · rw [trim, trimEnd_eq_rdropWhile, List.append_assoc, List.rdropWhile_append_rtakeWhile,
        trimStart, List.takeWhile_append_dropWhile]
    · exact fun character => List.mem_takeWhile_imp
    · exact fun character => List.mem_rtakeWhile_imp
  start := by
    intro character isFirst
    obtain ⟨back, whole⟩ := List.rdropWhile_prefix isBlank (trimStart text)
    have first : character ∈ (trimStart text).head? := by
      rw [← whole, List.head?_append, Option.mem_def, ← trimEnd_eq_rdropWhile, ← trim,
        Option.mem_def.mp isFirst, Option.some_or]
    have notBlank := List.head?_dropWhile_not isBlank text
    rw [← trimStart, Option.mem_def.mp first] at notBlank
    exact notBlank
  finish := by
    intro character isLast
    obtain ⟨filled, rfl⟩ := List.mem_getLast?_eq_getLast isLast
    exact Bool.eq_false_iff.mpr (List.rdropWhile_last_not isBlank (trimStart text) filled)

theorem TrimsTo.trim_eq {text inner : List Char} (trims : TrimsTo text inner) :
    trim text = inner := by
  obtain ⟨⟨front, back, rfl, blankFront, blankBack⟩, start, finish⟩ := trims
  have atEnd : trimEnd (inner ++ back) = inner := by
    rw [trimEnd, List.reverse_append, dropWhile_append, List.reverse_reverse]
    · intro character member
      exact blankBack character (List.mem_reverse.mp member)
    · rw [List.head?_reverse]
      exact finish
  cases inner with
  | nil =>
      have blank : ∀ character ∈ front ++ back, isBlank character = true :=
        List.forall_mem_append.mpr ⟨blankFront, blankBack⟩
      rw [List.append_nil, trim, trimStart, List.dropWhile_eq_nil_iff.mpr blank]
      rfl
  | cons character rest =>
      have goesOn : ∀ other ∈ (character :: rest ++ back).head?, isBlank other = false := start
      rw [List.append_assoc, trim, trimStart, dropWhile_append blankFront goesOn, atEnd]

/-- **A trimmed text is what stands between blank characters.** -/
theorem trim_eq_iff {text inner : List Char} : trim text = inner ↔ TrimsTo text inner := by
  constructor
  · rintro rfl
    exact trimsTo_trim text
  · exact TrimsTo.trim_eq

end StageManifest.Text
