import StageManifest.Proofs.Toml.Sections
import StageManifest.Toml.Decode

/-!
# Expressions of values

A text is an expression of a value if it is read as the value where a value may
stand, up to the end of its line (`Toml.Expresses`).  What is written for a string,
an integer or a truth value is an expression of it, and what is written for a table
with one string is one of the table (`Toml.expresses_singleton`).  No text is an
expression of two values, so one of the table that stands for a date or time in a
document is not one of the date or time (`Toml.not_expresses_datetime`).
-/

set_option autoImplicit false

namespace StageManifest.Toml

/-- The text is an expression of the value: at the end of a line it is read as the value. -/
def Expresses (text : String) (value : Value) : Prop :=
  ∀ rest, readWholeValue (text.toList ++ '\n' :: rest) = some (value, '\n' :: rest)

/-- A text is an expression of one value at most. -/
theorem Expresses.unique {text : String} {value other : Value} (expresses : Expresses text value)
    (also : Expresses text other) : value = other := by
  have same := (expresses []).symm.trans (also [])
  exact (Prod.mk.inj (Option.some.inj same)).1

theorem expresses_valueText {value : Value} (plain : value.IsPlain) (layout : Layout) :
    Expresses (valueText layout value) value :=
  readWholeValue_valueText plain

/-! ## Tables -/

/-- A pair with a string is read up to the brace that closes its table. -/
theorem readPairs_singleton (fuel nesting : Nat) (key text : String) (rest : List Char) :
    readPairs (fuel + 2) nesting ((quoteKey key).toList ++
        ' ' :: '=' :: ' ' :: ((quoteValue text).toList ++ ' ' :: '\x7d' :: rest)) =
      some ([([key], .string text)], rest) := by
  obtain ⟨quote, more, starts, isQuote⟩ := exists_head_quoteAs (valueForm text.toList) text.toList
  have isStart : IsStart quote := .inr isQuote
  have skipped : skipBlank (' ' :: ((quoteValue text).toList ++ ' ' :: '\x7d' :: rest)) =
      (quoteValue text).toList ++ ' ' :: '\x7d' :: rest := by
    rw [quoteValue, String.toList_ofList, starts, List.cons_append]
    exact skipBlank_of_isStart isStart _
  have afterKey : skipBlank
      (' ' :: '=' :: ' ' :: ((quoteValue text).toList ++ ' ' :: '\x7d' :: rest)) =
      '=' :: ' ' :: ((quoteValue text).toList ++ ' ' :: '\x7d' :: rest) := rfl
  rw [readPairs, readKey_quoteKey key (by simp; decide) (by rw [afterKey]; simp), afterKey]
  simp only [Option.bind_eq_bind, Option.bind_some, skipped]
  rw [readValue_quoteValue fuel nesting text (by simp) (by simp)]
  rfl

/-- A table with one string is read from its expression. -/
theorem expresses_singleton (layout : Layout) (key text : String) :
    Expresses (valueText layout (.table [(key, .string text)])) (.table [(key, .string text)]) := by
  intro rest
  have written : (valueText layout (.table [(key, .string text)])).toList ++ '\n' :: rest =
      '\x7b' :: ' ' :: ((quoteKey key).toList ++ ' ' :: '=' :: ' ' ::
        ((quoteValue text).toList ++ ' ' :: '\x7d' :: '\n' :: rest)) := by
    simp [valueText, pairTexts, inlineTableText]
  have fuel : ∀ length, 2 * (length + 1) + 2 = 2 * length + 1 + 2 + 1 := fun length => by omega
  have limit : nestingLimit = 78 + 1 := rfl
  obtain ⟨first, more, starts, isStart⟩ := exists_head_quoteKey key
  have skipped : ∀ tail, skipBlank (' ' :: ((quoteKey key).toList ++ tail)) =
      (quoteKey key).toList ++ tail := by
    intro tail
    rw [starts, List.cons_append]
    exact skipBlank_of_isStart isStart _
  rw [written, readWholeValue, List.length_cons, fuel, limit, readValue]
  simp only [skipped]
  split
  next closes =>
    rw [starts, List.cons_append] at closes
    exact (isStart.ne (by decide) (List.cons.inj closes).1).elim
  next =>
    rw [readPairs_singleton]
    rfl

/-- The table that stands for a date or time in a document. -/
def dateTable (moment : DateTime) : Value := .table [(dateKey, .string moment.text)]

/-- An expression of the table of a date or time is not one of a date or time. -/
theorem not_expresses_datetime {text : String} {moment other : DateTime}
    (expresses : Expresses text (dateTable moment)) : ¬ Expresses text (.datetime other) := by
  intro also
  cases expresses.unique also

end StageManifest.Toml
