import StageManifest.Proofs.Instruction.Lines

/-!
# Words of instructions

The command, the entry point, the volumes and the shell may be given as a list of
words, which is written behind the keyword as a JSON array (`WordsKind`).  Whatever
characters are in the words, they are read from the text as they were given, and all
stands on one line; so different lists are written differently
(`WordsKind.words_survive`).
-/

set_option autoImplicit false

namespace StageManifest

/-- The instructions that may be given as a list of words. -/
inductive WordsKind where
  | cmd
  | entrypoint
  | volume
  | shell
deriving DecidableEq

namespace WordsKind

/-- The keyword at the start of the line. -/
def keyword : WordsKind → String
  | .cmd => "CMD"
  | .entrypoint => "ENTRYPOINT"
  | .volume => "VOLUME"
  | .shell => "SHELL"

/-- The instruction with the given words. -/
def instruction : WordsKind → List String → Instruction
  | .cmd, words => .cmd (.exec words)
  | .entrypoint, words => .entrypoint (.exec words)
  | .volume, words => .volume (.exec words)
  | .shell, words => .shell words

theorem text_instruction (kind : WordsKind) (words : List String) :
    (kind.instruction words).text = kind.keyword ++ " " ++ Text.jsonArray words := by
  cases kind <;> rfl

/-- The keywords have different initials. -/
theorem eq_of_head?_keyword {first second : WordsKind}
    (same : first.keyword.toList.head? = second.keyword.toList.head?) : first = second := by
  revert same
  cases first <;> cases second <;> decide

/-- The text tells the kind of the instruction and its words. -/
theorem text_instruction_eq_iff {kind other : WordsKind} {words others : List String} :
    (other.instruction others).text = (kind.instruction words).text ↔
      other = kind ∧ others = words := by
  constructor
  · intro same
    rw [text_instruction, text_instruction] at same
    have initial (kind : WordsKind) (rest : String) :
        (kind.keyword ++ " " ++ rest).toList.head? = kind.keyword.toList.head? := by
      cases kind <;> simp [keyword]
    have sameInitial := congrArg (fun text : String => text.toList.head?) same
    simp only [initial] at sameInitial
    cases eq_of_head?_keyword sameInitial
    have sameArray := (String.append_right_inj _).mp same
    have read := congrArg Text.readJsonStrings? sameArray
    rw [Text.readJsonStrings?_jsonArray, Text.readJsonStrings?_jsonArray] at read
    exact ⟨rfl, Option.some.inj read⟩
  · rintro ⟨rfl, rfl⟩
    rfl

/-- **Words survive in the text of an instruction**, whatever characters are in them: they are read
from the JSON array behind the keyword.  There are no control characters in it, so the instruction
is one line, and no other list of words is written alike. -/
theorem words_survive (kind : WordsKind) (words : List String) :
    ∃ array, (kind.instruction words).text = kind.keyword ++ " " ++ array ∧
      Text.IsControlFree array ∧ Text.readJsonStrings? array = some words ∧
      Text.IsLine (kind.instruction words).text ∧
      ∀ other others, (WordsKind.instruction other others).text = (kind.instruction words).text ↔
        other = kind ∧ others = words := by
  have free := Text.isControlFree_jsonArray words
  have line : Text.IsLine (kind.instruction words).text := by
    rw [text_instruction, Text.isLine_append, Text.isLine_append]
    refine ⟨⟨?_, by decide⟩, free.isLine⟩
    cases kind <;> decide
  exact ⟨Text.jsonArray words, text_instruction kind words, free,
    Text.readJsonStrings?_jsonArray words, line, fun _ _ => text_instruction_eq_iff⟩

/-- A quote, a line feed and a character beyond the first plane. -/
example : (cmd.instruction ["say \"hi\"\n", "😀"]).text = "CMD [\"say \\\"hi\\\"\\n\",\"😀\"]" := by
  decide +kernel

end WordsKind

end StageManifest
