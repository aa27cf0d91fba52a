import StageManifest.Instruction.Basic
import StageManifest.Proofs.Text.Json

/-!
# Lines of instructions

An instruction is written as one line, an environment instruction as one line for
each variable (`Instruction.text_eq_joinLines`).  This is how the lines come apart
again, as long as no text that is written as it is given has a line feed in it
(`Instruction.freeTexts`): the other texts are words of a JSON array, and of the
rest there are only keywords, numbers and punctuation
(`Instruction.isFilledLine_of_mem_lines`).
-/

set_option autoImplicit false

namespace StageManifest

open Text (IsLine)

namespace Text

/-- The text is one line with something on it. -/
structure IsFilledLine (text : String) : Prop where
  isLine : IsLine text
  filled : text ≠ ""

instance (text : String) : Decidable (IsFilledLine text) :=
  decidable_of_iff (IsLine text ∧ text ≠ "")
    ⟨fun both => ⟨both.1, both.2⟩, fun isFilled => ⟨isFilled.isLine, isFilled.filled⟩⟩

/-- A filled line that goes on is a filled line. -/
theorem IsFilledLine.append {first second : String} (isFilled : IsFilledLine first)
    (isLine : IsLine second) : IsFilledLine (first ++ second) where
  isLine := isLine_append.mpr ⟨isFilled.isLine, isLine⟩
  filled := fun isEmpty => isFilled.filled (String.append_eq_empty_iff.mp isEmpty).1

/-- Lines that are joined by what is one line are a filled line, if the first of them is. -/
theorem IsFilledLine.intercalate {separator first : String} {rest : List String}
    (isFilled : IsFilledLine first) (between : IsLine separator)
    (areLines : ∀ piece ∈ first :: rest, IsLine piece) :
    IsFilledLine (separator.intercalate (first :: rest)) where
  isLine := not_mem_intercalate between areLines
  filled := by
    cases rest with
    | nil => rw [String.intercalate_singleton]; exact isFilled.filled
    | cons next rest =>
        rw [String.intercalate_cons_cons, String.append_assoc]
        exact fun isEmpty => isFilled.filled (String.append_eq_empty_iff.mp isEmpty).1

end Text

open Text (IsFilledLine)

/-! ## Texts that are written as they are given -/

/-- The texts of a mount that are written as they are given. -/
def CacheMount.freeTexts (mount : CacheMount) : List String :=
  mount.target :: (mount.id.toList ++ mount.source.toList)

/-- The text of a command that is written as it is given: its line in shell form, and nothing in
exec form. -/
def CommandForm.freeTexts : CommandForm → List String
  | .shell line => [line]
  | .exec _ => []

namespace Instruction

/-- The texts of an instruction that are written as they are given. -/
def freeTexts : Instruction → List String
  | .run command mounts => command :: mounts.flatMap CacheMount.freeTexts
  | .copy source destination ownership stage =>
      source :: destination ::
        ((ownership.map fun owner => [owner.user, owner.group]).getD [] ++ stage.toList)
  | .env assignments => assignments.toList.flatMap fun (name, value) => [name, value]
  | .expose _ => []
  | .workdir path => [path]
  | .cmd command => command.freeTexts
  | .entrypoint command => command.freeTexts
  | .label labels => labels.toList.flatMap fun (key, value) => [key, value]
  | .volume paths => paths.freeTexts
  | .user name group => name :: group.toList
  | .arg name value => name :: value.toList
  | .shell _ => []

/-- The lines of an instruction. -/
def lines : Instruction → List String
  | .env assignments => assignments.toList.map fun (name, value) => "ENV " ++ name ++ " " ++ value
  | instruction => [instruction.text]

/-- How many lines an instruction is written as. -/
def lineCount : Instruction → Nat
  | .env assignments => assignments.size
  | _ => 1

theorem length_lines (instruction : Instruction) :
    instruction.lines.length = instruction.lineCount := by
  cases instruction with
  | env assignments => exact List.length_map _
  | _ => rfl

/-- **An instruction is written as its lines.** -/
theorem text_eq_joinLines (instruction : Instruction) :
    instruction.text = Text.joinLines instruction.lines := by
  cases instruction with
  | env assignments => rfl
  | _ => exact (Text.joinLines_singleton _).symm

end Instruction

/-! ## Lines that are written -/

/-- A character is not in what is written for an option, if it is not in what is written for the
value that is set. -/
theorem not_mem_of_mem_option {α : Type} {option : Option α} {write : α → String} {character : Char}
    (absent : ∀ value, option = some value → character ∉ (write value).toList) :
    ∀ piece ∈ (option.map write).toList, character ∉ piece.toList := by
  cases option with
  | none => exact nofun
  | some value => exact List.forall_mem_singleton.mpr (absent value rfl)

namespace CacheMount

/-- The characters of the keys, keywords and numbers of a mount. -/
def isOwn (character : Char) : Bool := character.isAlphanum || character == '='

section

variable {character : Char} (foreign : isOwn character = false)
include foreign

theorem not_mem_own {text : String} (own : text.toList.all isOwn = true) :
    character ∉ text.toList := by
  intro member
  rw [List.all_eq_true.mp own character member] at foreign
  cases foreign

theorem not_mem_own_append {start text : String} (own : start.toList.all isOwn = true)
    (absent : character ∉ text.toList) : character ∉ (start ++ text).toList := by
  rw [String.toList_append, List.mem_append, not_or]
  exact ⟨not_mem_own foreign own, absent⟩

/-- In the pieces of a mount there are, besides its own characters, those of the texts that are
written as they are given. -/
theorem not_mem_of_mem_pieces {mount : CacheMount}
    (absent : ∀ text ∈ mount.freeTexts, character ∉ text.toList) :
    ∀ piece ∈ mount.pieces, character ∉ piece.toList := by
  have notDigit : character.isDigit = false := by
    have notOwn := foreign
    simp only [isOwn, Char.isAlphanum, Bool.or_eq_false_iff] at notOwn
    exact notOwn.1.2
  simp only [freeTexts, List.forall_mem_cons, List.forall_mem_append, Option.mem_toList] at absent
  obtain ⟨target, id, source⟩ := absent
  simp only [pieces, List.forall_mem_append, List.forall_mem_cons]
  refine ⟨⟨⟨⟨⟨⟨⟨⟨?_, ?_, nofun⟩, ?_⟩, ?_⟩, ?_⟩, ?_⟩, ?_⟩, ?_⟩, ?_⟩
  · exact not_mem_own foreign (by decide)
  · exact not_mem_own_append foreign (by decide) target
  · refine not_mem_of_mem_option fun sharing _ => not_mem_own foreign ?_
    cases sharing <;> decide
  · exact not_mem_of_mem_option fun set isSet =>
      not_mem_own_append foreign (by decide) (id set isSet)
  · cases mount.readOnly with
    | true => exact List.forall_mem_singleton.mpr (not_mem_own foreign (by decide))
    | false => exact nofun
  · exact not_mem_of_mem_option fun uid _ =>
      not_mem_own_append foreign (by decide) (Text.not_mem_repr notDigit _)
  · exact not_mem_of_mem_option fun gid _ =>
      not_mem_own_append foreign (by decide) (Text.not_mem_repr notDigit _)
  · exact not_mem_of_mem_option fun mode _ =>
      not_mem_own_append foreign (by decide)
        (Text.not_mem_paddedDigits notDigit (by decide) (by decide) _ _)
  · exact not_mem_of_mem_option fun set isSet =>
      not_mem_own_append foreign (by decide) (source set isSet)

end

theorem isLine_text {mount : CacheMount} (plain : ∀ text ∈ mount.freeTexts, IsLine text) :
    IsLine mount.text :=
  Text.not_mem_intercalate (by decide) (not_mem_of_mem_pieces (by decide) plain)

end CacheMount

theorem CommandForm.isLine_text {command : CommandForm}
    (plain : ∀ text ∈ command.freeTexts, IsLine text) : IsLine command.text := by
  cases command with
  | shell line => exact plain line List.mem_cons_self
  | exec words => exact (Text.isControlFree_jsonArray words).isLine

namespace Instruction

/-- Every word of a copy is one line. -/
theorem isLine_of_mem_copyWords {source destination : String} {ownership : Option Ownership}
    {stage : Option String}
    (plain : ∀ text ∈ (copy source destination ownership stage).freeTexts, IsLine text) :
    ∀ word ∈ copyWords source destination ownership stage, IsLine word := by
  simp only [freeTexts, List.forall_mem_cons, List.forall_mem_append, Option.mem_toList] at plain
  obtain ⟨isSource, isDestination, owner, isStage⟩ := plain
  simp only [copyWords, List.forall_mem_append, List.forall_mem_cons]
  refine ⟨⟨⟨⟨by decide, nofun⟩, ?_⟩, ?_⟩, isSource, isDestination, nofun⟩
  · refine not_mem_of_mem_option fun set isSet => ?_
    rw [isSet, Option.map_some, Option.getD_some] at owner
    simp only [List.forall_mem_cons] at owner
    change IsLine _
    simp only [Text.isLine_append]
    exact ⟨⟨⟨by decide, owner.1⟩, by decide⟩, owner.2.1⟩
  · exact not_mem_of_mem_option fun name isName =>
      Text.isLine_append.mpr ⟨by decide, isStage name isName⟩

/-- **The lines of an instruction are lines with something on them**, if the texts that are written
as they are given are lines. -/
theorem isFilledLine_of_mem_lines {instruction : Instruction}
    (plain : ∀ text ∈ instruction.freeTexts, IsLine text) {line : String}
    (member : line ∈ instruction.lines) : IsFilledLine line := by
  cases instruction with
  | env assignments =>
      obtain ⟨⟨name, value⟩, isAssignment, rfl⟩ := List.mem_map.mp member
      have given : ∀ text ∈ [name, value], IsLine text := fun text isText =>
        plain text (List.mem_flatMap.mpr ⟨_, isAssignment, isText⟩)
      simp only [List.forall_mem_cons] at given
      exact .append (.append (.append (by decide) given.1) (by decide)) given.2.1
  | run command mounts =>
      obtain ⟨isLine, others⟩ := List.forall_mem_cons.mp plain
      rw [List.mem_singleton.mp member]
      cases mounts with
      | nil => exact .append (by decide) isLine
      | cons mount rest =>
          refine .append (.append (.append (by decide) ?_) (by decide)) isLine
          refine Text.not_mem_intercalate (by decide) fun flag isFlag => ?_
          obtain ⟨other, isMount, rfl⟩ := List.mem_map.mp isFlag
          have given := CacheMount.isLine_text fun text isText =>
            others text (List.mem_flatMap.mpr ⟨other, isMount, isText⟩)
          exact Text.isLine_append.mpr ⟨by decide, given⟩
  | copy source destination ownership stage =>
      rw [List.mem_singleton.mp member]
      have keyword : IsFilledLine "COPY" := by decide
      exact keyword.intercalate (by decide) (isLine_of_mem_copyWords plain)
  | expose port =>
      rw [List.mem_singleton.mp member]
      exact .append (by decide) (Text.not_mem_repr (by decide) _)
  | workdir path =>
      rw [List.mem_singleton.mp member]
      exact .append (by decide) (plain path List.mem_cons_self)
  | cmd command =>
      rw [List.mem_singleton.mp member]
      exact .append (by decide) (CommandForm.isLine_text plain)
  | entrypoint command =>
      rw [List.mem_singleton.mp member]
      exact .append (by decide) (CommandForm.isLine_text plain)
  | label labels =>
      rw [List.mem_singleton.mp member]
      refine .append (by decide) (Text.not_mem_intercalate (by decide) fun piece isPiece => ?_)
      obtain ⟨⟨key, value⟩, isLabel, rfl⟩ := List.mem_map.mp isPiece
      have given : ∀ text ∈ [key, value], IsLine text := fun text isText =>
        plain text (List.mem_flatMap.mpr ⟨_, isLabel, isText⟩)
      simp only [List.forall_mem_cons] at given
      change IsLine _
      simp only [Text.isLine_append]
      exact ⟨⟨⟨⟨by decide, given.1⟩, by decide⟩, given.2.1⟩, by decide⟩
  | volume paths =>
      rw [List.mem_singleton.mp member]
      exact .append (by decide) (CommandForm.isLine_text plain)
  | user name group =>
      rw [List.mem_singleton.mp member]
      obtain ⟨isLine, others⟩ := List.forall_mem_cons.mp plain
      cases group with
      | none => exact .append (by decide) isLine
      | some group =>
          exact .append (.append (.append (by decide) isLine) (by decide))
            (others group List.mem_cons_self)
  | arg name value =>
      rw [List.mem_singleton.mp member]
      obtain ⟨isLine, others⟩ := List.forall_mem_cons.mp plain
      cases value with
      | none => exact .append (by decide) isLine
      | some value =>
          exact .append (.append (.append (.append (by decide) isLine) (by decide))
            (others value List.mem_cons_self)) (by decide)
  | shell words =>
      rw [List.mem_singleton.mp member]
      exact .append (by decide) ((Text.isControlFree_jsonArray words).isLine)

end Instruction

end StageManifest
