import StageManifest.Progress
import StageManifest.Proofs.Text.Cuts
import StageManifest.Proofs.Text.Digits

/-!
# Lines that announce a step

A line that announces a step is put together of a vertex, a stage, two counts and an
instruction (`StepLine.Parts`).  The separators between them may occur in the parts,
too, so not every composition is read as it was meant.  It is if there is no space in
the vertex, no end of the bracket in the bracket, and the counts are numbers
(`StepLine.Parts.Announces`); and nothing else is read
(`StepLine.ofLine?_eq_some_iff`).

The stage may hold spaces, slashes and brackets.  So all that a printed announcement
says is read from it (`StepLine.ofLine?_reads_announcements`).
-/

set_option autoImplicit false

namespace StageManifest.StepLine

open Text (WritesDecimal TrimsTo)

/-! ## Announcements -/

/-- The texts of which a line that announces a step is put together. -/
structure Parts where
  vertex : List Char
  stage : List Char
  index : List Char
  total : List Char
  tail : List Char

namespace Parts

/-- The text in the brackets. -/
def place (parts : Parts) : List Char :=
  parts.stage ++ ' ' :: (parts.index ++ '/' :: parts.total)

/-- `#vertex [stage index/total] tail` -/
def line (parts : Parts) : List Char :=
  '#' :: (parts.vertex ++ ' ' :: '[' :: (parts.place ++ [']', ' '] ++ parts.tail))

/-- The parts are those of an announcement of the step. -/
structure Announces (parts : Parts) (step : StepLine) : Prop where
  vertex : ' ' ∉ parts.vertex
  place : ¬ [']', ' '] <:+: parts.place
  index : ' ' ∉ parts.index
  total : ' ' ∉ parts.total
  isStage : String.ofList parts.stage = step.stage
  isIndex : WritesDecimal parts.index step.index ∧ step.index < limit
  isTotal : WritesDecimal parts.total step.total ∧ step.total < limit
  isInstruction : TrimsTo parts.tail step.instruction.toList

end Parts

/-- There is neither a space nor a slash in a number. -/
theorem not_mem_of_writesDecimal {text : List Char} {number : Nat}
    (writes : WritesDecimal text number) : ' ' ∉ text ∧ '/' ∉ text := by
  obtain ⟨sign, digits, rfl, isSign, _, areDigits, _⟩ := writes
  have inside : ∀ character ∈ sign ++ digits, character = '+' ∨ character.isDigit = true := by
    intro character member
    rcases List.mem_append.mp member with inSign | inDigits
    · rcases isSign with rfl | rfl
      · cases inSign
      · exact .inl (List.mem_singleton.mp inSign)
    · exact .inr (areDigits character inDigits)
  constructor
  · intro member
    exact absurd (inside ' ' member) (by decide)
  · intro member
    exact absurd (inside '/' member) (by decide)

/-- What is read from a line are the parts of an announcement. -/
theorem exists_parts_of_ofLine? {line : List Char} {step : StepLine}
    (read : ofLine? line = some step) :
    ∃ parts : Parts, parts.line = line ∧ parts.Announces step := by
  simp only [ofLine?, Option.bind_eq_bind, Option.bind_eq_some_iff, Prod.exists,
    Text.afterStart?_eq_some, Text.cutFirst_singleton_eq_some_iff, Text.cutLast_eq_some_iff,
    Text.cutFirst_pair_eq_some_iff (by decide : ']' ≠ ' '), Text.decimalBelow?_eq_some_iff,
    Option.pure_def, Option.some.injEq] at read
  obtain ⟨_, rfl, vertex, _, ⟨rfl, inVertex⟩, _, rfl, place, tail, ⟨rfl, inPlace⟩, stage, counts,
    ⟨rfl, inCounts⟩, first, second, ⟨rfl, inFirst⟩, index, isIndex, total, isTotal, rfl⟩ := read
  simp only [List.mem_append, List.mem_cons, not_or] at inCounts
  refine ⟨⟨vertex, stage, first, second, tail⟩, by simp [Parts.line, Parts.place], ?_⟩
  exact
    { vertex := inVertex
      place := inPlace
      index := inCounts.1
      total := inCounts.2.2
      isStage := rfl
      isIndex := isIndex
      isTotal := isTotal
      isInstruction := by
        rw [String.toList_ofList]
        exact Text.trim_eq_iff.mp rfl }

/-- An announcement is read as the step that it announces. -/
theorem Parts.Announces.ofLine?_line {parts : Parts} {step : StepLine}
    (announces : parts.Announces step) : ofLine? parts.line = some step := by
  have noSlash : '/' ∉ parts.index := (not_mem_of_writesDecimal announces.isIndex.1).2
  have noSpace : ' ' ∉ parts.index ++ '/' :: parts.total := by
    simp [announces.index, announces.total]
  have atMark (body : List Char) : Text.afterStart? ['#'] ('#' :: body) = some body :=
    Text.afterStart?_eq_some.mpr rfl
  have atVertex (body : List Char) :
      Text.cutFirst [' '] (parts.vertex ++ ' ' :: body) = some (parts.vertex, body) :=
    Text.cutFirst_append announces.vertex body
  have atBracket (body : List Char) : Text.afterStart? ['['] ('[' :: body) = some body :=
    Text.afterStart?_eq_some.mpr rfl
  have atPlace : Text.cutFirst [']', ' '] (parts.place ++ [']', ' '] ++ parts.tail) =
      some (parts.place, parts.tail) :=
    (Text.cutFirst_pair_eq_some_iff (by decide)).mpr ⟨rfl, announces.place⟩
  have atStage : Text.cutLast ' ' parts.place =
      some (parts.stage, parts.index ++ '/' :: parts.total) :=
    Text.cutLast_eq_some_iff.mpr ⟨rfl, noSpace⟩
  have atCounts : Text.cutFirst ['/'] (parts.index ++ '/' :: parts.total) =
      some (parts.index, parts.total) :=
    Text.cutFirst_append noSlash parts.total
  have isIndex := Text.decimalBelow?_eq_some_iff.mpr announces.isIndex
  have isTotal := Text.decimalBelow?_eq_some_iff.mpr announces.isTotal
  have isInstruction : String.ofList (Text.trim parts.tail) = step.instruction := by
    rw [Text.trim_eq_iff.mpr announces.isInstruction, String.ofList_toList]
  simp only [ofLine?, Parts.line, Option.bind_eq_bind, atMark, atVertex, atBracket, atPlace,
    atStage, atCounts, isIndex, isTotal, Option.bind_some, announces.isStage, isInstruction,
    Option.pure_def]

/-- **Announcements are read, and nothing else is.** -/
theorem ofLine?_eq_some_iff {line : List Char} {step : StepLine} :
    ofLine? line = some step ↔ ∃ parts : Parts, parts.line = line ∧ parts.Announces step := by
  constructor
  · exact exists_parts_of_ofLine?
  · rintro ⟨parts, rfl, announces⟩
    exact announces.ofLine?_line

/-! ## Printed announcements -/

/-- The line that announces a step at a vertex, with its counts in decimal notation. -/
def announcement (vertex : String) (step : StepLine) : String :=
  "#" ++ vertex ++ " [" ++ step.stage ++ " " ++ Nat.repr step.index ++ "/" ++
    Nat.repr step.total ++ "] " ++ step.instruction

/-- The separators of the announcement are those that are printed as such, and the counts are
small enough to be read. -/
structure Announceable (vertex : String) (step : StepLine) : Prop where
  vertex : ' ' ∉ vertex.toList
  place : ¬ "] ".toList <:+:
    (step.stage ++ " " ++ Nat.repr step.index ++ "/" ++ Nat.repr step.total).toList
  index : step.index < limit
  total : step.total < limit

/-- The parts of a printed announcement. -/
def announcedParts (vertex : String) (step : StepLine) : Parts where
  vertex := vertex.toList
  stage := step.stage.toList
  index := Nat.toDigits 10 step.index
  total := Nat.toDigits 10 step.total
  tail := step.instruction.toList

theorem line_announcedParts (vertex : String) (step : StepLine) :
    (announcedParts vertex step).line = (announcement vertex step).toList := by
  simp [Parts.line, Parts.place, announcedParts, announcement, Nat.repr_eq_ofList_toDigits]

/-- The step without the blank characters around its instruction. -/
def trimmed (step : StepLine) : StepLine :=
  { step with instruction := String.ofList (Text.trim step.instruction.toList) }

theorem writesDecimal_toDigits (number : Nat) : WritesDecimal (Nat.toDigits 10 number) number := by
  refine ⟨[], Nat.toDigits 10 number, rfl, .inl rfl, Nat.toDigits_ne_nil, ?_, ?_⟩
  · exact fun _ member => Nat.isDigit_of_mem_toDigits (by decide) (by decide) member
  · exact Nat.ofDigitChars_ten_toDigits

theorem announces_announcedParts {vertex : String} {step : StepLine}
    (announceable : Announceable vertex step) :
    (announcedParts vertex step).Announces step.trimmed where
  vertex := announceable.vertex
  place := by
    have place := announceable.place
    simpa [Parts.place, announcedParts, Nat.repr_eq_ofList_toDigits] using place
  index := (not_mem_of_writesDecimal (writesDecimal_toDigits step.index)).1
  total := (not_mem_of_writesDecimal (writesDecimal_toDigits step.total)).1
  isStage := String.ofList_toList
  isIndex := ⟨writesDecimal_toDigits step.index, announceable.index⟩
  isTotal := ⟨writesDecimal_toDigits step.total, announceable.total⟩
  isInstruction := by
    rw [trimmed, String.toList_ofList]
    exact Text.trim_eq_iff.mp rfl

/-- **Exactly the announcements are read**, each as the step that it announces.  So a printed
announcement is read as its step, whatever stands in the stage. -/
theorem ofLine?_reads_announcements :
    (∀ line step, ofLine? line = some step ↔
      ∃ parts : Parts, parts.line = line ∧ parts.Announces step) ∧
    ∀ vertex step, Announceable vertex step →
      ofLine? (announcement vertex step).toList = some step.trimmed := by
  refine ⟨fun line step => ofLine?_eq_some_iff, ?_⟩
  intro vertex step announceable
  rw [← line_announcedParts]
  exact (announces_announcedParts announceable).ofLine?_line

/-- A step of a stage whose name has all the separators in it. -/
def platformStep : StepLine := ⟨"linux/amd64 [build]/x 1", 3, 12, " RUN make [all] 1/2 "⟩

theorem announceable_platformStep : Announceable "7" platformStep where
  vertex := by decide
  place := by decide +kernel
  index := by decide
  total := by decide

/-- The step is read from its announcement, without the blanks around the instruction. -/
theorem ofLine?_reads_announcement_of_platform :
    Announceable "7" platformStep ∧
      announcement "7" platformStep = "#7 [linux/amd64 [build]/x 1 3/12]  RUN make [all] 1/2 " ∧
      ofLine? (announcement "7" platformStep).toList =
        some ⟨"linux/amd64 [build]/x 1", 3, 12, "RUN make [all] 1/2"⟩ := by
  refine ⟨announceable_platformStep, by decide +kernel, ?_⟩
  have instruction : platformStep.trimmed =
      ⟨"linux/amd64 [build]/x 1", 3, 12, "RUN make [all] 1/2"⟩ := by decide +kernel
  rw [← instruction]
  exact ofLine?_reads_announcements.2 "7" platformStep announceable_platformStep

end StageManifest.StepLine
