import Mathlib.Data.List.DropRight
import StageManifest.Host.Machine
import StageManifest.Proofs.Engine.Programs
import StageManifest.Proofs.Text.Paragraphs

/-!
# The tail of what a failed program wrote

The lines that were collected from a program are joined, read again as lines, and
the last of these are joined to make the message.  Joining writes no line feed
after the last line, so if this one is empty it is lost on the way
(`collectedTail_eq`), and where more lines were collected than are shown, one
more of the earlier ones comes in its place.

The text is nevertheless that of the last collected lines if the last one is not
empty, if nothing but an empty line was collected, or if there are more empty
lines at the end than are shown, and in no other case
(`collectedTail_eq_joinLines_lastLines_iff`).
-/

set_option autoImplicit false

namespace StageManifest

/-! ## The last items of a list -/

section

variable {α : Type}

theorem rtake_of_length_le {count : Nat} {items : List α} (few : items.length ≤ count) :
    items.rtake count = items := by
  rw [List.rtake, Nat.sub_eq_zero_of_le few, List.drop_zero]

/-- If there are more items, one more of them makes the last items longer at their start. -/
theorem exists_rtake_succ {count : Nat} {items : List α} (more : count < items.length) :
    ∃ item, items.rtake (count + 1) = item :: items.rtake count := by
  have next : items.length - count = items.length - (count + 1) + 1 := by omega
  refine ⟨items[items.length - (count + 1)], ?_⟩
  rw [List.rtake, List.rtake, next]
  exact List.drop_eq_getElem_cons (by omega)

theorem length_rtake {count : Nat} {items : List α} (enough : count ≤ items.length) :
    (items.rtake count).length = count := by
  rw [List.rtake, List.length_drop, Nat.sub_sub_self enough]

/-- A list that is the same one item on holds that item only. -/
theorem cons_eq_concat_iff {first last : α} {items : List α} :
    first :: items = items ++ [last] ↔ first :: items = List.replicate (items.length + 1) last := by
  induction items generalizing first with
  | nil => rfl
  | cons second rest ih =>
      rw [List.cons_append, List.cons.injEq, ih, List.length_cons,
        List.replicate_succ (n := rest.length + 1), List.cons.injEq]
      constructor
      · rintro ⟨rfl, same⟩
        exact ⟨(List.cons.inj same).1, same⟩
      · rintro ⟨rfl, same⟩
        exact ⟨(List.cons.inj same).1.symm, same⟩

/-- A list ends with repetitions of an item if these are its last items. -/
theorem replicate_suffix_iff {count : Nat} {item : α} {items : List α} :
    List.replicate count item <:+ items ↔ items.rtake count = List.replicate count item := by
  rw [List.suffix_iff_eq_drop, List.length_replicate, List.rtake, eq_comm]

/-- **One more item leaves the last items as they are exactly if it follows repetitions of itself**,
at least as many as items are taken. -/
theorem rtake_eq_rtake_concat_iff (count : Nat) (items : List α) (last : α) :
    items.rtake (count + 1) = (items ++ [last]).rtake (count + 1) ↔
      List.replicate (count + 2) last <:+ items ++ [last] := by
  by_cases more : count < items.length
  · obtain ⟨item, isNext⟩ := exists_rtake_succ more
    rw [replicate_suffix_iff, List.rtake_concat_succ, List.rtake_concat_succ, isNext,
      cons_eq_concat_iff, length_rtake (Nat.le_of_lt more),
      List.replicate_succ' (n := count + 1), List.append_left_inj]
  · have few : items.length ≤ count := Nat.le_of_not_lt more
    rw [rtake_of_length_le (Nat.le_succ_of_le few), List.rtake_concat_succ, rtake_of_length_le few]
    refine iff_of_false (by simp) fun suffix => ?_
    have long := suffix.length_le
    rw [List.length_replicate, List.length_append, List.length_singleton] at long
    omega

theorem rtake_ne_nil {count : Nat} {items : List α} (filled : items ≠ []) :
    items.rtake (count + 1) ≠ [] := by
  have positive := List.length_pos_of_ne_nil filled
  rw [List.rtake, Ne, List.drop_eq_nil_iff]
  omega

end

/-! ## The tail of collected lines -/

open Text (joinLines withoutEmptyEnd IsWholeLine)

/-- The last lines, at most as many as a message shows. -/
def lastLines (lines : List String) : List String := lines.rtake shownLines

variable {lines : List String}

/-- **The tail is the last lines, but for an empty line at the end.** -/
theorem collectedTail_eq (whole : ∀ line ∈ lines, IsWholeLine line) :
    collectedTail lines = joinLines (lastLines (withoutEmptyEnd lines)) := by
  have noErrors : Text.lines "" = [] := rfl
  rw [collectedTail, outputTail, Text.lines_joinLines whole, noErrors, List.append_nil]
  rfl

/-- **The text is that of the last lines in three cases only**: the last line is not empty, there is
only an empty line, or more empty lines are at the end than are shown. -/
theorem collectedTail_eq_joinLines_lastLines_iff (whole : ∀ line ∈ lines, IsWholeLine line) :
    collectedTail lines = joinLines (lastLines lines) ↔
      lines.getLast? ≠ some "" ∨ lines = [""] ∨ List.replicate (shownLines + 1) "" <:+ lines := by
  rw [collectedTail_eq whole]
  by_cases emptyEnd : lines.getLast? = some ""
  · obtain ⟨before, rfl⟩ := List.getLast?_eq_some_iff.mp emptyEnd
    rw [Text.withoutEmptyEnd_concat_empty]
    by_cases alone : before = []
    · subst alone
      exact iff_of_true rfl (.inr (.inl rfl))
    · have areLines : ∀ line ∈ before ++ [""], Text.IsLine line :=
        fun line member => (whole line member).1
      have isTail : joinLines (lastLines before) = joinLines (lastLines (before ++ [""])) ↔
          lastLines before = lastLines (before ++ [""]) :=
        Text.joinLines_inj (rtake_ne_nil alone) (rtake_ne_nil (by simp))
          (fun line member => areLines line (List.mem_append_left _ (List.mem_of_mem_drop member)))
          (fun line member => areLines line (List.mem_of_mem_drop member))
      have notAlone : before ++ [""] ≠ [""] := by simpa using alone
      rw [isTail, lastLines, lastLines, shownLines, rtake_eq_rtake_concat_iff]
      simp only [ne_eq, emptyEnd, not_true_eq_false, notAlone, false_or]
  · have kept : withoutEmptyEnd lines = lines := if_neg emptyEnd
    rw [kept]
    exact iff_of_true rfl (.inl emptyEnd)

/-! ## Programs that write lines and fail -/

/-- A program that writes the lines on its standard output and fails. -/
def failedWith (lines : List String) : ProgramResult :=
  ⟨Text.encode (joinLines (lines ++ [""])), [], false, []⟩

/-- What is collected from a program that writes lines is the lines, an empty last one too. -/
theorem collected_failedWith (whole : ∀ line ∈ lines, IsWholeLine line) :
    (failedWith lines).collected = lines := by
  have all : ∀ line ∈ lines ++ [""], IsWholeLine line := by
    simp only [List.mem_append, List.mem_singleton]
    rintro line (member | rfl)
    · exact whole line member
    · decide
  have written : outputLines (Text.encode (joinLines (lines ++ [""]))) = lines := by
    rw [outputLines_encode, Text.lines_joinLines all, Text.withoutEmptyEnd_concat_empty]
  have interleaving := OutputReaders.interleaving_readings [] lines []
  rw [failedWith, ProgramResult.collected, ProgramResult.readers, written]
  exact (interleaving.eq_of_nil rfl).symm

namespace Host

variable {σ : Type} (host : Host (StateM σ)) (tell : String → StateM σ Unit)

/-- **A failed build or push carries the last of the collected lines.**  Each of the two fails with
a text exactly if its program was run and failed, and the text is the tail of what was collected.
If these are whole lines, the tail is that of the lines without an empty last one, and this is that
of the lines as they are exactly if the last one is not empty, it is the only one, or more empty
lines are at the end than are shown.  Any whole lines are collected from some program that fails. -/
theorem failure_carries_tail :
    (∀ {kind : EngineKind} {manifest : String} {request : BuildRequest} {state : σ}
      {target text : String},
      ((host.build kind tell manifest request).run state).1 = .error (.buildFailed target text) ↔
        ∃ result, host.BuildRuns kind manifest request state result ∧ result.succeeded = false ∧
          target = request.label ∧ text = collectedTail result.collected) ∧
    (∀ {tag : String} {state : σ} {name text : String},
      ((host.push tell tag).run state).1 = .error (.pushFailed name text) ↔
        ∃ result, host.PushRuns tag state result ∧ result.succeeded = false ∧
          name = tag ∧ text = collectedTail result.collected) ∧
    ∀ lines, (∀ line ∈ lines, IsWholeLine line) →
      collectedTail lines = joinLines (lastLines (withoutEmptyEnd lines)) ∧
      (collectedTail lines = joinLines (lastLines lines) ↔
        lines.getLast? ≠ some "" ∨ lines = [""] ∨
          List.replicate (shownLines + 1) "" <:+ lines) ∧
      ∃ result : ProgramResult, result.succeeded = false ∧ result.collected = lines := by
  refine ⟨host.build_fails_iff tell, host.push_fails_iff tell, fun lines whole => ⟨?_, ?_, ?_⟩⟩
  · exact collectedTail_eq whole
  · exact collectedTail_eq_joinLines_lastLines_iff whole
  · exact ⟨failedWith lines, rfl, collected_failedWith whole⟩

end Host

namespace Machine

/-- A machine with a program that writes the lines and fails. -/
def failing (lines : List String) : Machine :=
  { files := {}
    here := []
    home := []
    programs := [(pushProgram, { output := (failedWith lines).output, status := 1 })] }

theorem pushRuns_failing (lines : List String) :
    host.PushRuns "app" (failing lines) (failedWith lines) := by
  rfl

/-- A failed push carries the two lines that were written. -/
theorem push_fails_with_two_lines :
    ((host.push (fun _ => pure ()) "app").run (failing ["one", "two"])).1 =
      .error (.pushFailed "app" "one\ntwo") := by
  have whole : ∀ line ∈ ["one", "two"], IsWholeLine line := by decide
  obtain ⟨_, pushFails, tail⟩ := Host.failure_carries_tail host (fun _ => pure ())
  have agrees := (tail _ whole).2.1.mpr (.inl (by decide))
  refine pushFails.mpr ⟨_, pushRuns_failing _, rfl, rfl, ?_⟩
  rw [collected_failedWith whole, agrees]
  rfl

/-- An empty line at the end is collected, but the failure does not carry it. -/
theorem push_fails_without_empty_end :
    host.PushRuns "app" (failing ["a", ""]) (failedWith ["a", ""]) ∧
      (failedWith ["a", ""]).collected = ["a", ""] ∧
      ((host.push (fun _ => pure ()) "app").run (failing ["a", ""])).1 =
        .error (.pushFailed "app" "a") ∧
      joinLines (lastLines ["a", ""]) = "a\n" := by
  have collected : (failedWith ["a", ""]).collected = ["a", ""] :=
    collected_failedWith (by decide)
  refine ⟨pushRuns_failing _, collected, ?_, rfl⟩
  rw [Host.push_fails_iff]
  refine ⟨_, pushRuns_failing _, rfl, rfl, ?_⟩
  rw [collected]
  rfl

end Machine

end StageManifest
