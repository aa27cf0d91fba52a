import Mathlib.Data.List.ReduceOption
import StageManifest.Proofs.Engine.OutputLines

/-!
# Reading two outputs to their ends

The loop that reads the two outputs of an engine makes one reading after the
other (`OutputReaders.readings`).  Each is observed as it is made, the ends as well
as the lines, so the loop's effects tell all of its readings
(`OutputReaders.relay_eq`, `OutputReaders.Performs.eq_readings`).  Whichever side is
ready first each time, what is read from a side is its lines in their order and then
its end (`OutputReaders.ofSide_readings`), which is the invariant of the loop: it
holds of what is left of the sides at any time.

So the lines are an interleaving of those of the two sides, and the loop stops
with the second end (`OutputReaders.relay_interleaves`).  Conversely, the readings of
the two sides are made in any given order in some order of readiness
(`OutputReaders.readings_map_fst`).
-/

set_option autoImplicit false

namespace StageManifest

/-! ## Interleavings -/

/-- The third list holds the items of the two others, those of each in their order. -/
inductive Interleaving {α : Type} : List α → List α → List α → Prop
  | nil : Interleaving [] [] []
  | left {item : α} {first second whole : List α} :
      Interleaving first second whole → Interleaving (item :: first) second (item :: whole)
  | right {item : α} {first second whole : List α} :
      Interleaving first second whole → Interleaving first (item :: second) (item :: whole)

/-- If one of the lists has no items, the whole is the other. -/
theorem Interleaving.eq_of_nil {α : Type} {first second whole : List α}
    (interleaving : Interleaving first second whole) (nothing : first = []) : second = whole := by
  induction interleaving with
  | nil => rfl
  | left _ _ => cases nothing
  | right _ ih => exact congrArg _ (ih nothing)

/-! ## Readings -/

/-- What the readings of one side gave. -/
def ofSide (side : OutputSide) (readings : List Reading) : List (Option String) :=
  (readings.filter (·.1 = side)).map (·.2)

/-- The lines among what was read. -/
def readLines (readings : List Reading) : List String := readings.filterMap (·.2)

theorem readLines_cons (reading : Reading) (rest : List Reading) :
    readLines (reading :: rest) = reading.2.toList ++ readLines rest := by
  cases reading with
  | mk side line => cases line <;> rfl

/-- To tell what is read is to tell the lines. -/
theorem forM_tellRead {m : Type → Type} [Monad m] [LawfulMonad m] (tell : String → m Unit)
    (readings : List Reading) : readings.forM (tellRead tell) = (readLines readings).forM tell := by
  induction readings with
  | nil => rfl
  | cons reading rest ih =>
      obtain ⟨side, _ | line⟩ := reading
      · change (pure () >>= fun _ => rest.forM (tellRead tell)) = (readLines rest).forM tell
        rw [pure_bind, ih]
      · change (tell line >>= fun _ => rest.forM (tellRead tell)) =
          (tell line >>= fun _ => (readLines rest).forM tell)
        rw [ih]

theorem ofSide_append (side : OutputSide) (first second : List Reading) :
    ofSide side (first ++ second) = ofSide side first ++ ofSide side second := by
  rw [ofSide, List.filter_append, List.map_append]
  rfl

theorem mem_ofSide_iff {side : OutputSide} {line : Option String} {readings : List Reading} :
    line ∈ ofSide side readings ↔ (side, line) ∈ readings := by
  simp [ofSide]

/-- There is nothing to read on both sides only if there are no readings. -/
theorem eq_nil_of_ofSide_eq_nil {readings : List Reading}
    (nothing : ∀ side, ofSide side readings = []) : readings = [] := by
  cases readings with
  | nil => rfl
  | cons reading rest =>
      have inside : reading.2 ∈ ofSide reading.1 (reading :: rest) :=
        mem_ofSide_iff.mpr List.mem_cons_self
      rw [nothing] at inside
      cases inside

/-- The lines that were read are those of the two sides. -/
theorem interleaving_readLines (readings : List Reading) :
    Interleaving (ofSide .errors readings).reduceOption (ofSide .output readings).reduceOption
      (readLines readings) := by
  induction readings with
  | nil => exact .nil
  | cons reading rest ih =>
      obtain ⟨side, line⟩ := reading
      cases side with
      | errors =>
          cases line with
          | none => exact ih
          | some line => exact ih.left
      | output =>
          cases line with
          | none => exact ih
          | some line => exact ih.right

namespace OutputReaders

/-- One side of the readers. -/
def side (readers : OutputReaders) : OutputSide → Option (List String)
  | .errors => readers.errors
  | .output => readers.output

/-- What is still to be read on a side: the lines that are left and the end, unless it has been
seen. -/
def remaining : Option (List String) → List (Option String)
  | none => []
  | some lines => lines.map some ++ [none]

theorem eq_none_of_remaining_eq_nil {lines : Option (List String)}
    (nothing : remaining lines = []) : lines = none := by
  cases lines with
  | none => rfl
  | some lines => exact absurd nothing (List.append_ne_nil_of_right_ne_nil _ (List.cons_ne_nil _ _))

/-! ## One reading -/

section

variable {readers : OutputReaders} {ready chosen : OutputSide}

/-- The loop stops when both ends have been seen. -/
theorem next?_eq_none_iff : readers.next? ready = none ↔ ∀ which, readers.side which = none := by
  obtain ⟨errors, output⟩ := readers
  have both : (∀ which, side ⟨errors, output⟩ which = none) ↔ errors = none ∧ output = none := by
    constructor
    · exact fun ended => ⟨ended .errors, ended .output⟩
    · rintro ⟨noErrors, noOutput⟩ (_ | _)
      · exact noErrors
      · exact noOutput
  rw [both]
  cases ready <;> cases errors <;> cases output <;> simp [next?]

/-- A side is read only if its end has not been seen. -/
theorem exists_side_eq (next : readers.next? ready = some chosen) :
    ∃ lines, readers.side chosen = some lines := by
  obtain ⟨errors, output⟩ := readers
  cases ready <;> cases errors <;> cases output <;> cases chosen <;> simp_all [next?, side]

/-- A side on which something is left is read if it is ready first. -/
theorem next?_eq_self_of_remaining_eq_cons {line : Option String} {rest : List (Option String)}
    (left : remaining (readers.side ready) = line :: rest) : readers.next? ready = some ready := by
  obtain ⟨errors, output⟩ := readers
  cases ready
  · cases errors with
    | none => cases left
    | some lines => rfl
  · cases output with
    | none => cases left
    | some lines => rfl

/-- **A reading takes the first of what is left on its side.** -/
theorem remaining_side (next : readers.next? ready = some chosen) :
    remaining (readers.side chosen) =
      (readers.read chosen).1 :: remaining ((readers.read chosen).2.side chosen) := by
  obtain ⟨lines, isOpen⟩ := exists_side_eq next
  have line : (readers.read chosen).1 = (readSide (readers.side chosen)).1 := by cases chosen <;> rfl
  have rest : (readers.read chosen).2.side chosen = (readSide (readers.side chosen)).2 := by
    cases chosen <;> rfl
  rw [line, rest, isOpen]
  cases lines <;> rfl

/-- **A reading leaves the other side as it is.** -/
theorem side_read_of_ne {other : OutputSide} (different : other ≠ chosen) :
    (readers.read chosen).2.side other = readers.side other := by
  cases chosen <;> cases other
  · exact absurd rfl different
  · rfl
  · rfl
  · exact absurd rfl different

end

/-! ## The loop -/

/-- The readings of the loop, in their order. -/
def readings (schedule : List OutputSide) (readers : OutputReaders) : List Reading :=
  match _next : readers.next? (schedule.headD .errors) with
  | none => []
  | some side => (side, (readers.read side).1) :: readings schedule.tail (readers.read side).2
termination_by readers.weight
decreasing_by exact weight_read_lt _next

/-- **What is read from a side is what was left there.** -/
theorem ofSide_readings (which : OutputSide) (schedule : List OutputSide)
    (readers : OutputReaders) :
    ofSide which (readings schedule readers) = remaining (readers.side which) := by
  fun_induction readings schedule readers with
  | case1 schedule readers ended =>
      rw [next?_eq_none_iff.mp ended which]
      rfl
  | case2 schedule readers chosen next ih =>
      by_cases same : chosen = which
      · subst same
        rw [remaining_side next, ← ih]
        simp [ofSide]
      · rw [← side_read_of_ne (Ne.symm same), ← ih]
        simp [ofSide, same]

/-- **The loop makes its readings one after the other and answers with the lines among them.** -/
theorem relay_eq {m : Type → Type} [Monad m] [LawfulMonad m] (observe : Reading → m Unit)
    (schedule : List OutputSide) (readers : OutputReaders) (collected : List String) :
    readers.relay observe schedule collected = (do
      (readings schedule readers).forM observe
      return collected ++ readLines (readings schedule readers)) := by
  fun_induction readings schedule readers generalizing collected with
  | case1 schedule readers ended =>
      unfold relay
      split
      next => simp [readLines]
      next chosen next => cases ended.symm.trans next
  | case2 schedule readers chosen next ih =>
      unfold relay
      split
      next ended => cases next.symm.trans ended
      next other also =>
        obtain rfl : chosen = other := Option.some.inj (next.symm.trans also)
        simp [ih, readLines_cons]

/-- The side that is ready first is read, if it is open. -/
theorem readings_cons {ready : OutputSide} {schedule : List OutputSide} {readers : OutputReaders}
    (isOpen : readers.next? ready = some ready) :
    readings (ready :: schedule) readers =
      (ready, (readers.read ready).1) :: readings schedule (readers.read ready).2 := by
  rw [readings]
  split
  next ended => cases isOpen.symm.trans ended
  next chosen next =>
    obtain rfl : ready = chosen := Option.some.inj (isOpen.symm.trans next)
    rfl

/-- **What is left of the sides is read in any given order**, if the sides are ready in this order. -/
theorem readings_map_fst {made : List Reading} {readers : OutputReaders}
    (parts : ∀ which, ofSide which made = remaining (readers.side which)) :
    readings (made.map (·.1)) readers = made := by
  induction made generalizing readers with
  | nil =>
      have ended : readers.next? .errors = none :=
        next?_eq_none_iff.mpr fun which => eq_none_of_remaining_eq_nil (parts which).symm
      rw [List.map_nil, readings]
      split
      next => rfl
      next chosen next => cases ended.symm.trans next
  | cons reading rest ih =>
      obtain ⟨side, line⟩ := reading
      have first : line :: ofSide side rest = remaining (readers.side side) := by
        rw [← parts side]
        simp [ofSide]
      have isOpen := next?_eq_self_of_remaining_eq_cons first.symm
      obtain ⟨isLine, isRest⟩ := List.cons.inj (first.trans (remaining_side isOpen))
      rw [List.map_cons, readings_cons isOpen, ← isLine, ih fun which => ?_]
      by_cases same : which = side
      · rw [same, isRest]
      · rw [side_read_of_ne same, ← parts which]
        simp [ofSide, Ne.symm same]

/-- From the start, the loop makes these readings and no others, whatever is done at each of them, and
answers with the lines among them. -/
def Performs (readers : OutputReaders) (schedule : List OutputSide) (made : List Reading) : Prop :=
  ∀ (m : Type → Type) [Monad m] [LawfulMonad m] (observe : Reading → m Unit),
    readers.relay observe schedule [] = (do
      made.forM observe
      return readLines made)

theorem performs_readings (readers : OutputReaders) (schedule : List OutputSide) :
    readers.Performs schedule (readings schedule readers) :=
  fun _ _ _ observe => relay_eq observe schedule readers []

/-- Readings that are recorded one by one are a list of them all. -/
theorem run_forM_record (made before : List Reading) :
    (made.forM fun reading => (modify (· ++ [reading]) : StateM (List Reading) Unit)).run before =
      ((), before ++ made) := by
  induction made generalizing before with
  | nil => exact congrArg (Prod.mk ()) (List.append_nil before).symm
  | cons reading rest ih =>
      refine (ih (before ++ [reading])).trans ?_
      rw [List.append_assoc]
      rfl

/-- **The effects of the loop tell its readings.** -/
theorem Performs.eq_readings {readers : OutputReaders} {schedule : List OutputSide}
    {made : List Reading} (performs : readers.Performs schedule made) :
    made = readings schedule readers := by
  have recorded (other : List Reading) (also : readers.Performs schedule other) :
      ((readers.relay (fun reading => (modify (· ++ [reading]) : StateM (List Reading) Unit))
        schedule []).run []).2 = other := by
    rw [also, StateT.run_bind, run_forM_record]
    rfl
  rw [← recorded made performs, recorded _ (performs_readings readers schedule)]

/-! ## Two outputs from their starts -/

variable {errors output lines : List String}

/-- Once a side has been read to its end nothing more is read there. -/
theorem eq_nil_of_append_eq {lines : List String} {before after : List (Option String)}
    (whole : before ++ after = remaining (some lines)) (ended : none ∈ before) : after = [] := by
  by_contra more
  have front : before ++ after.dropLast = lines.map some := by
    rw [← List.dropLast_append_of_ne_nil more, whole, remaining, List.dropLast_concat]
  have inside : none ∈ lines.map some := front ▸ List.mem_append_left _ ended
  obtain ⟨_, _, never⟩ := List.mem_map.mp inside
  cases never

/-- **The loop stops exactly when it has seen both ends.** -/
theorem eq_nil_iff_of_readings_eq {schedule : List OutputSide} {before after : List Reading}
    (whole : readings schedule ⟨some errors, some output⟩ = before ++ after) :
    after = [] ↔ ∀ which, (which, none) ∈ before := by
  have parts (which : OutputSide) : ∃ lines,
      ofSide which before ++ ofSide which after = remaining (some lines) := by
    rw [← ofSide_append, ← whole, ofSide_readings]
    cases which
    · exact ⟨errors, rfl⟩
    · exact ⟨output, rfl⟩
  constructor
  · rintro rfl which
    obtain ⟨lines, all⟩ := parts which
    rw [← mem_ofSide_iff, ← List.append_nil (ofSide which before)]
    exact all ▸ List.mem_append_right _ (List.mem_singleton_self none)
  · intro ends
    refine eq_nil_of_ofSide_eq_nil fun which => ?_
    obtain ⟨lines, all⟩ := parts which
    exact eq_nil_of_append_eq all (mem_ofSide_iff.mpr (ends which))

theorem reduceOption_remaining (lines : List String) :
    (remaining (some lines)).reduceOption = lines := by
  have noEnd : (lines.map some).reduceOption = lines := by
    rw [List.reduceOption, List.filterMap_map]
    exact List.filterMap_some
  rw [remaining, List.reduceOption_append, noEnd, List.reduceOption_singleton, Option.toList_none,
    List.append_nil]

/-- The lines are those of the two outputs. -/
theorem interleaving_readings (errors output : List String) (schedule : List OutputSide) :
    Interleaving errors output (readLines (readings schedule ⟨some errors, some output⟩)) := by
  have whole := interleaving_readLines (readings schedule ⟨some errors, some output⟩)
  rwa [ofSide_readings, ofSide_readings, side, side, reduceOption_remaining,
    reduceOption_remaining] at whole

/-- Any order of the lines comes from an order in which the sides are ready. -/
theorem exists_schedule (interleaving : Interleaving errors output lines) :
    ∃ schedule, readLines (readings schedule ⟨some errors, some output⟩) = lines := by
  induction interleaving with
  | nil => exact ⟨[], by simp [readings, readLines, next?, read, readSide]⟩
  | left _ ih =>
      obtain ⟨schedule, rest⟩ := ih
      refine ⟨.errors :: schedule, ?_⟩
      rw [readings_cons rfl]
      exact congrArg (_ :: ·) rest
  | right _ ih =>
      obtain ⟨schedule, rest⟩ := ih
      refine ⟨.output :: schedule, ?_⟩
      rw [readings_cons rfl]
      exact congrArg (_ :: ·) rest

/-- In any monad, the loop tells the lines in their order, each once, and answers with them. -/
def Delivers (readers : OutputReaders) (schedule : List OutputSide) (lines : List String) : Prop :=
  ∀ (m : Type → Type) [Monad m] [LawfulMonad m] (tell : String → m Unit),
    readers.relay (tellRead tell) schedule [] = (do
      lines.forM tell
      return lines)

theorem Performs.delivers {readers : OutputReaders} {schedule : List OutputSide}
    {made : List Reading} (performs : readers.Performs schedule made) :
    readers.Delivers schedule (readLines made) := by
  intro m _ _ tell
  rw [performs, forM_tellRead]

/-- **The two outputs are read to their ends, and their lines come interleaved.**  Whichever side is
ready first each time, the loop makes some readings.  The lines among them are an interleaving of the
lines of both sides; they are told in their order, each once, and are the answer.  At any moment
there is nothing more to read, and the loop stops, exactly when both ends have been read.  In any
order of the lines and the ends of both sides the readings can come, so each interleaving is
delivered.  The lines of written text are all its lines. -/
theorem relay_interleaves (errors output : List String) :
    (∀ schedule, ∃ made, Performs ⟨some errors, some output⟩ schedule made) ∧
    (∀ schedule made, Performs ⟨some errors, some output⟩ schedule made →
      Interleaving errors output (readLines made) ∧
      Delivers ⟨some errors, some output⟩ schedule (readLines made) ∧
      ∀ before after, made = before ++ after →
        (after = [] ↔ ∀ which, (which, none) ∈ before)) ∧
    (∀ made, ofSide .errors made = errors.map some ++ [none] →
      ofSide .output made = output.map some ++ [none] →
      ∃ schedule, Performs ⟨some errors, some output⟩ schedule made) ∧
    (∀ lines, Interleaving errors output lines →
      ∃ schedule, Delivers ⟨some errors, some output⟩ schedule lines) ∧
    ∀ text, outputLines (Text.encode text) = Text.lines text := by
  refine ⟨fun schedule => ⟨_, performs_readings _ schedule⟩, fun schedule made performs => ?_,
    fun made isErrors isOutput => ⟨made.map (·.1), ?_⟩, fun lines interleaving => ?_,
    outputLines_encode⟩
  · refine ⟨?_, performs.delivers, fun before after whole => ?_⟩
    · rw [performs.eq_readings]
      exact interleaving_readings errors output schedule
    · exact eq_nil_iff_of_readings_eq (performs.eq_readings.symm.trans whole)
  · have all : readings (made.map (·.1)) ⟨some errors, some output⟩ = made := by
      refine readings_map_fst fun which => ?_
      cases which
      · exact isErrors
      · exact isOutput
    have performs := performs_readings ⟨some errors, some output⟩ (made.map (·.1))
    rwa [all] at performs
  · obtain ⟨schedule, rfl⟩ := exists_schedule interleaving
    exact ⟨schedule, (performs_readings _ schedule).delivers⟩

/-- A line of the error output may come between those of the standard output, and the loop goes on
when the standard output is at its end although nothing was written there. -/
theorem relay_interleaves_one_between_two :
    Interleaving ["note"] ["first", "second"] ["first", "note", "second"] ∧
      (∃ schedule, Delivers ⟨some ["note"], some ["first", "second"]⟩ schedule
        ["first", "note", "second"]) ∧
      (∃ schedule, Performs ⟨some ["note"], some []⟩ schedule
        ([(.output, none), (.errors, some "note")] ++ [(.errors, none)])) ∧
      ¬ ∀ which, (which, none) ∈ [(.output, none), (OutputSide.errors, some "note")] := by
  have interleaving : Interleaving ["note"] ["first", "second"] ["first", "note", "second"] :=
    .right (.left (.right .nil))
  obtain ⟨_, _, _, delivered, _⟩ := relay_interleaves ["note"] ["first", "second"]
  obtain ⟨_, stops, ordered, _⟩ := relay_interleaves ["note"] []
  obtain ⟨schedule, performs⟩ :=
    ordered ([(.output, none), (.errors, some "note")] ++ [(.errors, none)]) rfl rfl
  refine ⟨interleaving, delivered _ interleaving, ⟨schedule, performs⟩, ?_⟩
  rw [← (stops schedule _ performs).2.2 _ _ rfl]
  exact List.cons_ne_nil _ _

end OutputReaders

end StageManifest
