import StageManifest.Proofs.Host.Runs

/-!
# Work that tells what it does

Much of what the program does before it has something to show leaves the machine
as it is, except that lines are reported on the way.  How such work ends does not
depend on what has been reported before (`Machine.Tells`), so the answer of work
put together from smaller pieces is put together from theirs
(`Machine.Tells.bind`).

A host tells notes at the verbosity it is asked for; at each of them, a note is
telling work (`Machine.tells_note`).
-/

set_option autoImplicit false

namespace StageManifest.Machine

variable {α β : Type} {machine : Machine}

/-- The machine with the given lines as those that were reported. -/
def having (machine : Machine) (lines : List String) : Machine :=
  { machine with reported := lines }

/-- The work has the given answer and changes nothing but what was reported, whatever that was. -/
def Tells (work : ExceptT Failure (StateM Machine) α) (machine : Machine)
    (answer : Except Failure α) : Prop :=
  ∀ before, ∃ lines, work.run.run (machine.having before) = (answer, machine.having lines)

theorem Tells.run {work : ExceptT Failure (StateM Machine) α} {answer : Except Failure α}
    (tells : Tells work machine answer) :
    ∃ lines, work.run.run machine = (answer, machine.having lines) :=
  tells machine.reported

/-! ## Pieces of work -/

theorem tells_mk_pure (result : Except Failure α) :
    Tells (ExceptT.mk (pure result)) machine result :=
  fun before => ⟨before, rfl⟩

theorem tells_pure (value : α) : Tells (pure value) machine (.ok value) :=
  fun before => ⟨before, rfl⟩

theorem tells_throw (failure : Failure) :
    Tells (throw failure : ExceptT Failure (StateM Machine) α) machine (.error failure) :=
  fun before => ⟨before, rfl⟩

/-- What the host does on its own tells at most, if it leaves the rest of the machine alone. -/
theorem tells_lift {work : StateM Machine α} {answer : α}
    (leaves : ∀ before, ∃ lines,
      work.run (machine.having before) = (answer, machine.having lines)) :
    Tells (liftM work) machine (.ok answer) := by
  intro before
  obtain ⟨lines, runs⟩ := leaves before
  exact ⟨lines, by rw [run_lift, runs]⟩

/-- What the host reads is the same whatever was reported. -/
theorem tells_lift_read {work : StateM Machine α} {answer : α}
    (reads : ∀ before, work.run (machine.having before) = (answer, machine.having before)) :
    Tells (liftM work) machine (.ok answer) :=
  tells_lift fun before => ⟨before, reads before⟩

/-- Telling work goes on with the answer that is known. -/
theorem Tells.bind_ok {work : ExceptT Failure (StateM Machine) β}
    {next : β → ExceptT Failure (StateM Machine) α} {value : β} {answer : Except Failure α}
    (tells : Tells work machine (.ok value)) (further : Tells (next value) machine answer) :
    Tells (work >>= next) machine answer := by
  intro before
  obtain ⟨lines, runs⟩ := tells before
  rw [run_bind, runs]
  exact further lines

/-- Telling work that fails is all that is done. -/
theorem Tells.bind_error {work : ExceptT Failure (StateM Machine) β}
    {next : β → ExceptT Failure (StateM Machine) α} {failure : Failure}
    (tells : Tells work machine (.error failure)) :
    Tells (work >>= next) machine (.error failure) := by
  intro before
  obtain ⟨lines, runs⟩ := tells before
  rw [run_bind, runs]
  exact ⟨lines, rfl⟩

/-- **Telling work goes on with telling work.** -/
theorem Tells.bind {work : ExceptT Failure (StateM Machine) β}
    {next : β → ExceptT Failure (StateM Machine) α} {answer : Except Failure β}
    {answers : β → Except Failure α} (tells : Tells work machine answer)
    (further : ∀ value, answer = .ok value → Tells (next value) machine (answers value)) :
    Tells (work >>= next) machine (answer >>= answers) := by
  cases answer with
  | error failure => exact tells.bind_error
  | ok value => exact tells.bind_ok (further value rfl)

/-- Work that must hold a condition first ends with the failure if the condition forbids it. -/
theorem tells_guard {forbidden : Bool} {failure : Failure}
    {next : Unit → ExceptT Failure (StateM Machine) α} {answer : Except Failure α}
    (further : Tells (next ()) machine answer) :
    Tells (if forbidden = true then throw failure >>= next else next ()) machine
      (if forbidden = true then .error failure else answer) := by
  cases forbidden with
  | false => exact further
  | true => exact (tells_throw failure).bind_error

/-- A loop whose passes tell tells. -/
theorem tells_forIn {items : List β}
    {pass : β → PUnit → ExceptT Failure (StateM Machine) (ForInStep PUnit)}
    (tells : ∀ item, Tells (pass item ⟨⟩) machine (.ok (.yield ⟨⟩))) :
    Tells (forIn items ⟨⟩ pass) machine (.ok ⟨⟩) := by
  induction items with
  | nil =>
      rw [List.forIn_nil]
      exact tells_pure _
  | cons item rest ih =>
      rw [List.forIn_cons]
      exact (tells item).bind_ok ih

/-! ## Notes -/

/-- A note reports a line or nothing. -/
theorem run_note (verbosity : Nat) (level : NoteLevel) (message : String) (machine : Machine) :
    ∃ lines, ((host.withVerbosity verbosity).note level message).run machine =
      ((), machine.having lines) := by
  unfold Host.withVerbosity
  dsimp only
  split
  · exact ⟨_, rfl⟩
  · exact ⟨_, rfl⟩

theorem tells_note (verbosity : Nat) (level : NoteLevel) (message : String) :
    Tells (liftM ((host.withVerbosity verbosity).note level message)) machine (.ok ()) :=
  tells_lift fun before => run_note verbosity level message (machine.having before)

end StageManifest.Machine
