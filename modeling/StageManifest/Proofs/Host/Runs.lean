import StageManifest.Failure
import StageManifest.Host.Machine
import StageManifest.Proofs.Text.TextBytes

/-!
# Work on a machine

Work on a machine that succeeds has an answer and leaves the machine in some state
(`Machine.Yields`).  Work put together from smaller pieces goes on from the answer of
each piece or ends with its failure (`Machine.run_bind`), so it succeeds exactly when
the pieces do, one after the other (`Machine.yields_bind`).
-/

set_option autoImplicit false

namespace StageManifest.Machine

variable {α β : Type} {machine after : Machine} {answer : α}

/-- The work succeeds on a machine with the answer and leaves the machine as given. -/
def Yields (work : ExceptT Failure (StateM Machine) α) (machine : Machine) (answer : α)
    (after : Machine) : Prop :=
  work.run.run machine = (.ok answer, after)

theorem Yields.unique {work : ExceptT Failure (StateM Machine) α} {other : α} {afterOther : Machine}
    (yields : Yields work machine answer after) (also : Yields work machine other afterOther) :
    answer = other ∧ after = afterOther := by
  cases yields.symm.trans also
  exact ⟨rfl, rfl⟩

theorem yields_pure {value : α} :
    Yields (pure value) machine answer after ↔ answer = value ∧ after = machine := by
  constructor
  · rintro ⟨⟩
    exact ⟨rfl, rfl⟩
  · rintro ⟨rfl, rfl⟩
    rfl

theorem not_yields_throw {failure : Failure} : ¬ Yields (throw failure) machine answer after :=
  nofun

/-- What a host does on its own always succeeds. -/
theorem run_lift (work : StateM Machine α) (machine : Machine) :
    (liftM work : ExceptT Failure (StateM Machine) α).run.run machine =
      (.ok (work.run machine).1, (work.run machine).2) :=
  rfl

theorem mk_bind {work : StateM Machine β} {next : β → StateM Machine (Except Failure α)} :
    ExceptT.mk (work >>= next) =
      (liftM work : ExceptT Failure (StateM Machine) β) >>= fun first => ExceptT.mk (next first) :=
  rfl

theorem yields_lift {work : StateM Machine α} :
    Yields (liftM work) machine answer after ↔ work.run machine = (answer, after) := by
  rw [Yields, run_lift]
  rcases work.run machine with ⟨first, middle⟩
  constructor <;> rintro ⟨⟩ <;> rfl

theorem yields_mk_pure {result : Except Failure α} :
    Yields (ExceptT.mk (pure result)) machine answer after ↔
      result = .ok answer ∧ after = machine := by
  constructor
  · intro yields
    exact ⟨congrArg Prod.fst yields, (congrArg Prod.snd yields).symm⟩
  · rintro ⟨rfl, rfl⟩
    rfl

/-- Work goes on from the answer of the work before it, or ends with its failure. -/
theorem run_bind (work : ExceptT Failure (StateM Machine) β)
    (next : β → ExceptT Failure (StateM Machine) α) (machine : Machine) :
    (work >>= next).run.run machine =
      match work.run.run machine with
      | (.ok first, middle) => (next first).run.run middle
      | (.error failure, middle) => (.error failure, middle) := by
  change (match work.run.run machine with
    | (result, middle) => (ExceptT.mk (ExceptT.bindCont next result)).run.run middle) = _
  rcases work.run.run machine with ⟨failure | first, middle⟩ <;> rfl

/-- **Work goes on from the answer of the work before it and the machine it left.** -/
theorem yields_bind {work : ExceptT Failure (StateM Machine) β}
    {next : β → ExceptT Failure (StateM Machine) α} :
    Yields (work >>= next) machine answer after ↔
      ∃ first middle, Yields work machine first middle ∧
        Yields (next first) middle answer after := by
  unfold Yields
  rw [run_bind]
  rcases work.run.run machine with ⟨failure | first, middle⟩
  · exact ⟨nofun, nofun⟩
  · refine ⟨fun yields => ⟨first, middle, rfl, yields⟩, ?_⟩
    rintro ⟨_, _, ⟨⟩, yields⟩
    exact yields

/-- Work that must hold a condition first succeeds only if the condition does not forbid it. -/
theorem yields_guard {forbidden : Bool} {failure : Failure}
    {next : Unit → ExceptT Failure (StateM Machine) α} :
    Yields (if forbidden = true then throw failure >>= next else next ()) machine answer after ↔
      forbidden = false ∧ Yields (next ()) machine answer after := by
  cases forbidden with
  | false => exact ⟨fun yields => ⟨rfl, yields⟩, fun both => both.2⟩
  | true =>
      refine ⟨fun yields => ?_, nofun⟩
      obtain ⟨_, _, never, _⟩ := yields_bind.mp yields
      exact (not_yields_throw never).elim

/-- A loop whose passes do nothing does nothing. -/
theorem yields_forIn {items : List β}
    {pass : β → PUnit → ExceptT Failure (StateM Machine) (ForInStep PUnit)}
    (silent : ∀ item machine step after, Yields (pass item ⟨⟩) machine step after ↔
      step = .yield ⟨⟩ ∧ after = machine)
    {result : PUnit} : Yields (forIn items ⟨⟩ pass) machine result after ↔ after = machine := by
  induction items with
  | nil =>
      rw [List.forIn_nil, yields_pure]
      exact ⟨And.right, fun same => ⟨rfl, same⟩⟩
  | cons item rest ih =>
      rw [List.forIn_cons, yields_bind]
      simp only [silent]
      constructor
      · rintro ⟨step, middle, ⟨rfl, rfl⟩, yields⟩
        exact ih.mp yields
      · intro same
        exact ⟨_, machine, ⟨rfl, rfl⟩, ih.mpr same⟩

/-- A text is read exactly if the path leads to a file of its bytes. -/
theorem readText_eq_some_iff {path : HostPath} {text : String} :
    (machine.content? path).bind Text.decode? = some text ↔
      ∃ location, machine.files.locate? machine.here path = some location ∧
        machine.files.entry? location = some (.file (Text.encode text)) := by
  simp only [Option.bind_eq_some_iff, content?, FileTree.find?, Text.decode?_eq_some_iff]
  constructor
  · rintro ⟨_, isContent, rfl⟩
    split at isContent
    next held found =>
      cases isContent
      obtain ⟨location, located, isFile⟩ := Option.bind_eq_some_iff.mp found
      exact ⟨location, located, isFile⟩
    next => cases isContent
  · rintro ⟨location, located, isFile⟩
    refine ⟨_, ?_, rfl⟩
    rw [located, Option.bind_some, isFile]

end StageManifest.Machine
