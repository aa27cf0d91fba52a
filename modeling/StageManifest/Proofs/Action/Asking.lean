import StageManifest.Action.Perform
import StageManifest.Proofs.Engine.Operations
import StageManifest.Proofs.Host.Telling

/-!
# Asking engines

Work that can get engines either fails before an engine is asked for anything, or it
asks one engine once and goes on from the answer (`Machine.Asks`).  Which of the two
it is carries over from the rest of the work to the whole: work that tells or shows
lines first asks for what it leads to (`Machine.Asks.of_tells`,
`Machine.Asks.of_yields`), and performing an operation asks for its call
(`Machine.asks_perform`), also within a task that is shown by lines for its start
and its end (`Machine.Asks.withTask`).
-/

set_option autoImplicit false

namespace StageManifest.Machine

variable {machine : Machine}

/-- Work that can get engines. -/
abbrev EngineWork :=
  (EngineKind → (String → StateM Machine Unit) → Engine (StateM Machine)) →
    ExceptT Failure (StateM Machine) Unit

/-- What work asks engines for on a machine.  Either it fails and no engine is asked; or one engine
gets one call when the work is ready for it, and what the work does with the answer fails if the
engine did, for the same reason. -/
def Asks (work : EngineWork) (machine : Machine) : Except Failure (EngineKind × EngineCall) → Prop
  | .error failure =>
      ∃ after, ∀ engines, (work engines).run.run machine = (.error failure, after)
  | .ok (kind, call) =>
      ∃ (tell : String → StateM Machine Unit) (ready : Machine)
        (finish : Except Failure Unit → StateM Machine (Except Failure Unit)),
        (∀ engines, (work engines).run.run machine =
          ((engines kind tell).call call >>= finish).run ready) ∧
        ∀ failure after, ((finish (.error failure)).run after).1 = .error failure

variable {β : Type} {asked : Except Failure (EngineKind × EngineCall)}

/-- Work that begins without engines asks what the rest of it asks. -/
theorem Asks.of_yields {work : ExceptT Failure (StateM Machine) β} {next : β → EngineWork}
    {first : β} {middle : Machine} (yields : Yields work machine first middle)
    (asks : Asks (next first) middle asked) :
    Asks (fun engines => work >>= (next · engines)) machine asked := by
  have continues : ∀ engines, (work >>= (next · engines)).run.run machine =
      (next first engines).run.run middle := by
    intro engines
    rw [run_bind, yields]
  cases asked with
  | error failure =>
      obtain ⟨after, runs⟩ := asks
      exact ⟨after, fun engines => (continues engines).trans (runs engines)⟩
  | ok request =>
      obtain ⟨tell, ready, finish, runs, fails⟩ := asks
      exact ⟨tell, ready, finish, fun engines => (continues engines).trans (runs engines), fails⟩

/-- **Work that begins by telling asks what its answer leads to**, whatever was reported. -/
theorem Asks.of_tells {work : ExceptT Failure (StateM Machine) β} {next : β → EngineWork}
    {answer : Except Failure β} {asked : β → Except Failure (EngineKind × EngineCall)}
    (tells : Tells work machine answer)
    (asks : ∀ value, answer = .ok value → ∀ lines,
      Asks (next value) (machine.having lines) (asked value)) (before : List String) :
    Asks (fun engines => work >>= (next · engines)) (machine.having before) (answer >>= asked) := by
  obtain ⟨lines, runs⟩ := tells before
  cases answer with
  | ok value => exact .of_yields runs (asks value rfl lines)
  | error failure =>
      refine ⟨machine.having lines, fun engines => ?_⟩
      rw [run_bind, runs]

/-- **An operation is performed by one call of the engine or by none.** -/
theorem asks_perform {kind : EngineKind} {tell : String → StateM Machine Unit}
    (operation : Except GraphError (EngineCall × β))
    (next : β → ExceptT Failure (StateM Machine) Unit) :
    Asks (fun engines => ExceptT.mk ((engines kind tell).perform operation) >>= next) machine
      ((operation.mapError Failure.graph).map fun made => (kind, made.1)) := by
  cases operation with
  | error failure => exact ⟨machine, fun engines => rfl⟩
  | ok made =>
      obtain ⟨call, answer⟩ := made
      refine ⟨tell, machine,
        fun result => (ExceptT.mk (pure (result.map fun _ => answer)) >>= next).run,
        fun engines => ?_, fun failure after => rfl⟩
      rw [run_bind, Engine.perform_ok, ExceptT.run_mk, StateT.run_map, StateT.run_bind]
      rcases ((engines kind tell).call call).run machine with ⟨failure | ⟨⟩, middle⟩ <;> rfl

theorem asks_performed {kind : EngineKind} {tell : String → StateM Machine Unit}
    (operation : Except GraphError (EngineCall × Unit)) :
    Asks (fun engines => ExceptT.mk ((engines kind tell).perform operation)) machine
      ((operation.mapError Failure.graph).map fun made => (kind, made.1)) := by
  have asks : Asks (fun engines => ExceptT.mk ((engines kind tell).perform operation) >>= pure)
      machine ((operation.mapError Failure.graph).map fun made => (kind, made.1)) :=
    asks_perform operation pure
  simpa only [bind_pure] using asks

/-! ## Shown lines -/

/-- The machine with one more line printed. -/
def printing (machine : Machine) (line : String) : Machine :=
  { machine with printed := machine.printed ++ [line] }

section

variable (machine) (verbosity : Nat)

theorem yields_print (line : String) :
    Yields (liftM ((host.withVerbosity verbosity).print line)) machine () (machine.printing line) :=
  rfl

/-- How a task ends, with its last line printed. -/
def closing (label done : String) : Except Failure Unit × Machine → Except Failure Unit × Machine
  | (.ok (), after) => (.ok (), after.printing (finishedLine done))
  | (.error failure, after) => (.error failure, after.printing (failedLine label))

theorem run_withTask (label done : String) (task : StateM Machine (Except Failure Unit)) :
    ((host.withVerbosity verbosity).withTask label done task).run.run machine =
      closing label done (task.run (machine.printing (startedLine label))) := by
  unfold Host.withTask
  rw [run_bind, yields_print]
  dsimp only
  rw [run_bind]
  change _ = closing label done (task.run (machine.printing (startedLine label)))
  rw [ExceptT.lift, ExceptT.run_mk, StateT.run_map]
  rcases task.run (machine.printing (startedLine label)) with ⟨failure | ⟨⟩, after⟩ <;> rfl

/-- A task asks for the same between its lines as without them. -/
theorem Asks.withTask {label done : String}
    {task : (EngineKind → (String → StateM Machine Unit) → Engine (StateM Machine)) →
      StateM Machine (Except Failure Unit)}
    (asks : Asks (fun engines => ExceptT.mk (task engines))
      (machine.printing (startedLine label)) asked) :
    Asks (fun engines => (host.withVerbosity verbosity).withTask label done (task engines)) machine
      asked := by
  cases asked with
  | error failure =>
      obtain ⟨after, runs⟩ := asks
      refine ⟨after.printing (failedLine label), fun engines => ?_⟩
      exact (run_withTask machine verbosity label done _).trans
        (congrArg (closing label done) (runs engines))
  | ok request =>
      obtain ⟨tell, ready, finish, runs, fails⟩ := asks
      refine ⟨tell, ready, fun result after => closing label done ((finish result).run after),
        fun engines => ?_, fun failure after => ?_⟩
      · exact (run_withTask machine verbosity label done _).trans
          (congrArg (closing label done) (runs engines))
      · have failed := fails failure after
        change (closing label done ((finish (.error failure)).run after)).1 = _
        generalize (finish (.error failure)).run after = ended at failed ⊢
        obtain ⟨result, reached⟩ := ended
        cases failed
        rfl

end

end StageManifest.Machine
