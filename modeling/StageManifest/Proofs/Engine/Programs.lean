import StageManifest.Engine.Program
import StageManifest.Proofs.Engine.Streams

/-!
# What runs of programs come to

A program that an engine is runs once in a build, after the manifest has been
staged, and once when an image is pushed.  If it succeeds so does the engine; if
not, the failure carries what was collected from it (`Host.build_fails_iff`,
`Host.push_fails_iff`).  Nothing else that can go wrong there is such a failure.
-/

set_option autoImplicit false

namespace StageManifest

/-! ## Answers -/

section

variable {σ α β : Type} {holds : α → Prop} {holdsNext : β → Prop}

/-- The work has answers with a property only, from any state. -/
def Answers (holds : α → Prop) (work : StateM σ α) : Prop :=
  ∀ state, holds (work.run state).1

theorem answers_pure {value : α} (isHeld : holds value) :
    Answers holds (pure value : StateM σ α) :=
  fun _ => isHeld

theorem answers_any (work : StateM σ α) : Answers (fun _ => True) work := fun _ => trivial

theorem Answers.bind {work : StateM σ α} {next : α → StateM σ β} (first : Answers holds work)
    (further : ∀ value, holds value → Answers holdsNext (next value)) :
    Answers holdsNext (work >>= next) :=
  fun state => further _ (first state) _

/-- Work goes on from the answer and the state of the work before it. -/
theorem run_bind_eq (work : StateM σ α) (next : α → StateM σ β) (state : σ) :
    (work >>= next).run state = (next (work.run state).1).run (work.run state).2 :=
  rfl

end

/-! ## One program -/

namespace ProgramResult

/-- The lines that are collected from a program. -/
def collected (result : ProgramResult) : List String :=
  readLines (OutputReaders.readings result.readiness result.readers)

/-- What is passed on of a program: nothing if it succeeded, else the end of what it wrote. -/
def ending (result : ProgramResult) : Option String :=
  if result.succeeded then none else some (collectedTail result.collected)

end ProgramResult

namespace Host

variable {σ : Type} (host : Host (StateM σ)) (tell : String → StateM σ Unit)

/-- A manifest is staged, or there is a failure of files. -/
theorem answers_stageManifest (manifest : String) :
    Answers (fun answer => ∀ failure, answer = .error failure → ∃ context,
      failure = .fileAccess context) (host.stageManifest manifest) := by
  refine (answers_any _).bind fun home _ => (answers_any _).bind fun name _ =>
    (answers_any _).bind fun made _ => ?_
  split
  · exact answers_pure fun failure same => ⟨_, (Except.error.inj same).symm⟩
  refine (answers_any _).bind fun written _ => ?_
  split
  · exact answers_pure fun failure same => ⟨_, (Except.error.inj same).symm⟩
  · exact answers_pure nofun

/-- A program runs, or it cannot be started. -/
theorem answers_spawn (program : String) (arguments : List String) :
    Answers (fun answer => ∀ failure, answer = .error failure →
      failure = .engineNotFound program ∨ failure = .commandFailed program)
      (host.spawn program arguments) := by
  refine (answers_any _).bind fun _ _ => (answers_any _).bind fun answer _ => ?_
  split
  · exact answers_pure fun failure same => .inl (Except.error.inj same).symm
  · exact answers_pure fun failure same => .inr (Except.error.inj same).symm
  · exact answers_pure nofun

/-- What a told run answers is what the program comes to. -/
theorem run_runTelling (program : String) (arguments : List String) (state : σ) :
    ((host.runTelling tell program arguments).run state).1 =
      ((host.spawn program arguments).run state).1.map ProgramResult.ending := by
  rw [runTelling, run_bind_eq]
  rcases (host.spawn program arguments).run state with ⟨failure | result, after⟩
  · rfl
  · dsimp only
    rw [OutputReaders.relay_eq, run_bind_eq]
    rfl

/-! ## Engines -/

/-- In a build from the state the manifest is staged, and the program of the engine comes to the
result. -/
def BuildRuns (kind : EngineKind) (manifest : String) (request : BuildRequest) (state : σ)
    (result : ProgramResult) : Prop :=
  ∃ directory staged, (host.stageManifest manifest).run state = (.ok directory, staged) ∧
    ((host.spawn kind.program
      ({ request with manifestPath := directory.below [manifestFile] }.arguments kind)).run
        ((host.note .information ("Building " ++ request.label ++ " with " ++ kind.display)).run
          staged).2).1 = .ok result

/-- When an image is pushed from the state, the program that pushes comes to the result. -/
def PushRuns (tag : String) (state : σ) (result : ProgramResult) : Prop :=
  ((host.spawn pushProgram ["push", tag]).run
    ((host.note .information ("Pushing " ++ tag)).run state).2).1 = .ok result

/-- What an engine answers when its program has been run. -/
def answerOf (failed : String → Failure) : Except Failure (Option String) → Except Failure Unit
  | .error failure => .error failure
  | .ok none => .ok ()
  | .ok (some output) => .error (failed output)

theorem answerOf_eq_error_iff {failed : String → Failure} {answer : Except Failure ProgramResult}
    {failure : Failure} :
    answerOf failed (answer.map ProgramResult.ending) = .error failure ↔
      answer = .error failure ∨ ∃ result, answer = .ok result ∧ result.succeeded = false ∧
        failure = failed (collectedTail result.collected) := by
  cases answer with
  | error other => simp [Except.map, answerOf]
  | ok result =>
      simp only [Except.map, ProgramResult.ending, Except.ok.injEq, exists_eq_left', reduceCtorEq,
        false_or]
      cases result.succeeded with
      | true => simp [answerOf]
      | false => simp [answerOf, eq_comm]

/-- **A build fails with an output exactly if the engine's program was run on the staged manifest
and did not succeed**, and the output is the end of what was collected from it. -/
theorem build_fails_iff {kind : EngineKind} {manifest : String} {request : BuildRequest} {state : σ}
    {target text : String} :
    ((host.build kind tell manifest request).run state).1 = .error (.buildFailed target text) ↔
      ∃ result, host.BuildRuns kind manifest request state result ∧ result.succeeded = false ∧
        target = request.label ∧ text = collectedTail result.collected := by
  have stages := host.answers_stageManifest manifest state
  unfold BuildRuns
  rcases staged : (host.stageManifest manifest).run state with ⟨failure | directory, after⟩
  · have answer : ((host.build kind tell manifest request).run state).1 = .error failure := by
      rw [build, run_bind_eq, staged]
      rfl
    obtain ⟨context, rfl⟩ := stages failure (congrArg Prod.fst staged)
    rw [answer]
    constructor
    · intro same
      cases same
    · rintro ⟨_, ⟨_, _, same, _⟩, _⟩
      cases same
  · have answer : ((host.build kind tell manifest request).run state).1 =
        answerOf (.buildFailed request.label) (((host.spawn kind.program
          ({ request with manifestPath := directory.below [manifestFile] }.arguments kind)).run
            ((host.note .information ("Building " ++ request.label ++ " with " ++
              kind.display)).run after).2).1.map ProgramResult.ending) := by
      rw [build, run_bind_eq, staged, ← host.run_runTelling tell]
      dsimp only [BuildRequest.label]
      rw [run_bind_eq, run_bind_eq]
      rcases (host.runTelling tell kind.program _).run _ with ⟨_ | _ | _, _⟩ <;> rfl
    rw [answer, answerOf_eq_error_iff]
    constructor
    · rintro (never | ⟨result, ran, unsuccessful, same⟩)
      · rcases host.answers_spawn _ _ _ _ never with same | same <;> cases same
      · obtain ⟨rfl, rfl⟩ := Failure.buildFailed.inj same
        exact ⟨result, ⟨directory, after, rfl, ran⟩, unsuccessful, rfl, rfl⟩
    · rintro ⟨result, ⟨_, _, ⟨⟩, ran⟩, unsuccessful, rfl, rfl⟩
      exact .inr ⟨result, ran, unsuccessful, rfl⟩

/-- **Pushing fails with an output exactly if its program was run and did not succeed**, and the
output is the end of what was collected from it. -/
theorem push_fails_iff {tag : String} {state : σ} {name text : String} :
    ((host.push tell tag).run state).1 = .error (.pushFailed name text) ↔
      ∃ result, host.PushRuns tag state result ∧ result.succeeded = false ∧
        name = tag ∧ text = collectedTail result.collected := by
  have answer : ((host.push tell tag).run state).1 =
      answerOf (.pushFailed tag) (((host.spawn pushProgram ["push", tag]).run
        ((host.note .information ("Pushing " ++ tag)).run state).2).1.map
          ProgramResult.ending) := by
    rw [push, run_bind_eq, run_bind_eq, ← host.run_runTelling tell]
    rcases (host.runTelling tell pushProgram ["push", tag]).run _ with ⟨_ | _ | _, _⟩ <;> rfl
  rw [answer, answerOf_eq_error_iff]
  constructor
  · rintro (never | ⟨result, ran, unsuccessful, same⟩)
    · rcases host.answers_spawn _ _ _ _ never with same | same <;> cases same
    · obtain ⟨rfl, rfl⟩ := Failure.pushFailed.inj same
      exact ⟨result, ran, unsuccessful, rfl, rfl⟩
  · rintro ⟨result, ran, unsuccessful, rfl, rfl⟩
    exact .inr ⟨result, ran, unsuccessful, rfl⟩

end Host

end StageManifest
