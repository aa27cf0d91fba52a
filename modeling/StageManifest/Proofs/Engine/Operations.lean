import Mathlib.Tactic.Common
import StageManifest.Engine.Operations

/-!
# One call for each operation

The call of an operation is made of the manifest of a stage, and so is its answer
(`BuildSettings.buildCall_eq` and the others).  An engine that performs such an
operation gets the one call if there is a manifest, and none if there is not
(`Engine.performsOnce_map`); a recording of the calls of an engine shows this.
-/

set_option autoImplicit false

namespace StageManifest

namespace Engine

variable {α : Type}

/-- An operation with a call answers what it answers when the call succeeds. -/
theorem perform_ok {m : Type → Type} [Monad m] [LawfulMonad m] (engine : Engine m)
    (call : EngineCall) (answer : α) :
    engine.perform (.ok (call, answer)) = (·.map fun _ => answer) <$> engine.call call := by
  rw [perform, map_eq_pure_bind]
  refine bind_congr fun result => ?_
  cases result <;> rfl

/-- The engine with a list of the calls that it gets. -/
def recorded {m : Type → Type} [Monad m] (engine : Engine m) :
    Engine (StateT (List EngineCall) m) where
  build manifest request := do
    modify (· ++ [.build manifest request])
    engine.build manifest request
  push tag := do
    modify (· ++ [.push tag])
    engine.push tag

/-- A call of a recorded engine is listed. -/
theorem run_call_recorded {m : Type → Type} [Monad m] [LawfulMonad m] (engine : Engine m)
    (call : EngineCall) (calls : List EngineCall) :
    (engine.recorded.call call).run calls = (·, calls ++ [call]) <$> engine.call call := by
  cases call with
  | build manifest request => simp [Engine.call, recorded]
  | push tag => simp [Engine.call, recorded]

/-- Whichever engine performs the operation: if there is a manifest, it gets the one call for the
manifest, and the operation fails as the engine does; if there is none, it gets no call, and the
operation fails for the same reason as the manifest. -/
def PerformsOnce (operation : Except GraphError (EngineCall × α))
    (solved : Except GraphError String) (call : String → EngineCall) (answer : String → α) : Prop :=
  ∀ (m : Type → Type) [Monad m] [LawfulMonad m] (engine : Engine m) (calls : List EngineCall),
    (∀ failure, solved = .error failure →
      (engine.recorded.perform operation).run calls = pure (.error (.graph failure), calls)) ∧
    ∀ manifest, solved = .ok manifest →
      (engine.recorded.perform operation).run calls =
        (fun result => (result.map fun _ => answer manifest, calls ++ [call manifest])) <$>
          engine.call (call manifest)

/-- **An operation whose call is made of the manifest makes one call.** -/
theorem performsOnce_map (solved : Except GraphError String) (call : String → EngineCall)
    (answer : String → α) :
    PerformsOnce (solved.map fun manifest => (call manifest, answer manifest)) solved call
      answer := by
  intro m _ _ engine calls
  constructor
  · rintro failure rfl
    rfl
  · rintro manifest rfl
    rw [Except.map, perform_ok, StateT.run_map, run_call_recorded, Functor.map_map]

end Engine

/-! ## The calls of the operations -/

namespace BuildSettings

variable (settings : BuildSettings) (stage : Stage)

theorem buildCall_eq (push : Bool) :
    settings.buildCall stage push = (settings.manifest stage).map fun manifest =>
      (.build manifest
        { context := settings.context, tag := some (settings.imageTag stage manifest),
          push := push },
        settings.imageTag stage manifest) := by
  unfold buildCall
  cases settings.manifest stage <;> rfl

theorem pushCall_eq :
    settings.pushCall stage = (settings.manifest stage).map fun manifest =>
      (.push (settings.imageTag stage manifest), settings.imageTag stage manifest) := by
  unfold pushCall
  cases settings.manifest stage <;> rfl

theorem runCall_eq :
    settings.runCall stage = (settings.manifest stage).map fun manifest =>
      (.build manifest { context := settings.context, quiet := true }, ()) := by
  unfold runCall
  cases settings.manifest stage <;> rfl

theorem saveCall_eq (directory : HostPath) :
    settings.saveCall stage directory = (settings.manifest stage).map fun manifest =>
      (.build manifest
        { context := settings.context, quiet := true, output := some directory }, ()) := by
  unfold saveCall
  cases settings.manifest stage <;> rfl

/-- **Each operation makes one call, and what is pushed is the tag that is built.** -/
theorem performsOnce (push : Bool) (directory : HostPath) :
    Engine.PerformsOnce (settings.buildCall stage push) (settings.manifest stage)
      (fun manifest => .build manifest
        { context := settings.context, tag := some (settings.imageTag stage manifest),
          push := push })
      (settings.imageTag stage) ∧
    Engine.PerformsOnce (settings.pushCall stage) (settings.manifest stage)
      (fun manifest => .push (settings.imageTag stage manifest)) (settings.imageTag stage) ∧
    Engine.PerformsOnce (settings.runCall stage) (settings.manifest stage)
      (fun manifest => .build manifest { context := settings.context, quiet := true })
      (fun _ => ()) ∧
    Engine.PerformsOnce (settings.saveCall stage directory) (settings.manifest stage)
      (fun manifest => .build manifest
        { context := settings.context, quiet := true, output := some directory })
      (fun _ => ()) := by
  rw [buildCall_eq, pushCall_eq, runCall_eq, saveCall_eq]
  exact ⟨Engine.performsOnce_map _ _ _, Engine.performsOnce_map _ _ _,
    Engine.performsOnce_map _ _ _, Engine.performsOnce_map _ _ _⟩

end BuildSettings

end StageManifest
