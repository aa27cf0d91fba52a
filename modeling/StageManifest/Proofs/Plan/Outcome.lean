import StageManifest.Plan.Resolve

/-!
# How resolving work ends

Work on a build file ends with an answer or with a failure, and in either case in
some state (`Ends`).  How work ends that is put together from smaller pieces
follows from how the pieces end.
-/

set_option autoImplicit false

namespace StageManifest.Resolving

variable {α β : Type}

/-- The answer or failure of work that starts in a state, with the state it reaches. -/
def outcome (work : Resolving α) (state : Resolution) : Except Failure α × Resolution :=
  work.run.run state

/-- The work ends with an answer or a failure, each with the state reached, as described. -/
def Ends (work : Resolving α) (state : Resolution) (answers : α → Resolution → Prop)
    (fails : Failure → Resolution → Prop) : Prop :=
  match outcome work state with
  | (.ok answer, after) => answers answer after
  | (.error failure, after) => fails failure after

/-- Work goes on from the answer and the state of the work before it; a failure ends it. -/
theorem outcome_bind (work : Resolving α) (next : α → Resolving β) (state : Resolution) :
    outcome (work >>= next) state =
      match outcome work state with
      | (.ok answer, after) => outcome (next answer) after
      | (.error failure, after) => (.error failure, after) := by
  change (match outcome work state with
    | (result, after) => outcome (.mk (ExceptT.bindCont next result)) after) = _
  rcases outcome work state with ⟨failure | answer, after⟩ <;> rfl

variable {state : Resolution} {answers : α → Resolution → Prop}
  {fails : Failure → Resolution → Prop}

theorem ends_pure {answer : α} (holds : answers answer state) :
    Ends (pure answer) state answers fails := holds

theorem ends_throw {failure : Failure} (holds : fails failure state) :
    Ends (throw failure) state answers fails := holds

theorem ends_assemble {work : Assembly α}
    (holds : answers (work.run state.bench).1 { state with bench := (work.run state.bench).2 }) :
    Ends (assemble work) state answers fails := holds

section Next

variable {others : β → Resolution → Prop}

theorem ends_get_bind {next : Resolution → Resolving β}
    (ends : Ends (next state) state others fails) : Ends (get >>= next) state others fails := ends

theorem ends_modify_bind {change : Resolution → Resolution} {next : Unit → Resolving β}
    (ends : Ends (next ()) (change state) others fails) :
    Ends (modify change >>= next) state others fails := ends

theorem ends_assemble_bind {work : Assembly α} {next : α → Resolving β}
    (ends : Ends (next (work.run state.bench).1)
      { state with bench := (work.run state.bench).2 } others fails) :
    Ends (assemble work >>= next) state others fails := ends

end Next

theorem Ends.mono {work : Resolving α} {others : α → Resolution → Prop}
    (ends : Ends work state answers fails)
    (weaker : ∀ answer after, answers answer after → others answer after) :
    Ends work state others fails := by
  unfold Ends at ends ⊢
  generalize outcome work state = result at ends ⊢
  obtain ⟨failure | answer, after⟩ := result
  · exact ends
  · exact weaker answer after ends

/-- Work goes on from where the work before it ended. -/
theorem Ends.bind {work : Resolving α} {next : α → Resolving β} {others : β → Resolution → Prop}
    (ends : Ends work state answers fails)
    (further : ∀ answer after, answers answer after → Ends (next answer) after others fails) :
    Ends (work >>= next) state others fails := by
  unfold Ends at ends ⊢
  rw [outcome_bind]
  generalize outcome work state = result at ends ⊢
  obtain ⟨failure | answer, after⟩ := result
  · exact ends
  · exact further answer after ends

theorem Ends.of_ok {work : Resolving α} (ends : Ends work state answers fails) {answer : α}
    {after : Resolution} (ok : outcome work state = (.ok answer, after)) :
    answers answer after := by
  unfold Ends at ends
  rw [ok] at ends
  exact ends

theorem Ends.of_error {work : Resolving α} (ends : Ends work state answers fails)
    {failure : Failure} {after : Resolution}
    (failed : outcome work state = (.error failure, after)) : fails failure after := by
  unfold Ends at ends
  rw [failed] at ends
  exact ends

/-- A list is worked off item by item. -/
theorem ends_foldlM {items : List β} {step : α → β → Resolving α}
    {motive : List β → α → Resolution → Prop} {start : α}
    (steps : ∀ done item, done ++ [item] <+: items → ∀ answer state, motive done answer state →
      Ends (step answer item) state (motive (done ++ [item])) fails)
    (begins : motive [] start state) :
    Ends (items.foldlM step start) state (motive items) fails := by
  suffices worked : ∀ rest done answer state, done ++ rest = items → motive done answer state →
      Ends (rest.foldlM step answer) state (motive items) fails from
    worked items [] start state rfl begins
  intro rest
  induction rest with
  | nil =>
      intro done answer state same holds
      rw [List.append_nil] at same
      exact ends_pure (same ▸ holds)
  | cons item rest ih =>
      intro done answer state same holds
      have split : done ++ [item] ++ rest = items := by rw [List.append_assoc]; exact same
      rw [List.foldlM_cons]
      exact (steps done item ⟨rest, split⟩ answer state holds).bind fun answer after =>
        ih (done ++ [item]) answer after split

end StageManifest.Resolving
