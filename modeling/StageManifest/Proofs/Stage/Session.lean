import StageManifest.Proofs.Stage.Growth
import StageManifest.Proofs.Stage.Reachability

/-!
# Sessions at the workbench

A session is any sequence of jobs, with names from any sources, in which every
job works on stages made before.  A stage is assembled when some session makes
it; these are all the stages there are.

Along a session the stages at hand stay closed under dependencies, and chains
that end at the same link are equal (`Session.sound`).  Hence the chains below an
assembled stage can be compared by their ends (`Assembled.coherent`).
-/

set_option autoImplicit false

namespace StageManifest

/-- The states that sessions reach: a bench and the stages made so far.  At any time names may come
from another source. -/
inductive Session : Workbench → List Stage → Prop where
  | start (names : NameSource) : Session (.ofNames names) []
  | rename {bench : Workbench} {stages : List Stage} (names : NameSource) :
      Session bench stages → Session { bench with names := names } stages
  | perform {bench : Workbench} {stages : List Stage} (job : StageJob) :
      Session bench stages → (∀ input ∈ job.inputs, input ∈ stages) →
        Session (job.perform.run bench).2 ((job.perform.run bench).1 :: stages)

/-- The stages at hand are closed under dependencies, and their chains are known by their ends. -/
structure Sound (bench : Workbench) (stages : List Stage) : Prop where
  closed : ∀ stage ∈ stages, ∀ dependency, stage.DependsOn dependency → dependency ∈ stages
  layers : Chain.Coherent bench.nextMark (stages.map (·.layers))
  dependencies : Chain.Coherent bench.nextMark (stages.map (·.dependencies))

/-- A job keeps the stages at hand sound. -/
theorem Sound.perform {bench : Workbench} {stages : List Stage} (sound : Sound bench stages)
    (job : StageJob) (atHand : ∀ input ∈ job.inputs, input ∈ stages) :
    Sound (job.perform.run bench).2 ((job.perform.run bench).1 :: stages) := by
  have made := job.made bench
  constructor
  · intro stage member dependency depends
    rcases List.mem_cons.mp member with rfl | member
    · rcases made.sources dependency depends with input | ⟨input, isInput, depends⟩
      · exact List.mem_cons_of_mem _ (atHand dependency input)
      · exact List.mem_cons_of_mem _ (sound.closed input (atHand input isInput) dependency depends)
    · exact List.mem_cons_of_mem _ (sound.closed stage member dependency depends)
  · refine sound.layers.cons made.marks (made.layers.imp_right (Or.imp_left ?_))
    rintro ⟨input, isInput, same⟩
    exact List.mem_map.mpr ⟨input, atHand input isInput, same.symm⟩
  · refine sound.dependencies.cons made.marks (made.dependencies.imp_right (Or.imp_left ?_))
    rintro ⟨input, isInput, same⟩
    exact List.mem_map.mpr ⟨input, atHand input isInput, same.symm⟩

/-- **The stages at hand in a session are sound.** -/
theorem Session.sound {bench : Workbench} {stages : List Stage} (session : Session bench stages) :
    Sound bench stages := by
  induction session with
  | start names =>
      exact ⟨fun stage member => (List.not_mem_nil member).elim, Chain.coherent_nil _,
        Chain.coherent_nil _⟩
  | rename names _ ih => exact ⟨ih.closed, ih.layers, ih.dependencies⟩
  | perform job _ atHand ih => exact ih.perform job atHand

/-- Everything below a stage at hand is at hand. -/
theorem Sound.mem_of_reaches {bench : Workbench} {stages : List Stage} (sound : Sound bench stages)
    {root stage : Stage} (member : root ∈ stages) (reaches : root.Reaches stage) :
    stage ∈ stages :=
  reaches.mem_of_closed member sound.closed

/-- Chains of stages at hand that end at the same link are equal. -/
theorem Sound.endsAgree {bench : Workbench} {stages : List Stage} (sound : Sound bench stages)
    {first second : Stage} (firstMember : first ∈ stages) (secondMember : second ∈ stages) :
    first.EndsAgree second where
  layers := sound.layers.agree _ (List.mem_map_of_mem firstMember) _
    (List.mem_map_of_mem secondMember)
  dependencies := sound.dependencies.agree _ (List.mem_map_of_mem firstMember) _
    (List.mem_map_of_mem secondMember)

namespace Stage

/-- Some session makes the stage. -/
def Assembled (stage : Stage) : Prop :=
  ∃ (bench : Workbench) (stages : List Stage), Session bench stages ∧ stage ∈ stages

/-- **Below an assembled stage, chains are known by their ends.** -/
theorem Assembled.coherent {root : Stage} (assembled : root.Assembled) : root.Coherent := by
  obtain ⟨bench, stages, session, member⟩ := assembled
  intro first second firstReached secondReached
  exact session.sound.endsAgree (session.sound.mem_of_reaches member firstReached)
    (session.sound.mem_of_reaches member secondReached)

end Stage

end StageManifest
