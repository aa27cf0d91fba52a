import StageManifest.Graph.Manifest
import StageManifest.Proofs.Graph.Discovery
import StageManifest.Proofs.Graph.Order

/-!
# Names do not run in circles

The stages below a root form a tree, but the graph is made of names, and names
can be drawn again.  Where stages with one name agree, a circle of names could be
followed from a stage to ever smaller ones, so there is none
(`not_lists_itself`).  Since discovery makes sure of that agreement, every graph
it finds has an order; a root below which names run in a circle fails with a
collision instead (`solve_never_meets_a_cycle`).
-/

set_option autoImplicit false

namespace StageManifest

open Stage (Reaches Agrees Collides Coherent)

/-- A stage below the root that has the one name is linked to a stage with the other name. -/
def Stage.Lists (root : Stage) (user needed : String) : Prop :=
  ∃ stage, root.Reaches stage ∧ stage.name = user ∧ needed ∈ stage.dependencyNames

/-- **Where stages with one name agree, names do not run in a circle.** -/
theorem Stage.not_lists_itself {root : Stage}
    (agree : ∀ first second, root.Reaches first → root.Reaches second →
      first.name = second.name → Agrees first second)
    {stage : Stage} (reaches : root.Reaches stage) :
    ¬ Relation.TransGen root.Lists stage.name stage.name := by
  -- The circle can be entered again at a dependency of the stage, which is smaller.
  induction size : sizeOf stage using Nat.strongRecOn generalizing stage with
  | ind bound ih =>
      intro circle
      obtain ⟨next, lists, back⟩ := Relation.TransGen.head'_iff.mp circle
      obtain ⟨user, userReached, sameName, listed⟩ := lists
      have agrees := agree user stage userReached reaches sameName
      obtain ⟨dependency, depends, rfl⟩ :=
        Stage.exists_dependsOn_of_name_mem (agrees.dependencyNames ▸ listed)
      have smaller : sizeOf dependency < bound := size ▸ depends.sizeOf_lt
      exact ih _ smaller (reaches.tail depends) rfl
        (.tail' back ⟨stage, reaches, rfl, depends.name_mem⟩)

namespace StageGraph

/-! ## Stages at positions -/

/-- The stages found are those at the given positions. -/
theorem map_getElem?_of_stagesAt {graph : StageGraph} {order : List Nat} {stages : List Stage}
    (found : graph.stagesAt order = .ok stages) :
    order.map (fun position => graph.stages[position]?) = stages.map some := by
  induction order generalizing stages with
  | nil =>
      cases found
      rfl
  | cons position rest ih =>
      rw [stagesAt] at found
      split at found
      case h_1 => cases found
      case h_2 stage isAt =>
        split at found
        case h_1 => cases found
        case h_2 others more =>
          cases found
          rw [List.map_cons, List.map_cons, isAt, ih more]

/-- There are stages at positions inside the graph. -/
theorem exists_stagesAt {graph : StageGraph} {order : List Nat}
    (inside : ∀ position ∈ order, position < graph.stages.length) :
    ∃ stages, graph.stagesAt order = .ok stages := by
  induction order with
  | nil => exact ⟨[], rfl⟩
  | cons position rest ih =>
      obtain ⟨stages, found⟩ := ih fun other member => inside other (List.mem_cons_of_mem _ member)
      have isInside : position < graph.stages.length := inside position List.mem_cons_self
      exact ⟨graph.stages[position] :: stages, by
        rw [stagesAt, List.getElem?_eq_getElem isInside, found]⟩

/-- A graph is put in order by an order of its edges. -/
theorem ordered_eq_ok_iff {graph : StageGraph} {stages : List Stage} :
    graph.ordered = .ok stages ↔
      ∃ order, Graph.topologicalOrder graph.edges = .ok order ∧
        graph.stagesAt order = .ok stages := by
  unfold ordered
  cases found : Graph.topologicalOrder graph.edges with
  | ok order => simp
  | error failure =>
      cases failure with
      | outOfRange node => simp
      | cycle node => cases named : graph.nameAt node <;> simp [named]

/-! ## The order of a discovered graph -/

namespace Discovered

variable {root : Stage} {graph : StageGraph}

/-- Edges stay inside the graph. -/
theorem needed_lt (discovered : Discovered root graph) {node needed : Nat}
    (needs : Graph.Needs graph.edges node needed) : needed < graph.edges.length := by
  obtain ⟨stage, dependency, _, isAt, _⟩ := discovered.mem_edgesOf.mp needs
  rw [discovered.length_edges]
  exact (List.getElem?_eq_some_iff.mp isAt).1

/-- Nodes that need each other in turn list each other's names in turn. -/
theorem lists_of_needs (discovered : Discovered root graph) {node needed : Nat}
    (needs : Relation.TransGen (Graph.Needs graph.edges) node needed) :
    ∃ stage dependency, graph.stages[node]? = some stage ∧
      graph.stages[needed]? = some dependency ∧
      Relation.TransGen root.Lists stage.name dependency.name := by
  induction needs with
  | single needs =>
      obtain ⟨stage, dependency, isStage, isDependency, listed⟩ := discovered.mem_edgesOf.mp needs
      have reaches := discovered.reached stage (List.mem_of_getElem? isStage)
      exact ⟨stage, dependency, isStage, isDependency, .single ⟨stage, reaches, rfl, listed⟩⟩
  | tail _ needs ih =>
      obtain ⟨stage, middle, isStage, isMiddle, lists⟩ := ih
      obtain ⟨user, dependency, isUser, isDependency, listed⟩ := discovered.mem_edgesOf.mp needs
      have same : user = middle := Option.some.inj (isUser.symm.trans isMiddle)
      have reaches := discovered.reached user (List.mem_of_getElem? isUser)
      exact ⟨stage, dependency, isStage, isDependency,
        lists.tail ⟨user, reaches, congrArg Stage.name same, listed⟩⟩

/-- No node needs itself in turn. -/
theorem not_needs_itself (discovered : Discovered root graph) (node : Nat) :
    ¬ Relation.TransGen (Graph.Needs graph.edges) node node := by
  intro circle
  obtain ⟨stage, other, isStage, isOther, lists⟩ := discovered.lists_of_needs circle
  have same : other = stage := Option.some.inj (isOther.symm.trans isStage)
  have reaches := discovered.reached stage (List.mem_of_getElem? isStage)
  rw [same] at lists
  exact Stage.not_lists_itself (fun _ _ first second => discovered.agrees first second) reaches
    lists

/-- **A discovered graph has an order.** -/
theorem exists_ordered (discovered : Discovered root graph) :
    ∃ stages, graph.ordered = .ok stages := by
  obtain ⟨order, found⟩ := Graph.exists_topologicalOrder
    (fun _ _ needs => discovered.needed_lt needs) discovered.not_needs_itself
  have orders := Graph.orders_of_topologicalOrder found
  have inside : ∀ position ∈ order, position < graph.stages.length := fun position member =>
    discovered.length_edges ▸ (orders.mem_iff position).mp member
  obtain ⟨stages, isAt⟩ := exists_stagesAt inside
  exact ⟨stages, ordered_eq_ok_iff.mpr ⟨order, found, isAt⟩⟩

end Discovered

end StageGraph

namespace Manifest

/-- A manifest is that of the stages of the discovered graph in their order. -/
theorem solve_eq_ok_iff {frontend manifest : String} {root : Stage} :
    solve frontend root = .ok manifest ↔
      ∃ graph blocks, StageGraph.discover root = .ok graph ∧ graph.ordered = .ok blocks ∧
        manifest = ofStages frontend blocks := by
  unfold solve
  cases found : StageGraph.discover root with
  | error failure => simp
  | ok graph =>
      cases ordered : graph.ordered with
      | error failure => simp [ordered]
      | ok blocks => simp [ordered, eq_comm]

/-- A root fails where its discovery fails. -/
theorem solve_of_discover_error {root : Stage} {failure : GraphError}
    (failed : StageGraph.discover root = .error failure) (frontend : String) :
    solve frontend root = .error failure := by
  rw [solve, failed]

/-- **Solving never meets a cycle.**  A discovered graph has an order, and where names run in a
circle, a collision is reported. -/
theorem solve_never_meets_a_cycle {root : Stage} (assembled : root.Assembled) :
    (∀ graph, StageGraph.discover root = .ok graph → ∃ stages, graph.ordered = .ok stages) ∧
    (∀ frontend name, solve frontend root ≠ .error (.cycle name)) ∧
    ((∃ name, Relation.TransGen root.Lists name name) →
      ∃ name, ∀ frontend, solve frontend root = .error (.nameCollision name)) := by
  have discovered : ∀ graph, StageGraph.discover root = .ok graph →
      StageGraph.Discovered root graph :=
    fun _ => StageGraph.discovered_of_discover assembled.coherent
  refine ⟨fun graph found => (discovered graph found).exists_ordered, ?_, ?_⟩
  · intro frontend name failed
    cases found : StageGraph.discover root with
    | ok graph =>
        obtain ⟨stages, ordered⟩ := (discovered graph found).exists_ordered
        rw [solve_eq_ok_iff.mpr ⟨graph, stages, found, ordered, rfl⟩] at failed
        cases failed
    | error failure =>
        obtain ⟨_, _, _, _, _, rfl⟩ := StageGraph.exists_collides_of_discover found
        rw [solve_of_discover_error found] at failed
        cases failed
  · rintro ⟨name, circle⟩
    cases found : StageGraph.discover root with
    | ok graph =>
        obtain ⟨next, ⟨stage, reaches, rfl, _⟩, _⟩ := Relation.TransGen.head'_iff.mp circle
        exact absurd circle (Stage.not_lists_itself
          (fun _ _ first second => (discovered graph found).agrees first second) reaches)
    | error failure =>
        obtain ⟨first, _, _, _, _, rfl⟩ := StageGraph.exists_collides_of_discover found
        exact ⟨first.name, solve_of_discover_error found⟩

end Manifest

/-! ## A loop of names

A stage takes the name of a stage that it is indirectly built on.
-/

namespace Loop

def bottom : Stage := ⟨"even", .image "rust", .empty, .empty, none⟩

def middle : Stage := ⟨"odd", .stage "even", .empty, Chain.empty.push 0 bottom, none⟩

def top : Stage := ⟨"even", .stage "odd", .empty, Chain.empty.push 1 middle, none⟩

theorem assembled : top.Assembled := by
  have begun : Session ⟨.listed ["even", "odd", "even"] "", 0⟩ [] := .start _
  have one : Session ⟨.listed ["odd", "even"] "", 0⟩ [bottom] :=
    begun.perform (.onImage "rust") (by simp [StageJob.inputs])
  have two : Session ⟨.listed ["even"] "", 1⟩ [middle, bottom] :=
    one.perform (.onStage bottom) (by simp [StageJob.inputs])
  exact ⟨_, _, two.perform (.onStage middle) (by simp [StageJob.inputs]), List.mem_cons_self⟩

theorem lists_itself : Relation.TransGen top.Lists "even" "even" := by
  have reaches : top.Reaches middle := .single (List.mem_cons_self : middle ∈ [middle])
  have upper : top.Lists "even" "odd" :=
    ⟨top, .refl, rfl, by simp [top, middle, Stage.dependencyNames]⟩
  have lower : top.Lists "odd" "even" :=
    ⟨middle, reaches, rfl, by simp [middle, bottom, Stage.dependencyNames]⟩
  exact .tail (.single upper) lower

end Loop

/-- The loop is reported as a collision. -/
theorem Manifest.solve_rejects_loop :
    Loop.top.Assembled ∧ Relation.TransGen Loop.top.Lists "even" "even" ∧
      ∃ name, ∀ frontend, solve frontend Loop.top = .error (.nameCollision name) :=
  ⟨Loop.assembled, Loop.lists_itself,
    (solve_never_meets_a_cycle Loop.assembled).2.2 ⟨"even", Loop.lists_itself⟩⟩

end StageManifest
