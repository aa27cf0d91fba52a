import StageManifest.Proofs.Graph.Collection
import StageManifest.Proofs.Stage.Session

/-!
# What discovery finds

The graph of a root has one node for each name below the root, the root first,
and an edge from a node to another one exactly when the stage of the first lists
the name of the second (`Discovered`, `mem_edgesOf`).

Discovery fails exactly when two stages below the root collide, and names such a
pair (`discover_fails_iff_collides`).  However deep the two are and by whatever
paths they are reached, they are found, although the dependencies of a stage are
left out when they are the links of a stage met before.
-/

set_option autoImplicit false

namespace StageManifest.StageGraph

open Stage (Reaches Agrees Collides Coherent)

/-- Everything below a root agrees with a stage that was kept. -/
theorem Collected.exists_agrees {root stage : Stage} {result : List Stage}
    (collected : Collected root [root] [] result) (reaches : root.Reaches stage) :
    ∃ kept ∈ result, Agrees kept stage := by
  obtain ⟨met, pending, agree⟩ := collected.met
  have isMet : met stage := by
    induction reaches with
    | refl => exact pending root (List.mem_singleton.mpr rfl)
    | tail _ depends ih =>
        rcases (agree _ ih).2 _ depends with isMet | ⟨kept, isFound, _⟩
        · exact isMet
        · exact (List.not_mem_nil isFound).elim
  exact (agree stage isMet).1

/-- A walk that ends well has kept the root first. -/
theorem getElem?_zero_of_collect {root : Stage} (coherent : root.Coherent) {result : List Stage}
    (ok : collect [root] [] = .ok result) : result[0]? = some root := by
  have notKept : kept? [] root.name = none := rfl
  rw [collect, notKept] at ok
  have walking := (Walking.start root).keep notKept
  obtain ⟨rest, same⟩ := (collected_of_collect coherent walking ok).grows
  rw [← same]
  rfl

/-! ## Positions of names -/

theorem mem_addPosition {found : List Stage} {targets : List Nat} {name : String}
    {position : Nat} :
    position ∈ addPosition found targets name ↔
      position ∈ targets ∨
        (found.findIdx? fun stage => stage.name == name) = some position := by
  unfold addPosition
  cases at? : found.findIdx? fun stage => stage.name == name with
  | none => simp
  | some first =>
      by_cases isTarget : first ∈ targets
      · have listed : targets.contains first = true := by simpa using isTarget
        simp only [listed, if_true, Option.some.injEq]
        exact ⟨.inl, fun member => member.elim id fun same => same ▸ isTarget⟩
      · have notListed : targets.contains first = false := by simpa using isTarget
        simp only [notListed, Bool.false_eq_true, if_false, List.mem_append,
          List.mem_singleton, Option.some.injEq, eq_comm]

/-- The positions of names are those at which a stage with one of the names comes first. -/
theorem mem_positions {found : List Stage} {names : List String} {position : Nat} :
    position ∈ positions found names ↔
      ∃ name ∈ names, (found.findIdx? fun stage => stage.name == name) = some position := by
  have folded : ∀ targets, position ∈ names.foldl (addPosition found) targets ↔
      position ∈ targets ∨
        ∃ name ∈ names, (found.findIdx? fun stage => stage.name == name) = some position := by
    induction names with
    | nil => simp
    | cons name rest ih =>
        intro targets
        rw [List.foldl_cons, ih, mem_addPosition, List.exists_mem_cons_iff, or_assoc]
  simpa [positions] using folded []

/-- Where names are kept once, a name is found where its stage is. -/
theorem findIdx?_name_eq_some_iff {found : List Stage} (unique : (found.map (·.name)).Nodup)
    {name : String} {position : Nat} :
    (found.findIdx? fun stage => stage.name == name) = some position ↔
      ∃ stage, found[position]? = some stage ∧ stage.name = name := by
  rw [List.findIdx?_eq_some_iff_getElem]
  constructor
  · rintro ⟨inside, same, _⟩
    exact ⟨found[position], List.getElem?_eq_getElem inside, by simpa using same⟩
  · rintro ⟨stage, isAt, rfl⟩
    obtain ⟨inside, rfl⟩ := List.getElem?_eq_some_iff.mp isAt
    refine ⟨inside, by simp, fun earlier before => ?_⟩
    have within : earlier < found.length := Nat.lt_trans before inside
    intro same
    have sameName : (found.map (·.name))[earlier]? = (found.map (·.name))[position]? := by
      rw [List.getElem?_map, List.getElem?_map, List.getElem?_eq_getElem within,
        List.getElem?_eq_getElem inside]
      simpa using same
    have equal : earlier = position :=
      (List.getElem?_inj (by simpa using within) unique).mp sameName
    omega

/-! ## The graph of a root -/

/-- The graph describes what is below the root: the root comes first, every name below it has one
node, and the edges lead to the nodes of the listed names. -/
structure Discovered (root : Stage) (graph : StageGraph) : Prop where
  first : graph.stages[0]? = some root
  unique : (graph.stages.map (·.name)).Nodup
  reached : ∀ stage ∈ graph.stages, root.Reaches stage
  agree : ∀ stage, root.Reaches stage → ∃ kept ∈ graph.stages, Agrees kept stage
  edges : graph.edges = graph.stages.map fun stage =>
    positions graph.stages stage.dependencyNames

theorem discovered_of_discover {root : Stage} (coherent : root.Coherent) {graph : StageGraph}
    (ok : discover root = .ok graph) : Discovered root graph := by
  unfold discover at ok
  split at ok
  case h_1 => cases ok
  case h_2 found collects =>
    cases ok
    have collected := collected_of_collect coherent (.start root) collects
    exact
      { first := getElem?_zero_of_collect coherent collects
        unique := collected.unique
        reached := collected.reached
        agree := fun _ => collected.exists_agrees
        edges := rfl }

theorem exists_collides_of_discover {root : Stage} {failure : GraphError}
    (failed : discover root = .error failure) :
    ∃ first second, root.Reaches first ∧ root.Reaches second ∧ Collides first second ∧
      failure = .nameCollision first.name := by
  unfold discover at failed
  split at failed
  case h_1 error collects =>
    cases failed
    exact exists_collides_of_collect (.start root) collects
  case h_2 => cases failed

namespace Discovered

variable {root : Stage} {graph : StageGraph}

/-- Two nodes with one name are the same. -/
theorem eq_of_name {first second : Stage} (discovered : Discovered root graph)
    (isFirst : first ∈ graph.stages) (isSecond : second ∈ graph.stages)
    (name : first.name = second.name) : first = second :=
  List.inj_on_of_nodup_map discovered.unique isFirst isSecond name

/-- A node stands at one position only. -/
theorem position_eq {stage : Stage} {first second : Nat} (discovered : Discovered root graph)
    (isFirst : graph.stages[first]? = some stage) (isSecond : graph.stages[second]? = some stage) :
    first = second := by
  have inside := (List.getElem?_eq_some_iff.mp isFirst).1
  refine (List.getElem?_inj (l := graph.stages.map (·.name)) (by simpa using inside)
    discovered.unique).mp ?_
  rw [List.getElem?_map, List.getElem?_map, isFirst, isSecond]

/-- Stages below the root that have one name agree. -/
theorem agrees {first second : Stage} (discovered : Discovered root graph)
    (firstReached : root.Reaches first) (secondReached : root.Reaches second)
    (name : first.name = second.name) : Agrees first second := by
  obtain ⟨kept, isKept, keptFirst⟩ := discovered.agree first firstReached
  obtain ⟨other, isOther, keptSecond⟩ := discovered.agree second secondReached
  have same : kept = other :=
    discovered.eq_of_name isKept isOther ((keptFirst.name.trans name).trans keptSecond.name.symm)
  exact keptFirst.symm.trans (same ▸ keptSecond)

/-- An edge leads from a stage to the node of a name that the stage lists. -/
theorem mem_edgesOf (discovered : Discovered root graph) {node needed : Nat} :
    needed ∈ Graph.edgesOf graph.edges node ↔
      ∃ stage dependency, graph.stages[node]? = some stage ∧
        graph.stages[needed]? = some dependency ∧ dependency.name ∈ stage.dependencyNames := by
  rw [Graph.edgesOf, discovered.edges, List.getD_eq_getElem?_getD, List.getElem?_map]
  cases isAt : graph.stages[node]? with
  | none => simp
  | some stage =>
      simp only [Option.map_some, Option.getD_some, mem_positions,
        findIdx?_name_eq_some_iff discovered.unique, Option.some.injEq]
      constructor
      · rintro ⟨name, listed, dependency, isDependency, rfl⟩
        exact ⟨stage, dependency, rfl, isDependency, listed⟩
      · rintro ⟨_, dependency, rfl, isDependency, listed⟩
        exact ⟨dependency.name, listed, dependency, isDependency, rfl⟩

/-- There are as many lists of edges as nodes. -/
theorem length_edges (discovered : Discovered root graph) :
    graph.edges.length = graph.stages.length := by
  rw [discovered.edges, List.length_map]

end Discovered

/-- **Discovery fails exactly when two stages below the root collide**, and the failure names such
a pair. -/
theorem discover_fails_iff_collides {root : Stage} (assembled : root.Assembled) :
    ((∃ name, discover root = .error (.nameCollision name)) ↔
      ∃ first second, root.Reaches first ∧ root.Reaches second ∧ Collides first second) ∧
    ∀ failure, discover root = .error failure →
      ∃ first second, root.Reaches first ∧ root.Reaches second ∧ Collides first second ∧
        failure = .nameCollision first.name := by
  refine ⟨⟨?_, ?_⟩, fun failure => exists_collides_of_discover⟩
  · rintro ⟨name, failed⟩
    obtain ⟨first, second, firstReached, secondReached, collides, _⟩ :=
      exists_collides_of_discover failed
    exact ⟨first, second, firstReached, secondReached, collides⟩
  · rintro ⟨first, second, firstReached, secondReached, collides⟩
    cases found : discover root with
    | ok graph =>
        have discovered := discovered_of_discover assembled.coherent found
        have agrees := discovered.agrees firstReached secondReached collides.name
        exact absurd collides agrees.not_collides
    | error failure =>
        obtain ⟨other, _, _, _, _, same⟩ := exists_collides_of_discover found
        exact ⟨other.name, congrArg Except.error same⟩

/-! ## A divergence out of sight

Two stages that look the same stand on different stages of one name.
-/

namespace Divergence

def low : Stage := ⟨"low", .image "rust", .empty, .empty, none⟩

def middle : Stage := ⟨"middle", .stage "low", .empty, Chain.empty.push 0 low, none⟩

def otherLow : Stage := ⟨"low", .image "debian", .empty, .empty, none⟩

def otherMiddle : Stage := ⟨"middle", .stage "low", .empty, Chain.empty.push 1 otherLow, none⟩

def topBase : Stage := ⟨"top", .stage "middle", .empty, Chain.empty.push 2 middle, none⟩

def top : Stage :=
  { topBase with
    layers := topBase.layers.push 4 (.copy "/bin" "/" none (some "middle"))
    dependencies := topBase.dependencies.push 3 otherMiddle }

theorem assembled : top.Assembled := by
  have begun : Session ⟨.listed ["low", "middle", "low", "middle", "top"] "", 0⟩ [] := .start _
  have one : Session ⟨.listed ["middle", "low", "middle", "top"] "", 0⟩ [low] :=
    begun.perform (.onImage "rust") (by simp [StageJob.inputs])
  have two : Session ⟨.listed ["low", "middle", "top"] "", 1⟩ [middle, low] :=
    one.perform (.onStage low) (by simp [StageJob.inputs])
  have three : Session ⟨.listed ["middle", "top"] "", 1⟩ [otherLow, middle, low] :=
    two.perform (.onImage "debian") (by simp [StageJob.inputs])
  have four : Session ⟨.listed ["top"] "", 2⟩ [otherMiddle, otherLow, middle, low] :=
    three.perform (.onStage otherLow) (by simp [StageJob.inputs])
  have five : Session ⟨.listed [] "", 3⟩ [topBase, otherMiddle, otherLow, middle, low] :=
    four.perform (.onStage middle) (by simp [StageJob.inputs])
  exact ⟨_, _, five.perform
    (.grow topBase (.copyArtifact (otherMiddle.saveArtifact "/bin") "/" none))
    (by simp [StageJob.inputs, Growth.inputs, Stage.saveArtifact]), List.mem_cons_self⟩

theorem reaches_low : top.Reaches low := by
  have upper : top.DependsOn middle := List.mem_cons_self
  have lower : middle.DependsOn low := List.mem_cons_self
  exact .tail (.single upper) lower

theorem reaches_otherLow : top.Reaches otherLow := by
  have upper : top.DependsOn otherMiddle := List.mem_cons_of_mem _ List.mem_cons_self
  have lower : otherMiddle.DependsOn otherLow := List.mem_cons_self
  exact .tail (.single upper) lower

end Divergence

/-- The divergence is found, although the stages above it have the same definition. -/
theorem discover_fails_on_divergence :
    Divergence.top.Assembled ∧
      Divergence.middle.sameDefinition Divergence.otherMiddle = true ∧
      ∃ name, discover Divergence.top = .error (.nameCollision name) := by
  have same : Divergence.middle.sameDefinition Divergence.otherMiddle = true := by
    simp [Divergence.middle, Divergence.otherMiddle, Divergence.low, Divergence.otherLow,
      Stage.sameDefinition, Stage.dependencyNames, Chain.sameContent, Chain.sameEnd]
  refine ⟨Divergence.assembled, same, ?_⟩
  refine (discover_fails_iff_collides Divergence.assembled).1.mpr ?_
  exact ⟨_, _, Divergence.reaches_low, Divergence.reaches_otherLow, rfl,
    .inl (by simp [Divergence.low, Divergence.otherLow])⟩

end StageManifest.StageGraph
