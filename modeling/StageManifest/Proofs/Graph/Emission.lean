import StageManifest.Proofs.Graph.Arrangement
import StageManifest.Proofs.Graph.PostOrder

/-!
# Blocks in the order of their links

To emit a stage means to pass it over if its name was emitted before, and
otherwise to emit its dependencies in the order in which they were linked and
then the stage itself (`Stage.emit`).  Emission walks stages, of which several may
have one name; the search walks positions of kept stages, and its lists of edges
have no repetitions.  Both follow the rule of post-order on names, where a name
needs the names that its kept stage lists (`postOrder_emitAll`,
`postOrder_names`).  As the rule leaves no choice, the blocks of a manifest stand
in the order of emission (`names_eq_emit_of_ordered`).
-/

set_option autoImplicit false

namespace StageManifest

open Stage (Reaches)

namespace Stage

/-! ## Emission -/

/-- The emitted stages after a stage and what it needs: a stage is passed over if its name was
emitted, and otherwise comes after its dependencies in the order in which they were linked. -/
def emit (stage : Stage) (emitted : List Stage) : List Stage :=
  if stage.name ∈ emitted.map (·.name) then emitted
  else
    stage.dependencies.toList.attach.foldl (fun emitted dependency => dependency.1.emit emitted)
      emitted ++ [stage]
termination_by sizeOf stage
decreasing_by exact DependsOn.sizeOf_lt dependency.2

/-- The emitted stages after several stages and what they need. -/
def emitAll (stages emitted : List Stage) : List Stage :=
  stages.foldl (fun emitted stage => stage.emit emitted) emitted

theorem emit_of_mem {stage : Stage} {emitted : List Stage}
    (isEmitted : stage.name ∈ emitted.map (·.name)) : stage.emit emitted = emitted := by
  rw [emit, if_pos isEmitted]

theorem emit_of_not_mem {stage : Stage} {emitted : List Stage}
    (notEmitted : stage.name ∉ emitted.map (·.name)) :
    stage.emit emitted = emitAll stage.dependencies.toList emitted ++ [stage] := by
  rw [emit, if_neg notEmitted, emitAll]
  congr 1
  exact List.foldl_attach (f := fun emitted (dependency : Stage) => dependency.emit emitted)

theorem emitAll_cons (stage : Stage) (rest emitted : List Stage) :
    emitAll (stage :: rest) emitted = emitAll rest (stage.emit emitted) := rfl

/-- Only stages below the given ones are emitted. -/
theorem mem_emitAll {stages emitted : List Stage} {stage : Stage}
    (member : stage ∈ emitAll stages emitted) :
    stage ∈ emitted ∨ ∃ start ∈ stages, start.Reaches stage := by
  induction stages using induction_on_dependencies generalizing emitted with
  | nil => exact .inl member
  | cons start rest dependencies others =>
      rw [emitAll_cons] at member
      rcases others member with first | ⟨other, isOther, reaches⟩
      · by_cases known : start.name ∈ emitted.map (·.name)
        · rw [emit_of_mem known] at first
          exact .inl first
        · rw [emit_of_not_mem known, List.mem_append, List.mem_singleton] at first
          rcases first with below | rfl
          · refine (dependencies below).imp_right fun ⟨dependency, depends, reaches⟩ => ?_
            exact ⟨start, List.mem_cons_self, .head depends reaches⟩
          · exact .inr ⟨stage, List.mem_cons_self, .refl⟩
      · exact .inr ⟨other, List.mem_cons_of_mem _ isOther, reaches⟩

theorem reaches_of_mem_emit {root stage : Stage} (member : stage ∈ root.emit []) :
    root.Reaches stage := by
  have fromRoot : stage ∈ emitAll [root] [] := member
  rcases mem_emitAll fromRoot with never | ⟨start, isRoot, reaches⟩
  · cases never
  · rwa [List.mem_singleton.mp isRoot] at reaches

end Stage

namespace StageGraph

/-! ## Post-order on names -/

/-- The names that the stage kept under a name lists. -/
def neededNames (graph : StageGraph) (name : String) : List String :=
  match kept? graph.stages name with
  | some stage => stage.dependencyNames
  | none => []

variable {root : Stage} {graph : StageGraph}

/-- A name below the root needs the names that each of its stages lists. -/
theorem neededNames_eq (discovered : Discovered root graph) {stage : Stage}
    (reaches : root.Reaches stage) : graph.neededNames stage.name = stage.dependencyNames := by
  obtain ⟨kept, isKept, agrees⟩ := discovered.agree stage reaches
  rw [neededNames]
  cases found : kept? graph.stages stage.name with
  | none =>
      have absent := not_mem_names_of_kept? found
      exact absurd (List.mem_map.mpr ⟨kept, isKept, agrees.name⟩) absent
  | some seen =>
      have same : seen = kept := discovered.eq_of_name (mem_of_kept? found) isKept
        ((name_of_kept? found).trans agrees.name.symm)
      exact same ▸ agrees.dependencyNames

/-- **Emission follows the rule of post-order.** -/
theorem postOrder_emitAll (discovered : Discovered root graph) {stages : List Stage}
    (reached : ∀ stage ∈ stages, root.Reaches stage) (emitted : List Stage) :
    Graph.PostOrder graph.neededNames (stages.map (·.name)) (emitted.map (·.name))
      ((Stage.emitAll stages emitted).map (·.name)) := by
  induction stages using Stage.induction_on_dependencies generalizing emitted with
  | nil => exact .done _
  | cons stage rest dependencies others =>
      have reaches := reached stage List.mem_cons_self
      have restReached : ∀ other ∈ rest, root.Reaches other := fun other member =>
        reached other (List.mem_cons_of_mem _ member)
      rw [Stage.emitAll_cons, List.map_cons]
      by_cases known : stage.name ∈ emitted.map (·.name)
      · rw [Stage.emit_of_mem known]
        exact .skip known (others restReached emitted)
      · have below := dependencies (fun dependency depends => reaches.tail depends) emitted
        have after := others restReached (stage.emit emitted)
        rw [Stage.emit_of_not_mem known] at after ⊢
        rw [List.map_append] at after
        refine .visit known ?_ after
        rw [neededNames_eq discovered reaches]
        exact below

/-- The node at the position has the name. -/
def Named (graph : StageGraph) (position : Nat) (name : String) : Prop :=
  (graph.stages.map (·.name))[position]? = some name

theorem named_iff {position : Nat} {name : String} :
    graph.Named position name ↔
      ∃ stage, graph.stages[position]? = some stage ∧ stage.name = name := by
  rw [Named, List.getElem?_map, Option.map_eq_some_iff]

theorem biUnique_named (discovered : Discovered root graph) : Relator.BiUnique graph.Named := by
  constructor
  · intro first second name isFirst isSecond
    have inside := (List.getElem?_eq_some_iff.mp isFirst).1
    exact (List.getElem?_inj inside discovered.unique).mp (isFirst.trans isSecond.symm)
  · intro position first second isFirst isSecond
    exact Option.some.inj (isFirst.symm.trans isSecond)

/-- The positions of names are in the order of the names, without repetitions. -/
theorem positions_named (discovered : Discovered root graph) {names : List String}
    (known : ∀ name ∈ names, name ∈ graph.stages.map (·.name)) :
    List.Forall₂ graph.Named (positions graph.stages names) names.eraseDups := by
  induction names using List.reverseRecOn with
  | nil => exact .nil
  | append_singleton names name ih =>
      have earlier := ih fun other member => known other (List.mem_append_left _ member)
      obtain ⟨stage, isStage, rfl⟩ := List.mem_map.mp
        (known name (List.mem_append_right _ (List.mem_singleton.mpr rfl)))
      obtain ⟨position, isAt⟩ := List.mem_iff_getElem?.mp isStage
      have found := (findIdx?_name_eq_some_iff discovered.unique).mpr ⟨stage, isAt, rfl⟩
      have named : graph.Named position stage.name := named_iff.mpr ⟨stage, isAt, rfl⟩
      have listed := List.rel_mem (biUnique_named discovered) named earlier
      rw [positions, List.foldl_append, List.foldl_cons, List.foldl_nil, ← positions, addPosition,
        found, Graph.eraseDups_concat]
      by_cases again : stage.name ∈ names
      · have isTarget : position ∈ positions graph.stages names :=
          listed.mpr (List.mem_eraseDups.mpr again)
        simpa [isTarget, again] using earlier
      · have notTarget : position ∉ positions graph.stages names :=
          mt listed.mp (mt List.mem_eraseDups.mp again)
        simpa [notTarget, again] using List.rel_append earlier (.cons named .nil)

/-- The edges of a node are, apart from repetitions, the names that its name needs. -/
theorem edgesOf_named (discovered : Discovered root graph) {position : Nat} {name : String}
    (named : graph.Named position name) :
    List.Forall₂ graph.Named (Graph.edgesOf graph.edges position)
      (graph.neededNames name).eraseDups := by
  obtain ⟨stage, isAt, rfl⟩ := named_iff.mp named
  have reaches := discovered.reached stage (List.mem_of_getElem? isAt)
  have edges : Graph.edgesOf graph.edges position =
      positions graph.stages stage.dependencyNames := by
    rw [Graph.edgesOf, discovered.edges, List.getD_eq_getElem?_getD, List.getElem?_map, isAt]
    rfl
  rw [edges, neededNames_eq discovered reaches]
  refine positions_named discovered fun other listed => ?_
  obtain ⟨dependency, depends, rfl⟩ := Stage.exists_dependsOn_of_name_mem listed
  obtain ⟨kept, isKept, agrees⟩ := discovered.agree dependency (reaches.tail depends)
  exact List.mem_map.mpr ⟨kept, isKept, agrees.name⟩

/-- The stages of an order have the names of its positions. -/
theorem forall₂_named {order : List Nat} {blocks : List Stage}
    (isAt : order.map (fun position => graph.stages[position]?) = blocks.map some) :
    List.Forall₂ graph.Named order (blocks.map (·.name)) := by
  induction order generalizing blocks with
  | nil =>
      rw [List.map_nil, eq_comm, List.map_eq_nil_iff] at isAt
      subst isAt
      exact .nil
  | cons position rest ih =>
      obtain ⟨block, others, rfl, atBlock, atOthers⟩ := List.map_eq_cons_iff.mp isAt.symm
      exact .cons (named_iff.mpr ⟨block, atBlock.symm, rfl⟩) (ih atOthers.symm)

/-- **The order of a discovered graph follows the rule of post-order on names.** -/
theorem postOrder_names (discovered : Discovered root graph) {blocks : List Stage}
    (ordered : graph.ordered = .ok blocks) :
    Graph.PostOrder graph.neededNames (graph.stages.map (·.name)) [] (blocks.map (·.name)) := by
  obtain ⟨order, found, stagesFound⟩ := ordered_eq_ok_iff.mp ordered
  have biUnique := biUnique_named discovered
  have starts : List.Forall₂ graph.Named (List.range graph.edges.length)
      (graph.stages.map (·.name)) := by
    refine forall₂_named (List.ext_getElem (by simp [discovered.length_edges]) ?_)
    intro position _ inside
    simp only [List.length_map] at inside
    simp [inside]
  obtain ⟨reached, named, reachedNames⟩ := (Graph.postOrder_of_topologicalOrder found).transfer
    biUnique (edgesOf_named discovered) starts .nil
  have same : reached = blocks.map (·.name) := List.right_unique_forall₂' biUnique.2 reachedNames
    (forall₂_named (map_getElem?_of_stagesAt stagesFound))
  exact same ▸ named

/-- Names that come with all that they need include every name below the root. -/
theorem name_mem_of_reaches (discovered : Discovered root graph) {names : List String}
    (isClosed : ∀ name ∈ names, graph.neededNames name ⊆ names) (hasRoot : root.name ∈ names)
    {stage : Stage} (reaches : root.Reaches stage) : stage.name ∈ names := by
  induction reaches with
  | refl => exact hasRoot
  | tail reaches depends ih =>
      refine isClosed _ ih ?_
      rw [neededNames_eq discovered reaches]
      exact depends.name_mem

/-- **The blocks of a root stand in the order of emission.** -/
theorem names_eq_emit_of_ordered (discovered : Discovered root graph) {blocks : List Stage}
    (ordered : graph.ordered = .ok blocks) :
    blocks.map (·.name) = (root.emit []).map (·.name) := by
  obtain ⟨others, stages⟩ : ∃ others, graph.stages = [root] ++ others := by
    have first := discovered.first
    cases found : graph.stages with
    | nil => simp [found] at first
    | cons head others =>
        rw [found, List.getElem?_cons_zero, Option.some.injEq] at first
        exact ⟨others, by rw [first, List.singleton_append]⟩
  have order := postOrder_names discovered ordered
  rw [stages, List.map_append] at order
  obtain ⟨middle, fromRoot, fromOthers⟩ := order.exists_of_append
  have emission : Graph.PostOrder graph.neededNames [root.name] [] ((root.emit []).map (·.name)) :=
    postOrder_emitAll discovered (fun _ member => List.mem_singleton.mp member ▸ .refl) []
  have same := fromRoot.unique emission
  have hasRoot : root.name ∈ middle := fromRoot.pending_subset List.mem_cons_self
  have isClosed := fromRoot.closed fun _ never => (List.not_mem_nil never).elim
  -- Everything below the root is placed with it, so the other nodes add nothing.
  have known : others.map (·.name) ⊆ middle := by
    intro name member
    obtain ⟨stage, isOther, rfl⟩ := List.mem_map.mp member
    have isStage : stage ∈ graph.stages := stages ▸ List.mem_append_right _ isOther
    exact name_mem_of_reaches discovered isClosed hasRoot (discovered.reached stage isStage)
  rw [fromOthers.eq_of_subset known, same]

/-- Stages below the root that have the same names one by one are written the same way. -/
theorem texts_eq_of_names_eq (discovered : Discovered root graph) {stages others : List Stage}
    (reached : ∀ stage ∈ stages, root.Reaches stage)
    (othersReached : ∀ stage ∈ others, root.Reaches stage)
    (names : stages.map (·.name) = others.map (·.name)) :
    stages.map Stage.text = others.map Stage.text := by
  induction stages generalizing others with
  | nil =>
      rw [List.map_nil, eq_comm, List.map_eq_nil_iff] at names
      rw [names]
  | cons stage rest ih =>
      obtain ⟨other, more, rfl, name, tail⟩ := List.map_eq_cons_iff.mp names.symm
      have agrees := discovered.agrees (reached stage List.mem_cons_self)
        (othersReached other List.mem_cons_self) name.symm
      rw [List.map_cons, List.map_cons, agrees.text_eq,
        ih (fun next member => reached next (List.mem_cons_of_mem _ member))
          (fun next member => othersReached next (List.mem_cons_of_mem _ member)) tail.symm]

/-- The blocks of a root are written as the emitted stages. -/
theorem texts_eq_emit_of_ordered (discovered : Discovered root graph) {blocks : List Stage}
    (ordered : graph.ordered = .ok blocks) :
    blocks.map Stage.text = (root.emit []).map Stage.text :=
  texts_eq_of_names_eq discovered (arranged_of_ordered discovered ordered).reached
    (fun _ => Stage.reaches_of_mem_emit) (names_eq_emit_of_ordered discovered ordered)

end StageGraph

namespace Manifest

/-- A root that can be discovered has the manifest of the emitted stages. -/
theorem solve_of_discover_ok {root : Stage} {graph : StageGraph} (coherent : root.Coherent)
    (found : StageGraph.discover root = .ok graph) (frontend : String) :
    solve frontend root = .ok (ofStages frontend (root.emit [])) := by
  have discovered := StageGraph.discovered_of_discover coherent found
  obtain ⟨blocks, ordered⟩ := discovered.exists_ordered
  refine solve_eq_ok_iff.mpr ⟨graph, blocks, found, ordered, ?_⟩
  rw [ofStages, ofStages, StageGraph.texts_eq_emit_of_ordered discovered ordered]

/-- **The blocks of a manifest stand in the order in which a plain recursion emits them**, and the
manifest is that of the emitted stages. -/
theorem solve_follows_emission {frontend manifest : String} {root : Stage}
    (assembled : root.Assembled) (solved : solve frontend root = .ok manifest) :
    ∃ graph blocks, StageGraph.discover root = .ok graph ∧ graph.ordered = .ok blocks ∧
      manifest = ofStages frontend blocks ∧
      blocks.map (·.name) = (root.emit []).map (·.name) ∧
      manifest = ofStages frontend (root.emit []) := by
  obtain ⟨graph, blocks, found, ordered, rfl⟩ := solve_eq_ok_iff.mp solved
  have discovered := StageGraph.discovered_of_discover assembled.coherent found
  refine ⟨graph, blocks, found, ordered, rfl,
    StageGraph.names_eq_emit_of_ordered discovered ordered, ?_⟩
  rw [ofStages, ofStages, StageGraph.texts_eq_emit_of_ordered discovered ordered]

/-- The emission of the diamond. -/
theorem solve_follows_emission_of_diamond :
    Diamond.top.Assembled ∧
      (Diamond.top.emit []).map (·.name) = ["shared", "left", "right", "top"] ∧
      solve "frontend" Diamond.top = .ok (ofStages "frontend" (Diamond.top.emit [])) := by
  obtain ⟨graph, blocks, found, ordered, _, names, written⟩ :=
    solve_follows_emission Diamond.assembled Diamond.solved
  have same : graph = Diamond.graph :=
    Except.ok.inj (found.symm.trans Diamond.discovered)
  rw [same, Diamond.ordered, Except.ok.injEq] at ordered
  refine ⟨Diamond.assembled, ?_, Diamond.solved.trans (congrArg Except.ok written)⟩
  rw [← names, ← ordered]
  rfl

end Manifest

end StageManifest
