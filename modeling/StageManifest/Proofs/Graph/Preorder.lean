import StageManifest.Proofs.Graph.Emission
import StageManifest.Proofs.Graph.Sharing

/-!
# Discovery in pre-order

To visit a stage means to pass it over if its name was visited before, and otherwise
to list the stage and then to visit its dependencies in the order in which they were
linked (`Stage.visit`).  The walk of discovery keeps pending stages on a stack and
walks the dependencies of a stage again when it meets a copy of the stage with links
of its own.

Where stages with one name agree, such a second walk lists nothing: the stage that
was kept cannot be above its copy, because names would run in a circle, so all that
is below it was walked before (`settled_below_repeated`).  Hence the walk lists what
a recursive visit lists (`collect_eq_visitAll`), and the graph of a root is its
pre-order with the places of the listed names as edges
(`discover_lists_preorder`).
-/

set_option autoImplicit false

namespace StageManifest

open Stage (Reaches Agrees)

namespace Stage

/-! ## Visits -/

/-- The visited stages after a stage and what it needs: a stage is passed over if its name was
visited, and otherwise comes before its dependencies in the order in which they were linked. -/
def visit (stage : Stage) (visited : List Stage) : List Stage :=
  if stage.name ∈ visited.map (·.name) then visited
  else
    stage.dependencies.toList.attach.foldl (fun visited dependency => dependency.1.visit visited)
      (visited ++ [stage])
termination_by sizeOf stage
decreasing_by exact DependsOn.sizeOf_lt dependency.2

/-- The visited stages after several stages and what they need. -/
def visitAll (stages visited : List Stage) : List Stage :=
  stages.foldl (fun visited stage => stage.visit visited) visited

theorem visit_of_mem {stage : Stage} {visited : List Stage}
    (isVisited : stage.name ∈ visited.map (·.name)) : stage.visit visited = visited := by
  rw [visit, if_pos isVisited]

theorem visit_of_not_mem {stage : Stage} {visited : List Stage}
    (notVisited : stage.name ∉ visited.map (·.name)) :
    stage.visit visited = visitAll stage.dependencies.toList (visited ++ [stage]) := by
  rw [visit, if_neg notVisited, visitAll]
  exact List.foldl_attach (f := fun visited (dependency : Stage) => dependency.visit visited)

theorem visitAll_cons (stage : Stage) (rest visited : List Stage) :
    visitAll (stage :: rest) visited = visitAll rest (stage.visit visited) := rfl

theorem visitAll_append (first second visited : List Stage) :
    visitAll (first ++ second) visited = visitAll second (visitAll first visited) :=
  List.foldl_append

/-- Stages whose names were visited are passed over. -/
theorem visitAll_of_forall_mem {stages visited : List Stage}
    (known : ∀ stage ∈ stages, stage.name ∈ visited.map (·.name)) :
    visitAll stages visited = visited := by
  induction stages with
  | nil => rfl
  | cons stage rest ih =>
      obtain ⟨isVisited, others⟩ := List.forall_mem_cons.mp known
      rw [visitAll_cons, visit_of_mem isVisited, ih others]

/-- Stages below a root that have one name agree. -/
def AgreesBelow (root : Stage) : Prop :=
  ∀ first second, root.Reaches first → root.Reaches second → first.name = second.name →
    Agrees first second

/-- What is below one of two stages that agree agrees with something below the other one. -/
theorem AgreesBelow.exists_reaches {root stage other below : Stage} (agree : root.AgreesBelow)
    (isStage : root.Reaches stage) (isOther : root.Reaches other) (agrees : Agrees other stage)
    (reaches : stage.Reaches below) : ∃ copy, other.Reaches copy ∧ Agrees copy below := by
  induction reaches with
  | refl => exact ⟨other, .refl, agrees⟩
  | tail reaches depends ih =>
      obtain ⟨middle, reachesMiddle, alike⟩ := ih
      obtain ⟨dependency, isDependency, name⟩ :=
        exists_dependsOn_of_name_mem (alike.dependencyNames ▸ depends.name_mem)
      have further := reachesMiddle.tail isDependency
      exact ⟨dependency, further,
        agree _ _ (isOther.trans further) (isStage.trans (reaches.tail depends)) name⟩

/-- A stage that is strictly below another one has a name of its own. -/
theorem AgreesBelow.name_ne {root stage below : Stage} (agree : root.AgreesBelow)
    (isStage : root.Reaches stage) (isBelow : Relation.TransGen DependsOn stage below) :
    stage.name ≠ below.name := by
  intro same
  have lists : Relation.TransGen root.Lists stage.name below.name := by
    clear same
    induction isBelow with
    | single depends => exact .single ⟨stage, isStage, rfl, depends.name_mem⟩
    | @tail middle _ further depends ih =>
        exact ih.tail ⟨middle, isStage.trans further.to_reflTransGen, rfl, depends.name_mem⟩
  exact not_lists_itself agree isStage (same ▸ lists)

end Stage

namespace StageGraph

variable {root stage seen : Stage} {rest pending found : List Stage}

/-! ## The walk -/

/-- **All that is below a repeated stage was walked before.** -/
theorem settled_below_repeated (agree : root.AgreesBelow)
    (walking : Walking root (stage :: rest) found) (kept : kept? found stage.name = some seen)
    (followed : Followed (stage :: rest) found seen) {below : Stage}
    (reaches : stage.Reaches below) : Settled found below := by
  have isSeen := walking.found_reached seen (mem_of_kept? kept)
  have isStage := walking.pending_reached stage List.mem_cons_self
  have agrees := agree seen stage isSeen isStage (name_of_kept? kept)
  obtain ⟨other, reachesOther, alike⟩ := agree.exists_reaches isStage isSeen agrees reaches
  obtain ⟨front, back, split, isFront, covers⟩ := followed
  have noFront : front = [] := by
    cases front with
    | nil => rfl
    | cons head front =>
        obtain ⟨rfl, _⟩ := List.cons.inj split
        exact absurd (name_of_kept? kept)
          (agree.name_ne isSeen (isFront stage List.mem_cons_self))
  rcases covers other reachesOther with ⟨first, isKept, same⟩ | ⟨_, member, _⟩
  · exact ⟨first, alike.name ▸ isKept, same.trans alike⟩
  · rw [noFront] at member
    cases member

theorem Settled.name_mem (settled : Settled found stage) :
    stage.name ∈ found.map (·.name) := by
  obtain ⟨seen, kept, agrees⟩ := settled
  exact List.mem_map.mpr ⟨seen, mem_of_kept? kept, agrees.name⟩

/-- **The walk with a stack lists what a recursive visit lists.** -/
theorem collect_eq_visitAll (agree : root.AgreesBelow) (walking : Walking root pending found)
    (followed : ∀ kept ∈ found, Followed pending found kept) :
    collect pending found = .ok (Stage.visitAll pending found) := by
  fun_induction collect pending found with
  | case1 found => rfl
  | case2 stage rest found notKept ih =>
      rw [ih (walking.keep notKept) (followed_keep followed notKept), Stage.visitAll_append,
        Stage.visitAll_cons, Stage.visit_of_not_mem (not_mem_names_of_kept? notKept)]
  | case3 stage rest found seen kept same shares ih =>
      have below : ∀ other, stage.Reaches other → Settled found other := fun other =>
        settled_below_repeated agree walking kept (followed seen (mem_of_kept? kept))
      rw [ih walking.skip (followed_skip followed below), Stage.visitAll_cons,
        Stage.visit_of_mem (below stage .refl).name_mem]
  | case4 stage rest found seen kept same _ ih =>
      have below : ∀ other, stage.Reaches other → Settled found other := fun other =>
        settled_below_repeated agree walking kept (followed seen (mem_of_kept? kept))
      have known : ∀ dependency ∈ stage.dependencies.toList,
          dependency.name ∈ found.map (·.name) := fun dependency depends =>
        (below dependency (.single depends)).name_mem
      rw [ih walking.descend (followed_descend followed (below stage .refl)),
        Stage.visitAll_append, Stage.visitAll_of_forall_mem known, Stage.visitAll_cons,
        Stage.visit_of_mem (below stage .refl).name_mem]
  | case5 stage rest found seen kept differs =>
      have agrees := agree seen stage (walking.found_reached seen (mem_of_kept? kept))
        (walking.pending_reached stage List.mem_cons_self) (name_of_kept? kept)
      exact absurd agrees.sameDefinition differs

/-! ## The graph -/

variable {graph : StageGraph}

/-- The nodes of a graph that was found are the visited stages of its root. -/
theorem stages_eq_visit (coherent : root.Coherent) (found : discover root = .ok graph) :
    graph.stages = root.visit [] := by
  have discovered := discovered_of_discover coherent found
  have agree : root.AgreesBelow := fun _ _ first second => discovered.agrees first second
  have walk := collect_eq_visitAll agree (.start root) nofun
  rw [discover, walk] at found
  cases found
  rfl

/-- The edges of a node are the nodes of the names that each stage with its name lists, in the order
of the links and without repetitions. -/
theorem exists_targets (discovered : Discovered root graph) (reaches : root.Reaches stage)
    {position : Nat} (named : graph.Named position stage.name) :
    ∃ targets, graph.edges[position]? = some targets ∧
      List.Forall₂ graph.Named targets stage.dependencyNames.eraseDups := by
  have inside : position < graph.edges.length := by
    obtain ⟨node, isAt, _⟩ := named_iff.mp named
    rw [discovered.length_edges]
    exact (List.getElem?_eq_some_iff.mp isAt).1
  have edges := edgesOf_named discovered named
  rw [neededNames_eq discovered reaches, Graph.edgesOf, List.getD_eq_getElem?_getD,
    List.getElem?_eq_getElem inside, Option.getD_some] at edges
  exact ⟨_, List.getElem?_eq_getElem inside, edges⟩

/-- Edges lead to nodes. -/
theorem target_lt (discovered : Discovered root graph) {targets : List Nat}
    (isList : targets ∈ graph.edges) {target : Nat} (member : target ∈ targets) :
    target < graph.stages.length := by
  obtain ⟨position, isAt⟩ := List.mem_iff_getElem?.mp isList
  have needs : Graph.Needs graph.edges position target := by
    rw [Graph.Needs, Graph.edgesOf, List.getD_eq_getElem?_getD, isAt]
    exact member
  exact discovered.length_edges ▸ discovered.needed_lt needs

/-- **A graph that was found lists the stages below its root in pre-order.**  The root comes first,
every name below it comes once, and the edges of a node lead to the nodes of the names that the
stages with its name list, in the order of the links and without repetitions. -/
theorem discover_lists_preorder (assembled : root.Assembled)
    (found : discover root = .ok graph) :
    graph.stages = root.visit [] ∧ graph.stages[0]? = some root ∧
      (graph.stages.map (·.name)).Nodup ∧
      (∀ name, name ∈ graph.stages.map (·.name) ↔
        ∃ stage, root.Reaches stage ∧ stage.name = name) ∧
      graph.edges.length = graph.stages.length ∧
      (∀ targets ∈ graph.edges, ∀ target ∈ targets, target < graph.stages.length) ∧
      ∀ stage position, root.Reaches stage → graph.Named position stage.name →
        ∃ targets, graph.edges[position]? = some targets ∧
          List.Forall₂ graph.Named targets stage.dependencyNames.eraseDups := by
  have discovered := discovered_of_discover assembled.coherent found
  refine ⟨stages_eq_visit assembled.coherent found, discovered.first, discovered.unique,
    fun name => ⟨?_, ?_⟩, discovered.length_edges, fun _ isList _ => target_lt discovered isList,
    fun _ _ reaches named => exists_targets discovered reaches named⟩
  · intro member
    obtain ⟨stage, isNode, same⟩ := List.mem_map.mp member
    exact ⟨stage, discovered.reached stage isNode, same⟩
  · rintro ⟨stage, reaches, rfl⟩
    obtain ⟨kept, isKept, agrees⟩ := discovered.agree stage reaches
    exact List.mem_map.mpr ⟨kept, isKept, agrees.name⟩

/-- The graph of the diamond: the shared stage comes with the left one, and the right one leads back
to it. -/
theorem discover_lists_diamond :
    Diamond.top.Assembled ∧ discover Diamond.top = .ok Diamond.graph ∧
      (Diamond.top.visit []).map (·.name) = ["top", "left", "shared", "right"] ∧
      ∃ targets, Diamond.graph.edges[3]? = some targets ∧
        List.Forall₂ Diamond.graph.Named targets ["shared"] := by
  obtain ⟨stages, _, _, _, _, _, edges⟩ :=
    discover_lists_preorder Diamond.assembled Diamond.discovered
  refine ⟨Diamond.assembled, Diamond.discovered, ?_, ?_⟩
  · rw [← stages]
    rfl
  · have reaches : Diamond.top.Reaches Diamond.right :=
      .single (List.mem_cons_of_mem _ List.mem_cons_self)
    exact edges Diamond.right 3 reaches rfl

end StageGraph

end StageManifest
