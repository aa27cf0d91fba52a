import Mathlib.Data.List.Perm.Basic
import StageManifest.Proofs.Graph.Acyclicity

/-!
# The blocks of a manifest

The blocks of a root are its graph's nodes in their order: one block for each
name below the root, each after the blocks it depends on, and the root's own
block at the end (`Arranged`).  The manifest is the header followed by the texts
of these blocks, each behind an empty line
(`solve_arranges_blocks`).
-/

set_option autoImplicit false

namespace StageManifest

open Stage (Reaches Agrees)

/-- The blocks of a root in an order in which they can be built: every name below the root has one
block, after the blocks of the names that it lists, and the block of the root is the last one. -/
structure Arranged (root : Stage) (blocks : List Stage) : Prop where
  unique : (blocks.map (·.name)).Nodup
  reached : ∀ block ∈ blocks, root.Reaches block
  agree : ∀ stage, root.Reaches stage → ∃ block ∈ blocks, Agrees block stage
  follows : ∀ earlier block later, blocks = earlier ++ block :: later →
    ∀ name ∈ block.dependencyNames, name ∈ earlier.map (·.name)
  last : blocks.getLast? = some root

namespace StageGraph

variable {root : Stage} {graph : StageGraph} {order : List Nat} {blocks : List Stage}

/-- An order of all nodes lists all stages. -/
theorem perm_stages (discovered : Discovered root graph) (orders : Graph.Orders graph.edges order)
    (isAt : order.map (fun position => graph.stages[position]?) = blocks.map some) :
    blocks.Perm graph.stages := by
  have positions : order.Perm (List.range graph.stages.length) := by
    refine (List.perm_ext_iff_of_nodup orders.nodup List.nodup_range).mpr fun position => ?_
    rw [orders.mem_iff, List.mem_range, discovered.length_edges]
  have all : (List.range graph.stages.length).map (fun position => graph.stages[position]?) =
      graph.stages.map some := by
    refine List.ext_getElem (by simp) fun position _ inside => ?_
    simp only [List.length_map] at inside
    simp [inside]
  have mapped := positions.map fun position => graph.stages[position]?
  rw [isAt, all] at mapped
  exact (List.map_perm_map_iff fun _ _ => Option.some.inj).mp mapped

/-- A block comes after the blocks of the names it lists. -/
theorem names_mem_earlier (discovered : Discovered root graph)
    (orders : Graph.Orders graph.edges order)
    (isAt : order.map (fun position => graph.stages[position]?) = blocks.map some)
    {earlier later : List Stage} {block : Stage} (split : blocks = earlier ++ block :: later)
    {name : String} (listed : name ∈ block.dependencyNames) :
    name ∈ earlier.map (·.name) := by
  rw [split, List.map_append, List.map_cons, List.map_eq_append_iff] at isAt
  obtain ⟨before, tail, rfl, atEarlier, atTail⟩ := isAt
  obtain ⟨position, after, rfl, atBlock, _⟩ := List.map_eq_cons_iff.mp atTail
  have isBlock : block ∈ graph.stages := List.mem_of_getElem? atBlock
  obtain ⟨dependency, depends, rfl⟩ := Stage.exists_dependsOn_of_name_mem listed
  have reaches : root.Reaches dependency := (discovered.reached block isBlock).tail depends
  obtain ⟨kept, isKept, agrees⟩ := discovered.agree dependency reaches
  obtain ⟨needed, atKept⟩ := List.mem_iff_getElem?.mp isKept
  have needs : Graph.Needs graph.edges position needed :=
    discovered.mem_edgesOf.mpr ⟨block, kept, atBlock, atKept, agrees.name ▸ listed⟩
  have isBefore : needed ∈ before := orders.follows before position after rfl needed needs
  have found : some kept ∈ earlier.map some := by
    rw [← atEarlier, ← atKept]
    exact List.mem_map_of_mem isBefore
  obtain ⟨same, isEarlier, equal⟩ := List.mem_map.mp found
  rw [Option.some.inj equal] at isEarlier
  exact List.mem_map.mpr ⟨kept, isEarlier, agrees.name⟩

/-- The first node needs every other node in turn. -/
theorem needs_of_reaches (discovered : Discovered root graph) {stage : Stage}
    (reaches : root.Reaches stage) {position : Nat} {kept : Stage}
    (atKept : graph.stages[position]? = some kept) (name : kept.name = stage.name) :
    Relation.ReflTransGen (Graph.Needs graph.edges) 0 position := by
  have isKept := List.mem_of_getElem? atKept
  induction reaches generalizing position kept with
  | refl =>
      have same : kept = root :=
        discovered.eq_of_name isKept (List.mem_of_getElem? discovered.first) name
      rw [same] at atKept
      rw [discovered.position_eq atKept discovered.first]
  | tail reaches depends ih =>
      obtain ⟨user, isUser, agrees⟩ := discovered.agree _ reaches
      obtain ⟨node, atUser⟩ := List.mem_iff_getElem?.mp isUser
      have listed : kept.name ∈ user.dependencyNames := by
        rw [agrees.dependencyNames, name]
        exact depends.name_mem
      exact (ih atUser agrees.name isUser).tail
        (discovered.mem_edgesOf.mpr ⟨user, kept, atUser, atKept, listed⟩)

/-- **The order of a discovered graph arranges the blocks of the root.** -/
theorem arranged_of_ordered (discovered : Discovered root graph)
    (ordered : graph.ordered = .ok blocks) : Arranged root blocks := by
  obtain ⟨order, found, stagesFound⟩ := ordered_eq_ok_iff.mp ordered
  have orders := Graph.orders_of_topologicalOrder found
  have isAt := map_getElem?_of_stagesAt stagesFound
  have perm := perm_stages discovered orders isAt
  constructor
  · exact (perm.map (·.name)).nodup_iff.mpr discovered.unique
  · intro block member
    exact discovered.reached block (perm.mem_iff.mp member)
  · intro stage reaches
    obtain ⟨kept, isKept, agrees⟩ := discovered.agree stage reaches
    exact ⟨kept, perm.mem_iff.mpr isKept, agrees⟩
  · intro earlier block later split name listed
    exact names_mem_earlier discovered orders isAt split listed
  · have nonempty : 0 < graph.edges.length := by
      rw [discovered.length_edges]
      exact (List.getElem?_eq_some_iff.mp discovered.first).1
    have needs : ∀ node, node < graph.edges.length →
        Relation.ReflTransGen (Graph.Needs graph.edges) 0 node := by
      intro node inside
      rw [discovered.length_edges] at inside
      have atNode := List.getElem?_eq_getElem inside
      have isNode := List.mem_of_getElem? atNode
      exact needs_of_reaches discovered (discovered.reached _ isNode) atNode rfl
    have zeroLast := Graph.getLast?_of_topologicalOrder nonempty needs found
    have lastAt := congrArg List.getLast? isAt
    rw [List.getLast?_map, List.getLast?_map, zeroLast, Option.map_some, discovered.first] at lastAt
    cases isLast : blocks.getLast? with
    | none => simp [isLast] at lastAt
    | some block => simpa [isLast, eq_comm] using lastAt

end StageGraph

namespace Arranged

variable {root : Stage} {blocks : List Stage}

/-- The names of the blocks are those below the root. -/
theorem mem_names_iff (arranged : Arranged root blocks) (name : String) :
    name ∈ blocks.map (·.name) ↔ ∃ stage, root.Reaches stage ∧ stage.name = name := by
  constructor
  · intro member
    obtain ⟨block, isBlock, same⟩ := List.mem_map.mp member
    exact ⟨block, arranged.reached block isBlock, same⟩
  · rintro ⟨stage, reaches, rfl⟩
    obtain ⟨block, isBlock, agrees⟩ := arranged.agree stage reaches
    exact List.mem_map.mpr ⟨block, isBlock, agrees.name⟩

/-- A block agrees with every stage below the root that has its name. -/
theorem agrees_of_name (arranged : Arranged root blocks) {block stage : Stage}
    (isBlock : block ∈ blocks) (reaches : root.Reaches stage) (name : stage.name = block.name) :
    Agrees block stage := by
  obtain ⟨other, isOther, agrees⟩ := arranged.agree stage reaches
  have same : other = block :=
    List.inj_on_of_nodup_map arranged.unique isOther isBlock (agrees.name.trans name)
  exact same ▸ agrees

/-- The block of a dependency comes before the blocks of all stages that are linked to it. -/
theorem dependency_before (arranged : Arranged root blocks) {stage dependency : Stage}
    (reaches : root.Reaches stage) (depends : stage.DependsOn dependency) :
    ∃ earlier block later, blocks = earlier ++ block :: later ∧ block.name = stage.name ∧
      dependency.name ∈ earlier.map (·.name) := by
  obtain ⟨block, isBlock, agrees⟩ := arranged.agree stage reaches
  obtain ⟨earlier, later, split⟩ := List.append_of_mem isBlock
  have listed : dependency.name ∈ block.dependencyNames :=
    agrees.dependencyNames ▸ depends.name_mem
  exact ⟨earlier, block, later, split, agrees.name,
    arranged.follows earlier block later split _ listed⟩

end Arranged

namespace Manifest

/-- A manifest is its header followed by its blocks, each behind an empty line. -/
theorem ofStages_eq (frontend : String) (blocks : List Stage) :
    ofStages frontend blocks =
      "#syntax=" ++ frontend ++ String.join (blocks.map fun block => "\n\n" ++ block.text) := by
  have pieces : ∀ (first : String) (blocks : List Stage),
      "\n\n".intercalate (first :: blocks.map Stage.text) =
        first ++ String.join (blocks.map fun block => "\n\n" ++ block.text) := by
    intro first blocks
    induction blocks generalizing first with
    | nil => simp
    | cons block rest ih =>
        rw [List.map_cons, String.intercalate_cons_cons, ih, List.map_cons, String.join_cons]
        simp only [String.append_assoc]
  exact pieces _ blocks

/-- The blocks of a manifest are arranged. -/
theorem exists_arranged_of_solve {frontend manifest : String} {root : Stage}
    (coherent : root.Coherent) (solved : solve frontend root = .ok manifest) :
    ∃ graph blocks, StageGraph.discover root = .ok graph ∧ graph.ordered = .ok blocks ∧
      manifest = ofStages frontend blocks ∧ Arranged root blocks := by
  obtain ⟨graph, blocks, found, ordered, same⟩ := solve_eq_ok_iff.mp solved
  have discovered := StageGraph.discovered_of_discover coherent found
  exact ⟨graph, blocks, found, ordered, same, StageGraph.arranged_of_ordered discovered ordered⟩

/-- **A manifest declares every stage once, after what it depends on, and the root last.** -/
theorem solve_arranges_blocks {frontend manifest : String} {root : Stage}
    (assembled : root.Assembled) (solved : solve frontend root = .ok manifest) :
    ∃ blocks : List Stage,
      manifest =
        "#syntax=" ++ frontend ++ String.join (blocks.map fun block => "\n\n" ++ block.text) ∧
      (blocks.map (·.name)).Nodup ∧
      (∀ name, name ∈ blocks.map (·.name) ↔ ∃ stage, root.Reaches stage ∧ stage.name = name) ∧
      (∀ block ∈ blocks, ∀ stage, root.Reaches stage → stage.name = block.name →
        block.text = stage.text) ∧
      (∀ stage dependency, root.Reaches stage → stage.DependsOn dependency →
        ∃ earlier block later, blocks = earlier ++ block :: later ∧ block.name = stage.name ∧
          dependency.name ∈ earlier.map (·.name)) ∧
      blocks.getLast? = some root := by
  obtain ⟨_, blocks, _, _, rfl, arranged⟩ := exists_arranged_of_solve assembled.coherent solved
  refine ⟨blocks, ofStages_eq frontend blocks, arranged.unique, arranged.mem_names_iff, ?_, ?_,
    arranged.last⟩
  · intro block isBlock stage reaches name
    exact (arranged.agrees_of_name isBlock reaches name).text_eq
  · intro stage dependency reaches depends
    exact arranged.dependency_before reaches depends

end Manifest

/-! ## A diamond

The left stage is built on a shared one, the right stage copies an artifact of
it, and the topmost stage joins the two.  The topmost stage also copies an
artifact of its own base, which is linked already.
-/

namespace Diamond

def shared : Stage := ⟨"shared", .image "rust", .empty, .empty, none⟩

def left : Stage := ⟨"left", .stage "shared", .empty, Chain.empty.push 0 shared, none⟩

def rightBase : Stage := ⟨"right", .image "debian", .empty, .empty, none⟩

def right : Stage :=
  { rightBase with
    layers := Chain.empty.push 2 (.copy "/lib" "/" none (some "shared"))
    dependencies := Chain.empty.push 1 shared }

def topBase : Stage := ⟨"top", .stage "left", .empty, Chain.empty.push 3 left, none⟩

def topJoined : Stage :=
  { topBase with
    layers := topBase.layers.push 5 (.copy "/bin" "/" none (some "right"))
    dependencies := topBase.dependencies.push 4 right }

def top : Stage :=
  { topJoined with layers := topJoined.layers.push 6 (.copy "/etc" "/" none (some "left")) }

theorem session :
    Session ⟨.listed [] "", 7⟩ [top, topJoined, topBase, right, rightBase, left, shared] := by
  have begun : Session ⟨.listed ["shared", "left", "right", "top"] "", 0⟩ [] := .start _
  have one : Session ⟨.listed ["left", "right", "top"] "", 0⟩ [shared] :=
    begun.perform (.onImage "rust") (by simp [StageJob.inputs])
  have two : Session ⟨.listed ["right", "top"] "", 1⟩ [left, shared] :=
    one.perform (.onStage shared) (by simp [StageJob.inputs])
  have three : Session ⟨.listed ["top"] "", 1⟩ [rightBase, left, shared] :=
    two.perform (.onImage "debian") (by simp [StageJob.inputs])
  have four : Session ⟨.listed ["top"] "", 3⟩ [right, rightBase, left, shared] :=
    three.perform (.grow rightBase (.copyArtifact (shared.saveArtifact "/lib") "/" none))
      (by simp [StageJob.inputs, Growth.inputs, Stage.saveArtifact])
  have five : Session ⟨.listed [] "", 4⟩ [topBase, right, rightBase, left, shared] :=
    four.perform (.onStage left) (by simp [StageJob.inputs])
  have six : Session ⟨.listed [] "", 6⟩ [topJoined, topBase, right, rightBase, left, shared] :=
    five.perform (.grow topBase (.copyArtifact (right.saveArtifact "/bin") "/" none))
      (by simp [StageJob.inputs, Growth.inputs, Stage.saveArtifact])
  exact six.perform (.grow topJoined (.copyArtifact (left.saveArtifact "/etc") "/" none))
    (by simp [StageJob.inputs, Growth.inputs, Stage.saveArtifact])

theorem assembled : top.Assembled := ⟨_, _, session, List.mem_cons_self⟩

/-- The graph of the diamond. -/
def graph : StageGraph := ⟨[top, left, shared, right], [[1, 3], [2], [], [2]]⟩

theorem discovered : StageGraph.discover top = .ok graph := by
  with_unfolding_all rfl

theorem ordered : graph.ordered = .ok [shared, left, right, top] := by
  have order : Graph.topologicalOrder graph.edges = .ok [2, 1, 3, 0] := by cbv
  exact StageGraph.ordered_eq_ok_iff.mpr ⟨_, order, rfl⟩

theorem solved :
    Manifest.solve "frontend" top =
      .ok (Manifest.ofStages "frontend" [shared, left, right, top]) :=
  Manifest.solve_eq_ok_iff.mpr ⟨graph, _, discovered, ordered, rfl⟩

end Diamond

/-- The blocks of the diamond. -/
theorem Manifest.solve_arranges_diamond :
    Diamond.top.Assembled ∧
      solve "frontend" Diamond.top =
        .ok (ofStages "frontend" [Diamond.shared, Diamond.left, Diamond.right, Diamond.top]) ∧
      ∃ blocks : List Stage,
        ofStages "frontend" [Diamond.shared, Diamond.left, Diamond.right, Diamond.top] =
          "#syntax=" ++ "frontend" ++ String.join (blocks.map fun block => "\n\n" ++ block.text) ∧
        (blocks.map (·.name)).Nodup ∧
        (∀ name, name ∈ blocks.map (·.name) ↔
          ∃ stage, Diamond.top.Reaches stage ∧ stage.name = name) ∧
        blocks.getLast? = some Diamond.top := by
  obtain ⟨blocks, written, unique, names, _, _, last⟩ :=
    solve_arranges_blocks Diamond.assembled Diamond.solved
  exact ⟨Diamond.assembled, Diamond.solved, blocks, written, unique, names, last⟩

end StageManifest
