import StageManifest.Proofs.Graph.Acyclicity
import StageManifest.Proofs.Stage.Value

/-!
# Roots that are discovered alike

Discovery compares definitions and follows dependencies.  A relation between stages
that respects both, up to a change of names, is a simulation (`StageGraph.Simulation`).
Roots that are related by a simulation have graphs with the same edges whose stages
are related one by one, and these are put in the same order; or they fail alike
(`Simulation.discoverByContents`, `SameGraph.ordered`).

The walk that is followed here compares definitions in full and walks dependencies
whenever it meets them, so a simulation need not know of links.
-/

set_option autoImplicit false

namespace StageManifest

/-- The failure of a graph with other names of stages. -/
def GraphError.renamed (rename : String → String) : GraphError → GraphError
  | .cycle stage => .cycle (rename stage)
  | .nameCollision name => .nameCollision (rename name)
  | .missingNode node => .missingNode node

theorem GraphError.renamed_id (failure : GraphError) : failure.renamed id = failure := by
  cases failure <;> rfl

namespace StageGraph

/-! ## A walk that does not look at links -/

/-- Walks the pending stages and what they depend on; definitions are compared in full, and the
dependencies of a stage are walked whenever it is met. -/
def collectByContents : (pending found : List Stage) → Except GraphError (List Stage)
  | [], found => .ok found
  | stage :: rest, found =>
      match kept? found stage.name with
      | none => collectByContents (stage.dependencies.toList ++ rest) (found ++ [stage])
      | some seen =>
          if seen.equalContents stage then
            collectByContents (stage.dependencies.toList ++ rest) found
          else .error (.nameCollision stage.name)
termination_by pending => walkWeight pending
decreasing_by
  all_goals
    have lighter := walkWeight_dependencies_lt stage
    simp only [walkWeight_append, walkWeight]
    omega

/-- The graph of everything a root depends on, found without looking at links. -/
def discoverByContents (root : Stage) : Except GraphError StageGraph :=
  match collectByContents [root] [] with
  | .error failure => .error failure
  | .ok found => .ok ⟨found, found.map fun stage => positions found stage.dependencyNames⟩

/-! ## Simulations -/

/-- A relation between stages that is kept when dependencies are followed, and under which names
and definitions are equal on the one side exactly if they are on the other. -/
structure Simulation (rename : String → String) (related : Stage → Stage → Prop) : Prop where
  name : ∀ {first second}, related first second → second.name = rename first.name
  name_beq : ∀ {first second other another}, related first second → related other another →
    (second.name == another.name) = (first.name == other.name)
  equalContents : ∀ {first second other another}, related first second → related other another →
    second.equalContents another = first.equalContents other
  dependencies : ∀ {first second}, related first second →
    List.Forall₂ related first.dependencies.toList second.dependencies.toList

/-- Two results are related lists of stages or the same failure, up to names. -/
inductive Follows (rename : String → String) (related : Stage → Stage → Prop) :
    Except GraphError (List Stage) → Except GraphError (List Stage) → Prop where
  | ok {stages others : List Stage} (same : List.Forall₂ related stages others) :
      Follows rename related (.ok stages) (.ok others)
  | error (failure : GraphError) :
      Follows rename related (.error failure) (.error (failure.renamed rename))

/-- Two graphs have the same edges, and their stages are related one by one. -/
structure SameGraph (related : Stage → Stage → Prop) (first second : StageGraph) : Prop where
  stages : List.Forall₂ related first.stages second.stages
  edges : first.edges = second.edges

variable {rename : String → String} {related : Stage → Stage → Prop}

theorem exists_related_of_mem {stages others : List Stage}
    (same : List.Forall₂ related stages others) {stage : Stage} (member : stage ∈ stages) :
    ∃ other ∈ others, related stage other := by
  induction same with
  | nil => cases member
  | cons head _ ih =>
      rcases List.mem_cons.mp member with rfl | member
      · exact ⟨_, List.mem_cons_self, head⟩
      · obtain ⟨other, isOther, same⟩ := ih member
        exact ⟨other, List.mem_cons_of_mem _ isOther, same⟩

namespace Simulation

/-- What is below a stage is related to something below each related stage. -/
theorem exists_reaches (simulation : Simulation rename related) {first second below : Stage}
    (roots : related first second) (reaches : first.Reaches below) :
    ∃ other, second.Reaches other ∧ related below other := by
  induction reaches with
  | refl => exact ⟨second, .refl, roots⟩
  | tail _ depends ih =>
      obtain ⟨middle, reachesMiddle, same⟩ := ih
      obtain ⟨other, isOther, alike⟩ :=
        exists_related_of_mem (simulation.dependencies same) depends
      exact ⟨other, reachesMiddle.tail isOther, alike⟩

/-- Related stages are kept under related names. -/
theorem kept? (simulation : Simulation rename related) {found others : List Stage}
    (same : List.Forall₂ related found others) {first second : Stage}
    (asked : related first second) :
    Option.Rel related (kept? found first.name) (StageGraph.kept? others second.name) := by
  induction same with
  | nil => exact .none
  | @cons stage other _ _ head _ ih =>
      rw [StageGraph.kept?, StageGraph.kept?, List.find?_cons, List.find?_cons,
        simulation.name_beq head asked]
      cases stage.name == first.name with
      | true => exact .some head
      | false => exact ih

/-- **The walk treats related stages alike.** -/
theorem collectByContents (simulation : Simulation rename related)
    {pending found pending' found' : List Stage}
    (samePending : List.Forall₂ related pending pending')
    (sameFound : List.Forall₂ related found found') :
    Follows rename related (collectByContents pending found)
      (StageGraph.collectByContents pending' found') := by
  fun_induction StageGraph.collectByContents pending found generalizing pending' found' with
  | case1 found =>
      cases samePending
      rw [StageGraph.collectByContents]
      exact .ok sameFound
  | case2 stage rest found notKept ih =>
      obtain _ | ⟨head, tail⟩ := samePending
      have kept := simulation.kept? sameFound head
      rw [notKept] at kept
      rw [StageGraph.collectByContents]
      generalize StageGraph.kept? found' _ = kept' at kept ⊢
      cases kept
      exact ih (List.rel_append (simulation.dependencies head) tail)
        (List.rel_append sameFound (.cons head .nil))
  | case3 stage rest found seen isKept equal ih =>
      obtain _ | ⟨head, tail⟩ := samePending
      have kept := simulation.kept? sameFound head
      rw [isKept] at kept
      rw [StageGraph.collectByContents]
      generalize StageGraph.kept? found' _ = kept' at kept ⊢
      cases kept with
      | some sameSeen =>
          rw [← simulation.equalContents sameSeen head] at equal
          simp only [equal, if_true]
          exact ih (List.rel_append (simulation.dependencies head) tail) sameFound
  | case4 stage rest found seen isKept differs =>
      obtain _ | ⟨head, tail⟩ := samePending
      have kept := simulation.kept? sameFound head
      rw [isKept] at kept
      rw [StageGraph.collectByContents]
      generalize StageGraph.kept? found' _ = kept' at kept ⊢
      cases kept with
      | some sameSeen =>
          rw [← simulation.equalContents sameSeen head] at differs
          simp only [differs, simulation.name head]
          exact .error (.nameCollision stage.name)

/-- Related names have the same positions. -/
theorem addPosition (simulation : Simulation rename related) {found others : List Stage}
    (same : List.Forall₂ related found others) {first second : Stage}
    (asked : related first second) (targets : List Nat) :
    addPosition others targets second.name = StageGraph.addPosition found targets first.name := by
  have index : (others.findIdx? fun stage => stage.name == second.name) =
      found.findIdx? fun stage => stage.name == first.name := by
    induction same with
    | nil => rfl
    | cons head _ ih =>
        rw [List.findIdx?_cons, List.findIdx?_cons, simulation.name_beq head asked, ih]
  rw [StageGraph.addPosition, StageGraph.addPosition, index]

theorem positions (simulation : Simulation rename related) {found others : List Stage}
    (same : List.Forall₂ related found others) {asked askedOthers : List Stage}
    (sameAsked : List.Forall₂ related asked askedOthers) :
    positions others (askedOthers.map (·.name)) =
      StageGraph.positions found (asked.map (·.name)) := by
  unfold StageGraph.positions
  generalize ([] : List Nat) = targets
  induction sameAsked generalizing targets with
  | nil => rfl
  | cons head _ ih =>
      rw [List.map_cons, List.map_cons, List.foldl_cons, List.foldl_cons,
        simulation.addPosition same head, ih]

/-- **Related roots have graphs that are the same up to names, or fail alike.** -/
theorem discoverByContents (simulation : Simulation rename related) {first second : Stage}
    (roots : related first second) :
    (∃ graph other, discoverByContents first = .ok graph ∧
      StageGraph.discoverByContents second = .ok other ∧ SameGraph related graph other) ∨
    ∃ failure, StageGraph.discoverByContents first = .error failure ∧
      StageGraph.discoverByContents second = .error (failure.renamed rename) := by
  have follows := simulation.collectByContents (.cons roots .nil) (.nil : List.Forall₂ _ [] [])
  unfold StageGraph.discoverByContents
  generalize StageGraph.collectByContents [first] [] = result at follows ⊢
  generalize StageGraph.collectByContents [second] [] = other at follows ⊢
  cases follows with
  | error failure => exact .inr ⟨failure, rfl, rfl⟩
  | @ok stages others same =>
      refine .inl ⟨_, _, rfl, rfl, same, ?_⟩
      have edges : ∀ {some more : List Stage}, List.Forall₂ related some more →
          some.map (fun stage => StageGraph.positions stages stage.dependencyNames) =
            more.map fun stage => StageGraph.positions others stage.dependencyNames := by
        intro some more each
        induction each with
        | nil => rfl
        | cons head _ ih =>
            have positions := simulation.positions same (simulation.dependencies head)
            rw [List.map_cons, List.map_cons, ih]
            exact congrArg (· :: _) positions.symm
      exact edges same

end Simulation

namespace SameGraph

variable {first second : StageGraph}

/-- The stages at a position are related. -/
theorem getElem? (same : SameGraph related first second) (position : Nat) :
    Option.Rel related first.stages[position]? second.stages[position]? := by
  have stages := same.stages
  generalize first.stages = ours at stages ⊢
  generalize second.stages = theirs at stages ⊢
  induction stages generalizing position with
  | nil => exact .none
  | cons head _ ih =>
      cases position with
      | zero => exact .some head
      | succ position => exact ih position

theorem stagesAt (same : SameGraph related first second) (rename : String → String)
    (order : List Nat) : Follows rename related (first.stagesAt order) (second.stagesAt order) := by
  induction order with
  | nil => exact .ok .nil
  | cons position rest ih =>
      have stages := same.getElem? position
      rw [StageGraph.stagesAt, StageGraph.stagesAt]
      generalize first.stages[position]? = stage at stages ⊢
      generalize second.stages[position]? = other at stages ⊢
      cases stages with
      | none => exact .error (.missingNode position)
      | some head =>
          generalize first.stagesAt rest = stages at ih ⊢
          generalize second.stagesAt rest = others at ih ⊢
          cases ih with
          | error failure => exact .error failure
          | ok tail => exact .ok (.cons head tail)

theorem nameAt (simulation : Simulation rename related) (same : SameGraph related first second)
    (position : Nat) : second.nameAt position = (first.nameAt position).map rename := by
  have stages := same.getElem? position
  rw [StageGraph.nameAt, StageGraph.nameAt]
  generalize first.stages[position]? = stage at stages ⊢
  generalize second.stages[position]? = other at stages ⊢
  cases stages with
  | none => rfl
  | some head => exact congrArg some (simulation.name head)

/-- **Graphs that are the same up to names are put in the same order.** -/
theorem ordered (simulation : Simulation rename related) (same : SameGraph related first second) :
    Follows rename related first.ordered second.ordered := by
  rw [StageGraph.ordered, StageGraph.ordered, same.edges]
  cases Graph.topologicalOrder second.edges with
  | ok order => exact same.stagesAt rename order
  | error failure =>
      cases failure with
      | outOfRange node => exact .error (.missingNode node)
      | cycle node =>
          simp only [same.nameAt simulation node]
          cases first.nameAt node with
          | none => exact .error (.missingNode node)
          | some name => exact .error (.cycle name)

end SameGraph

end StageGraph

end StageManifest
