import StageManifest.Graph.Order
import StageManifest.Stage.Basic

/-!
# The graph of stages below a root

Discovery walks the dependencies of a root in the order in which they were
linked and keeps one node for each stage name.  When a name is met again, the
stage must have the same definition as the one kept; if its chain of
dependencies is another one, its dependencies are walked as well, because a
different stage may hide among them.  The walk ends because every stage it puts
aside is part of a stage it has taken up.
-/

set_option autoImplicit false

namespace StageManifest

/-- Why a root has no manifest. -/
inductive GraphError where
  | cycle (stage : String)
  | nameCollision (name : String)
  | missingNode (node : Nat)
deriving DecidableEq, Repr

/-- The stages found below a root and what each of them needs. -/
structure StageGraph where
  /-- The stages in the order of their discovery; the root is the first. -/
  stages : List Stage
  /-- For each stage the positions of the stages it depends on. -/
  edges : List (List Nat)

namespace StageGraph

/-! ## Why the walk ends -/

/-- How much is left of a walk. -/
noncomputable def walkWeight : (pending : List Stage) → Nat
  | [] => 0
  | stage :: rest => sizeOf stage + walkWeight rest

theorem walkWeight_append (first second : List Stage) :
    walkWeight (first ++ second) = walkWeight first + walkWeight second := by
  induction first with
  | nil => simp [walkWeight]
  | cons stage rest ih =>
      simp only [List.cons_append, walkWeight, ih]
      omega

theorem walkWeight_reverse (pending : List Stage) :
    walkWeight pending.reverse = walkWeight pending := by
  induction pending with
  | nil => rfl
  | cons stage rest ih =>
      simp only [List.reverse_cons, walkWeight_append, walkWeight, ih]
      omega

/-- The values of links weigh less than the links. -/
theorem walkWeight_values_lt (links : List (Link Stage)) :
    walkWeight (links.map (·.value)) < sizeOf links := by
  induction links with
  | nil => simp [walkWeight]
  | cons link rest ih =>
      obtain ⟨mark, value⟩ := link
      simp only [List.map_cons, walkWeight, List.cons.sizeOf_spec, Link.mk.sizeOf_spec]
      omega

/-- The dependencies of a stage weigh less than the stage. -/
theorem walkWeight_dependencies_lt (stage : Stage) :
    walkWeight stage.dependencies.toList < sizeOf stage := by
  obtain ⟨name, base, layers, ⟨links⟩, tag⟩ := stage
  have h := walkWeight_values_lt links
  simp only [Chain.toList, walkWeight_reverse, Stage.mk.sizeOf_spec, Chain.mk.sizeOf_spec]
  omega

/-! ## The walk -/

/-- The stage kept under a name. -/
def kept? (found : List Stage) (name : String) : Option Stage :=
  found.find? fun stage => stage.name == name

/-- Walks the pending stages and what they depend on, adding to the stages found. -/
def collect : (pending found : List Stage) → Except GraphError (List Stage)
  | [], found => .ok found
  | stage :: rest, found =>
      match kept? found stage.name with
      | none => collect (stage.dependencies.toList ++ rest) (found ++ [stage])
      | some seen =>
          if seen.sameDefinition stage then
            if seen.sharesDependencies stage then collect rest found
            else collect (stage.dependencies.toList ++ rest) found
          else .error (.nameCollision stage.name)
termination_by pending => walkWeight pending
decreasing_by
  · have h := walkWeight_dependencies_lt stage
    simp only [walkWeight_append, walkWeight]
    omega
  · have h : 0 < sizeOf stage := by
      obtain ⟨name, base, layers, dependencies, tag⟩ := stage
      simp only [Stage.mk.sizeOf_spec]
      omega
    simp only [walkWeight]
    omega
  · have h := walkWeight_dependencies_lt stage
    simp only [walkWeight_append, walkWeight]
    omega

/-- The targets with the position of a name behind them, if a stage has the name and its position
is not a target already. -/
def addPosition (found : List Stage) (targets : List Nat) (name : String) : List Nat :=
  match found.findIdx? fun stage => stage.name == name with
  | some position => if targets.contains position then targets else targets ++ [position]
  | none => targets

/-- The positions of the stages with the given names, each position once. -/
def positions (found : List Stage) (names : List String) : List Nat :=
  names.foldl (addPosition found) []

/-- The graph of everything a root depends on. -/
def discover (root : Stage) : Except GraphError StageGraph :=
  match collect [root] [] with
  | .error failure => .error failure
  | .ok found => .ok ⟨found, found.map fun stage => positions found stage.dependencyNames⟩

/-- The name of the stage at a position. -/
def nameAt (graph : StageGraph) (position : Nat) : Option String :=
  (graph.stages[position]?).map (·.name)

/-- The stages at the given positions. -/
def stagesAt (graph : StageGraph) : List Nat → Except GraphError (List Stage)
  | [] => .ok []
  | position :: rest =>
      match graph.stages[position]? with
      | none => .error (.missingNode position)
      | some stage =>
          match graph.stagesAt rest with
          | .error failure => .error failure
          | .ok stages => .ok (stage :: stages)

/-- The stages of a graph, each after the stages it depends on. -/
def ordered (graph : StageGraph) : Except GraphError (List Stage) :=
  match Graph.topologicalOrder graph.edges with
  | .ok order => graph.stagesAt order
  | .error (.outOfRange node) => .error (.missingNode node)
  | .error (.cycle node) =>
      match graph.nameAt node with
      | some name => .error (.cycle name)
      | none => .error (.missingNode node)

end StageGraph

end StageManifest
