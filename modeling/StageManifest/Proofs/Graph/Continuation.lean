import StageManifest.Proofs.Graph.Emission

/-!
# Stages that continue another

A stage continues a base if the base is all that it depends on and no stage from
the base down has its name (`Stage.Continues`).  Discovery then keeps the stage
first and walks the base as if it were alone, because the kept stage never answers
to a name that comes up (`StageGraph.collect_cons_of_avoids`), and emission ends
with the stage.  Hence a manifest is that of the base with one more block, and the
stage fails for the same reason as the base (`Manifest.solve_of_continues`).
-/

set_option autoImplicit false

namespace StageManifest

open Stage (Reaches)

namespace Stage

/-- No stage from this one down has the name. -/
def Avoids (stage : Stage) (name : String) : Prop :=
  ∀ below, stage.Reaches below → below.name ≠ name

theorem Avoids.of_dependsOn {stage dependency : Stage} {name : String} (avoids : stage.Avoids name)
    (depends : stage.DependsOn dependency) : dependency.Avoids name :=
  fun below reaches => avoids below (.head depends reaches)

/-- All that the stage depends on is the base, and no stage from there down has its name. -/
structure Continues (stage base : Stage) : Prop where
  dependencies : stage.dependencies.toList = [base]
  avoids : base.Avoids stage.name

namespace Continues

variable {stage base : Stage}

theorem dependsOn (continues : stage.Continues base) : stage.DependsOn base := by
  rw [DependsOn, continues.dependencies]
  exact List.mem_singleton.mpr rfl

theorem coherent (continues : stage.Continues base) (coherent : stage.Coherent) :
    base.Coherent := fun _ _ firstReached secondReached =>
  coherent (.head continues.dependsOn firstReached) (.head continues.dependsOn secondReached)

/-- Emission ends with a stage that continues another. -/
theorem emit_eq (continues : stage.Continues base) : stage.emit [] = base.emit [] ++ [stage] := by
  rw [emit_of_not_mem List.not_mem_nil, continues.dependencies]
  rfl

end Continues

end Stage

namespace StageGraph

variable {kept stage base : Stage} {rest : List Stage}

/-- A kept stage does not answer to the name of a stage that avoids its own. -/
theorem kept?_cons_of_avoids (avoids : stage.Avoids kept.name) (found : List Stage) :
    kept? (kept :: found) stage.name = kept? found stage.name :=
  List.find?_cons_of_neg (beq_iff_eq.not.mpr (avoids stage .refl).symm)

/-- What comes up after a stage avoids the names that the pending stages avoid. -/
theorem forall_avoids_descend {name : String}
    (avoid : ∀ other ∈ stage :: rest, other.Avoids name) :
    ∀ other ∈ stage.dependencies.toList ++ rest, other.Avoids name := by
  intro other member
  rcases List.mem_append.mp member with depends | member
  · exact (avoid stage List.mem_cons_self).of_dependsOn depends
  · exact avoid other (List.mem_cons_of_mem _ member)

/-- **A kept stage whose name never comes up has no part in the walk.** -/
theorem collect_cons_of_avoids (pending found : List Stage)
    (avoid : ∀ stage ∈ pending, stage.Avoids kept.name) :
    collect pending (kept :: found) = (collect pending found).map (kept :: ·) := by
  fun_induction collect pending found with
  | case1 found => rw [collect]; rfl
  | case2 stage rest found notKept ih =>
      rw [collect, kept?_cons_of_avoids (avoid stage List.mem_cons_self), notKept]
      exact ih (forall_avoids_descend avoid)
  | case3 stage rest found seen isKept same shares ih =>
      rw [collect, kept?_cons_of_avoids (avoid stage List.mem_cons_self), isKept]
      simp only [same, shares, if_true]
      exact ih fun other member => avoid other (List.mem_cons_of_mem _ member)
  | case4 stage rest found seen isKept same notShares ih =>
      rw [collect, kept?_cons_of_avoids (avoid stage List.mem_cons_self), isKept]
      simp only [same, if_true, if_neg notShares]
      exact ih (forall_avoids_descend avoid)
  | case5 stage rest found seen isKept differs =>
      rw [collect, kept?_cons_of_avoids (avoid stage List.mem_cons_self), isKept]
      simp only [if_neg differs]
      rfl

/-- A stage that continues another is kept first, and then the other is walked. -/
theorem collect_of_continues (continues : stage.Continues base) :
    collect [stage] [] = (collect [base] []).map (stage :: ·) := by
  have walked := collect_cons_of_avoids [base] [] fun other member =>
    List.mem_singleton.mp member ▸ continues.avoids
  rw [← walked, collect, continues.dependencies]
  rfl

/-- A stage that continues another is discovered if the other is. -/
theorem exists_discover_of_continues {graph : StageGraph} (continues : stage.Continues base)
    (found : discover base = .ok graph) :
    ∃ above, discover stage = .ok above ∧ above.stages = stage :: graph.stages := by
  unfold discover at found ⊢
  rw [collect_of_continues continues]
  cases walked : collect [base] [] with
  | error failure =>
      rw [walked] at found
      cases found
  | ok stages =>
      rw [walked] at found
      cases found
      exact ⟨_, rfl, rfl⟩

/-- A stage that continues another fails to be discovered for the same reason. -/
theorem discover_error_of_continues {failure : GraphError} (continues : stage.Continues base)
    (failed : discover base = .error failure) : discover stage = .error failure := by
  unfold discover at failed ⊢
  rw [collect_of_continues continues]
  cases walked : collect [base] [] with
  | error other =>
      rw [walked] at failed
      exact failed
  | ok stages =>
      rw [walked] at failed
      cases failed

end StageGraph

namespace Manifest

/-- A manifest of more stages has their blocks at its end. -/
theorem ofStages_concat (frontend : String) (stages : List Stage) (last : Stage) :
    ofStages frontend (stages ++ [last]) =
      ofStages frontend stages ++ "\n\n" ++ last.text := by
  rw [ofStages_eq, ofStages_eq, List.map_append, List.map_singleton, String.join_append]
  simp [String.append_assoc]

/-- **A stage that continues another has the same manifest with its own block at the end**, and it
fails for the same reason. -/
theorem solve_of_continues {stage base : Stage} (coherent : stage.Coherent)
    (continues : stage.Continues base) (frontend : String) :
    solve frontend stage =
      (solve frontend base).map fun manifest => manifest ++ "\n\n" ++ stage.text := by
  cases found : StageGraph.discover base with
  | error failure =>
      have failed := StageGraph.discover_error_of_continues continues found
      rw [solve_of_discover_error found, solve_of_discover_error failed]
      rfl
  | ok graph =>
      obtain ⟨above, isAbove, _⟩ := StageGraph.exists_discover_of_continues continues found
      rw [solve_of_discover_ok (continues.coherent coherent) found,
        solve_of_discover_ok coherent isAbove, continues.emit_eq, ofStages_concat]
      rfl

end Manifest

end StageManifest
