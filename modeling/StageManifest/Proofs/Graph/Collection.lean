import Mathlib.Data.List.Basic
import Mathlib.Data.List.Nodup
import StageManifest.Proofs.Stage.Reachability

/-!
# What discovery collects

The walk keeps one stage for each name and compares every stage it meets with
the one that is kept.  Where it leaves the dependencies of a stage out, the kept
stage holds the very same links, and those were put aside when it was kept.  So
the stages met by a walk that ends well are closed under dependencies, apart
from what was put aside before (`Collected`).

A walk from a root therefore meets everything below the root
(`collected_of_collect`), and it fails only at a stage that collides with a kept
one (`exists_collides_of_collect`).
-/

set_option autoImplicit false

namespace StageManifest.StageGraph

open Stage (Reaches Agrees Collides Coherent)

/-! ## The stage kept under a name -/

theorem mem_of_kept? {found : List Stage} {name : String} {seen : Stage}
    (kept : kept? found name = some seen) : seen ∈ found :=
  List.mem_of_find?_eq_some kept

theorem name_of_kept? {found : List Stage} {name : String} {seen : Stage}
    (kept : kept? found name = some seen) : seen.name = name := by
  simpa using List.find?_some kept

theorem not_mem_names_of_kept? {found : List Stage} {name : String}
    (notKept : kept? found name = none) : name ∉ found.map (·.name) := by
  intro member
  obtain ⟨stage, isFound, same⟩ := List.mem_map.mp member
  have differs := List.find?_eq_none.mp notKept stage isFound
  exact differs (by simp [same])

/-! ## States of a walk -/

/-- A walk has kept stages below a root, each name once, and has put others below it aside. -/
structure Walking (root : Stage) (pending found : List Stage) : Prop where
  unique : (found.map (·.name)).Nodup
  found_reached : ∀ stage ∈ found, root.Reaches stage
  pending_reached : ∀ stage ∈ pending, root.Reaches stage

namespace Walking

variable {root stage : Stage} {rest found : List Stage}

/-- A walk starts with the root put aside. -/
theorem start (root : Stage) : Walking root [root] [] := by
  refine ⟨List.nodup_nil, fun stage member => (List.not_mem_nil member).elim, ?_⟩
  intro stage member
  rw [List.mem_singleton.mp member]

/-- The first stage put aside is left out. -/
theorem skip (walking : Walking root (stage :: rest) found) : Walking root rest found where
  unique := walking.unique
  found_reached := walking.found_reached
  pending_reached other member := walking.pending_reached other (List.mem_cons_of_mem _ member)

/-- The dependencies of the first stage put aside take its place. -/
theorem descend (walking : Walking root (stage :: rest) found) :
    Walking root (stage.dependencies.toList ++ rest) found where
  unique := walking.unique
  found_reached := walking.found_reached
  pending_reached other member := by
    rcases List.mem_append.mp member with depends | member
    · exact (walking.pending_reached stage List.mem_cons_self).tail depends
    · exact walking.skip.pending_reached other member

/-- The first stage put aside is kept if its name is new. -/
theorem keep (walking : Walking root (stage :: rest) found)
    (notKept : kept? found stage.name = none) :
    Walking root (stage.dependencies.toList ++ rest) (found ++ [stage]) where
  unique := by
    rw [List.map_append]
    refine List.nodup_append.mpr ⟨walking.unique, List.nodup_singleton _, ?_⟩
    intro name member other isOther same
    have isName : name = stage.name := same.trans (List.mem_singleton.mp isOther)
    exact not_mem_names_of_kept? notKept (isName ▸ member)
  found_reached other member := by
    rcases List.mem_append.mp member with member | member
    · exact walking.found_reached other member
    · rw [List.mem_singleton.mp member]
      exact walking.pending_reached stage List.mem_cons_self
  pending_reached := walking.descend.pending_reached

end Walking

/-! ## Walks that end well -/

/-- A walk from some pending and kept stages ended with the given result. -/
structure Collected (root : Stage) (pending found result : List Stage) : Prop where
  grows : found <+: result
  unique : (result.map (·.name)).Nodup
  reached : ∀ stage ∈ result, root.Reaches stage
  /-- The stages that were met agree with kept ones, and so do their dependencies in turn, unless
  these had been put aside before. -/
  met : ∃ met : Stage → Prop, (∀ stage ∈ pending, met stage) ∧
    ∀ stage, met stage → (∃ kept ∈ result, Agrees kept stage) ∧
      ∀ dependency, stage.DependsOn dependency →
        met dependency ∨ ∃ kept ∈ found, kept.DependsOn dependency

namespace Collected

variable {root stage seen : Stage} {rest found result : List Stage}

theorem finished (walking : Walking root [] found) : Collected root [] found found where
  grows := List.prefix_refl found
  unique := walking.unique
  reached := walking.found_reached
  met := ⟨fun _ => False, fun _ member => List.not_mem_nil member, fun _ never => never.elim⟩

theorem keep (collected :
      Collected root (stage.dependencies.toList ++ rest) (found ++ [stage]) result) :
    Collected root (stage :: rest) found result where
  grows := (List.prefix_append _ _).trans collected.grows
  unique := collected.unique
  reached := collected.reached
  met := by
    obtain ⟨met, pending, agree⟩ := collected.met
    have isKept : stage ∈ result := collected.grows.subset (List.mem_append_right _ (by simp))
    refine ⟨fun other => other = stage ∨ met other, ?_, ?_⟩
    · intro other member
      exact (List.mem_cons.mp member).imp_right fun member =>
        pending other (List.mem_append_right _ member)
    · rintro other (rfl | isMet)
      · exact ⟨⟨other, isKept, .refl other⟩, fun dependency depends =>
          .inl (.inr (pending dependency (List.mem_append_left _ depends)))⟩
      · refine ⟨(agree other isMet).1, fun dependency depends => ?_⟩
        rcases (agree other isMet).2 dependency depends with isMet | ⟨kept, isFound, depends⟩
        · exact .inl (.inr isMet)
        · rcases List.mem_append.mp isFound with isFound | isStage
          · exact .inr ⟨kept, isFound, depends⟩
          · rw [List.mem_singleton.mp isStage] at depends
            exact .inl (.inr (pending dependency (List.mem_append_left _ depends)))

/-- A stage that agrees with a kept one was met, if its dependencies are walked or are those of the
kept one. -/
theorem repeated {pending : List Stage} (collected : Collected root pending found result)
    (isFound : seen ∈ found) (agrees : Agrees seen stage)
    (later : ∀ other ∈ rest, other ∈ pending)
    (links : stage.dependencies = seen.dependencies ∨
      ∀ dependency, stage.DependsOn dependency → dependency ∈ pending) :
    Collected root (stage :: rest) found result where
  grows := collected.grows
  unique := collected.unique
  reached := collected.reached
  met := by
    obtain ⟨met, isPending, agree⟩ := collected.met
    refine ⟨fun other => other = stage ∨ met other, ?_, ?_⟩
    · intro other member
      exact (List.mem_cons.mp member).imp_right fun member => isPending other (later other member)
    · rintro other (rfl | isMet)
      · refine ⟨⟨seen, collected.grows.subset isFound, agrees⟩, fun dependency depends => ?_⟩
        rcases links with same | walked
        · exact .inr ⟨seen, isFound, by rw [Stage.DependsOn, ← same]; exact depends⟩
        · exact .inl (.inr (isPending dependency (walked dependency depends)))
      · refine ⟨(agree other isMet).1, fun dependency depends => ?_⟩
        exact ((agree other isMet).2 dependency depends).imp_left .inr

end Collected

/-- **What a walk that ends well has collected.** -/
theorem collected_of_collect {root : Stage} (coherent : root.Coherent) {pending found : List Stage}
    {result : List Stage} (walking : Walking root pending found)
    (ok : collect pending found = .ok result) : Collected root pending found result := by
  fun_induction collect pending found with
  | case1 found =>
      cases ok
      exact .finished walking
  | case2 stage rest found notKept ih => exact .keep (ih (walking.keep notKept) ok)
  | case3 stage rest found seen kept same shares ih =>
      have isFound := mem_of_kept? kept
      have ends := coherent (walking.found_reached seen isFound)
        (walking.pending_reached stage List.mem_cons_self)
      exact (ih walking.skip ok).repeated isFound ((Stage.sameDefinition_iff_agrees ends).mp same)
        (fun _ member => member) (.inl (ends.dependencies shares).symm)
  | case4 stage rest found seen kept same _ ih =>
      have isFound := mem_of_kept? kept
      have ends := coherent (walking.found_reached seen isFound)
        (walking.pending_reached stage List.mem_cons_self)
      exact (ih walking.descend ok).repeated isFound ((Stage.sameDefinition_iff_agrees ends).mp same)
        (fun _ member => List.mem_append_right _ member)
        (.inr fun _ depends => List.mem_append_left _ depends)
  | case5 stage rest found seen kept differs => cases ok

/-- **A walk fails only at a stage that collides with a kept one.** -/
theorem exists_collides_of_collect {root : Stage} {pending found : List Stage}
    {failure : GraphError} (walking : Walking root pending found)
    (failed : collect pending found = .error failure) :
    ∃ first second, root.Reaches first ∧ root.Reaches second ∧ Collides first second ∧
      failure = .nameCollision first.name := by
  fun_induction collect pending found with
  | case1 found => cases failed
  | case2 stage rest found notKept ih => exact ih (walking.keep notKept) failed
  | case3 stage rest found seen kept same shares ih => exact ih walking.skip failed
  | case4 stage rest found seen kept same _ ih => exact ih walking.descend failed
  | case5 stage rest found seen kept differs =>
      cases failed
      have name := name_of_kept? kept
      refine ⟨seen, stage, walking.found_reached seen (mem_of_kept? kept),
        walking.pending_reached stage List.mem_cons_self, ?_, by rw [name]⟩
      exact Stage.collides_of_not_agrees name fun agrees => differs agrees.sameDefinition

end StageManifest.StageGraph
