import Mathlib.Data.List.Forall2
import StageManifest.Proofs.Stage.Reachability

/-!
# Stages as values

Links are shared between stages, and nothing that a stage means depends on which
links are.  Two stages are equal by value when they have the same name, base and
instructions and their dependencies are equal by value one by one; tags may
differ, because no manifest shows them (`SameValue`).  Stages that are equal by
value agree (`SameValue.agrees`) and cannot be told apart by reading their
definitions in full (`SameValue.equalContents_eq`).
-/

set_option autoImplicit false

namespace StageManifest.Stage

/-- Two stages are equal by value, whichever links hold their instructions and dependencies. -/
inductive SameValue : Stage → Stage → Prop where
  | intro {first second : Stage} (name : first.name = second.name)
      (base : first.base = second.base) (instructions : first.instructions = second.instructions)
      (dependencies :
        List.Forall₂ SameValue first.dependencies.toList second.dependencies.toList) :
      SameValue first second

theorem forall₂_sameValue_refl (stages : List Stage) : List.Forall₂ SameValue stages stages := by
  induction stages using induction_on_dependencies with
  | nil => exact .nil
  | cons stage rest dependencies more => exact .cons (.intro rfl rfl rfl dependencies) more

/-- What cannot tell apart stages that are equal by value is the same for lists of such stages. -/
theorem map_eq_of_sameValue {β : Type} {view : Stage → β}
    (respects : ∀ {first second : Stage}, SameValue first second → view first = view second)
    {stages others : List Stage} (same : List.Forall₂ SameValue stages others) :
    stages.map view = others.map view := by
  induction same with
  | nil => rfl
  | cons head _ ih => rw [List.map_cons, List.map_cons, respects head, ih]

namespace SameValue

variable {first second : Stage}

/-- A tag is not part of the value of a stage. -/
theorem withTag (stage : Stage) (tag : String) : SameValue (stage.withTag tag) stage :=
  .intro rfl rfl rfl (forall₂_sameValue_refl _)

theorem name_eq (same : SameValue first second) : first.name = second.name := by
  obtain ⟨name, _, _, _⟩ := same
  exact name

theorem dependencies (same : SameValue first second) :
    List.Forall₂ SameValue first.dependencies.toList second.dependencies.toList := by
  obtain ⟨_, _, _, dependencies⟩ := same
  exact dependencies

theorem agrees (same : SameValue first second) : Agrees first second := by
  obtain ⟨name, base, instructions, dependencies⟩ := same
  exact ⟨name, base, instructions, map_eq_of_sameValue name_eq dependencies⟩

end SameValue

/-! ## Reading definitions in full -/

/-- Whether two stages have the same name, base, instructions and dependency names, whatever links
hold them. -/
def equalContents (first second : Stage) : Bool :=
  first.name == second.name && first.base == second.base &&
    first.instructions == second.instructions && first.dependencyNames == second.dependencyNames

theorem equalContents_iff_agrees {first second : Stage} :
    first.equalContents second = true ↔ Agrees first second := by
  simp only [equalContents, Bool.and_eq_true, beq_iff_eq]
  constructor
  · rintro ⟨⟨⟨name, base⟩, instructions⟩, names⟩
    exact ⟨name, base, instructions, names⟩
  · rintro ⟨name, base, instructions, names⟩
    exact ⟨⟨⟨name, base⟩, instructions⟩, names⟩

/-- Stages that are equal by value compare equally with others that are. -/
theorem SameValue.equalContents_eq {first second other another : Stage}
    (same : SameValue first second) (alike : SameValue other another) :
    first.equalContents other = second.equalContents another := by
  have left := same.agrees
  have right := alike.agrees
  rw [equalContents, equalContents, left.name, left.base, left.instructions, left.dependencyNames,
    right.name, right.base, right.instructions, right.dependencyNames]

end StageManifest.Stage
