import Mathlib.Data.List.Pairwise
import StageManifest.Proofs.Graph.Acyclicity
import StageManifest.Proofs.Graph.PostOrder
import StageManifest.Proofs.Stage.References

/-!
# Stages that differ in repeated links only

Discovery compares the listed names of two stages with their repetitions.  A stage
that copies twice from one source lists its name twice if the source was made over
again in between, so two stages can be alike in everything that is written about
them and still collide.

Below a root whose stages of one name are alike there is a manifest exactly when
such stages list their names equally often and in the same order.  Apart from
repetitions a plainly built stage lists the names that its text refers to, in
that order (`BuiltPlainly.eraseDups_dependencyNames`), and it lists a name twice
only if it is linked to two stages with that name that hold different links
(`BuiltPlainly.nodup_dependencyNames`).  So where no stage is linked like that,
stages that are alike are never told apart (`solve_succeeds_iff_listed_alike`).
-/

set_option autoImplicit false

namespace StageManifest

namespace Stage

/-! ## Alike stages -/

/-- Two stages are written the same way and list the same names, perhaps not equally often. -/
structure Alike (first second : Stage) : Prop where
  name : first.name = second.name
  base : first.base = second.base
  instructions : first.instructions = second.instructions
  listed : ∀ name, name ∈ first.dependencyNames ↔ name ∈ second.dependencyNames

/-- Any two stages below the root that have one name are alike. -/
def AlikeBelow (root : Stage) : Prop :=
  ∀ ⦃first second : Stage⦄, root.Reaches first → root.Reaches second →
    first.name = second.name → Alike first second

/-- The stage is linked to two stages with one name that hold different links. -/
def Relinked (stage : Stage) : Prop :=
  ∃ first second, [first, second].Sublist stage.dependencies.toList ∧
    first.name = second.name ∧ first.sharesDependencies second = false

theorem Alike.references_eq {first second : Stage} (alike : Alike first second) :
    first.references = second.references := by
  rw [references, references, alike.base, alike.instructions]

theorem Alike.refl (stage : Stage) : Alike stage stage := ⟨rfl, rfl, rfl, fun _ => Iff.rfl⟩

theorem Alike.symm {first second : Stage} (alike : Alike first second) : Alike second first :=
  ⟨alike.name.symm, alike.base.symm, alike.instructions.symm, fun name => (alike.listed name).symm⟩

/-- It is enough to compare the stages of a list that has all that are below the root. -/
theorem AlikeBelow.of_pairwise {root : Stage} {stages : List Stage}
    (below : ∀ stage, root.Reaches stage → stage ∈ stages)
    (alike : stages.Pairwise fun first second => first.name = second.name → Alike first second) :
    root.AlikeBelow := fun _ _ firstReached secondReached =>
  alike.forall_of_forall_of_flip (fun stage _ _ => Alike.refl stage)
    (alike.imp fun swapped name => (swapped name.symm).symm)
    (below _ firstReached) (below _ secondReached)

/-- A stage that lists no name twice is not relinked. -/
theorem not_relinked_of_nodup {stage : Stage} (unique : stage.dependencyNames.Nodup) :
    ¬ stage.Relinked := by
  rintro ⟨first, second, links, name, _⟩
  rw [dependencyNames, List.Nodup, List.pairwise_map] at unique
  exact List.pairwise_iff_forall_sublist.mp unique links name

/-- Alike stages that list their names equally agree. -/
theorem Alike.agrees {first second : Stage} (alike : Alike first second)
    (listed : first.dependencyNames = second.dependencyNames) : Agrees first second :=
  ⟨alike.name, alike.base, alike.instructions, listed⟩

/-- Alike stages that hold the same links have the same definition. -/
theorem Alike.sameDefinition_of_sharesDependencies {first second : Stage}
    (alike : Alike first second) (ends : EndsAgree first second)
    (shares : first.sharesDependencies second = true) : first.sameDefinition second = true := by
  have sameLinks : first.dependencies = second.dependencies := ends.dependencies shares
  have sameNames : first.dependencyNames = second.dependencyNames := by
    rw [dependencyNames, dependencyNames, sameLinks]
  exact (alike.agrees sameNames).sameDefinition

namespace BuiltPlainly

variable {stage : Stage}

/-- **A plainly built stage lists the names it refers to**, in the order of the references and apart
from repetitions. -/
theorem eraseDups_dependencyNames (built : stage.BuiltPlainly) :
    stage.dependencyNames.eraseDups = stage.references.eraseDups := by
  induction built with
  | onImage reference bench => rfl
  | onStage parent bench => rfl
  | @grow stage growth bench _ plain ih =>
      have grows := growth.grown stage bench
      have listed : ((growth.apply stage).run bench).1.dependencyNames =
          stage.dependencyNames ++ (growth.linked stage).map (·.name) := by
        rw [dependencyNames, grows.dependencies, List.map_append, ← dependencyNames]
      have refers : ((growth.apply stage).run bench).1.references =
          stage.references ++ growth.inputs.map (·.name) := by
        rw [references, grows.base, grows.instructions, List.filterMap_append,
          Growth.sources_eq plain, ← List.append_assoc, ← references]
      rw [listed, refers]
      cases growth with
      | copyArtifact artifact destination ownership =>
          have sameMember := (mem_references_iff ‹_› artifact.source.name)
          simp only [Growth.linked, Growth.inputs, List.map_singleton, Graph.eraseDups_concat]
          split
          case isTrue isLinked =>
            -- No link is added, and the name is referred to already.
            have isListed := name_mem_of_isLinkedTo isLinked
            rw [if_pos (sameMember.mpr isListed), List.map_nil, List.append_nil, ih]
          case isFalse =>
            simp only [List.map_singleton, Graph.eraseDups_concat, sameMember, ih]
      | _ => simpa [Growth.linked, Growth.inputs] using ih

/-- No two links of a plainly built stage are found to be the very same stage. -/
theorem pairwise_links (built : stage.BuiltPlainly) :
    stage.dependencies.toList.Pairwise fun first second =>
      ¬ (first.sameDefinition second = true ∧ first.sharesDependencies second = true) := by
  induction built with
  | onImage reference bench => exact .nil
  | onStage parent bench => exact List.pairwise_singleton _ _
  | @grow stage growth bench _ plain ih =>
      rw [(growth.grown stage bench).dependencies]
      cases growth with
      | copyArtifact artifact destination ownership =>
          simp only [Growth.linked]
          split
          case isTrue => rwa [List.append_nil]
          case isFalse notLinked =>
            refine List.pairwise_append.mpr ⟨ih, List.pairwise_singleton _ _, ?_⟩
            intro linked isLinked source isSource same
            rw [List.mem_singleton.mp isSource] at same
            exact notLinked (List.any_eq_true.mpr
              ⟨linked, isLinked, by rw [same.1, same.2, Bool.and_self]⟩)
      | _ => simpa [Growth.linked] using ih

/-- **A plainly built stage lists no name twice**, unless it is relinked. -/
theorem nodup_dependencyNames {root : Stage} (built : stage.BuiltPlainly)
    (coherent : root.Coherent) (alike : root.AlikeBelow) (reaches : root.Reaches stage)
    (once : ¬ stage.Relinked) : stage.dependencyNames.Nodup := by
  rw [dependencyNames, List.Nodup, List.pairwise_map]
  refine List.pairwise_iff_forall_sublist.mpr fun {first second} links name => once ?_
  have below : ∀ linked ∈ [first, second], root.Reaches linked := fun linked isLinked =>
    reaches.tail (links.subset isLinked)
  have firstReached := below first List.mem_cons_self
  have secondReached := below second (List.mem_cons_of_mem _ List.mem_cons_self)
  refine ⟨first, second, links, name, Bool.eq_false_iff.mpr fun shares => ?_⟩
  have same := (alike firstReached secondReached name).sameDefinition_of_sharesDependencies
    (coherent firstReached secondReached) shares
  exact List.pairwise_iff_forall_sublist.mp built.pairwise_links links ⟨same, shares⟩

end BuiltPlainly

/-- Below a root whose plainly built stages are not relinked, alike stages list the same names in
the same order. -/
theorem AlikeBelow.dependencyNames_eq {root first second : Stage} (alike : root.AlikeBelow)
    (coherent : root.Coherent)
    (plain : ∀ stage, root.Reaches stage → stage.BuiltPlainly ∧ ¬ stage.Relinked)
    (firstReached : root.Reaches first) (secondReached : root.Reaches second)
    (name : first.name = second.name) : first.dependencyNames = second.dependencyNames := by
  have erased : ∀ stage, root.Reaches stage →
      stage.references.eraseDups = stage.dependencyNames := by
    intro stage reaches
    obtain ⟨built, once⟩ := plain stage reaches
    rw [← built.eraseDups_dependencyNames]
    exact Graph.eraseDups_of_nodup (built.nodup_dependencyNames coherent alike reaches once)
  rw [← erased first firstReached, ← erased second secondReached,
    (alike firstReached secondReached name).references_eq]

end Stage

namespace Manifest

open Stage (Reaches AlikeBelow BuiltPlainly Relinked)

/-- Where stages with one name agree, there is a manifest. -/
theorem exists_solve_of_agrees {root : Stage} (coherent : root.Coherent)
    (agree : ∀ first second, root.Reaches first → root.Reaches second →
      first.name = second.name → Stage.Agrees first second) (frontend : String) :
    ∃ manifest, solve frontend root = .ok manifest := by
  cases found : StageGraph.discover root with
  | ok graph =>
      obtain ⟨blocks, ordered⟩ :=
        (StageGraph.discovered_of_discover coherent found).exists_ordered
      exact ⟨_, solve_eq_ok_iff.mpr ⟨graph, blocks, found, ordered, rfl⟩⟩
  | error failure =>
      obtain ⟨first, second, firstReached, secondReached, collides, _⟩ :=
        StageGraph.exists_collides_of_discover found
      exact absurd collides
        (agree first second firstReached secondReached collides.name).not_collides

/-- **Alike stages are told apart by repeated links only.**  Below a root whose stages of one name
are alike there is a manifest exactly when such stages list their names equally often and in the
same order, and otherwise two that do not are reported.  If the stages were built plainly, one of
them is then linked to two stages with one name that hold different links. -/
theorem solve_succeeds_iff_listed_alike {root : Stage} (assembled : root.Assembled)
    (alike : root.AlikeBelow) (frontend : String) :
    ((∃ manifest, solve frontend root = .ok manifest) ↔
      ∀ first second, root.Reaches first → root.Reaches second → first.name = second.name →
        first.dependencyNames = second.dependencyNames) ∧
    (∀ failure, solve frontend root = .error failure →
      ∃ first second, root.Reaches first ∧ root.Reaches second ∧ first.Alike second ∧
        first.dependencyNames ≠ second.dependencyNames ∧ failure = .nameCollision first.name) ∧
    ((∀ stage, root.Reaches stage → stage.BuiltPlainly ∧ ¬ stage.Relinked) →
      ∃ manifest, solve frontend root = .ok manifest) := by
  have coherent := assembled.coherent
  have solvable : (∀ first second, root.Reaches first → root.Reaches second →
      first.name = second.name → first.dependencyNames = second.dependencyNames) →
      ∃ manifest, solve frontend root = .ok manifest := fun listed =>
    exists_solve_of_agrees coherent (fun first second firstReached secondReached name =>
      (alike firstReached secondReached name).agrees
        (listed first second firstReached secondReached name)) frontend
  refine ⟨⟨?_, solvable⟩, ?_, fun plain => solvable fun first second =>
    alike.dependencyNames_eq coherent plain⟩
  · rintro ⟨manifest, solved⟩ first second firstReached secondReached name
    obtain ⟨graph, _, found, _, _⟩ := solve_eq_ok_iff.mp solved
    have discovered := StageGraph.discovered_of_discover coherent found
    exact (discovered.agrees firstReached secondReached name).dependencyNames
  · intro failure failed
    cases found : StageGraph.discover root with
    | ok graph =>
        obtain ⟨blocks, ordered⟩ :=
          (StageGraph.discovered_of_discover coherent found).exists_ordered
        rw [solve_eq_ok_iff.mpr ⟨graph, blocks, found, ordered, rfl⟩] at failed
        cases failed
    | error error =>
        obtain ⟨first, second, firstReached, secondReached, collides, rfl⟩ :=
          StageGraph.exists_collides_of_discover found
        rw [solve_of_discover_error found, Except.error.injEq] at failed
        have same := alike firstReached secondReached collides.name
        exact ⟨first, second, firstReached, secondReached, same,
          fun listed => (same.agrees listed).not_collides collides, failed.symm⟩

end Manifest

/-! ## A library that is made twice

A library copies a tool, and the same derivation is made a second time.  One user
copies twice from the first library, another one from each of the two.
-/

namespace Relinking

def tools : Stage := ⟨"tools", .image "alpine", .empty, .empty, none⟩

def libraryBase : Stage := ⟨"library", .image "rust", .empty, .empty, none⟩

/-- The library, made with links from the given mark on. -/
def library (mark : Nat) : Stage :=
  { libraryBase with
    layers := Chain.empty.push (mark + 1) (.copy "/o" "/i" none (some "tools"))
    dependencies := Chain.empty.push mark tools }

def userBase : Stage := ⟨"user", .image "debian", .empty, .empty, none⟩

def user : Stage :=
  { userBase with
    layers := Chain.empty.push 5 (.copy "/lib" "/a" none (some "library"))
    dependencies := Chain.empty.push 4 (library 0) }

/-- The user that copies from one library only. -/
def linkedOnce : Stage :=
  { user with layers := user.layers.push 6 (.copy "/lib" "/b" none (some "library")) }

/-- The user that copies from both libraries. -/
def linkedTwice : Stage :=
  { user with
    layers := user.layers.push 8 (.copy "/lib" "/b" none (some "library"))
    dependencies := user.dependencies.push 7 (library 2) }

def topBase : Stage := ⟨"top", .image "scratch", .empty, .empty, none⟩

/-- The root with the first user. -/
def topOnce : Stage :=
  { topBase with
    layers := Chain.empty.push 10 (.copy "/a" "/a" none (some "user"))
    dependencies := Chain.empty.push 9 linkedOnce }

/-- The root with both users. -/
def top : Stage :=
  { topOnce with
    layers := topOnce.layers.push 12 (.copy "/b" "/b" none (some "user"))
    dependencies := topOnce.dependencies.push 11 linkedTwice }

/-- The root with the first user and the second library. -/
def topApart : Stage :=
  { topOnce with
    layers := topOnce.layers.push 14 (.copy "/lib" "/c" none (some "library"))
    dependencies := topOnce.dependencies.push 13 (library 2) }

theorem session :
    Session ⟨.listed [] "", 15⟩
      [topApart, top, topOnce, topBase, linkedTwice, linkedOnce, user, userBase, library 2,
        library 0, libraryBase, tools] := by
  have begun : Session ⟨.listed ["tools", "library", "user", "top"] "", 0⟩ [] := .start _
  have one : Session ⟨.listed ["library", "user", "top"] "", 0⟩ [tools] :=
    begun.perform (.onImage "alpine") (by simp [StageJob.inputs])
  have two : Session ⟨.listed ["user", "top"] "", 0⟩ [libraryBase, tools] :=
    one.perform (.onImage "rust") (by simp [StageJob.inputs])
  have three : Session ⟨.listed ["user", "top"] "", 2⟩ [library 0, libraryBase, tools] :=
    two.perform (.grow libraryBase (.copyArtifact (tools.saveArtifact "/o") "/i" none))
      (by simp [StageJob.inputs, Growth.inputs, Stage.saveArtifact])
  have four : Session ⟨.listed ["user", "top"] "", 4⟩ [library 2, library 0, libraryBase, tools] :=
    three.perform (.grow libraryBase (.copyArtifact (tools.saveArtifact "/o") "/i" none))
      (by simp [StageJob.inputs, Growth.inputs, Stage.saveArtifact])
  have five : Session ⟨.listed ["top"] "", 4⟩
      [userBase, library 2, library 0, libraryBase, tools] :=
    four.perform (.onImage "debian") (by simp [StageJob.inputs])
  have six : Session ⟨.listed ["top"] "", 6⟩
      [user, userBase, library 2, library 0, libraryBase, tools] :=
    five.perform (.grow userBase (.copyArtifact ((library 0).saveArtifact "/lib") "/a" none))
      (by simp [StageJob.inputs, Growth.inputs, Stage.saveArtifact])
  have seven : Session ⟨.listed ["top"] "", 7⟩
      [linkedOnce, user, userBase, library 2, library 0, libraryBase, tools] :=
    six.perform (.grow user (.copyArtifact ((library 0).saveArtifact "/lib") "/b" none))
      (by simp [StageJob.inputs, Growth.inputs, Stage.saveArtifact])
  have eight : Session ⟨.listed ["top"] "", 9⟩
      [linkedTwice, linkedOnce, user, userBase, library 2, library 0, libraryBase, tools] :=
    seven.perform (.grow user (.copyArtifact ((library 2).saveArtifact "/lib") "/b" none))
      (by simp [StageJob.inputs, Growth.inputs, Stage.saveArtifact])
  have nine : Session ⟨.listed [] "", 9⟩
      [topBase, linkedTwice, linkedOnce, user, userBase, library 2, library 0, libraryBase,
        tools] :=
    eight.perform (.onImage "scratch") (by simp [StageJob.inputs])
  have ten : Session ⟨.listed [] "", 11⟩
      [topOnce, topBase, linkedTwice, linkedOnce, user, userBase, library 2, library 0,
        libraryBase, tools] :=
    nine.perform (.grow topBase (.copyArtifact (linkedOnce.saveArtifact "/a") "/a" none))
      (by simp [StageJob.inputs, Growth.inputs, Stage.saveArtifact])
  have eleven : Session ⟨.listed [] "", 13⟩
      [top, topOnce, topBase, linkedTwice, linkedOnce, user, userBase, library 2, library 0,
        libraryBase, tools] :=
    ten.perform (.grow topOnce (.copyArtifact (linkedTwice.saveArtifact "/b") "/b" none))
      (by simp [StageJob.inputs, Growth.inputs, Stage.saveArtifact])
  exact eleven.perform (.grow topOnce (.copyArtifact ((library 2).saveArtifact "/lib") "/c" none))
    (by simp [StageJob.inputs, Growth.inputs, Stage.saveArtifact])

/-- What is below the root with both users. -/
theorem mem_of_reaches_top {stage : Stage} (reaches : top.Reaches stage) :
    stage ∈ [top, linkedOnce, linkedTwice, library 0, library 2, tools] := by
  refine reaches.mem_of_closed List.mem_cons_self ?_
  simp [Stage.DependsOn, top, topOnce, topBase, linkedOnce, linkedTwice, user, userBase, library,
    libraryBase, tools, Chain.toList, Chain.push, Chain.empty]

/-- What is below the root with the second library. -/
theorem mem_of_reaches_topApart {stage : Stage} (reaches : topApart.Reaches stage) :
    stage ∈ [topApart, linkedOnce, library 0, library 2, tools] := by
  refine reaches.mem_of_closed List.mem_cons_self ?_
  simp [Stage.DependsOn, topApart, topOnce, topBase, linkedOnce, user, userBase, library,
    libraryBase, tools, Chain.toList, Chain.push, Chain.empty]

theorem builtPlainly_tools : tools.BuiltPlainly :=
  .onImage "alpine" ⟨.listed ["tools"] "", 0⟩

theorem builtPlainly_library (mark : Nat) : (library mark).BuiltPlainly :=
  .grow (.copyArtifact (tools.saveArtifact "/o") "/i" none) ⟨.listed [] "", mark⟩
    (.onImage "rust" ⟨.listed ["library"] "", 0⟩) nofun

theorem builtPlainly_user : user.BuiltPlainly :=
  .grow (.copyArtifact ((library 0).saveArtifact "/lib") "/a" none) ⟨.listed [] "", 4⟩
    (.onImage "debian" ⟨.listed ["user"] "", 0⟩) nofun

theorem builtPlainly_linkedOnce : linkedOnce.BuiltPlainly :=
  .grow (.copyArtifact ((library 0).saveArtifact "/lib") "/b" none) ⟨.listed [] "", 6⟩
    builtPlainly_user nofun

theorem builtPlainly_linkedTwice : linkedTwice.BuiltPlainly :=
  .grow (.copyArtifact ((library 2).saveArtifact "/lib") "/b" none) ⟨.listed [] "", 7⟩
    builtPlainly_user nofun

theorem builtPlainly_topOnce : topOnce.BuiltPlainly :=
  .grow (.copyArtifact (linkedOnce.saveArtifact "/a") "/a" none) ⟨.listed [] "", 9⟩
    (.onImage "scratch" ⟨.listed ["top"] "", 0⟩) nofun

theorem builtPlainly_top : top.BuiltPlainly :=
  .grow (.copyArtifact (linkedTwice.saveArtifact "/b") "/b" none) ⟨.listed [] "", 11⟩
    builtPlainly_topOnce nofun

theorem builtPlainly_topApart : topApart.BuiltPlainly :=
  .grow (.copyArtifact ((library 2).saveArtifact "/lib") "/c" none) ⟨.listed [] "", 13⟩
    builtPlainly_topOnce nofun

theorem alike_libraries (first second : Nat) : (library first).Alike (library second) :=
  ⟨rfl, rfl, rfl, fun _ => Iff.rfl⟩

theorem alike_users : linkedOnce.Alike linkedTwice :=
  ⟨rfl, rfl, rfl, fun name => by
    show name ∈ ["library"] ↔ name ∈ ["library", "library"]
    simp⟩

theorem alikeBelow_top : top.AlikeBelow := by
  refine .of_pairwise (fun _ => mem_of_reaches_top) ?_
  simp only [List.pairwise_cons, List.mem_cons, List.not_mem_nil, or_false, forall_eq_or_imp,
    forall_eq, IsEmpty.forall_iff, implies_true, List.Pairwise.nil, and_true]
  exact ⟨⟨nofun, nofun, nofun, nofun, nofun⟩, ⟨fun _ => alike_users, nofun, nofun, nofun⟩,
    ⟨nofun, nofun, nofun⟩, ⟨fun _ => alike_libraries 0 2, nofun⟩, nofun⟩

theorem alikeBelow_topApart : topApart.AlikeBelow := by
  refine .of_pairwise (fun _ => mem_of_reaches_topApart) ?_
  simp only [List.pairwise_cons, List.mem_cons, List.not_mem_nil, or_false, forall_eq_or_imp,
    forall_eq, IsEmpty.forall_iff, implies_true, List.Pairwise.nil, and_true]
  exact ⟨⟨nofun, nofun, nofun, nofun⟩, ⟨nofun, nofun, nofun⟩,
    ⟨fun _ => alike_libraries 0 2, nofun⟩, nofun⟩

/-- With the second library alone the stages below the root were built plainly and not relinked. -/
theorem plain_topApart (stage : Stage) (reaches : topApart.Reaches stage) :
    stage.BuiltPlainly ∧ ¬ stage.Relinked := by
  have member := mem_of_reaches_topApart reaches
  simp only [List.mem_cons, List.not_mem_nil, or_false] at member
  rcases member with rfl | rfl | rfl | rfl | rfl
  · refine ⟨builtPlainly_topApart, Stage.not_relinked_of_nodup (by decide)⟩
  · exact ⟨builtPlainly_linkedOnce, Stage.not_relinked_of_nodup (by decide)⟩
  · exact ⟨builtPlainly_library 0, Stage.not_relinked_of_nodup (by decide)⟩
  · exact ⟨builtPlainly_library 2, Stage.not_relinked_of_nodup (by decide)⟩
  · exact ⟨builtPlainly_tools, Stage.not_relinked_of_nodup (by decide)⟩

theorem discover_top : StageGraph.discover top = .error (.nameCollision "user") := by
  with_unfolding_all rfl

end Relinking

namespace Manifest

/-- A library that is made twice does no harm while no stage copies from both. -/
theorem solve_succeeds_with_equal_libraries :
    Relinking.topApart.Assembled ∧ Relinking.topApart.AlikeBelow ∧
      (∀ stage, Relinking.topApart.Reaches stage → stage.BuiltPlainly ∧ ¬ stage.Relinked) ∧
      ∃ manifest, solve "frontend" Relinking.topApart = .ok manifest := by
  have assembled : Relinking.topApart.Assembled :=
    ⟨_, _, Relinking.session, List.mem_cons_self⟩
  exact ⟨assembled, Relinking.alikeBelow_topApart, Relinking.plain_topApart,
    (solve_succeeds_iff_listed_alike assembled Relinking.alikeBelow_topApart "frontend").2.2
      Relinking.plain_topApart⟩

/-- **A repeated link alone can be reported as a collision**: the two users are alike, and every
stage was built plainly. -/
theorem solve_rejects_alike_users :
    Relinking.top.Assembled ∧ Relinking.top.AlikeBelow ∧
      (∀ stage, Relinking.top.Reaches stage → stage.BuiltPlainly) ∧
      ∀ frontend, solve frontend Relinking.top = .error (.nameCollision "user") := by
  refine ⟨⟨_, _, Relinking.session, List.mem_cons_of_mem _ List.mem_cons_self⟩,
    Relinking.alikeBelow_top, fun stage reaches => ?_,
    solve_of_discover_error Relinking.discover_top⟩
  have member := Relinking.mem_of_reaches_top reaches
  simp only [List.mem_cons, List.not_mem_nil, or_false] at member
  rcases member with rfl | rfl | rfl | rfl | rfl | rfl
  · exact Relinking.builtPlainly_top
  · exact Relinking.builtPlainly_linkedOnce
  · exact Relinking.builtPlainly_linkedTwice
  · exact Relinking.builtPlainly_library 0
  · exact Relinking.builtPlainly_library 2
  · exact Relinking.builtPlainly_tools

end Manifest

end StageManifest
