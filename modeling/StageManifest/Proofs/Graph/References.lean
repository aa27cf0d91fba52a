import StageManifest.Proofs.Graph.Arrangement
import StageManifest.Proofs.Stage.References

/-!
# References between the blocks of a manifest

Every block but the last is depended on by a later one
(`Arranged.exists_user`), because the last block is the root's and every other
block is below it.  Where all stages below the root were built plainly, their
texts refer to exactly the names they are linked to, so a reference leads to an
earlier block, and no block but the last is left without a reference to it
(`solve_resolves_references`).
-/

set_option autoImplicit false

namespace StageManifest

namespace Arranged

variable {root : Stage} {blocks earlier later : List Stage} {block : Stage}

/-- No other block has the name of a block. -/
theorem name_not_mem_others (arranged : Arranged root blocks)
    (split : blocks = earlier ++ block :: later) :
    block.name ∉ (earlier ++ later).map (·.name) := by
  have unique := arranged.unique
  rw [split, List.map_append, List.map_cons, List.nodup_middle, ← List.map_append] at unique
  exact (List.nodup_cons.mp unique).1

/-- What has a block behind it is not the root. -/
theorem ne_root (arranged : Arranged root blocks) (split : blocks = earlier ++ block :: later)
    (more : later ≠ []) : block ≠ root := by
  rintro rfl
  have last := arranged.last
  rw [split, List.getLast?_append_of_ne_nil _ (List.cons_ne_nil _ _),
    List.getLast?_cons_of_ne_nil more] at last
  have again : block ∈ earlier ++ later :=
    List.mem_append_right _ (List.mem_of_getLast? last)
  exact arranged.name_not_mem_others split (List.mem_map_of_mem again)

/-- Every block but the last is depended on by a later one. -/
theorem exists_user (arranged : Arranged root blocks) (split : blocks = earlier ++ block :: later)
    (more : later ≠ []) : ∃ user ∈ later, block.name ∈ user.dependencyNames := by
  have isBlock : block ∈ blocks := split ▸ List.mem_append_cons_self
  obtain ⟨stage, reaches, depends⟩ :=
    (arranged.reached block isBlock).exists_dependsOn (arranged.ne_root split more)
  obtain ⟨user, isUser, agrees⟩ := arranged.agree stage reaches
  have listed : block.name ∈ user.dependencyNames := agrees.dependencyNames ▸ depends.name_mem
  rw [split] at isUser
  rcases List.mem_append.mp isUser with isEarlier | isRest
  · -- The block would have to come twice, before its user and behind it.
    obtain ⟨before, between, rfl⟩ := List.append_of_mem isEarlier
    have isBefore := arranged.follows before user (between ++ block :: later)
      (by rw [split, List.append_assoc, List.cons_append]) block.name listed
    refine absurd ?_ (arranged.name_not_mem_others split)
    rw [List.append_assoc, List.map_append]
    exact List.mem_append_left _ isBefore
  · rcases List.mem_cons.mp isRest with rfl | isLater
    · refine absurd ?_ (arranged.name_not_mem_others split)
      rw [List.map_append]
      exact List.mem_append_left _ (arranged.follows earlier user later split user.name listed)
    · exact ⟨user, isLater, listed⟩

end Arranged

namespace Manifest

/-- **References of plainly built stages are resolved.**  The blocks of the manifest are the stages of
the root's graph in their order.  What a block refers to was declared earlier, and every block but
the last is referred to by a later one. -/
theorem solve_resolves_references {frontend manifest : String} {root : Stage}
    (assembled : root.Assembled) (plain : ∀ stage, root.Reaches stage → stage.BuiltPlainly)
    (solved : solve frontend root = .ok manifest) :
    ∃ graph blocks, StageGraph.discover root = .ok graph ∧ graph.ordered = .ok blocks ∧
      manifest = ofStages frontend blocks ∧
      ∀ earlier block later, blocks = earlier ++ block :: later →
        (∀ name, block.base = .stage name → name ∈ earlier.map (·.name)) ∧
        (∀ path destination ownership name,
          .copy path destination ownership (some name) ∈ block.instructions →
            name ∈ earlier.map (·.name)) ∧
        (later ≠ [] →
          ∃ user ∈ later,
            user.base = .stage block.name ∨
              ∃ path destination ownership,
                .copy path destination ownership (some block.name) ∈ user.instructions) := by
  obtain ⟨graph, blocks, found, ordered, same, arranged⟩ :=
    exists_arranged_of_solve assembled.coherent solved
  refine ⟨graph, blocks, found, ordered, same, fun earlier block later split => ?_⟩
  have built : ∀ other ∈ blocks, other.BuiltPlainly := fun other isBlock =>
    plain other (arranged.reached other isBlock)
  have resolved : ∀ name ∈ block.references, name ∈ earlier.map (·.name) := by
    intro name refers
    have isBlock : block ∈ blocks := split ▸ List.mem_append_cons_self
    exact arranged.follows earlier block later split name
      (((built block isBlock).mem_references_iff name).mp refers)
  refine ⟨?_, ?_, ?_⟩
  · intro name isBase
    exact resolved name (Stage.mem_references.mpr (.inl isBase))
  · intro path destination ownership name member
    exact resolved name (Stage.mem_references.mpr (.inr ⟨path, destination, ownership, member⟩))
  · intro more
    obtain ⟨user, isLater, listed⟩ := arranged.exists_user split more
    have isUser : user ∈ blocks := by
      rw [split]
      exact List.mem_append_right _ (List.mem_cons_of_mem _ isLater)
    exact ⟨user, isLater,
      Stage.mem_references.mp (((built user isUser).mem_references_iff _).mpr listed)⟩

end Manifest

theorem Diamond.builtPlainly (stage : Stage) (reaches : top.Reaches stage) :
    stage.BuiltPlainly := by
  have plainShared : shared.BuiltPlainly := .onImage "rust" ⟨.listed ["shared"] "", 0⟩
  have plainLeft : left.BuiltPlainly := .onStage shared ⟨.listed ["left"] "", 0⟩
  have plainRightBase : rightBase.BuiltPlainly := .onImage "debian" ⟨.listed ["right"] "", 0⟩
  have plainRight : right.BuiltPlainly :=
    .grow (.copyArtifact (shared.saveArtifact "/lib") "/" none) ⟨.listed [] "", 1⟩
      plainRightBase nofun
  have plainTopBase : topBase.BuiltPlainly := .onStage left ⟨.listed ["top"] "", 3⟩
  have plainTopJoined : topJoined.BuiltPlainly :=
    .grow (.copyArtifact (right.saveArtifact "/bin") "/" none) ⟨.listed [] "", 4⟩
      plainTopBase nofun
  have plainTop : top.BuiltPlainly :=
    .grow (.copyArtifact (left.saveArtifact "/etc") "/" none) ⟨.listed [] "", 6⟩
      plainTopJoined nofun
  have member := session.sound.mem_of_reaches List.mem_cons_self reaches
  simp only [List.mem_cons, List.not_mem_nil, or_false] at member
  rcases member with rfl | rfl | rfl | rfl | rfl | rfl | rfl <;> assumption

/-- References between the four blocks of the diamond, where the topmost stage copies from its own
base. -/
theorem Manifest.solve_resolves_references_of_diamond :
    Diamond.top.Assembled ∧ (∀ stage, Diamond.top.Reaches stage → stage.BuiltPlainly) ∧
      StageGraph.discover Diamond.top = .ok Diamond.graph ∧
      Diamond.graph.ordered = .ok [Diamond.shared, Diamond.left, Diamond.right, Diamond.top] ∧
      solve "frontend" Diamond.top = .ok (ofStages "frontend"
        [Diamond.shared, Diamond.left, Diamond.right, Diamond.top]) ∧
      ∀ earlier block later,
        [Diamond.shared, Diamond.left, Diamond.right, Diamond.top] = earlier ++ block :: later →
          (∀ name, block.base = .stage name → name ∈ earlier.map (·.name)) ∧
          (∀ path destination ownership name,
            .copy path destination ownership (some name) ∈ block.instructions →
              name ∈ earlier.map (·.name)) ∧
          (later ≠ [] →
            ∃ user ∈ later,
              user.base = .stage block.name ∨
                ∃ path destination ownership,
                  .copy path destination ownership (some block.name) ∈ user.instructions) := by
  obtain ⟨graph, blocks, found, ordered, _, resolved⟩ :=
    solve_resolves_references Diamond.assembled Diamond.builtPlainly Diamond.solved
  cases Diamond.discovered.symm.trans found
  cases Diamond.ordered.symm.trans ordered
  exact ⟨Diamond.assembled, Diamond.builtPlainly, found, ordered, Diamond.solved, resolved⟩

end StageManifest
