import StageManifest.Proofs.Graph.Simulation

/-!
# Shared links cannot be observed

Discovery compares chains by their ends first and leaves out the dependencies of
a stage that holds the same links as the one kept under its name.  The slower
walk that compares every definition in full and walks every dependency again
agrees with it wherever chains are known by their ends
(`collectByContents_eq_collect`): what the fast walk leaves out has been walked
to the end, because the kept stage cannot be above a stage with the very same
dependencies, and walking settled stages again changes nothing
(`collectByContents_append_of_settled`).

The slower walk does not look at links, so related roots are discovered alike
(`Simulation.discover`).  Equality by value is such a relation, and so roots that
are equal by value have the same manifest or fail in the same way
(`solve_eq_of_sameValue`).
-/

set_option autoImplicit false

namespace StageManifest

namespace StageGraph

open Stage (Reaches Agrees Coherent SameValue)

/-! ## Settled stages -/

/-- A stage agrees with the one that is kept under its name. -/
def Settled (found : List Stage) (stage : Stage) : Prop :=
  ∃ seen, kept? found stage.name = some seen ∧ Agrees seen stage

/-- What is settled stays settled when more stages are kept. -/
theorem Settled.append {found : List Stage} {stage : Stage} (settled : Settled found stage)
    (more : List Stage) : Settled (found ++ more) stage := by
  obtain ⟨seen, kept, agrees⟩ := settled
  refine ⟨seen, ?_, agrees⟩
  rw [kept?] at kept ⊢
  rw [List.find?_append, kept, Option.some_or]

/-- A stage is settled when it has been kept under a new name. -/
theorem settled_of_not_kept {found : List Stage} {stage : Stage}
    (notKept : kept? found stage.name = none) : Settled (found ++ [stage]) stage := by
  refine ⟨stage, ?_, .refl stage⟩
  rw [kept?] at notKept ⊢
  rw [List.find?_append, notKept, Option.none_or]
  simp

/-- The walk goes on with the dependencies of a settled stage. -/
theorem collectByContents_cons_of_settled {stage : Stage} {rest found : List Stage}
    (settled : Settled found stage) :
    collectByContents (stage :: rest) found =
      collectByContents (stage.dependencies.toList ++ rest) found := by
  obtain ⟨seen, kept, agrees⟩ := settled
  have equal := Stage.equalContents_iff_agrees.mpr agrees
  rw [collectByContents, kept]
  simp only [equal, if_true]

/-- **Walking settled stages again changes nothing.** -/
theorem collectByContents_append_of_settled {again rest found : List Stage}
    (settled : ∀ stage ∈ again, ∀ below, stage.Reaches below → Settled found below) :
    collectByContents (again ++ rest) found = collectByContents rest found := by
  induction again using Stage.induction_on_dependencies generalizing rest with
  | nil => rfl
  | cons stage others dependencies more =>
      have isSettled := settled stage List.mem_cons_self
      rw [List.cons_append, collectByContents_cons_of_settled (isSettled stage .refl), dependencies,
        more]
      · exact fun other member => settled other (List.mem_cons_of_mem _ member)
      · exact fun other depends below reaches => isSettled below (.head depends reaches)

/-! ## What the fast walk leaves out -/

/-- What is below a kept stage is settled or below the first of the pending stages, and these are
all below the kept stage. -/
def Followed (pending found : List Stage) (kept : Stage) : Prop :=
  ∃ front back, pending = front ++ back ∧
    (∀ stage ∈ front, Relation.TransGen Stage.DependsOn kept stage) ∧
    ∀ below, kept.Reaches below → Settled found below ∨ ∃ stage ∈ front, stage.Reaches below

/-- The first pending stage gives way to stages below it that lead to all that is not settled. -/
theorem Followed.replace {stage kept : Stage} {rest found grown more : List Stage}
    (followed : Followed (stage :: rest) found kept)
    (keeps : ∀ other, Settled found other → Settled grown other)
    (isBelow : ∀ other ∈ more, stage.DependsOn other)
    (leads : ∀ below, stage.Reaches below →
      Settled grown below ∨ ∃ other ∈ more, other.Reaches below) :
    Followed (more ++ rest) grown kept := by
  obtain ⟨front, back, split, isFront, covers⟩ := followed
  cases front with
  | nil =>
      refine ⟨[], more ++ rest, rfl, fun _ member => (List.not_mem_nil member).elim, ?_⟩
      intro below reaches
      rcases covers below reaches with settled | ⟨_, member, _⟩
      · exact .inl (keeps below settled)
      · exact (List.not_mem_nil member).elim
  | cons head front =>
      obtain ⟨rfl, rfl⟩ := List.cons.inj split
      refine ⟨more ++ front, back, (List.append_assoc _ _ _).symm, ?_, ?_⟩
      · intro other member
        rcases List.mem_append.mp member with new | old
        · exact (isFront stage List.mem_cons_self).tail (isBelow other new)
        · exact isFront other (List.mem_cons_of_mem _ old)
      · intro below reaches
        rcases covers below reaches with settled | ⟨other, member, reaches⟩
        · exact .inl (keeps below settled)
        · rcases List.mem_cons.mp member with rfl | member
          · exact (leads below reaches).imp_right fun ⟨next, isNext, further⟩ =>
              ⟨next, List.mem_append_left _ isNext, further⟩
          · exact .inr ⟨other, List.mem_append_right _ member, reaches⟩

/-- What is below a settled stage is settled too or below one of its dependencies. -/
theorem settled_or_below_dependency {found : List Stage} {stage below : Stage}
    (settled : Settled found stage) (reaches : stage.Reaches below) :
    Settled found below ∨ ∃ dependency ∈ stage.dependencies.toList, dependency.Reaches below := by
  rcases Relation.ReflTransGen.cases_head reaches with rfl | found
  · exact .inl settled
  · exact .inr found

section

variable {stage : Stage} {rest found : List Stage}

/-- The kept stages stay followed when one more is kept. -/
theorem followed_keep (followed : ∀ kept ∈ found, Followed (stage :: rest) found kept)
    (notKept : kept? found stage.name = none) :
    ∀ kept ∈ found ++ [stage],
      Followed (stage.dependencies.toList ++ rest) (found ++ [stage]) kept := by
  have isSettled := settled_of_not_kept notKept
  intro kept isKept
  rcases List.mem_append.mp isKept with isFound | isNew
  · exact (followed kept isFound).replace (fun _ settled => settled.append [stage])
      (fun _ depends => depends) fun _ => settled_or_below_dependency isSettled
  · rw [List.mem_singleton.mp isNew]
    exact ⟨stage.dependencies.toList, rest, rfl, fun _ depends => .single depends,
      fun _ => settled_or_below_dependency isSettled⟩

/-- The kept stages stay followed when the dependencies of a settled stage take its place. -/
theorem followed_descend (followed : ∀ kept ∈ found, Followed (stage :: rest) found kept)
    (settled : Settled found stage) :
    ∀ kept ∈ found, Followed (stage.dependencies.toList ++ rest) found kept :=
  fun kept isKept => (followed kept isKept).replace (fun _ settled => settled)
    (fun _ depends => depends) fun _ => settled_or_below_dependency settled

/-- The kept stages stay followed when a stage is left out below which all is settled. -/
theorem followed_skip (followed : ∀ kept ∈ found, Followed (stage :: rest) found kept)
    (settled : ∀ below, stage.Reaches below → Settled found below) :
    ∀ kept ∈ found, Followed rest found kept := by
  intro kept isKept
  show Followed ([] ++ rest) found kept
  exact (followed kept isKept).replace (fun _ settled => settled) nofun
    fun below reaches => .inl (settled below reaches)

end

/-- A stage is not below one that has the same dependencies. -/
theorem not_below_of_same_dependencies {first second : Stage}
    (same : first.dependencies = second.dependencies) :
    ¬ Relation.TransGen Stage.DependsOn first second := by
  intro isBelow
  obtain ⟨dependency, depends, reaches⟩ := Relation.TransGen.head'_iff.mp isBelow
  have smaller : sizeOf dependency < sizeOf second := by
    refine Stage.DependsOn.sizeOf_lt ?_
    rw [Stage.DependsOn, ← same]
    exact depends
  exact absurd (Stage.Reaches.sizeOf_le reaches) (Nat.not_le.mpr smaller)

/-- When a stage is met that has the same dependencies as a kept one, all that is below the kept one
is settled. -/
theorem Followed.settled_of_same_dependencies {stage kept : Stage} {rest found : List Stage}
    (followed : Followed (stage :: rest) found kept)
    (same : kept.dependencies = stage.dependencies) {below : Stage}
    (reaches : kept.Reaches below) : Settled found below := by
  obtain ⟨front, back, split, isFront, covers⟩ := followed
  cases front with
  | nil =>
      rcases covers below reaches with settled | ⟨_, member, _⟩
      · exact settled
      · exact (List.not_mem_nil member).elim
  | cons head front =>
      -- The kept stage would be above a stage with the same dependencies.
      obtain ⟨rfl, _⟩ := List.cons.inj split
      exact absurd (isFront stage List.mem_cons_self) (not_below_of_same_dependencies same)

/-- **The fast walk finds what the slow walk finds.** -/
theorem collectByContents_eq_collect {root : Stage} (coherent : root.Coherent)
    {pending found : List Stage} (walking : Walking root pending found)
    (followed : ∀ kept ∈ found, Followed pending found kept) :
    collectByContents pending found = collect pending found := by
  fun_induction collect pending found with
  | case1 found => rw [collectByContents]
  | case2 stage rest found notKept ih =>
      rw [collectByContents, notKept]
      exact ih (walking.keep notKept) (followed_keep followed notKept)
  | case3 stage rest found seen kept same shares ih =>
      have isFound := mem_of_kept? kept
      have ends := coherent (walking.found_reached seen isFound)
        (walking.pending_reached stage List.mem_cons_self)
      have isSettled : Settled found stage :=
        ⟨seen, kept, (Stage.sameDefinition_iff_agrees ends).mp same⟩
      have dependencies := ends.dependencies shares
      have below : ∀ other, stage.Reaches other → Settled found other := by
        intro other reaches
        rcases Relation.ReflTransGen.cases_head reaches with rfl | ⟨next, depends, further⟩
        · exact isSettled
        · refine (followed seen isFound).settled_of_same_dependencies dependencies
            (.head ?_ further)
          rw [Stage.DependsOn, dependencies]
          exact depends
      rw [collectByContents_cons_of_settled isSettled, collectByContents_append_of_settled
        fun other depends reached further => below reached (.head depends further)]
      exact ih walking.skip (followed_skip followed below)
  | case4 stage rest found seen kept same _ ih =>
      have ends := coherent (walking.found_reached seen (mem_of_kept? kept))
        (walking.pending_reached stage List.mem_cons_self)
      have isSettled : Settled found stage :=
        ⟨seen, kept, (Stage.sameDefinition_iff_agrees ends).mp same⟩
      rw [collectByContents_cons_of_settled isSettled]
      exact ih walking.descend (followed_descend followed isSettled)
  | case5 stage rest found seen kept differs =>
      have unequal : seen.equalContents stage = false := by
        refine Bool.eq_false_iff.mpr fun equal => differs ?_
        exact (Stage.equalContents_iff_agrees.mp equal).sameDefinition
      rw [collectByContents]
      simp only [kept, unequal, Bool.false_eq_true, if_false]

/-- Discovery finds the same graph as a walk that does not look at links, or fails alike. -/
theorem discoverByContents_eq_discover {root : Stage} (coherent : root.Coherent) :
    discoverByContents root = discover root := by
  have same : collectByContents [root] [] = collect [root] [] :=
    collectByContents_eq_collect coherent (.start root) fun _ never =>
      (List.not_mem_nil never).elim
  rw [discoverByContents, discover]
  cases walk : collect [root] [] with
  | error failure => simp only [same, walk]
  | ok found => simp only [same, walk]

/-- **Related roots have graphs that are the same up to names, or fail alike.** -/
theorem Simulation.discover {rename : String → String} {related : Stage → Stage → Prop}
    (simulation : Simulation rename related) {first second : Stage} (roots : related first second)
    (firstCoherent : first.Coherent) (secondCoherent : second.Coherent) :
    (∃ graph other, discover first = .ok graph ∧ StageGraph.discover second = .ok other ∧
      SameGraph related graph other) ∨
    ∃ failure, StageGraph.discover first = .error failure ∧
      StageGraph.discover second = .error (failure.renamed rename) := by
  rw [← discoverByContents_eq_discover firstCoherent,
    ← discoverByContents_eq_discover secondCoherent]
  exact simulation.discoverByContents roots

/-- If a root is solved, a related root is solved as well, and the blocks of both are related. -/
theorem Simulation.exists_ordered {rename : String → String} {related : Stage → Stage → Prop}
    (simulation : Simulation rename related) {first second : Stage} (roots : related first second)
    (firstCoherent : first.Coherent) (secondCoherent : second.Coherent) {graph : StageGraph}
    {blocks : List Stage} (discovers : StageGraph.discover first = .ok graph)
    (ordered : graph.ordered = .ok blocks) :
    ∃ other others, StageGraph.discover second = .ok other ∧ SameGraph related graph other ∧
      other.ordered = .ok others ∧ List.Forall₂ related blocks others := by
  rcases simulation.discover roots firstCoherent secondCoherent with
    ⟨_, other, isGraph, isOther, alike⟩ | ⟨failure, failed, _⟩
  · obtain rfl := Except.ok.inj (discovers.symm.trans isGraph)
    have follows := alike.ordered simulation
    rw [ordered] at follows
    generalize otherOrdered : other.ordered = result at follows
    cases follows with
    | @ok _ others same => exact ⟨other, others, isOther, alike, otherOrdered, same⟩
  · rw [discovers] at failed
    cases failed

/-- Stages that are equal by value are found alike, under the same names. -/
theorem simulation_sameValue : Simulation id SameValue where
  name same := same.name_eq.symm
  name_beq same alike := by rw [same.name_eq, alike.name_eq]
  equalContents same alike := (same.equalContents_eq alike).symm
  dependencies same := same.dependencies

end StageGraph

namespace Manifest

open Stage (SameValue)

/-- Roots that are equal by value are solved alike. -/
theorem solve_eq_of_sameValue {first second : Stage} (firstCoherent : first.Coherent)
    (secondCoherent : second.Coherent) (same : SameValue first second) (frontend : String) :
    solve frontend first = solve frontend second := by
  rw [solve, solve]
  rcases StageGraph.simulation_sameValue.discover same firstCoherent secondCoherent with
    ⟨graph, other, isGraph, isOther, alike⟩ | ⟨failure, failed, alsoFailed⟩
  · rw [isGraph, isOther]
    have ordered := alike.ordered StageGraph.simulation_sameValue
    simp only
    generalize graph.ordered = stages at ordered ⊢
    generalize other.ordered = others at ordered ⊢
    cases ordered with
    | error failure => rw [failure.renamed_id]
    | ok same =>
        simp only [ofStages, Stage.map_eq_of_sameValue (fun same => same.agrees.text_eq) same]
  · rw [failed, alsoFailed, failure.renamed_id]

/-- A tag is not part of a manifest. -/
theorem solve_withTag {root : Stage} (coherent : root.Coherent) (frontend tag : String) :
    solve frontend (root.withTag tag) = solve frontend root :=
  solve_eq_of_sameValue (coherent.withTag tag) coherent (.withTag root tag) frontend

/-- **Shared links cannot be observed.**  Discovery finds what a walk finds that compares
definitions in full and walks dependencies whenever it meets them, and roots that are equal by value
have the same manifest or the same failure. -/
theorem solve_ignores_sharing :
    (∀ root : Stage, root.Assembled →
      StageGraph.discover root = StageGraph.discoverByContents root) ∧
    ∀ first second : Stage, first.Assembled → second.Assembled → SameValue first second →
      ∀ frontend, solve frontend first = solve frontend second := by
  constructor
  · intro root assembled
    exact (StageGraph.discoverByContents_eq_discover assembled.coherent).symm
  · intro first second firstAssembled secondAssembled same frontend
    exact solve_eq_of_sameValue firstAssembled.coherent secondAssembled.coherent same frontend

end Manifest

/-! ## Roots with and without a shared stage

Two stages are built on a middle one, and the root joins the two.  In the first
session both stand on the very same middle stage; in the second session the
middle stage is made twice.
-/

namespace Joined

def low : Stage := ⟨"low", .image "rust", .empty, .empty, none⟩

/-- The middle stage, linked to the lowest by a link with the given mark. -/
def middle (mark : Nat) : Stage :=
  ⟨"middle", .stage "low", .empty, Chain.empty.push mark low, none⟩

/-- A stage on a middle stage. -/
def side (name : String) (mark : Nat) (parent : Stage) : Stage :=
  ⟨name, .stage "middle", .empty, Chain.empty.push mark parent, none⟩

/-- The root before it copies from the right side. -/
def topBase (mark : Nat) (left : Stage) : Stage :=
  ⟨"top", .stage "left", .empty, Chain.empty.push mark left, none⟩

/-- The root, which is built on the left side and copies from the right one. -/
def top (mark : Nat) (left right : Stage) : Stage :=
  { topBase mark left with
    layers := Chain.empty.push (mark + 2) (.copy "/bin" "/" none (some "right"))
    dependencies := (Chain.empty.push mark left).push (mark + 1) right }

/-- The root over one middle stage. -/
def shared : Stage := top 3 (side "left" 1 (middle 0)) (side "right" 2 (middle 0))

/-- The root over a middle stage that was made twice. -/
def apart : Stage := top 4 (side "left" 2 (middle 0)) (side "right" 3 (middle 1))

theorem shared_assembled : shared.Assembled := by
  have begun : Session ⟨.listed ["low", "middle", "left", "right", "top"] "", 0⟩ [] := .start _
  have one : Session ⟨.listed ["middle", "left", "right", "top"] "", 0⟩ [low] :=
    begun.perform (.onImage "rust") (by simp [StageJob.inputs])
  have two : Session ⟨.listed ["left", "right", "top"] "", 1⟩ [middle 0, low] :=
    one.perform (.onStage low) (by simp [StageJob.inputs])
  have three : Session ⟨.listed ["right", "top"] "", 2⟩
      [side "left" 1 (middle 0), middle 0, low] :=
    two.perform (.onStage (middle 0)) (by simp [StageJob.inputs])
  have four : Session ⟨.listed ["top"] "", 3⟩
      [side "right" 2 (middle 0), side "left" 1 (middle 0), middle 0, low] :=
    three.perform (.onStage (middle 0)) (by simp [StageJob.inputs])
  have five : Session ⟨.listed [] "", 4⟩
      [topBase 3 (side "left" 1 (middle 0)), side "right" 2 (middle 0),
        side "left" 1 (middle 0), middle 0, low] :=
    four.perform (.onStage (side "left" 1 (middle 0))) (by simp [StageJob.inputs])
  exact ⟨_, _, five.perform
    (.grow (topBase 3 (side "left" 1 (middle 0)))
      (.copyArtifact ((side "right" 2 (middle 0)).saveArtifact "/bin") "/" none))
    (by simp [StageJob.inputs, Growth.inputs, Stage.saveArtifact]), List.mem_cons_self⟩

theorem apart_assembled : apart.Assembled := by
  have begun : Session ⟨.listed ["low", "middle", "middle", "left", "right", "top"] "", 0⟩ [] :=
    .start _
  have one : Session ⟨.listed ["middle", "middle", "left", "right", "top"] "", 0⟩ [low] :=
    begun.perform (.onImage "rust") (by simp [StageJob.inputs])
  have two : Session ⟨.listed ["middle", "left", "right", "top"] "", 1⟩ [middle 0, low] :=
    one.perform (.onStage low) (by simp [StageJob.inputs])
  have three : Session ⟨.listed ["left", "right", "top"] "", 2⟩ [middle 1, middle 0, low] :=
    two.perform (.onStage low) (by simp [StageJob.inputs])
  have four : Session ⟨.listed ["right", "top"] "", 3⟩
      [side "left" 2 (middle 0), middle 1, middle 0, low] :=
    three.perform (.onStage (middle 0)) (by simp [StageJob.inputs])
  have five : Session ⟨.listed ["top"] "", 4⟩
      [side "right" 3 (middle 1), side "left" 2 (middle 0), middle 1, middle 0, low] :=
    four.perform (.onStage (middle 1)) (by simp [StageJob.inputs])
  have six : Session ⟨.listed [] "", 5⟩
      [topBase 4 (side "left" 2 (middle 0)), side "right" 3 (middle 1),
        side "left" 2 (middle 0), middle 1, middle 0, low] :=
    five.perform (.onStage (side "left" 2 (middle 0))) (by simp [StageJob.inputs])
  exact ⟨_, _, six.perform
    (.grow (topBase 4 (side "left" 2 (middle 0)))
      (.copyArtifact ((side "right" 3 (middle 1)).saveArtifact "/bin") "/" none))
    (by simp [StageJob.inputs, Growth.inputs, Stage.saveArtifact]), List.mem_cons_self⟩

theorem sameValue : shared.SameValue apart := by
  have lows : low.SameValue low := .intro rfl rfl rfl .nil
  have middles : ∀ first second, (middle first).SameValue (middle second) := fun _ _ =>
    .intro rfl rfl rfl (.cons lows .nil)
  have sides : ∀ name first second {parent other : Stage}, parent.SameValue other →
      (side name first parent).SameValue (side name second other) :=
    fun _ _ _ _ _ same => .intro rfl rfl rfl (.cons same .nil)
  exact .intro rfl rfl rfl
    (.cons (sides _ _ _ (middles _ _)) (.cons (sides _ _ _ (middles _ _)) .nil))

end Joined

/-- The two roots share different links and have the same manifest. -/
theorem Manifest.solve_ignores_sharing_of_joined :
    (Joined.middle 0).sharesDependencies (Joined.middle 1) = false ∧
      Joined.shared.Assembled ∧ Joined.apart.Assembled ∧
      Joined.shared.SameValue Joined.apart ∧
      StageGraph.discover Joined.apart = StageGraph.discoverByContents Joined.apart ∧
      ∀ frontend, solve frontend Joined.shared = solve frontend Joined.apart :=
  ⟨rfl, Joined.shared_assembled, Joined.apart_assembled, Joined.sameValue,
    solve_ignores_sharing.1 Joined.apart Joined.apart_assembled,
    solve_ignores_sharing.2 Joined.shared Joined.apart Joined.shared_assembled
      Joined.apart_assembled Joined.sameValue⟩

end StageManifest
