import StageManifest.Proofs.Chain.Ends
import StageManifest.Proofs.Chain.Keepers

/-!
# Chains and their histories

Chains share the cells of one store, while their histories follow from the operations
alone.  Every operation keeps the two in step (`Follows.perform`), so after any
operations each chain that lives reads as its history says, and keeps doing so until it is
dropped itself (`ChainKeeper.cells_follow_histories`).

Lists of links with marks are another way to keep chains.  Whatever is asked of a chain, it
answers the same there (`ChainKeeper.cells_answer_as_links`).
-/

set_option autoImplicit false

namespace StageManifest

variable {α β γ : Type}

/-! ## Ends of living chains -/

/-- The ends of the chains that live. -/
def endsOf (live : List (Option ChainHandle)) : List (Option Nat) :=
  live.filterMap (Option.map ChainHandle.last)

theorem endsOf_concat_none (live : List (Option ChainHandle)) :
    endsOf (live ++ [none]) = endsOf live := by
  simp [endsOf]

theorem endsOf_concat_some (live : List (Option ChainHandle)) (chain : ChainHandle) :
    (chain.last :: endsOf live).Perm (endsOf (live ++ [some chain])) := by
  simpa [endsOf] using (List.perm_append_singleton chain.last (endsOf live)).symm

/-- A chain that is taken away takes one end with it. -/
theorem endsOf_set_none {live : List (Option ChainHandle)} {place : Nat} {chain : ChainHandle}
    (lives : inPlace? live place = some chain) :
    (endsOf live).Perm (chain.last :: endsOf (live.set place none)) := by
  induction live generalizing place with
  | nil => cases lives
  | cons slot live ih =>
      cases place with
      | zero =>
          cases slot with
          | none => cases lives
          | some only =>
              cases lives
              exact .refl _
      | succ place =>
          cases slot with
          | none => exact ih lives
          | some first => exact ((ih lives).cons first.last).trans (.swap _ _ _)

theorem last_mem_endsOf {live : List (Option ChainHandle)} {place : Nat} {chain : ChainHandle}
    (lives : inPlace? live place = some chain) : chain.last ∈ endsOf live :=
  (endsOf_set_none lives).mem_iff.mpr List.mem_cons_self

/-! ## Chains that follow their histories -/

/-- Two places that hold related things hold them when the things are related otherwise. -/
theorem rel_imp {first second : β → γ → Prop} {slot : Option β} {other : Option γ}
    (related : Option.Rel first slot other)
    (imp : ∀ thing one, slot = some thing → first thing one → second thing one) :
    Option.Rel second slot other := by
  cases related with
  | none => exact .none
  | some related => exact .some (imp _ _ rfl related)

/-- A chain shows its history in the store and knows how long it is. -/
structure ChainStore.Reads (store : ChainStore α) (chain : ChainHandle)
    (history : ChainHistory α) : Prop where
  shows : store.Shows chain.last history
  size : chain.size = history.values.length

theorem ChainStore.Reads.grow {store other : ChainStore α} {chain : ChainHandle}
    {history : ChainHistory α} (reads : store.Reads chain history) (within : store.Within other) :
    other.Reads chain history :=
  ⟨reads.shows.grow within, reads.size⟩

/-- An append to a chain reads as one more append in its history, under the next number. -/
theorem ChainStore.Reads.push {store : ChainStore α} {chain : ChainHandle}
    {history : ChainHistory α} (reads : store.Reads chain history) {value : α}
    (within : store.Within (store.push chain value).1) :
    (store.push chain value).1.Reads (store.push chain value).2
      (.push history store.cells.size value) := by
  have added : (store.push chain value).1.cell? store.cells.size =
      some ⟨value, chain.last, 1⟩ := by
    have number := store.size_retain chain.last
    exact (ChainStore.cell?_add (store.retain chain.last) _ _).trans (if_pos number.symm)
  constructor
  · have isEnd : (store.push chain value).2.last = some store.cells.size :=
      congrArg some (store.size_retain chain.last)
    rw [isEnd]
    exact .push added (reads.shows.grow within)
  · rw [ChainHistory.values, List.length_append, ← reads.size]
    rfl

/-- The living chains own the store, the next cell has the number of the next append, and every
living chain reads as its history. -/
structure Follows (chains : LiveChains (ChainStore α) ChainHandle)
    (known : LiveChains Nat (ChainHistory α)) : Prop where
  owned : chains.kept.Owned (endsOf chains.live)
  pushes : chains.kept.cells.size = known.kept
  places : chains.live.length = known.live.length
  reads : ∀ place,
    Option.Rel chains.kept.Reads (chains.chain? place) (known.chain? place)

namespace Follows

open ChainKeeper

variable {chains : LiveChains (ChainStore α) ChainHandle}
  {known : LiveChains Nat (ChainHistory α)} {place : Nat} {chain : ChainHandle}
  {history : ChainHistory α}

theorem start : Follows (⟨.empty, []⟩ : LiveChains (ChainStore α) ChainHandle) ⟨0, []⟩ :=
  ⟨ChainStore.owned_empty, rfl, rfl, fun _ => .none⟩

/-- A place holds a chain with its history, or neither. -/
theorem lives_or_empty (follows : Follows chains known) (place : Nat) :
    (chains.chain? place = none ∧ known.chain? place = none) ∨
      ∃ chain history, chains.chain? place = some chain ∧ known.chain? place = some history ∧
        chains.kept.Reads chain history := by
  have reads := follows.reads place
  generalize chains.chain? place = slot at reads ⊢
  generalize known.chain? place = told at reads ⊢
  cases reads with
  | none => exact .inl ⟨rfl, rfl⟩
  | some reads => exact .inr ⟨_, _, rfl, rfl, reads⟩

/-- A living chain has a history, and reads as it. -/
theorem told_of_lives (follows : Follows chains known) (lives : chains.chain? place = some chain) :
    ∃ history, known.chain? place = some history ∧ chains.kept.Reads chain history := by
  rcases follows.lives_or_empty place with ⟨free, _⟩ | ⟨_, history, found, told, reads⟩
  · cases free.symm.trans lives
  · cases found.symm.trans lives
    exact ⟨history, told, reads⟩

theorem reads_of_lives (follows : Follows chains known) (lives : chains.chain? place = some chain)
    (told : known.chain? place = some history) : chains.kept.Reads chain history := by
  obtain ⟨_, found, reads⟩ := follows.told_of_lives lives
  cases found.symm.trans told
  exact reads

/-- A place is taken in a store that has all the cells of the old one. -/
theorem concat (follows : Follows chains known) {store : ChainStore α} {pushes : Nat}
    {chain : Option ChainHandle} {history : Option (ChainHistory α)}
    (owned : store.Owned (endsOf (chains.live ++ [chain]))) (pushed : store.cells.size = pushes)
    (within : chains.kept.Within store) (joins : Option.Rel store.Reads chain history) :
    Follows ⟨store, chains.live ++ [chain]⟩ ⟨pushes, known.live ++ [history]⟩ := by
  refine ⟨owned, pushed, ?_, fun place => ?_⟩
  · rw [List.length_append, List.length_append, follows.places]
    rfl
  · rw [LiveChains.chain?, LiveChains.chain?, inPlace?_concat, inPlace?_concat, follows.places]
    split
    · exact joins
    · exact rel_imp (follows.reads place) fun _ _ _ reads => reads.grow within

/-- A place that stays empty changes nothing. -/
theorem skip (follows : Follows chains known) :
    Follows ⟨chains.kept, chains.live ++ [none]⟩ ⟨known.kept, known.live ++ [none]⟩ := by
  refine follows.concat ?_ follows.pushes (.refl _) .none
  rw [endsOf_concat_none]
  exact follows.owned

/-- A chain joins that reads as its history, with one end more for the store. -/
theorem join (follows : Follows chains known) {store : ChainStore α} {pushes : Nat}
    (owned : store.Owned (chain.last :: endsOf chains.live)) (pushed : store.cells.size = pushes)
    (within : chains.kept.Within store) (reads : store.Reads chain history) :
    Follows ⟨store, chains.live ++ [some chain]⟩ ⟨pushes, known.live ++ [some history]⟩ :=
  follows.concat (owned.perm (endsOf_concat_some _ _)) pushed within (.some reads)

/-- A chain is taken away, and only it. -/
theorem drop (follows : Follows chains known) (lives : chains.chain? place = some chain) :
    Follows ⟨chains.kept.drop chain, chains.live.set place none⟩
      ⟨known.kept, known.live.set place none⟩ := by
  have owned := follows.owned.perm (endsOf_set_none lives)
  have dropped : (chains.kept.drop chain).Owned (endsOf (chains.live.set place none)) := by
    rw [ChainStore.drop]
    split
    next isEmpty =>
      rw [isEmpty] at owned
      exact ChainStore.Owned.cons_none.mp owned
    next number isEnd =>
      rw [isEnd] at owned
      exact owned.release
  refine ⟨dropped, ?_, ?_, fun other => ?_⟩
  · rw [ChainStore.size_drop, follows.pushes]
  · rw [List.length_set, List.length_set, follows.places]
  · rw [LiveChains.chain?, LiveChains.chain?, inPlace?_set_none, inPlace?_set_none]
    by_cases same : other = place
    · rw [if_pos same, if_pos same]
      exact .none
    · rw [if_neg same, if_neg same]
      -- Another chain still owns its end, so nothing that it needs was freed.
      refine rel_imp (follows.reads other) fun kept history stays reads => ?_
      have keeps : inPlace? (chains.live.set place none) other = some kept := by
        rw [inPlace?_set_none, if_neg same]
        exact stays
      refine ⟨reads.shows.shrink (ChainStore.drop_within _ _) dropped fun number isEnd => ?_,
        reads.size⟩
      exact dropped.exists_of_mem (isEnd ▸ last_mem_endsOf keeps)

/-- **Every operation keeps the chains in step with their histories.** -/
theorem perform (follows : Follows chains known) (operation : ChainOperation α) :
    Follows (cells.perform chains operation) (histories.perform known operation) := by
  cases operation with
  | new =>
      exact follows.join (ChainStore.Owned.cons_none.mpr follows.owned) follows.pushes (.refl _)
        ⟨.new, rfl⟩
  | push place value =>
      rw [ChainKeeper.perform, ChainKeeper.perform]
      rcases follows.lives_or_empty place with ⟨free, untold⟩ | ⟨chain, history, lives, told, reads⟩
      · rw [free, untold]
        exact follows.skip
      · rw [lives, told]
        have member := last_mem_endsOf lives
        have within := follows.owned.within_push member value
        have pushed := chains.kept.size_push chain value
        have longer := reads.push within
        rw [follows.pushes] at pushed longer
        exact follows.join (follows.owned.push member value) pushed within longer
  | clone place =>
      rw [ChainKeeper.perform, ChainKeeper.perform]
      rcases follows.lives_or_empty place with ⟨free, untold⟩ | ⟨chain, history, lives, told, reads⟩
      · rw [free, untold]
        exact follows.skip
      · rw [lives, told]
        have member := last_mem_endsOf lives
        have within := follows.owned.within_retain member
        have retained := chains.kept.size_retain chain.last
        rw [follows.pushes] at retained
        exact follows.join (follows.owned.retain member) retained within
          ⟨.clone (reads.shows.grow within), reads.size⟩
  | drop place =>
      rw [ChainKeeper.perform, ChainKeeper.perform]
      rcases follows.lives_or_empty place with ⟨free, untold⟩ | ⟨chain, history, lives, told, reads⟩
      · rw [free, untold]
        exact follows.skip
      · rw [lives, told]
        exact (follows.drop lives).skip

/-- The chains follow their histories after any operations. -/
theorem run (operations : List (ChainOperation α)) :
    Follows (cells.run operations) (histories.run operations) :=
  run_related Follows .start (fun _ _ operation follows => follows.perform operation) operations

end Follows

/-! ## Appends told apart by their numbers -/

/-- The numbers of appends lie below that of the next one, and histories that go back to appends
with the same number go back to the same append. -/
structure Numbered (known : LiveChains Nat (ChainHistory α)) : Prop where
  below : ∀ history number, some history ∈ known.live → history.lastPush = some number →
    number < known.kept
  agree : ∀ first second, some first ∈ known.live → some second ∈ known.live →
    first.lastPush = second.lastPush → first.source = second.source

namespace Numbered

open ChainKeeper

variable {known : LiveChains Nat (ChainHistory α)}

theorem start : Numbered (⟨0, []⟩ : LiveChains Nat (ChainHistory α)) :=
  ⟨nofun, nofun⟩

/-- Histories may go. -/
theorem subset (numbered : Numbered known) {live : List (Option (ChainHistory α))}
    (kept : ∀ history, some history ∈ live → some history ∈ known.live) :
    Numbered ⟨known.kept, live⟩ :=
  ⟨fun history number member => numbered.below history number (kept history member),
    fun first second firstMember secondMember =>
      numbered.agree first second (kept first firstMember) (kept second secondMember)⟩

/-- A history joins without an append, with an append that is known, or with the next one. -/
theorem join (numbered : Numbered known) {pushes : Nat} (le : known.kept ≤ pushes)
    {history : ChainHistory α}
    (joins : history.lastPush = none ∨
      (∃ original, some original ∈ known.live ∧ history.source = original.source) ∨
      history.lastPush = some known.kept ∧ known.kept < pushes) :
    Numbered ⟨pushes, known.live ++ [some history]⟩ := by
  -- The new history against an old one; the other order follows by symmetry.
  have against : ∀ other, some other ∈ known.live → history.lastPush = other.lastPush →
      history.source = other.source := by
    intro other member same
    rcases joins with unmade | ⟨original, isKnown, source⟩ | ⟨isNext, _⟩
    · rw [ChainHistory.source_eq_new unmade, ChainHistory.source_eq_new (same.symm.trans unmade)]
    · have lastPush := ChainHistory.lastPush_eq_of_source source
      exact source.trans (numbered.agree original other isKnown member (lastPush.symm.trans same))
    · have small := numbered.below other known.kept member (same.symm.trans isNext)
      exact absurd small (Nat.lt_irrefl _)
  constructor
  · intro other number member isLast
    rcases List.mem_append.mp member with old | new
    · exact Nat.lt_of_lt_of_le (numbered.below other number old isLast) le
    · cases List.mem_singleton.mp new
      rcases joins with unmade | ⟨original, isKnown, source⟩ | ⟨isNext, below⟩
      · cases unmade.symm.trans isLast
      · have lastPush := ChainHistory.lastPush_eq_of_source source
        have small := numbered.below original number isKnown (lastPush.symm.trans isLast)
        exact Nat.lt_of_lt_of_le small le
      · cases isNext.symm.trans isLast
        exact below
  · intro first second firstMember secondMember same
    rcases List.mem_append.mp firstMember with firstOld | firstNew
    · rcases List.mem_append.mp secondMember with secondOld | secondNew
      · exact numbered.agree first second firstOld secondOld same
      · cases List.mem_singleton.mp secondNew
        exact (against first firstOld same.symm).symm
    · cases List.mem_singleton.mp firstNew
      rcases List.mem_append.mp secondMember with secondOld | secondNew
      · exact against second secondOld same
      · cases List.mem_singleton.mp secondNew
        rfl

theorem skip (numbered : Numbered known) :
    Numbered ⟨known.kept, known.live ++ [none]⟩ :=
  numbered.subset fun history member => by simpa using member

theorem perform (numbered : Numbered known) (operation : ChainOperation α) :
    Numbered (histories.perform known operation) := by
  cases operation with
  | new => exact numbered.join (Nat.le_refl _) (.inl rfl)
  | push place value =>
      rw [ChainKeeper.perform]
      split
      · exact numbered.skip
      · exact numbered.join (Nat.le_succ _) (.inr (.inr ⟨rfl, Nat.lt_succ_self _⟩))
  | clone place =>
      rw [ChainKeeper.perform]
      split
      · exact numbered.skip
      next history told =>
        exact numbered.join (Nat.le_refl _) (.inr (.inl ⟨history, mem_of_inPlace? told, rfl⟩))
  | drop place =>
      rw [ChainKeeper.perform]
      split
      · exact numbered.skip
      · refine numbered.subset fun history member => ?_
        rcases List.mem_append.mp member with kept | last
        · exact (List.mem_or_eq_of_mem_set kept).resolve_right (Option.some_ne_none history)
        · cases List.mem_singleton.mp last

theorem run (operations : List (ChainOperation α)) : Numbered (histories.run operations) := by
  induction operations using List.reverseRecOn with
  | nil => exact .start
  | append_singleton operations operation ih =>
      rw [run_append]
      exact ih.perform operation

end Numbered

/-! ## What a chain answers -/

/-- What is asked of a chain is answered as it is for the values. -/
structure ChainStore.Answers (store : ChainStore α) (chain : ChainHandle) (values : List α) :
    Prop where
  toList : store.toList chain = values
  size : chain.size = values.length
  isEmpty : chain.isEmpty = values.isEmpty
  last? : store.last? chain = values.getLast?

/-- A chain that reads as its history answers with the values of the history. -/
theorem ChainStore.Reads.answers {store : ChainStore α} {chain : ChainHandle}
    {history : ChainHistory α} {ends : List (Option Nat)} (reads : store.Reads chain history)
    (owned : store.Owned ends) : store.Answers chain history.values where
  toList := reads.shows.toList_eq owned
  size := reads.size
  isEmpty := by
    rw [Bool.eq_iff_iff, ChainHandle.isEmpty, reads.size, beq_iff_eq,
      List.isEmpty_iff_length_eq_zero]
  last? := reads.shows.last?_eq

namespace ChainStore.Answers

variable {store : ChainStore α} {chain second : ChainHandle} {values others : List α}

/-- Chains with different ends are compared by their values. -/
theorem sameContent_of_differ [BEq α] (answers : store.Answers chain values)
    (later : store.Answers second others) (differ : chain.sameEnd second = false) :
    store.sameContent chain second = (values == others) := by
  rw [sameContent, differ, Bool.false_or, answers.toList, later.toList, answers.size, later.size,
    Bool.eq_iff_iff, Bool.and_eq_true, beq_iff_eq]
  exact and_iff_right_of_imp List.length_eq_of_beq

/-- **Comparing chains is comparing values**, also where chains with one end are not compared any
further, unless there is a value that does not equal itself. -/
theorem sameContent_eq [BEq α] (answers : store.Answers chain values)
    (later : store.Answers second others) (sound : chain.sameEnd second = true → values = others)
    (reflexive : ∀ value ∈ values, (value == value) = true) :
    store.sameContent chain second = (values == others) := by
  cases same : chain.sameEnd second with
  | false => exact answers.sameContent_of_differ later same
  | true =>
      rw [sameContent, same, Bool.true_or, ← sound same]
      clear answers sound
      induction values with
      | nil => rfl
      | cons value values ih =>
          rw [List.cons_beq_cons, reflexive value List.mem_cons_self, Bool.true_and]
          exact ih fun other member => reflexive other (List.mem_cons_of_mem value member)

end ChainStore.Answers

/-! ## Chains by their histories -/

namespace ChainKeeper

section Living

variable {operations : List (ChainOperation α)} {place other : Nat} {chain second : ChainHandle}
  {history later : ChainHistory α}

theorem cells_answer (lives : (cells.run operations).chain? place = some chain)
    (told : (histories.run operations).chain? place = some history) :
    (cells.run operations).kept.Answers chain history.values :=
  have follows := Follows.run operations
  (follows.reads_of_lives lives told).answers follows.owned

/-- Chains have the same end if they are clones of what one append made, or if they are empty. -/
theorem sameEnd_iff_source (lives : (cells.run operations).chain? place = some chain)
    (told : (histories.run operations).chain? place = some history)
    (secondLives : (cells.run operations).chain? other = some second)
    (laterTold : (histories.run operations).chain? other = some later) :
    chain.sameEnd second = true ↔ history.source = later.source := by
  have follows := Follows.run operations
  rw [ChainHandle.sameEnd, beq_iff_eq, (follows.reads_of_lives lives told).shows.last_eq,
    (follows.reads_of_lives secondLives laterTold).shows.last_eq]
  constructor
  · exact (Numbered.run operations).agree history later (mem_of_inPlace? told)
      (mem_of_inPlace? laterTold)
  · exact ChainHistory.lastPush_eq_of_source

end Living

/-- **Chains in a store are what their histories say**, after any operations.  The same chains live.
Each answers with the values that were appended to it, and goes on to do so with whatever is done
then, as long as it is not dropped itself.  Two chains have the same end exactly if they are clones
of what the same append made or are empty, and then they hold the same values.  Chains are equal
exactly if their values are, where it takes a value that equals itself if they have one end. -/
theorem cells_follow_histories (operations : List (ChainOperation α)) :
    (∀ place, ((cells.run operations).chain? place).isSome =
      ((histories.run operations).chain? place).isSome) ∧
    (∀ place chain history, (cells.run operations).chain? place = some chain →
      (histories.run operations).chain? place = some history →
      (cells.run operations).kept.Answers chain history.values ∧
      ∀ more, .drop place ∉ more →
        (cells.run (operations ++ more)).chain? place = some chain ∧
        (histories.run (operations ++ more)).chain? place = some history ∧
        (cells.run (operations ++ more)).kept.Answers chain history.values) ∧
    (∀ place other chain second history later,
      (cells.run operations).chain? place = some chain →
      (cells.run operations).chain? other = some second →
      (histories.run operations).chain? place = some history →
      (histories.run operations).chain? other = some later →
      (chain.sameEnd second = true ↔ history.source = later.source) ∧
      (chain.sameEnd second = true → history.values = later.values) ∧
      (∀ [BEq α], chain.sameEnd second = false →
        (cells.run operations).kept.sameContent chain second =
          (history.values == later.values)) ∧
      (∀ [BEq α], (∀ value ∈ history.values, (value == value) = true) →
        (cells.run operations).kept.sameContent chain second =
          (history.values == later.values)) ∧
      (∀ [BEq α] [LawfulBEq α],
        (cells.run operations).kept.sameContent chain second = true ↔
          history.values = later.values)) := by
  refine ⟨fun place => ?_, fun place chain history lives told => ⟨cells_answer lives told, ?_⟩,
    fun place other chain second history later lives secondLives told laterTold => ?_⟩
  · rcases (Follows.run operations).lives_or_empty place with
      ⟨free, untold⟩ | ⟨chain, history, lives, told, _⟩
    · rw [free, untold]
      rfl
    · rw [lives, told]
      rfl
  · intro more kept
    have stays := chain?_run_append lives kept
    have toldStill := chain?_run_append told kept
    exact ⟨stays, toldStill, cells_answer stays toldStill⟩
  · have answers := cells_answer lives told
    have laterAnswers := cells_answer secondLives laterTold
    have sameEnd := sameEnd_iff_source lives told secondLives laterTold
    have sound : chain.sameEnd second = true → history.values = later.values := by
      intro same
      rw [← ChainHistory.values_source, sameEnd.mp same, ChainHistory.values_source]
    refine ⟨sameEnd, sound, ?_, ?_, ?_⟩
    · intro _ differ
      exact answers.sameContent_of_differ laterAnswers differ
    · intro _ reflexive
      exact answers.sameContent_eq laterAnswers sound reflexive
    · intro _ _
      have reflexive : ∀ value ∈ history.values, (value == value) = true :=
        fun value _ => beq_self_eq_true value
      rw [answers.sameContent_eq laterAnswers sound reflexive, beq_iff_eq]

/-- Two chains grow from one that is dropped; each keeps its values, also when the clone of the
first is dropped, and they are equal though their ends differ. -/
theorem cells_follow_histories_of_branches :
    let operations : List (ChainOperation Nat) :=
      [.new, .push 0 7, .push 1 8, .clone 2, .push 1 8, .drop 1]
    let store := (cells.run operations).kept
    (cells.run operations).chain? 2 = some ⟨some 1, 2⟩ ∧
      (cells.run operations).chain? 4 = some ⟨some 2, 2⟩ ∧
      store.Answers ⟨some 1, 2⟩ [7, 8] ∧
      (cells.run (operations ++ [.drop 3])).kept.Answers ⟨some 1, 2⟩ [7, 8] ∧
      ChainHandle.sameEnd ⟨some 1, 2⟩ ⟨some 2, 2⟩ = false ∧
      store.sameContent ⟨some 1, 2⟩ ⟨some 2, 2⟩ = true := by
  intro operations store
  have first : (cells.run operations).chain? 2 = some ⟨some 1, 2⟩ := rfl
  have second : (cells.run operations).chain? 4 = some ⟨some 2, 2⟩ := rfl
  have told : (histories.run operations).chain? 2 = some (.push (.push .new 0 7) 1 8) := rfl
  have laterTold : (histories.run operations).chain? 4 = some (.push (.push .new 0 7) 2 8) := rfl
  obtain ⟨_, answers, compared⟩ := cells_follow_histories operations
  obtain ⟨now, always⟩ := answers 2 _ _ first told
  obtain ⟨_, _, differ, _⟩ := compared 2 4 _ _ _ _ first second told laterTold
  exact ⟨first, second, now, (always [.drop 3] (by simp)).2.2, rfl, differ rfl⟩

end ChainKeeper

/-! ## Chains as links -/

namespace ChainHistory

/-- The links that the appends made. -/
def chain : ChainHistory α → Chain α
  | .new => .empty
  | .push before number value => before.chain.push number value
  | .clone original => original.chain

theorem toList_chain (history : ChainHistory α) : history.chain.toList = history.values := by
  induction history with
  | new => rfl
  | push before number value ih => rw [chain, Chain.toList_push, ih, values]
  | clone original ih => exact ih

theorem endMark?_chain (history : ChainHistory α) : history.chain.endMark? = history.lastPush := by
  induction history with
  | new => rfl
  | push before number value ih => rfl
  | clone original ih => exact ih

end ChainHistory

namespace ChainKeeper

theorem links_perform (known : LiveChains Nat (ChainHistory α)) (operation : ChainOperation α) :
    links.perform (known.map ChainHistory.chain) operation =
      (histories.perform known operation).map ChainHistory.chain := by
  cases operation with
  | new => simp [perform, LiveChains.map, links, histories, ChainHistory.chain]
  | push place value =>
      rw [perform, perform, LiveChains.chain?_map]
      cases known.chain? place with
      | none => simp [LiveChains.map]
      | some history => simp [LiveChains.map, links, histories, ChainHistory.chain]
  | clone place =>
      rw [perform, perform, LiveChains.chain?_map]
      cases known.chain? place with
      | none => simp [LiveChains.map]
      | some history => simp [LiveChains.map, links, histories, ChainHistory.chain]
  | drop place =>
      rw [perform, perform, LiveChains.chain?_map]
      cases known.chain? place with
      | none => simp [LiveChains.map]
      | some history => simp [LiveChains.map, links, histories, List.map_set]

/-- Links are kept as the histories say. -/
theorem links_run (operations : List (ChainOperation α)) :
    links.run operations = (histories.run operations).map ChainHistory.chain := by
  refine run_related (fun chains known => chains = known.map ChainHistory.chain) rfl ?_ operations
  rintro _ known operation rfl
  exact links_perform known operation

/-- **Chains in a store and chains of links answer alike**, so what is known about links holds of
the chains that share their cells. -/
theorem cells_answer_as_links [BEq α] {operations : List (ChainOperation α)} {place other : Nat}
    {chain second : ChainHandle} (lives : (cells.run operations).chain? place = some chain)
    (secondLives : (cells.run operations).chain? other = some second) :
    ∃ first later, (links.run operations).chain? place = some first ∧
      (links.run operations).chain? other = some later ∧
      (cells.run operations).kept.toList chain = first.toList ∧
      chain.size = first.size ∧ chain.isEmpty = first.isEmpty ∧
      (cells.run operations).kept.last? chain = first.last? ∧
      chain.sameEnd second = first.sameEnd later ∧
      (cells.run operations).kept.sameContent chain second = first.sameContent later := by
  have follows := Follows.run operations
  obtain ⟨history, told, reads⟩ := follows.told_of_lives lives
  obtain ⟨laterHistory, laterTold, laterReads⟩ := follows.told_of_lives secondLives
  have answers := reads.answers follows.owned
  have laterAnswers := laterReads.answers follows.owned
  have size : ∀ history : ChainHistory α, history.chain.size = history.values.length := by
    intro history
    rw [← Chain.length_toList, ChainHistory.toList_chain]
  have sameEnd : chain.sameEnd second = history.chain.sameEnd laterHistory.chain := by
    rw [Bool.eq_iff_iff, ChainHandle.sameEnd, beq_iff_eq, Chain.sameEnd_iff,
      ChainHistory.endMark?_chain, ChainHistory.endMark?_chain, reads.shows.last_eq,
      laterReads.shows.last_eq]
  refine ⟨history.chain, laterHistory.chain, ?_, ?_, ?_, ?_, ?_, ?_, sameEnd, ?_⟩
  · rw [links_run, LiveChains.chain?_map, told]
    rfl
  · rw [links_run, LiveChains.chain?_map, laterTold]
    rfl
  · rw [answers.toList, ChainHistory.toList_chain]
  · rw [answers.size, size]
  · rw [answers.isEmpty, ← ChainHistory.toList_chain]
    simp [Chain.toList, Chain.isEmpty]
  · rw [answers.last?, Chain.last?_eq_getLast?, ChainHistory.toList_chain]
  · rw [ChainStore.sameContent, Chain.sameContent, sameEnd, answers.size, laterAnswers.size,
      answers.toList, laterAnswers.toList, size, size, ChainHistory.toList_chain,
      ChainHistory.toList_chain]

end ChainKeeper

end StageManifest
