import StageManifest.Chain.Basic

/-!
# Chains that end at the same link

Marks are drawn in rising order, so a chain is known by the mark of its last
link.  A collection of chains is coherent when equal end marks mean equal chains
and every end mark lies below the mark that is drawn next.  A chain that is
empty, that is in the collection already, or that ends at a mark drawn since
then can join the collection (`Coherent.cons`).
-/

set_option autoImplicit false

namespace StageManifest.Chain

variable {α : Type}

/-- The mark of the last link. -/
def endMark? (chain : Chain α) : Option Nat := chain.links.head?.map (·.mark)

@[simp] theorem endMark?_empty : (empty : Chain α).endMark? = none := rfl

@[simp] theorem endMark?_push (chain : Chain α) (mark : Nat) (value : α) :
    (chain.push mark value).endMark? = some mark := rfl

/-- A chain without an end mark is empty. -/
theorem eq_empty_of_endMark? {chain : Chain α} (noMark : chain.endMark? = none) :
    chain = empty := by
  obtain ⟨links⟩ := chain
  cases links with
  | nil => rfl
  | cons link rest => simp [endMark?] at noMark

/-- Two chains end at the same link exactly when their end marks are equal. -/
theorem sameEnd_iff {first second : Chain α} :
    first.sameEnd second = true ↔ first.endMark? = second.endMark? := by
  obtain ⟨links⟩ := first
  obtain ⟨others⟩ := second
  cases links <;> cases others <;> simp [sameEnd, endMark?]

/-- The chain ends at a mark from the first bound up to the second. -/
def EndsWithin (low high : Nat) (chain : Chain α) : Prop :=
  ∃ mark, chain.endMark? = some mark ∧ low ≤ mark ∧ mark < high

/-- An append ends at the mark it is given. -/
theorem endsWithin_push (chain : Chain α) {low mark high : Nat} (value : α) (least : low ≤ mark)
    (below : mark < high) : EndsWithin low high (chain.push mark value) :=
  ⟨mark, rfl, least, below⟩

theorem EndsWithin.mono {low high lower higher : Nat} {chain : Chain α}
    (ends : EndsWithin low high chain) (least : lower ≤ low) (most : high ≤ higher) :
    EndsWithin lower higher chain := by
  obtain ⟨mark, found, low_le, lt_high⟩ := ends
  exact ⟨mark, found, Nat.le_trans least low_le, Nat.lt_of_lt_of_le lt_high most⟩

/-- Every end mark lies below the bound, and chains that end at the same link are equal. -/
structure Coherent (bound : Nat) (chains : List (Chain α)) : Prop where
  below : ∀ chain ∈ chains, ∀ mark, chain.endMark? = some mark → mark < bound
  agree : ∀ first ∈ chains, ∀ second ∈ chains, first.sameEnd second = true → first = second

theorem coherent_nil (bound : Nat) : Coherent bound ([] : List (Chain α)) :=
  ⟨by simp, by simp⟩

/-- A chain that is empty, known already or ends at a new mark joins a coherent collection. -/
theorem Coherent.cons {low high : Nat} {chains : List (Chain α)} {chain : Chain α}
    (coherent : Coherent low chains) (le : low ≤ high)
    (joins : chain = empty ∨ chain ∈ chains ∨ EndsWithin low high chain) :
    Coherent high (chain :: chains) := by
  have below : ∀ other ∈ chains, ∀ mark, other.endMark? = some mark → mark < high :=
    fun other member mark found => Nat.lt_of_lt_of_le (coherent.below other member mark found) le
  -- The new chain against an old one; the other order follows by symmetry.
  have against : ∀ other ∈ chains, chain.endMark? = other.endMark? → chain = other := by
    intro other member same
    rcases joins with rfl | known | ⟨mark, found, least, _⟩
    · exact (eq_empty_of_endMark? (same.symm.trans endMark?_empty)).symm
    · exact coherent.agree chain known other member (sameEnd_iff.mpr same)
    · have small := coherent.below other member mark (same.symm.trans found)
      omega
  constructor
  · intro other member mark found
    rcases List.mem_cons.mp member with rfl | member
    · rcases joins with rfl | known | ⟨end_, isEnd, _, most⟩
      · simp at found
      · exact below other known mark found
      · rw [isEnd, Option.some.injEq] at found
        omega
    · exact below other member mark found
  · intro first firstMember second secondMember same
    rw [sameEnd_iff] at same
    rcases List.mem_cons.mp firstMember with firstNew | firstOld
    · rcases List.mem_cons.mp secondMember with secondNew | secondOld
      · rw [firstNew, secondNew]
      · rw [firstNew] at same ⊢
        exact against second secondOld same
    · rcases List.mem_cons.mp secondMember with secondNew | secondOld
      · rw [secondNew] at same ⊢
        exact (against first firstOld same.symm).symm
      · exact coherent.agree first firstOld second secondOld (sameEnd_iff.mpr same)

end StageManifest.Chain
