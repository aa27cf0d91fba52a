import Mathlib.Data.List.Count
import StageManifest.Chain.Store

/-!
# Owners of cells

A cell is owned by the chains that end at it and by the cells that follow it, and its
count says how many these are.  A store is owned by a list of ends when every count is
right for chains with these ends and cells follow cells with smaller numbers
(`ChainStore.Owned`).  Then every end, and every cell that a cell in use follows, is in
use, so a chain can be read to its start.

An operation changes the ends that own the store and nothing else that can be
observed: one end more for an append (`Owned.push`) and for a clone (`Owned.retain`), one
less for a drop (`Owned.release`).  The cells that are in use before and after have the same value
and follow the same cell (`Within`).
-/

set_option autoImplicit false

namespace StageManifest.ChainStore

variable {α : Type} {store other : ChainStore α} {ends : List (Option Nat)} {number : Nat}
  {cell : ChainCell α}

/-! ## Cells -/

/-- The store with another content at the place of a number. -/
def put (store : ChainStore α) (number : Nat) (slot : Option (ChainCell α)) : ChainStore α :=
  ⟨store.cells.setIfInBounds number slot⟩

/-- The store with one cell more, which gets the next number. -/
def add (store : ChainStore α) (cell : ChainCell α) : ChainStore α :=
  ⟨store.cells.push (some cell)⟩

theorem cell?_eq (store : ChainStore α) (number : Nat) :
    store.cell? number = (store.cells[number]?).getD none :=
  Array.getD_eq_getD_getElem?

theorem lt_size_of_cell? (found : store.cell? number = some cell) : number < store.cells.size := by
  by_contra outside
  rw [cell?_eq, Array.getElem?_eq_none (Nat.le_of_not_lt outside)] at found
  cases found

theorem cell?_put (inside : number < store.cells.size) (slot : Option (ChainCell α)) (other : Nat) :
    (store.put number slot).cell? other = if other = number then slot else store.cell? other := by
  rw [cell?_eq, put, Array.getElem?_setIfInBounds]
  by_cases same : number = other
  · rw [if_pos same, if_pos inside, if_pos same.symm, Option.getD_some]
  · rw [if_neg same, if_neg (Ne.symm same), cell?_eq]

theorem cell?_add (store : ChainStore α) (cell : ChainCell α) (other : Nat) :
    (store.add cell).cell? other =
      if other = store.cells.size then some cell else store.cell? other := by
  rw [cell?_eq, add, Array.getElem?_push]
  split
  · rfl
  · rw [cell?_eq]

/-- One more owner is another count in the same cell. -/
theorem retain_eq_put (found : store.cell? number = some cell) :
    store.retain (some number) = store.put number (some { cell with owners := cell.owners + 1 }) := by
  have inside := lt_size_of_cell? found
  rw [cell?_eq, Array.getElem?_eq_getElem inside, Option.getD_some] at found
  rw [retain, put]
  congr 1
  apply Array.ext_getElem?
  intro other
  rw [Array.getElem?_modify, Array.getElem?_setIfInBounds]
  split
  next same =>
    subst same
    rw [Array.getElem?_eq_getElem inside, found]
    rfl
  · rfl

/-! ## Stores with the same cells -/

/-- Every cell of a store is in another one, with the same value and the same cell before it. -/
def Within (store other : ChainStore α) : Prop :=
  ∀ number cell, store.cell? number = some cell →
    ∃ same, other.cell? number = some same ∧ same.value = cell.value ∧
      same.previous = cell.previous

theorem Within.refl (store : ChainStore α) : store.Within store :=
  fun _ cell found => ⟨cell, found, rfl, rfl⟩

theorem Within.trans {third : ChainStore α} (first : store.Within other)
    (second : other.Within third) : store.Within third := by
  intro number cell found
  obtain ⟨middle, isMiddle, value, previous⟩ := first number cell found
  obtain ⟨last, isLast, lastValue, lastPrevious⟩ := second number middle isMiddle
  exact ⟨last, isLast, lastValue.trans value, lastPrevious.trans previous⟩

theorem within_put_some (found : store.cell? number = some cell) (count : Nat) :
    store.Within (store.put number (some { cell with owners := count })) := by
  intro other held isHeld
  rw [cell?_put (lt_size_of_cell? found)]
  split
  next isNumber =>
    subst isNumber
    cases found.symm.trans isHeld
    exact ⟨_, rfl, rfl, rfl⟩
  · exact ⟨held, isHeld, rfl, rfl⟩

theorem put_some_within (found : store.cell? number = some cell) (count : Nat) :
    (store.put number (some { cell with owners := count })).Within store := by
  intro other held isHeld
  rw [cell?_put (lt_size_of_cell? found)] at isHeld
  split at isHeld
  next isNumber =>
    subst isNumber
    cases isHeld
    exact ⟨cell, found, rfl, rfl⟩
  · exact ⟨held, isHeld, rfl, rfl⟩

theorem put_none_within (found : store.cell? number = some cell) :
    (store.put number none).Within store := by
  intro other held isHeld
  rw [cell?_put (lt_size_of_cell? found)] at isHeld
  split at isHeld
  · cases isHeld
  · exact ⟨held, isHeld, rfl, rfl⟩

theorem within_add (store : ChainStore α) (cell : ChainCell α) : store.Within (store.add cell) := by
  intro other held isHeld
  refine ⟨held, ?_, rfl, rfl⟩
  rw [cell?_add, if_neg (Nat.ne_of_lt (lt_size_of_cell? isHeld)), isHeld]

/-! ## Numbers given out -/

theorem size_put (store : ChainStore α) (number : Nat) (slot : Option (ChainCell α)) :
    (store.put number slot).cells.size = store.cells.size :=
  Array.size_setIfInBounds

theorem size_retain (store : ChainStore α) (last : Option Nat) :
    (store.retain last).cells.size = store.cells.size := by
  cases last with
  | none => rfl
  | some number => exact Array.size_modify

theorem size_push (store : ChainStore α) (chain : ChainHandle) (value : α) :
    (store.push chain value).1.cells.size = store.cells.size + 1 := by
  rw [push, Array.size_push, size_retain]

/-- A number is never given out again. -/
theorem size_release (store : ChainStore α) (number : Nat) :
    (store.release number).cells.size = store.cells.size := by
  induction number using Nat.strongRecOn generalizing store with
  | ind number ih =>
      have freed := store.size_put number none
      unfold release
      split
      · rfl
      · dsimp only
        split
        · split
          · exact freed
          next previous _ =>
            split
            next smaller => exact (ih previous smaller _).trans freed
            · exact freed
        · exact store.size_put number _

theorem size_drop (store : ChainStore α) (chain : ChainHandle) :
    (store.drop chain).cells.size = store.cells.size := by
  unfold drop
  split
  · rfl
  · exact store.size_release _

/-! ## Cells that follow a cell -/

/-- What each place of a store says about the cell before it. -/
def pointers (store : ChainStore α) : List (Option (Option Nat)) :=
  store.cells.toList.map (Option.map ChainCell.previous)

/-- How many cells follow the cell with a number. -/
def followers (store : ChainStore α) (number : Nat) : Nat :=
  store.pointers.count (some (some number))

theorem pointers_put (number : Nat) (slot : Option (ChainCell α)) :
    (store.put number slot).pointers = store.pointers.set number (slot.map ChainCell.previous) := by
  rw [pointers, put, Array.toList_setIfInBounds, List.map_set, ← pointers]

theorem getElem?_pointers (found : store.cell? number = some cell) :
    store.pointers[number]? = some (some cell.previous) := by
  have inside := lt_size_of_cell? found
  rw [cell?_eq, Array.getElem?_eq_getElem inside, Option.getD_some] at found
  rw [pointers, List.getElem?_map, Array.getElem?_toList, Array.getElem?_eq_getElem inside, found]
  rfl

/-- Another count changes nothing about which cells follow which. -/
theorem followers_put_some (found : store.cell? number = some cell) (owners other : Nat) :
    (store.put number (some { cell with owners := owners })).followers other =
      store.followers other := by
  have pointer := getElem?_pointers found
  have same : store.pointers.set number (some cell.previous) = store.pointers := by
    obtain ⟨inside, isPointer⟩ := List.getElem?_eq_some_iff.mp pointer
    rw [← isPointer, List.set_getElem_self]
  rw [followers, pointers_put, Option.map_some, same, followers]

/-- A cell that is freed follows none any longer. -/
theorem followers_put_none (found : store.cell? number = some cell) (other : Nat) :
    store.followers other =
      (store.put number none).followers other + if cell.previous = some other then 1 else 0 := by
  obtain ⟨inside, isPointer⟩ := List.getElem?_eq_some_iff.mp (getElem?_pointers found)
  have member : some cell.previous ∈ store.pointers := isPointer ▸ List.getElem_mem inside
  rw [followers, followers, pointers_put, Option.map_none, List.count_set inside, isPointer]
  by_cases follows : cell.previous = some other
  · have counted := List.count_pos_iff.mpr (follows ▸ member)
    simp [follows]
    omega
  · simp [follows]

theorem followers_add (store : ChainStore α) (cell : ChainCell α) (other : Nat) :
    (store.add cell).followers other =
      store.followers other + if cell.previous = some other then 1 else 0 := by
  rw [followers, pointers, add, Array.toList_push, List.map_append, List.count_append, ← pointers,
    ← followers]
  simp [List.count_singleton]

/-! ## Owned stores -/

/-- How many owners a cell has by its own count. -/
def owners (store : ChainStore α) (number : Nat) : Nat :=
  (store.cell? number).elim 0 ChainCell.owners

/-- Chains with the given ends own the store: each count says how many of the ends and of the cells
in use have the cell before them, and cells follow smaller ones. -/
structure Owned (store : ChainStore α) (ends : List (Option Nat)) : Prop where
  counted : ∀ number, store.owners number = ends.count (some number) + store.followers number
  ordered : ∀ number cell previous, store.cell? number = some cell →
    cell.previous = some previous → previous < number

theorem owned_empty : (empty : ChainStore α).Owned [] := by
  have unused : ∀ number, (empty : ChainStore α).cell? number = none := fun _ => rfl
  refine ⟨fun number => ?_, fun number cell previous found => ?_⟩
  · rw [owners, unused]
    rfl
  · cases (unused number).symm.trans found

theorem owners_of_cell? (found : store.cell? number = some cell) :
    store.owners number = cell.owners := by
  rw [owners, found]
  rfl

namespace Owned

variable {others : List (Option Nat)}

/-- A cell that counts an owner is in use. -/
theorem exists_of_pos (positive : 0 < store.owners number) :
    ∃ cell, store.cell? number = some cell := by
  unfold owners at positive
  cases found : store.cell? number with
  | none =>
      rw [found] at positive
      exact absurd positive (Nat.lt_irrefl 0)
  | some cell => exact ⟨cell, rfl⟩

/-- A cell at which an owning chain ends is in use. -/
theorem exists_of_mem (owned : store.Owned ends) (member : some number ∈ ends) :
    ∃ cell, store.cell? number = some cell := by
  have counted := owned.counted number
  have ending := List.count_pos_iff.mpr member
  exact exists_of_pos (by omega)

/-- A cell that another one follows is in use. -/
theorem exists_previous (owned : store.Owned ends) (found : store.cell? number = some cell)
    {previous : Nat} (follows : cell.previous = some previous) :
    ∃ before, store.cell? previous = some before := by
  have counted := owned.counted previous
  have following : 0 < store.followers previous := by
    have pointer := getElem?_pointers found
    rw [follows] at pointer
    exact List.count_pos_iff.mpr (List.mem_of_getElem? pointer)
  exact exists_of_pos (by omega)

/-- Nothing refers to a number that is not in use. -/
theorem eq_zero_of_unused (owned : store.Owned ends) (unused : store.cell? number = none) :
    ends.count (some number) = 0 ∧ store.followers number = 0 := by
  have counted := owned.counted number
  rw [owners, unused, Option.elim_none] at counted
  omega

/-- Only which ends there are matters, not their order. -/
theorem perm (owned : store.Owned ends) (same : ends.Perm others) : store.Owned others :=
  { owned with counted := fun number => by rw [owned.counted, same.count_eq] }

/-- The end of an empty chain owns nothing. -/
theorem cons_none : store.Owned (none :: ends) ↔ store.Owned ends := by
  have same : ∀ number, (none :: ends).count (some number) = ends.count (some number) :=
    fun number => List.count_cons_of_ne (by simp)
  constructor
  · exact fun owned => { owned with counted := fun number => by rw [owned.counted, same] }
  · exact fun owned => { owned with counted := fun number => by rw [owned.counted, same] }

/-- Cells of the store follow smaller ones wherever they are. -/
theorem ordered_of_within (owned : store.Owned ends) (within : other.Within store)
    (found : other.cell? number = some cell) {previous : Nat}
    (follows : cell.previous = some previous) : previous < number := by
  obtain ⟨same, isSame, _, samePrevious⟩ := within number cell found
  exact owned.ordered number same previous isSame (samePrevious.trans follows)

/-- A cell gets another count, and the ends change as much. -/
theorem put_some (owned : store.Owned ends) (found : store.cell? number = some cell) {count : Nat}
    (balance : count + ends.count (some number) = cell.owners + others.count (some number))
    (same : ∀ other, other ≠ number → others.count (some other) = ends.count (some other)) :
    (store.put number (some { cell with owners := count })).Owned others := by
  have inside := lt_size_of_cell? found
  refine ⟨fun other => ?_, fun other held previous isHeld => ?_⟩
  · rw [owners, cell?_put inside, followers_put_some found]
    have counted := owned.counted other
    by_cases isNumber : other = number
    · subst isNumber
      rw [owners_of_cell? found] at counted
      rw [if_pos rfl, Option.elim_some]
      dsimp only
      omega
    · rw [if_neg isNumber, same other isNumber]
      exact counted
  · exact owned.ordered_of_within (put_some_within found count) isHeld

/-- **A clone is one end more.** -/
theorem retain (owned : store.Owned ends) {last : Option Nat} (member : last ∈ ends) :
    (store.retain last).Owned (last :: ends) := by
  cases last with
  | none => exact cons_none.mpr owned
  | some number =>
      obtain ⟨cell, found⟩ := owned.exists_of_mem member
      rw [retain_eq_put found]
      refine owned.put_some found ?_ fun other different => ?_
      · rw [List.count_cons_self]
        omega
      · exact List.count_cons_of_ne (by simpa using different.symm)

/-- A cell that follows the end of an owning chain is added, and takes its place among the ends. -/
theorem add (owned : store.Owned (cell.previous :: ends)) (single : cell.owners = 1) :
    (store.add cell).Owned (some store.cells.size :: ends) := by
  have unused : store.cell? store.cells.size = none := by
    cases found : store.cell? store.cells.size with
    | none => rfl
    | some held => exact absurd (lt_size_of_cell? found) (Nat.lt_irrefl _)
  obtain ⟨noEnd, noFollower⟩ := owned.eq_zero_of_unused unused
  have below : ∀ previous, cell.previous = some previous → previous < store.cells.size := by
    intro previous follows
    have member : some previous ∈ cell.previous :: ends := by
      rw [follows]
      exact List.mem_cons_self
    obtain ⟨before, found⟩ := owned.exists_of_mem member
    exact lt_size_of_cell? found
  refine ⟨fun other => ?_, fun other held previous isHeld => ?_⟩
  · have counted := owned.counted other
    rw [owners, cell?_add, followers_add]
    rw [List.count_cons] at counted noEnd ⊢
    by_cases isNew : other = store.cells.size
    · subst isNew
      simp only [if_pos, Option.elim_some, beq_self_eq_true, single]
      simp only [beq_iff_eq] at noEnd
      omega
    · have notNew : (some store.cells.size == some other) = false := by
        simpa using Ne.symm isNew
      rw [if_neg isNew, notNew, if_neg Bool.false_ne_true]
      simp only [beq_iff_eq] at counted
      rw [owners] at counted
      omega
  · rw [cell?_add] at isHeld
    split at isHeld
    next isNew =>
      cases isHeld
      exact isNew ▸ below previous
    · exact owned.ordered other held previous isHeld

/-- **An append is one end more**, the number of a cell that was not in use. -/
theorem push (owned : store.Owned ends) {chain : ChainHandle} (member : chain.last ∈ ends)
    (value : α) : (store.push chain value).1.Owned ((store.push chain value).2.last :: ends) :=
  (owned.retain member).add rfl

/-- A cell with a single owner is freed, and the cell before it loses an owner instead. -/
theorem free (owned : store.Owned (some number :: ends)) (found : store.cell? number = some cell)
    (single : cell.owners ≤ 1) : (store.put number none).Owned (cell.previous :: ends) := by
  have inside := lt_size_of_cell? found
  have alone := owned.counted number
  rw [owners_of_cell? found, List.count_cons_self] at alone
  refine ⟨fun other => ?_, fun other held previous isHeld => ?_⟩
  · have counted := owned.counted other
    have following := followers_put_none found other
    rw [owners, cell?_put inside, List.count_cons]
    by_cases isNumber : other = number
    · subst isNumber
      have notSelf : cell.previous ≠ some other := fun follows =>
        Nat.lt_irrefl other (owned.ordered other cell other found follows)
      simp [notSelf] at following ⊢
      omega
    · have notNumber : (some number == some other) = false := by
        simpa using Ne.symm isNumber
      rw [owners, List.count_cons, notNumber, if_neg Bool.false_ne_true] at counted
      simp only [if_neg isNumber, beq_iff_eq]
      omega
  · exact owned.ordered_of_within (put_none_within found) isHeld

/-- **A drop is one end less.** -/
theorem release (owned : store.Owned (some number :: ends)) : (store.release number).Owned ends := by
  induction number using Nat.strongRecOn generalizing store with
  | ind number ih =>
      obtain ⟨cell, found⟩ := owned.exists_of_mem List.mem_cons_self
      unfold ChainStore.release
      rw [found]
      dsimp only
      split
      next single =>
        have freed := owned.free found single
        split
        next start =>
          rw [start] at freed
          exact cons_none.mp freed
        next previous follows =>
          rw [follows] at freed
          rw [if_pos (owned.ordered number cell previous found follows)]
          exact ih previous (owned.ordered number cell previous found follows) freed
      next several =>
        refine owned.put_some found ?_ fun other different => ?_
        · rw [List.count_cons_self]
          omega
        · exact (List.count_cons_of_ne (by simpa using different.symm)).symm

end Owned

end StageManifest.ChainStore
