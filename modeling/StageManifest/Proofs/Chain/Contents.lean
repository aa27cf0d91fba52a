import StageManifest.Proofs.Chain.Ownership

/-!
# What a chain holds

A chain came about in appends and clones, which is its history.  The history tells the
values of the chain, and which append made its last cell.  In a store a chain shows its
history when the cells from its end backwards are those of the appends
(`ChainStore.Shows`); then it is read as the values of the history (`Shows.toList_eq`,
`Shows.last?_eq`).

What a chain shows stays the same when the store grows around it (`Shows.grow`), and
also when cells are freed, as long as the chain owns its end (`Shows.shrink`): whatever it
needs is owned in turn.
-/

set_option autoImplicit false

namespace StageManifest

variable {α : Type}

/-! ## Histories -/

/-- How a chain came about.  An append is known by its number among all appends. -/
inductive ChainHistory (α : Type) where
  | new
  | push (before : ChainHistory α) (number : Nat) (value : α)
  | clone (original : ChainHistory α)

namespace ChainHistory

/-- The values that were appended on the way. -/
def values : ChainHistory α → List α
  | .new => []
  | .push before _ value => before.values ++ [value]
  | .clone original => original.values

/-- What a chain is a clone of, be it once, several times or not at all: a new chain or one that an
append made. -/
def source : ChainHistory α → ChainHistory α
  | .new => .new
  | .push before number value => .push before number value
  | .clone original => original.source

/-- The number of the append that made the last cell. -/
def lastPush : ChainHistory α → Option Nat
  | .new => none
  | .push _ number _ => some number
  | .clone original => original.lastPush

theorem values_source (history : ChainHistory α) : history.source.values = history.values := by
  induction history with
  | new => rfl
  | push before number value => rfl
  | clone original ih => exact ih

/-- Clones of one chain go back to the same append. -/
theorem lastPush_eq_of_source {first second : ChainHistory α} (same : first.source = second.source) :
    first.lastPush = second.lastPush := by
  have kept : ∀ history : ChainHistory α, history.source.lastPush = history.lastPush := by
    intro history
    induction history with
    | new => rfl
    | push before number value => rfl
    | clone original ih => exact ih
  rw [← kept first, same, kept second]

theorem source_eq_new {history : ChainHistory α} (unmade : history.lastPush = none) :
    history.source = .new := by
  induction history with
  | new => rfl
  | push before number value => cases unmade
  | clone original ih => exact ih unmade

end ChainHistory

namespace ChainStore

variable {store other : ChainStore α} {ends : List (Option Nat)} {number : Nat}
  {cell : ChainCell α} {last : Option Nat} {history : ChainHistory α}

/-! ## Cells that stay -/

/-- A clone keeps all cells. -/
theorem Owned.within_retain (owned : store.Owned ends) (member : last ∈ ends) :
    store.Within (store.retain last) := by
  cases last with
  | none => exact .refl store
  | some number =>
      obtain ⟨cell, found⟩ := owned.exists_of_mem member
      rw [retain_eq_put found]
      exact within_put_some found _

/-- An append keeps all cells. -/
theorem Owned.within_push (owned : store.Owned ends) {chain : ChainHandle}
    (member : chain.last ∈ ends) (value : α) : store.Within (store.push chain value).1 :=
  (owned.within_retain member).trans (within_add _ _)

/-- A drop makes no cells and changes none but for the counts. -/
theorem release_within (store : ChainStore α) (number : Nat) :
    (store.release number).Within store := by
  induction number using Nat.strongRecOn generalizing store with
  | ind number ih =>
      unfold release
      split
      · exact .refl store
      next cell found =>
        dsimp only
        split
        · split
          · exact put_none_within found
          next previous _ =>
            split
            next smaller => exact (ih previous smaller _).trans (put_none_within found)
            · exact put_none_within found
        · exact put_some_within found _

theorem drop_within (store : ChainStore α) (chain : ChainHandle) :
    (store.drop chain).Within store := by
  unfold drop
  split
  · exact .refl store
  · exact release_within store _

/-! ## Histories in a store -/

/-- A chain that ends at the given cell came about as the history says: its last cell holds what was
appended last, and what ends at the cell before shows the history before. -/
inductive Shows (store : ChainStore α) : Option Nat → ChainHistory α → Prop where
  | new : Shows store none .new
  | push {number : Nat} {cell : ChainCell α} {before : ChainHistory α}
      (found : store.cell? number = some cell) (shows : Shows store cell.previous before) :
      Shows store (some number) (.push before number cell.value)
  | clone {last : Option Nat} {original : ChainHistory α} (shows : Shows store last original) :
      Shows store last (.clone original)

namespace Shows

/-- A chain ends at the cell of its last append. -/
theorem last_eq (shows : store.Shows last history) : last = history.lastPush := by
  induction shows with
  | new => rfl
  | push found shows ih => rfl
  | clone shows ih => exact ih

/-- A chain shows in a larger store what it showed before. -/
theorem grow (shows : store.Shows last history) (within : store.Within other) :
    other.Shows last history := by
  induction shows with
  | new => exact .new
  | push found shows ih =>
      obtain ⟨same, isSame, value, previous⟩ := within _ _ found
      rw [← value]
      exact .push isSame (previous ▸ ih)
  | clone shows ih => exact .clone ih

/-- **A chain that owns its end shows what it showed before cells were freed.** -/
theorem shrink (shows : store.Shows last history) (within : other.Within store)
    (owned : other.Owned ends)
    (inUse : ∀ number, last = some number → ∃ cell, other.cell? number = some cell) :
    other.Shows last history := by
  induction shows with
  | new => exact .new
  | @push number cell before found shows ih =>
      obtain ⟨kept, isKept⟩ := inUse number rfl
      obtain ⟨same, isSame, value, previous⟩ := within number kept isKept
      cases found.symm.trans isSame
      rw [value]
      refine .push isKept (previous ▸ ih fun number follows => ?_)
      exact owned.exists_previous isKept (previous ▸ follows)
  | clone shows ih => exact .clone (ih inUse)

/-- What ends at no cell is empty. -/
theorem values_eq_nil (shows : store.Shows none history) : history.values = [] := by
  generalize isEmpty : (none : Option Nat) = last at shows
  induction shows with
  | new => rfl
  | push found shows ih => cases isEmpty
  | clone shows ih => exact ih isEmpty

theorem valuesTo_eq (owned : store.Owned ends) (shows : store.Shows (some number) history)
    (later : List α) : store.valuesTo number later = history.values ++ later := by
  generalize isEnd : some number = last at shows
  induction shows generalizing number later with
  | new => cases isEnd
  | @push number cell before found shows ih =>
      cases isEnd
      unfold valuesTo
      rw [found]
      dsimp only
      split
      next start =>
        rw [start] at shows
        rw [ChainHistory.values, shows.values_eq_nil]
        rfl
      next previous follows =>
        rw [if_pos (owned.ordered number cell previous found follows), ih _ follows.symm,
          ChainHistory.values, List.append_assoc]
        rfl
  | clone shows ih => exact ih later isEnd

/-- **A chain is read as the values of its history.** -/
theorem toList_eq (owned : store.Owned ends) {chain : ChainHandle}
    (shows : store.Shows chain.last history) : store.toList chain = history.values := by
  unfold toList
  split
  next isEmpty =>
    rw [isEmpty] at shows
    exact shows.values_eq_nil.symm
  next number isEnd =>
    rw [isEnd] at shows
    rw [shows.valuesTo_eq owned, List.append_nil]

/-- The value appended last is the last one of the history. -/
theorem last?_eq {chain : ChainHandle} (shows : store.Shows chain.last history) :
    store.last? chain = history.values.getLast? := by
  unfold last?
  generalize chain.last = last at shows
  induction shows with
  | new => rfl
  | push found shows ih =>
      rw [Option.bind_some, found, ChainHistory.values, List.getLast?_concat]
      rfl
  | clone shows ih => exact ih

end Shows

end ChainStore

end StageManifest
