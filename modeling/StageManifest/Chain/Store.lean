/-!
# A store of counted links

Chains kept as cells of one store.  A cell holds a value, the number of the cell
before it and how many owners it has: the chains that end at it and the cells
that follow it.  Appending makes one cell, cloning adds an owner, and dropping a
chain frees its cells from the end backwards until a cell with another owner is
met.  A cell always follows one with a smaller number, so walking back ends.
-/

set_option autoImplicit false

namespace StageManifest

/-- One cell of a store. -/
structure ChainCell (α : Type) where
  value : α
  previous : Option Nat
  owners : Nat
deriving Repr

/-- A chain as the number of its last cell and its length. -/
structure ChainHandle where
  last : Option Nat
  size : Nat
deriving DecidableEq, Repr

/-- The handle of the empty chain. -/
def ChainHandle.empty : ChainHandle := ⟨none, 0⟩

/-- Whether a chain holds no values. -/
def ChainHandle.isEmpty (chain : ChainHandle) : Bool := chain.size == 0

/-- Whether two handles end at the very same cell, or are both empty. -/
def ChainHandle.sameEnd (first second : ChainHandle) : Bool :=
  first.last == second.last

/-- The cells in use, each under the number it was made with. -/
structure ChainStore (α : Type) where
  /-- The cell of each number ever given out; a freed cell leaves its place empty. -/
  cells : Array (Option (ChainCell α))

namespace ChainStore

variable {α : Type}

/-- The store without cells. -/
def empty : ChainStore α := ⟨#[]⟩

/-- The cell with a number, if it is in use. -/
def cell? (store : ChainStore α) (number : Nat) : Option (ChainCell α) :=
  store.cells.getD number none

/-- One more owner for a cell. -/
def retain (store : ChainStore α) : Option Nat → ChainStore α
  | none => store
  | some number =>
      ⟨store.cells.modify number (·.map fun cell => { cell with owners := cell.owners + 1 })⟩

/-- The store and handle after appending a value to a chain, which stays as it is. -/
def push (store : ChainStore α) (chain : ChainHandle) (value : α) :
    ChainStore α × ChainHandle :=
  let retained := store.retain chain.last
  let number := retained.cells.size
  (⟨retained.cells.push (some ⟨value, chain.last, 1⟩)⟩, ⟨some number, chain.size + 1⟩)

/-- The store and a second handle of a chain. -/
def clone (store : ChainStore α) (chain : ChainHandle) : ChainStore α × ChainHandle :=
  (store.retain chain.last, chain)

/-- One owner less for a cell; a cell without owners is freed, and so is what only it held. -/
def release (store : ChainStore α) (number : Nat) : ChainStore α :=
  match store.cell? number with
  | none => store
  | some cell =>
      if cell.owners ≤ 1 then
        let freed : ChainStore α := ⟨store.cells.setIfInBounds number none⟩
        match cell.previous with
        | none => freed
        | some previous => if previous < number then release freed previous else freed
      else
        ⟨store.cells.setIfInBounds number (some { cell with owners := cell.owners - 1 })⟩
termination_by number

/-- The store after dropping a chain. -/
def drop (store : ChainStore α) (chain : ChainHandle) : ChainStore α :=
  match chain.last with
  | none => store
  | some number => store.release number

/-- The value appended last to a chain. -/
def last? (store : ChainStore α) (chain : ChainHandle) : Option α :=
  (chain.last.bind store.cell?).map (·.value)

/-- The values from a cell backwards, put before the given later ones. -/
def valuesTo (store : ChainStore α) (number : Nat) (later : List α) : List α :=
  match store.cell? number with
  | none => later
  | some cell =>
      match cell.previous with
      | none => cell.value :: later
      | some previous =>
          if previous < number then store.valuesTo previous (cell.value :: later)
          else cell.value :: later
termination_by number

/-- The values of a chain in the order in which they were appended. -/
def toList (store : ChainStore α) (chain : ChainHandle) : List α :=
  match chain.last with
  | none => []
  | some number => store.valuesTo number []

/-- Whether two chains hold equal values; chains with the same end are not compared any further. -/
def sameContent [BEq α] (store : ChainStore α) (first second : ChainHandle) : Bool :=
  first.sameEnd second ||
    (first.size == second.size && store.toList first == store.toList second)

end ChainStore

end StageManifest
