/-!
# Chains

A chain is a sequence that grows at its end without changing: appending a value
gives a new chain that shares all earlier links with the old one.  Each link
carries the mark of the append that made it, so that two chains that end at the
very same link can be told from two chains that merely hold equal values.  The
links are listed newest first, which makes the shared part of two chains a
common tail.

The view of a chain is the list of its values in the order of their appending
(`Chain.toList`); `toList_push` says what an append does to it.
-/

set_option autoImplicit false

namespace StageManifest

/-- One link of a chain. -/
structure Link (α : Type) where
  mark : Nat
  value : α

/-- A sequence that shares its links with the sequences it was grown from. -/
structure Chain (α : Type) where
  links : List (Link α)

namespace Chain

variable {α : Type}

/-- The chain without values. -/
def empty : Chain α := ⟨[]⟩

/-- The chain with one more value, in a link with the given mark. -/
def push (chain : Chain α) (mark : Nat) (value : α) : Chain α :=
  ⟨⟨mark, value⟩ :: chain.links⟩

/-- The values in the order in which they were appended. -/
def toList (chain : Chain α) : List α :=
  (chain.links.map (·.value)).reverse

/-- How many values the chain holds. -/
def size (chain : Chain α) : Nat := chain.links.length

/-- Whether the chain holds no values. -/
def isEmpty (chain : Chain α) : Bool := chain.links.isEmpty

/-- The value appended last. -/
def last? (chain : Chain α) : Option α := chain.links.head?.map (·.value)

/-- Whether two chains end at the very same link, or are both empty. -/
def sameEnd (first second : Chain α) : Bool :=
  match first.links, second.links with
  | [], [] => true
  | link :: _, other :: _ => link.mark == other.mark
  | _, _ => false

/-- Whether two chains hold equal values; chains with the same end are not compared any further. -/
def sameContent [BEq α] (first second : Chain α) : Bool :=
  first.sameEnd second || (first.size == second.size && first.toList == second.toList)

@[simp] theorem toList_empty : (empty : Chain α).toList = [] := rfl

/-- An append puts its value after the values of the chain. -/
@[simp] theorem toList_push (chain : Chain α) (mark : Nat) (value : α) :
    (chain.push mark value).toList = chain.toList ++ [value] := by
  simp [push, toList]

@[simp] theorem length_toList (chain : Chain α) : chain.toList.length = chain.size := by
  simp [toList, size]

/-- The last value is the last of the listed values. -/
theorem last?_eq_getLast? (chain : Chain α) : chain.last? = chain.toList.getLast? := by
  simp [last?, toList, List.getLast?_reverse]

end Chain

end StageManifest
