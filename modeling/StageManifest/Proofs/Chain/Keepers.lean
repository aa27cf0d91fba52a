import Mathlib.Data.List.Induction
import StageManifest.Chain.Basic
import StageManifest.Proofs.Chain.Contents

/-!
# Operations on chains

Chains are made, appended to, cloned and dropped in any order.  Each is named by the
number of the operation that made it.  What the operations do depends on how chains are
kept (`ChainKeeper`): in cells that they share (`ChainKeeper.cells`), as links with
marks (`ChainKeeper.links`), or as no more than a record of how each came about
(`ChainKeeper.histories`).

However they are kept, a chain lives until it is dropped (`ChainKeeper.chain?_run_append`).
-/

set_option autoImplicit false

namespace StageManifest

variable {α β γ σ τ : Type}

/-! ## Places -/

/-- What is in a place, if there is anything. -/
def inPlace? (places : List (Option β)) (place : Nat) : Option β :=
  places[place]?.join

theorem mem_of_inPlace? {places : List (Option β)} {place : Nat} {thing : β}
    (found : inPlace? places place = some thing) : some thing ∈ places :=
  List.mem_of_getElem? (Option.join_eq_some_iff.mp found)

theorem inPlace?_map (f : β → γ) (places : List (Option β)) (place : Nat) :
    inPlace? (places.map (Option.map f)) place = (inPlace? places place).map f := by
  rw [inPlace?, inPlace?, List.getElem?_map]
  cases places[place]? with
  | none => rfl
  | some slot => rfl

theorem inPlace?_concat (places : List (Option β)) (slot : Option β) (place : Nat) :
    inPlace? (places ++ [slot]) place =
      if place = places.length then slot else inPlace? places place := by
  rw [inPlace?, inPlace?, List.getElem?_append]
  split
  next inside => rw [if_neg (Nat.ne_of_lt inside)]
  next outside =>
    split
    next atEnd => simp [atEnd]
    next beyond =>
      rw [List.getElem?_eq_none (by simp; omega), List.getElem?_eq_none (by omega)]

/-- What is in a place stays there when another place is added. -/
theorem inPlace?_concat_of_some {places : List (Option β)} {place : Nat} {thing : β}
    (found : inPlace? places place = some thing) (slot : Option β) :
    inPlace? (places ++ [slot]) place = some thing := by
  have inside := List.getElem?_eq_some_iff.mp (Option.join_eq_some_iff.mp found)
  rw [inPlace?_concat, if_neg (Nat.ne_of_lt inside.1), found]

theorem inPlace?_set_none (places : List (Option β)) (emptied place : Nat) :
    inPlace? (places.set emptied none) place =
      if place = emptied then none else inPlace? places place := by
  rw [inPlace?, inPlace?, List.getElem?_set]
  split
  next same =>
    rw [if_pos same.symm]
    split <;> rfl
  next different => rw [if_neg (Ne.symm different)]

/-! ## Operations -/

/-- What is done with chains.  A chain is named by the number of the operation that made it; an
operation on a chain that does not live does nothing. -/
inductive ChainOperation (α : Type) where
  | new
  | push (place : Nat) (value : α)
  | clone (place : Nat)
  | drop (place : Nat)

/-- A way to keep chains: what a new chain is, and what an append, a clone and a drop do. -/
structure ChainKeeper (α σ β : Type) where
  start : σ
  new : β
  push : σ → β → α → σ × β
  clone : σ → β → σ × β
  drop : σ → β → σ

/-- What chains are kept in, and those that live in the places of the operations that made them. -/
structure LiveChains (σ β : Type) where
  kept : σ
  live : List (Option β)

/-- The chain that an operation made, if it lives. -/
def LiveChains.chain? (chains : LiveChains σ β) (place : Nat) : Option β :=
  inPlace? chains.live place

/-- The same places with the image of each chain. -/
def LiveChains.map (f : β → γ) (chains : LiveChains σ β) : LiveChains σ γ :=
  ⟨chains.kept, chains.live.map (Option.map f)⟩

theorem LiveChains.chain?_map (f : β → γ) (chains : LiveChains σ β) (place : Nat) :
    (chains.map f).chain? place = (chains.chain? place).map f :=
  inPlace?_map f chains.live place

namespace ChainKeeper

/-- The chains after an operation. -/
def perform (keeper : ChainKeeper α σ β) (chains : LiveChains σ β) :
    ChainOperation α → LiveChains σ β
  | .new => ⟨chains.kept, chains.live ++ [some keeper.new]⟩
  | .push place value =>
      match chains.chain? place with
      | none => ⟨chains.kept, chains.live ++ [none]⟩
      | some chain =>
          let (kept, longer) := keeper.push chains.kept chain value
          ⟨kept, chains.live ++ [some longer]⟩
  | .clone place =>
      match chains.chain? place with
      | none => ⟨chains.kept, chains.live ++ [none]⟩
      | some chain =>
          let (kept, copy) := keeper.clone chains.kept chain
          ⟨kept, chains.live ++ [some copy]⟩
  | .drop place =>
      match chains.chain? place with
      | none => ⟨chains.kept, chains.live ++ [none]⟩
      | some chain => ⟨keeper.drop chains.kept chain, chains.live.set place none ++ [none]⟩

/-- The chains after some operations. -/
def run (keeper : ChainKeeper α σ β) (operations : List (ChainOperation α)) : LiveChains σ β :=
  operations.foldl keeper.perform ⟨keeper.start, []⟩

/-- Chains share the cells of a store. -/
def cells : ChainKeeper α (ChainStore α) ChainHandle where
  start := .empty
  new := .empty
  push := ChainStore.push
  clone := ChainStore.clone
  drop := ChainStore.drop

/-- Chains are lists of links, which get their marks in turn. -/
def links : ChainKeeper α Nat (Chain α) where
  start := 0
  new := .empty
  push := fun marks chain value => (marks + 1, chain.push marks value)
  clone := fun marks chain => (marks, chain)
  drop := fun marks _ => marks

/-- Only how each chain came about is told, with a number for each append. -/
def histories : ChainKeeper α Nat (ChainHistory α) where
  start := 0
  new := .new
  push := fun pushes history value => (pushes + 1, .push history pushes value)
  clone := fun pushes history => (pushes, .clone history)
  drop := fun pushes _ => pushes

variable {keeper : ChainKeeper α σ β} {chains : LiveChains σ β} {place : Nat} {chain : β}

theorem run_append (keeper : ChainKeeper α σ β) (operations more : List (ChainOperation α)) :
    keeper.run (operations ++ more) = more.foldl keeper.perform (keeper.run operations) :=
  List.foldl_append

/-- Two ways to keep chains stay related when every operation keeps them so. -/
theorem run_related {other : ChainKeeper α τ γ} (related : LiveChains σ β → LiveChains τ γ → Prop)
    (start : related ⟨keeper.start, []⟩ ⟨other.start, []⟩)
    (step : ∀ chains others operation, related chains others →
      related (keeper.perform chains operation) (other.perform others operation))
    (operations : List (ChainOperation α)) :
    related (keeper.run operations) (other.run operations) := by
  induction operations using List.reverseRecOn with
  | nil => exact start
  | append_singleton operations operation ih =>
      rw [run_append, run_append]
      exact step _ _ operation ih

/-- A chain stays in its place in any operation but its drop. -/
theorem chain?_perform (lives : chains.chain? place = some chain) {operation : ChainOperation α}
    (other : operation ≠ .drop place) :
    (keeper.perform chains operation).chain? place = some chain := by
  cases operation with
  | new => exact inPlace?_concat_of_some lives _
  | push source value =>
      rw [perform]
      split <;> exact inPlace?_concat_of_some lives _
  | clone source =>
      rw [perform]
      split <;> exact inPlace?_concat_of_some lives _
  | drop dropped =>
      rw [perform]
      split
      · exact inPlace?_concat_of_some lives _
      · have different : place ≠ dropped := fun same => other (congrArg ChainOperation.drop same.symm)
        refine inPlace?_concat_of_some ?_ _
        rw [inPlace?_set_none, if_neg different]
        exact lives

/-- **A chain lives until it is dropped.** -/
theorem chain?_run_append {operations : List (ChainOperation α)}
    (lives : (keeper.run operations).chain? place = some chain) {more : List (ChainOperation α)}
    (kept : .drop place ∉ more) : (keeper.run (operations ++ more)).chain? place = some chain := by
  rw [run_append]
  generalize keeper.run operations = chains at lives
  induction more generalizing chains with
  | nil => exact lives
  | cons operation more ih =>
      rw [List.mem_cons, not_or] at kept
      exact ih kept.2 _ (chain?_perform lives (Ne.symm kept.1))

end ChainKeeper

end StageManifest
