import Mathlib.Data.List.Forall2
import Mathlib.Data.List.Induction
import StageManifest.Proofs.Graph.Order

/-!
# Post-order as a rule

Pending nodes are placed one by one.  A node that has its place is passed over;
any other one is placed as soon as the nodes that it needs have been placed in
their listed order (`PostOrder`).  The rule speaks of no stack and no marks, and
it leaves no choice (`PostOrder.unique`).

A search that ends well follows the rule: what its stack still holds is placed
frame by frame (`unwinds_of_search`), and so the order of a graph is the
post-order that starts from all nodes in rising order
(`postOrder_of_topologicalOrder`).
-/

set_option autoImplicit false

namespace StageManifest.Graph

/-- The pending nodes are placed one by one behind the placed ones, each after the nodes it needs;
a node that has its place is passed over. -/
inductive PostOrder {α : Type} (needs : α → List α) :
    (pending placed extended : List α) → Prop where
  | done (placed : List α) : PostOrder needs [] placed placed
  | skip {node : α} {rest placed extended : List α} (isPlaced : node ∈ placed)
      (others : PostOrder needs rest placed extended) :
      PostOrder needs (node :: rest) placed extended
  | visit {node : α} {rest placed before extended : List α} (notPlaced : node ∉ placed)
      (needed : PostOrder needs (needs node) placed before)
      (others : PostOrder needs rest (before ++ [node]) extended) :
      PostOrder needs (node :: rest) placed extended

/-- An item at the end is dropped if it comes again. -/
theorem eraseDups_concat {α : Type} [BEq α] [LawfulBEq α] (items : List α) (item : α) :
    (items ++ [item]).eraseDups =
      if item ∈ items then items.eraseDups else items.eraseDups ++ [item] := by
  have single : [item].eraseDups = [item] := rfl
  rw [List.eraseDups_append]
  split <;> simp [List.removeAll, *]

/-- Where nothing comes twice, nothing is dropped. -/
theorem eraseDups_of_nodup {α : Type} [BEq α] [LawfulBEq α] {items : List α}
    (nodup : items.Nodup) : items.eraseDups = items := by
  induction items using List.reverseRecOn with
  | nil => rfl
  | append_singleton items item ih =>
      obtain ⟨once, _, apart⟩ := List.nodup_append.mp nodup
      have isNew : item ∉ items := fun member => apart item member item List.mem_cons_self rfl
      rw [eraseDups_concat, if_neg isNew, ih once]

namespace PostOrder

variable {α : Type} {needs : α → List α} {pending first second placed middle extended : List α}

/-- What was placed keeps its place. -/
theorem placed_prefix (order : PostOrder needs pending placed extended) : placed <+: extended := by
  induction order with
  | done placed => exact List.prefix_refl placed
  | skip _ _ ih => exact ih
  | visit _ _ _ before after => exact before.trans ((List.prefix_append _ _).trans after)

/-- The pending nodes are placed in the end. -/
theorem pending_subset (order : PostOrder needs pending placed extended) :
    pending ⊆ extended := by
  induction order with
  | done placed => exact List.nil_subset placed
  | skip isPlaced others ih =>
      exact List.cons_subset.mpr ⟨others.placed_prefix.subset isPlaced, ih⟩
  | visit _ _ others _ ih =>
      refine List.cons_subset.mpr ⟨others.placed_prefix.subset ?_, ih⟩
      exact List.mem_append_right _ (List.mem_singleton.mpr rfl)

/-- **The rule leaves no choice.** -/
theorem unique {other : List α} (order : PostOrder needs pending placed extended)
    (another : PostOrder needs pending placed other) : extended = other := by
  induction order generalizing other with
  | done placed =>
      cases another
      rfl
  | skip isPlaced _ ih =>
      cases another with
      | skip _ others => exact ih others
      | visit notPlaced _ _ => exact absurd isPlaced notPlaced
  | visit notPlaced _ _ needed others =>
      cases another with
      | skip isPlaced _ => exact absurd isPlaced notPlaced
      | visit _ again rest =>
          have same := needed again
          subst same
          exact others rest

/-- Nodes can be placed in two lots. -/
theorem append (earlier : PostOrder needs first placed middle)
    (later : PostOrder needs second middle extended) :
    PostOrder needs (first ++ second) placed extended := by
  induction earlier with
  | done placed => exact later
  | skip isPlaced _ ih => exact .skip isPlaced (ih later)
  | visit notPlaced needed _ _ ih => exact .visit notPlaced needed (ih later)

/-- What is placed in one lot can be placed in two. -/
theorem exists_of_append (order : PostOrder needs (first ++ second) placed extended) :
    ∃ middle, PostOrder needs first placed middle ∧ PostOrder needs second middle extended := by
  induction first generalizing placed with
  | nil => exact ⟨placed, .done placed, order⟩
  | cons node first ih =>
      cases order with
      | skip isPlaced others =>
          obtain ⟨middle, earlier, later⟩ := ih others
          exact ⟨middle, .skip isPlaced earlier, later⟩
      | visit notPlaced needed others =>
          obtain ⟨middle, earlier, later⟩ := ih others
          exact ⟨middle, .visit notPlaced needed earlier, later⟩

/-- Nodes that have their places add nothing. -/
theorem eq_of_subset (order : PostOrder needs pending placed extended) (known : pending ⊆ placed) :
    extended = placed := by
  induction order with
  | done placed => rfl
  | skip _ _ ih => exact ih (List.cons_subset.mp known).2
  | visit notPlaced _ _ _ _ => exact absurd (known List.mem_cons_self) notPlaced

/-- Where every placed node comes with the nodes it needs, this stays so. -/
theorem closed (order : PostOrder needs pending placed extended)
    (isClosed : ∀ node ∈ placed, needs node ⊆ placed) :
    ∀ node ∈ extended, needs node ⊆ extended := by
  induction order with
  | done placed => exact isClosed
  | skip _ _ ih => exact ih isClosed
  | visit _ needed _ before after =>
      refine after fun other member => ?_
      rcases List.mem_append.mp member with earlier | isNode
      · exact List.subset_append_of_subset_left _ (before isClosed other earlier)
      · rw [List.mem_singleton.mp isNode]
        exact List.subset_append_of_subset_left _ needed.pending_subset

/-- Nodes that are pending again add nothing. -/
theorem of_eraseDups [BEq α] [LawfulBEq α]
    (order : PostOrder needs pending.eraseDups placed extended) :
    PostOrder needs pending placed extended := by
  induction pending using List.reverseRecOn generalizing extended with
  | nil => exact order
  | append_singleton nodes node ih =>
      rw [eraseDups_concat] at order
      split at order
      case isTrue again =>
        exact (ih order).append (.skip ((ih order).pending_subset again) (.done _))
      case isFalse =>
        obtain ⟨middle, earlier, later⟩ := exists_of_append order
        exact (ih earlier).append later

/-- A post-order is carried over to other names of the nodes, if every node needs, apart from
repetitions, what its name needs. -/
theorem transfer {β : Type} [BEq β] [LawfulBEq β] {named : α → β → Prop} {needsOf : β → List β}
    (biUnique : Relator.BiUnique named)
    (faithful : ∀ {node name}, named node name →
      List.Forall₂ named (needs node) (needsOf name).eraseDups)
    (order : PostOrder needs pending placed extended) {names known : List β}
    (pendingNames : List.Forall₂ named pending names)
    (placedNames : List.Forall₂ named placed known) :
    ∃ reached, PostOrder needsOf names known reached ∧ List.Forall₂ named extended reached := by
  induction order generalizing names known with
  | done placed =>
      cases pendingNames
      exact ⟨known, .done known, placedNames⟩
  | skip isPlaced _ ih =>
      obtain _ | ⟨isName, others⟩ := pendingNames
      have isKnown := (List.rel_mem biUnique isName placedNames).mp isPlaced
      obtain ⟨reached, order, reachedNames⟩ := ih others placedNames
      exact ⟨reached, .skip isKnown order, reachedNames⟩
  | visit notPlaced _ _ needed rest =>
      obtain _ | ⟨isName, others⟩ := pendingNames
      have notKnown := mt (List.rel_mem biUnique isName placedNames).mpr notPlaced
      obtain ⟨before, below, beforeNames⟩ := needed (faithful isName) placedNames
      obtain ⟨reached, order, reachedNames⟩ :=
        rest others (List.rel_append beforeNames (.cons isName .nil))
      exact ⟨reached, .visit notKnown below.of_eraseDups order, reachedNames⟩

end PostOrder

/-! ## Searches -/

variable {edges : List (List Nat)}

/-- The frames of the stack are finished one by one: the edges left in a frame are followed, and
then its node is placed. -/
def Unwinds (edges : List (List Nat)) :
    (stack : List (Nat × List Nat)) → (order extended : List Nat) → Prop
  | [], order, extended => order = extended
  | (node, rest) :: stack, order, extended =>
      ∃ before, PostOrder (edgesOf edges) rest order before ∧
        Unwinds edges stack (before ++ [node]) extended

/-- **A search that ends well finishes the frames of its stack one by one.** -/
theorem unwinds_of_search {stack : List (Nat × List Nat)} {marks reached : List Mark}
    {order extended : List Nat} (searching : Searching edges stack marks order)
    (ok : search edges stack marks order = .ok (reached, extended)) :
    Unwinds edges stack order extended := by
  fun_induction search edges stack marks order with
  | case1 marks order =>
      cases ok
      rfl
  | case2 node stack marks order ih => exact ⟨order, .done order, ih searching.finish ok⟩
  | case3 | case4 => cases ok
  | case5 node needed rest stack marks order isDone ih =>
      obtain ⟨before, others, below⟩ := ih (searching.skip isDone) ok
      exact ⟨before, .skip ((searching.placed needed).mp isDone) others, below⟩
  | case6 node needed rest stack marks order unvisited ih =>
      obtain ⟨middle, above, before, others, below⟩ := ih (searching.descend unvisited) ok
      exact ⟨before, .visit (searching.not_mem_order unvisited (by decide)) above others, below⟩

/-- Searches from each of the starts that end well place the starts. -/
theorem postOrder_of_searchAll {starts : List Nat} {marks : List Mark} {order extended : List Nat}
    (searching : Searching edges [] marks order) (inside : ∀ start ∈ starts, start < edges.length)
    (ok : searchAll edges starts marks order = .ok extended) :
    PostOrder (edgesOf edges) starts order extended := by
  fun_induction searchAll edges starts marks order with
  | case1 marks order =>
      cases ok
      exact .done _
  | case2 => cases ok
  | case3 start starts marks order unvisited reached middle found ih =>
      have visiting := searching.visit unvisited
      obtain ⟨before, needed, rfl⟩ := unwinds_of_search visiting found
      have others := ih (searching_of_search visiting found).1
        (fun other member => inside other (List.mem_cons_of_mem _ member)) ok
      exact .visit (searching.not_mem_order unvisited (by decide)) needed others
  | case4 start starts marks order met ih =>
      have isPlaced := searching.mem_order_of_not_unvisited (inside start List.mem_cons_self) met
      exact .skip isPlaced (ih searching
        (fun other member => inside other (List.mem_cons_of_mem _ member)) ok)

/-- **The order of a graph is the post-order from its nodes in rising order.** -/
theorem postOrder_of_topologicalOrder {order : List Nat} (ok : topologicalOrder edges = .ok order) :
    PostOrder (edgesOf edges) (List.range edges.length) [] order :=
  postOrder_of_searchAll (.start edges) (fun _ => List.mem_range.mp) ok

end StageManifest.Graph
