import Mathlib.Data.List.GetD
import Mathlib.Data.Prod.Lex
import StageManifest.Proofs.Graph.PostOrder

/-!
# The search and the plain recursion

The search for an order goes from moment to moment (`Step`).  A step does not change
what is found in the end (`Step.resume_eq`), it keeps what the marks, the stack and
the order tell about each other (`Step.searching`), and there is no end of steps
only where there is no end of nodes and edges (`wellFounded_step`).  So at every
moment of a search all that is looked up next lies inside the graph
(`Moment.inside_of_reached`), if the edges do.

A plain recursion places a node after it has placed the nodes that the node needs
(`place`).  It follows the rule of post-order as far as it may go down
(`PostOrder.place_eq`), and so it gives the order that the search finds.  That there
is an order means that no node needs itself (`Orders.not_needs_itself`), and the
search says which node does if there is none (`topologicalOrder_of_inside`).
-/

set_option autoImplicit false

namespace StageManifest.Graph

variable {edges : List (List Nat)}

/-! ## Moments of a search -/

/-- A node that is done is passed over. -/
theorem search_of_done {node needed : Nat} {rest : List Nat} {stack : List (Nat × List Nat)}
    {marks : List Mark} {order : List Nat} (isDone : marks[needed]? = some .done) :
    search edges ((node, needed :: rest) :: stack) marks order =
      search edges ((node, rest) :: stack) marks order := by
  rw [search]
  split <;> rename_i mark <;> cases isDone.symm.trans mark
  rfl

/-- A node that was not met before is searched first. -/
theorem search_of_unvisited {node needed : Nat} {rest : List Nat} {stack : List (Nat × List Nat)}
    {marks : List Mark} {order : List Nat} (unvisited : marks[needed]? = some .unvisited) :
    search edges ((node, needed :: rest) :: stack) marks order =
      search edges ((needed, edgesOf edges needed) :: (node, rest) :: stack)
        (marks.set needed .visiting) order := by
  rw [search]
  split <;> rename_i mark <;> cases unvisited.symm.trans mark
  rfl

/-- The starts that are left, the stack, the marks and the order so far. -/
structure Moment where
  starts : List Nat
  stack : List (Nat × List Nat)
  marks : List Mark
  order : List Nat

/-- One step of the search for an order. -/
inductive Step (edges : List (List Nat)) : Moment → Moment → Prop where
  | pass {start : Nat} {starts : List Nat} {marks : List Mark} {order : List Nat}
      (met : marks[start]? ≠ some .unvisited) :
      Step edges ⟨start :: starts, [], marks, order⟩ ⟨starts, [], marks, order⟩
  | visit {start : Nat} {starts : List Nat} {marks : List Mark} {order : List Nat}
      (unvisited : marks[start]? = some .unvisited) :
      Step edges ⟨start :: starts, [], marks, order⟩
        ⟨starts, [(start, edgesOf edges start)], marks.set start .visiting, order⟩
  | finish {starts : List Nat} {node : Nat} {stack : List (Nat × List Nat)} {marks : List Mark}
      {order : List Nat} :
      Step edges ⟨starts, (node, []) :: stack, marks, order⟩
        ⟨starts, stack, marks.set node .done, order ++ [node]⟩
  | skip {starts : List Nat} {node needed : Nat} {rest : List Nat} {stack : List (Nat × List Nat)}
      {marks : List Mark} {order : List Nat} (isDone : marks[needed]? = some .done) :
      Step edges ⟨starts, (node, needed :: rest) :: stack, marks, order⟩
        ⟨starts, (node, rest) :: stack, marks, order⟩
  | descend {starts : List Nat} {node needed : Nat} {rest : List Nat}
      {stack : List (Nat × List Nat)} {marks : List Mark} {order : List Nat}
      (unvisited : marks[needed]? = some .unvisited) :
      Step edges ⟨starts, (node, needed :: rest) :: stack, marks, order⟩
        ⟨starts, (needed, edgesOf edges needed) :: (node, rest) :: stack,
          marks.set needed .visiting, order⟩

namespace Moment

/-- The moment before anything is looked up. -/
def initial (edges : List (List Nat)) : Moment :=
  ⟨List.range edges.length, [], List.replicate edges.length .unvisited, []⟩

/-- What the search finds from a moment on. -/
def resume (edges : List (List Nat)) (moment : Moment) : Except OrderError (List Nat) :=
  match search edges moment.stack moment.marks moment.order with
  | .error failure => .error failure
  | .ok (reached, extended) => searchAll edges moment.starts reached extended

/-- Whatever can be looked up next is there: the marks of the starts, the edges of the nodes on the
stack and the marks of the nodes that these edges lead to. -/
structure Inside (edges : List (List Nat)) (moment : Moment) : Prop where
  starts : ∀ start ∈ moment.starts, start < moment.marks.length
  nodes : ∀ frame ∈ moment.stack, frame.1 < edges.length
  ahead : ∀ frame ∈ moment.stack, ∀ needed ∈ frame.2, needed < moment.marks.length

end Moment

namespace Step

variable {moment next : Moment}

/-- **A step does not change what is found.** -/
theorem resume_eq (step : Step edges moment next) : moment.resume edges = next.resume edges := by
  cases step with
  | pass met => simp only [Moment.resume, search, searchAll, if_neg met]
  | @visit start starts marks order unvisited =>
      cases found : search edges [(start, edgesOf edges start)] (marks.set start .visiting) order <;>
        simp only [Moment.resume, search, searchAll, if_pos unvisited, found]
  | finish => simp only [Moment.resume, search]
  | skip isDone => simp only [Moment.resume, search_of_done isDone]
  | descend unvisited => simp only [Moment.resume, search_of_unvisited unvisited]

/-- **A step keeps what is known of a search.** -/
theorem searching (step : Step edges moment next)
    (searching : Searching edges moment.stack moment.marks moment.order) :
    Searching edges next.stack next.marks next.order := by
  cases step with
  | pass _ => exact searching
  | visit unvisited => exact searching.visit unvisited
  | finish => exact searching.finish
  | skip isDone => exact searching.skip isDone
  | descend unvisited => exact searching.descend unvisited

/-- No start comes up that was not left. -/
theorem starts_subset (step : Step edges moment next) : next.starts ⊆ moment.starts := by
  cases step with
  | pass _ => exact List.subset_cons_self _ _
  | visit _ => exact List.subset_cons_self _ _
  | finish => exact List.Subset.refl _
  | skip _ => exact List.Subset.refl _
  | descend _ => exact List.Subset.refl _

end Step

/-- **The steps come to an end**: each of them marks a node for the first time, or leaves fewer starts
and edges. -/
theorem wellFounded_step (edges : List (List Nat)) :
    WellFounded fun later earlier => Step edges earlier later := by
  refine Subrelation.wf (fun {later earlier} step => ?_)
    (InvImage.wf (fun moment : Moment =>
      (moment.marks.count .unvisited, moment.starts.length + stackWeight moment.stack))
      (WellFounded.prod_lex wellFounded_lt wellFounded_lt))
  cases step with
  | pass _ => exact Prod.Lex.right _ (by simp [stackWeight])
  | visit unvisited => exact Prod.Lex.left _ _ (count_set_lt _ _ .visiting (by decide) unvisited)
  | @finish starts node stack marks order =>
      rcases Nat.lt_or_eq_of_le (count_set_le marks node .done (by decide)) with fewer | same
      · exact Prod.Lex.left _ _ fewer
      · refine Prod.Lex.right' _ (Nat.le_of_eq same) ?_
        simp [stackWeight]
  | skip _ => exact Prod.Lex.right _ (by simp [stackWeight])
  | descend unvisited => exact Prod.Lex.left _ _ (count_set_lt _ _ .visiting (by decide) unvisited)

namespace Moment

variable {moment : Moment}

/-- What holds at first and is kept by steps holds at every moment of a search. -/
theorem searching_of_reached
    (reached : Relation.ReflTransGen (Step edges) (initial edges) moment) :
    Searching edges moment.stack moment.marks moment.order ∧
      (∀ start ∈ moment.starts, start < edges.length) ∧
      topologicalOrder edges = moment.resume edges := by
  induction reached with
  | refl =>
      refine ⟨.start edges, fun _ => List.mem_range.mp, ?_⟩
      simp only [resume, initial, search, topologicalOrder]
  | tail _ step ih =>
      obtain ⟨searching, starts, found⟩ := ih
      exact ⟨step.searching searching, fun start isStart => starts start (step.starts_subset isStart),
        found.trans step.resume_eq⟩

/-- The frames of a stack hold edges of their nodes only. -/
theorem needs_of_opened {order : List Nat} {above : Option Nat} {stack : List (Nat × List Nat)}
    (opened : Opened edges order above stack) :
    ∀ frame ∈ stack, ∀ needed ∈ frame.2, Needs edges frame.1 needed := by
  induction opened with
  | nil => exact nofun
  | cons _ ahead _ _ ih => exact List.forall_mem_cons.mpr ⟨ahead, ih⟩

/-- **At every moment of a search everything that is looked up next is there.** -/
theorem inside_of_reached
    (inside : ∀ node needed, Needs edges node needed → needed < edges.length)
    (reached : Relation.ReflTransGen (Step edges) (initial edges) moment) :
    moment.Inside edges := by
  obtain ⟨searching, starts, _⟩ := searching_of_reached reached
  refine ⟨fun start isStart => ?_, fun frame isFrame => ?_, fun frame isFrame needed isAhead => ?_⟩
  · rw [searching.size]
    exact starts start isStart
  · have isVisiting := (searching.visiting frame.1).mpr (List.mem_map_of_mem isFrame)
    rw [← searching.size]
    exact (List.getElem?_eq_some_iff.mp isVisiting).1
  · rw [searching.size]
    exact inside frame.1 needed (needs_of_opened searching.opened frame isFrame needed isAhead)

end Moment

/-! ## The plain recursion -/

/-- Places the pending nodes one by one: a node that has its place is passed over, and another one is
placed after the nodes that it needs.  The recursion goes down as deep as it is allowed to. -/
def place {α : Type} [DecidableEq α] (needs : α → List α) :
    (depth : Nat) → (pending placed : List α) → List α
  | 0, _, placed => placed
  | depth + 1, pending, placed =>
      pending.foldl
        (fun placed node =>
          if node ∈ placed then placed else place needs depth (needs node) placed ++ [node])
        placed

/-- **The recursion follows the rule of post-order**, if it may go down as deep as there are nodes to
be placed. -/
theorem PostOrder.place_eq {α : Type} [DecidableEq α] {needs : α → List α}
    {pending placed extended : List α} (order : PostOrder needs pending placed extended)
    {depth : Nat} (deep : extended.length ≤ placed.length + depth) :
    place needs depth pending placed = extended := by
  induction order generalizing depth with
  | done placed => cases depth <;> rfl
  | skip isPlaced others ih =>
      cases depth with
      | zero => exact others.placed_prefix.eq_of_length_le deep
      | succ depth =>
          rw [place, List.foldl_cons, if_pos isPlaced]
          exact ih deep
  | @visit node rest placed before extended notPlaced needed others below after =>
      have grows := needed.placed_prefix.length_le
      have longer := others.placed_prefix.length_le
      rw [List.length_append, List.length_singleton] at longer
      cases depth with
      | zero => omega
      | succ depth =>
          have first : place needs depth (needs node) placed = before := below (by omega)
          have others : place needs (depth + 1) rest (before ++ [node]) = extended := by
            refine after ?_
            rw [List.length_append, List.length_singleton]
            omega
          rw [place, List.foldl_cons, if_neg notPlaced, first]
          exact others

/-! ## Orders of graphs -/

/-- What a node needs in turn comes before it. -/
theorem Follows.mem_earlier {order earlier later : List Nat} {node needed : Nat}
    (follows : Follows edges order) (split : order = earlier ++ node :: later)
    (needs : Relation.TransGen (Needs edges) node needed) : needed ∈ earlier := by
  induction needs with
  | single needs => exact follows earlier node later split _ needs
  | tail _ needs ih =>
      obtain ⟨first, second, rfl⟩ := List.append_of_mem ih
      rw [List.append_assoc, List.cons_append] at split
      exact List.mem_append_left _ (follows first _ _ split _ needs)

/-- A node with edges is a node of the graph. -/
theorem lt_of_needs {node needed : Nat} (needs : Needs edges node needed) : node < edges.length := by
  by_contra outside
  rw [Needs, edgesOf, List.getD_eq_default _ _ (Nat.le_of_not_lt outside)] at needs
  cases needs

/-- **Where there is an order, no node needs itself.** -/
theorem Orders.not_needs_itself {order : List Nat} (orders : Orders edges order) (node : Nat) :
    ¬ Relation.TransGen (Needs edges) node node := by
  intro needs
  obtain ⟨first, isFirst, _⟩ := Relation.TransGen.head'_iff.mp needs
  have placed : node ∈ order := (orders.mem_iff node).mpr (lt_of_needs isFirst)
  obtain ⟨earlier, later, split⟩ := List.append_of_mem placed
  have again := orders.follows.mem_earlier split needs
  have nodup := orders.nodup
  rw [split, List.nodup_append] at nodup
  exact nodup.2.2 node again node List.mem_cons_self rfl

/-- An order has as many nodes as the graph. -/
theorem Orders.perm {order : List Nat} (orders : Orders edges order) :
    order.Perm (List.range edges.length) := by
  refine (List.perm_ext_iff_of_nodup orders.nodup List.nodup_range).mpr fun node => ?_
  rw [orders.mem_iff, List.mem_range]

/-- The order that is found is that of the recursion that starts from each node in turn. -/
theorem place_of_topologicalOrder {order : List Nat} (found : topologicalOrder edges = .ok order)
    {depth : Nat} (deep : edges.length ≤ depth) :
    place (edgesOf edges) depth (List.range edges.length) [] = order := by
  have length := (orders_of_topologicalOrder found).perm.length_eq
  rw [List.length_range] at length
  refine (postOrder_of_topologicalOrder found).place_eq ?_
  rw [List.length_nil, Nat.zero_add, length]
  exact deep

/-- The nodes that others need lie inside a graph whose edges do. -/
theorem needs_inside (inside : ∀ targets ∈ edges, ∀ needed ∈ targets, needed < edges.length)
    (node needed : Nat) (needs : Needs edges node needed) : needed < edges.length := by
  have within := lt_of_needs needs
  rw [Needs, edgesOf, List.getD_eq_getElem _ _ within] at needs
  exact inside _ (List.getElem_mem within) needed needs

/-- **The search for an order in a graph whose edges stay inside it.**  It takes finitely many steps,
and at each moment everything that it looks up is there.  It finds an order exactly if no node needs
itself.  The order has every node once, each after the nodes it needs, and is that of the plain
recursion from each node in turn, however deep it may go down beyond the number of nodes.  If there
is none, the search names a node that needs itself. -/
theorem topologicalOrder_of_inside
    (inside : ∀ targets ∈ edges, ∀ needed ∈ targets, needed < edges.length) :
    (WellFounded fun later earlier => Step edges earlier later) ∧
    (∀ moment, Relation.ReflTransGen (Step edges) (.initial edges) moment →
      moment.Inside edges ∧ topologicalOrder edges = moment.resume edges) ∧
    (∀ node, topologicalOrder edges ≠ .error (.outOfRange node)) ∧
    ((∃ order, topologicalOrder edges = .ok order) ↔
      ∀ node, ¬ Relation.TransGen (Needs edges) node node) ∧
    (∀ order, topologicalOrder edges = .ok order →
      order.Perm (List.range edges.length) ∧ Follows edges order ∧
        ∀ depth, edges.length ≤ depth →
          place (edgesOf edges) depth (List.range edges.length) [] = order) ∧
    ∀ node, topologicalOrder edges = .error (.cycle node) →
      Relation.TransGen (Needs edges) node node := by
  have needsInside := needs_inside inside
  refine ⟨wellFounded_step edges, fun moment reached => ?_, fun node failed => ?_, ?_, ?_, ?_⟩
  · exact ⟨Moment.inside_of_reached needsInside reached, (Moment.searching_of_reached reached).2.2⟩
  · obtain ⟨outside, user, needs⟩ := justified_of_topologicalOrder failed
    exact absurd (needsInside user node needs) (Nat.not_lt.mpr outside)
  · constructor
    · rintro ⟨order, found⟩
      exact (orders_of_topologicalOrder found).not_needs_itself
    · exact exists_topologicalOrder needsInside
  · intro order found
    have orders := orders_of_topologicalOrder found
    exact ⟨orders.perm, orders.follows, fun _ deep => place_of_topologicalOrder found deep⟩
  · intro node failed
    exact justified_of_topologicalOrder failed

/-- A graph with repeated edges and a node that the first one does not need, and a graph with a circle
that the first node does not need. -/
theorem topologicalOrder_of_inside_twice :
    (∀ targets ∈ [[2, 1, 2], [3], [1], [], [3]], ∀ needed ∈ targets, needed < 5) ∧
      (∀ node, ¬ Relation.TransGen (Needs [[2, 1, 2], [3], [1], [], [3]]) node node) ∧
      (∀ depth, 5 ≤ depth →
        place (edgesOf [[2, 1, 2], [3], [1], [], [3]]) depth (List.range 5) [] = [3, 1, 2, 0, 4]) ∧
      (∀ targets ∈ [[], [2], [3], [1, 0]], ∀ needed ∈ targets, needed < 4) ∧
      Relation.TransGen (Needs [[], [2], [3], [1, 0]]) 1 1 := by
  have found : topologicalOrder [[2, 1, 2], [3], [1], [], [3]] = .ok [3, 1, 2, 0, 4] := by cbv
  have failed : topologicalOrder [[], [2], [3], [1, 0]] = .error (.cycle 1) := by cbv
  have within : ∀ targets ∈ [[2, 1, 2], [3], [1], [], [3]], ∀ needed ∈ targets, needed < 5 := by
    decide
  have alsoWithin : ∀ targets ∈ [[], [2], [3], [1, 0]], ∀ needed ∈ targets, needed < 4 := by decide
  obtain ⟨_, _, _, orderedIff, isOrder, _⟩ := topologicalOrder_of_inside within
  obtain ⟨_, _, _, _, _, onCircle⟩ := topologicalOrder_of_inside alsoWithin
  exact ⟨within, orderedIff.mp ⟨_, found⟩, (isOrder _ found).2.2, alsoWithin,
    onCircle 1 failed⟩

end StageManifest.Graph
