/-!
# Orders in which every node follows the nodes it needs

A graph is given by lists of edges: entry `i` lists the nodes that node `i`
needs.  The order is the depth-first post-order that starts at node 0 and then
at each node not placed yet, in rising order, and follows the edges of a node in
the order in which they are listed.  The search keeps an explicit stack of nodes
with the edges still to follow; it ends because every step either marks a node
that was not visited before or shortens the stack's lists of edges.
-/

set_option autoImplicit false

namespace StageManifest.Graph

/-- How far the search has come with a node. -/
inductive Mark where
  | unvisited
  | visiting
  | done
deriving DecidableEq, Repr

/-- Why a graph has no order. -/
inductive OrderError where
  | cycle (node : Nat)
  | outOfRange (node : Nat)
deriving DecidableEq, Repr

/-- The edges of a node; a node outside the graph has none. -/
def edgesOf (edges : List (List Nat)) (node : Nat) : List Nat :=
  edges.getD node []

/-- How many steps the lists of edges on a stack allow at most. -/
def stackWeight : (stack : List (Nat × List Nat)) → Nat
  | [] => 0
  | frame :: rest => frame.2.length + 1 + stackWeight rest

theorem count_set_le (marks : List Mark) (node : Nat) (mark : Mark) (h : mark ≠ .unvisited) :
    (marks.set node mark).count .unvisited ≤ marks.count .unvisited := by
  induction marks generalizing node with
  | nil => simp
  | cons head tail ih =>
      cases node with
      | zero => simp [List.count_cons, h]
      | succ node => simpa [List.count_cons] using ih node

theorem count_set_lt (marks : List Mark) (node : Nat) (mark : Mark) (h : mark ≠ .unvisited)
    (hnode : marks[node]? = some .unvisited) :
    (marks.set node mark).count .unvisited < marks.count .unvisited := by
  induction marks generalizing node with
  | nil => simp at hnode
  | cons head tail ih =>
      cases node with
      | zero =>
          simp only [List.getElem?_cons_zero, Option.some.injEq] at hnode
          simp [h, hnode]
      | succ node =>
          simp only [List.getElem?_cons_succ] at hnode
          simpa [List.count_cons] using ih node hnode

/-- Searches until the stack is empty: the marks and the order reached. -/
def search (edges : List (List Nat)) :
    (stack : List (Nat × List Nat)) → (marks : List Mark) → (order : List Nat) →
      Except OrderError (List Mark × List Nat)
  | [], marks, order => .ok (marks, order)
  | (node, []) :: stack, marks, order =>
      search edges stack (marks.set node .done) (order ++ [node])
  | (node, needed :: rest) :: stack, marks, order =>
      match _hmark : marks[needed]? with
      | none => .error (.outOfRange needed)
      | some .visiting => .error (.cycle needed)
      | some .done => search edges ((node, rest) :: stack) marks order
      | some .unvisited =>
          search edges ((needed, edgesOf edges needed) :: (node, rest) :: stack)
            (marks.set needed .visiting) order
termination_by stack marks => (marks.count .unvisited, stackWeight stack)
decreasing_by
  · rcases Nat.lt_or_eq_of_le (count_set_le marks node .done (by decide)) with h | h
    · exact Prod.Lex.left _ _ h
    · rw [h]; exact Prod.Lex.right _ (by simp [stackWeight])
  · exact Prod.Lex.right _ (by simp [stackWeight])
  · exact Prod.Lex.left _ _ (count_set_lt marks needed .visiting (by decide) _hmark)

/-- Searches from each start that has no place in the order yet. -/
def searchAll (edges : List (List Nat)) :
    (starts : List Nat) → (marks : List Mark) → (order : List Nat) → Except OrderError (List Nat)
  | [], _, order => .ok order
  | start :: starts, marks, order =>
      if marks[start]? = some .unvisited then
        match search edges [(start, edgesOf edges start)] (marks.set start .visiting) order with
        | .error failure => .error failure
        | .ok (reached, extended) => searchAll edges starts reached extended
      else searchAll edges starts marks order

/-- The nodes of a graph, each after the nodes it needs. -/
def topologicalOrder (edges : List (List Nat)) : Except OrderError (List Nat) :=
  searchAll edges (List.range edges.length) (List.replicate edges.length .unvisited) []

end StageManifest.Graph
