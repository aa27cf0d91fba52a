import Mathlib.Data.List.Basic
import Mathlib.Data.List.Nodup
import Mathlib.Logic.Relation
import StageManifest.Graph.Order

/-!
# The search places every node after the nodes it needs

At every moment of the search the marks tell exactly which nodes are on the
stack and which have their place, the placed nodes follow the nodes they need,
and an edge that a frame has followed leads to a placed node or to the frame
above (`Searching`).  Each step keeps this (`Searching.finish`, `.skip`,
`.enter`), and so does a whole search (`searching_of_search`).

It follows that a node met again on the stack needs itself
(`justified_of_topologicalOrder`), that a graph without circles and without edges
out of it has an order (`exists_topologicalOrder`), and that an order lists every
node once, each after what it needs (`orders_of_topologicalOrder`).  Where every
node is needed by the first one, the first one comes last
(`getLast?_of_topologicalOrder`).
-/

set_option autoImplicit false

namespace StageManifest.Graph

variable {edges : List (List Nat)}

/-- An edge leads from the one node to the other. -/
def Needs (edges : List (List Nat)) (node needed : Nat) : Prop := needed ∈ edgesOf edges node

/-- Every node of the list follows the nodes it needs. -/
def Follows (edges : List (List Nat)) (order : List Nat) : Prop :=
  ∀ earlier node later, order = earlier ++ node :: later →
    ∀ needed, Needs edges node needed → needed ∈ earlier

/-- What is wrong with a graph for which an error is given. -/
def OrderError.Justified (edges : List (List Nat)) : OrderError → Prop
  | .cycle node => Relation.TransGen (Needs edges) node node
  | .outOfRange node => edges.length ≤ node ∧ ∃ user, Needs edges user node

/-! ## Lists in which every node follows what it needs -/

theorem follows_nil (edges : List (List Nat)) : Follows edges [] := by
  intro earlier node later same
  simp at same

/-- A node can be placed after everything it needs. -/
theorem Follows.append {order : List Nat} {node : Nat} (follows : Follows edges order)
    (placed : ∀ needed, Needs edges node needed → needed ∈ order) :
    Follows edges (order ++ [node]) := by
  intro earlier other later same needed needs
  rcases List.eq_nil_or_concat later with rfl | ⟨front, last, rfl⟩
  · obtain ⟨rfl, sameNode⟩ := List.append_inj' same rfl
    cases sameNode
    exact placed needed needs
  · have split : order ++ [node] = (earlier ++ other :: front) ++ [last] := by
      simpa [List.concat_eq_append] using same
    obtain ⟨rfl, _⟩ := List.append_inj' split rfl
    exact follows earlier other front rfl needed needs

/-- What a placed node needs is placed. -/
theorem Follows.closed {order : List Nat} (follows : Follows edges order) {node needed : Nat}
    (placed : node ∈ order) (needs : Needs edges node needed) : needed ∈ order := by
  obtain ⟨earlier, later, rfl⟩ := List.append_of_mem placed
  exact List.mem_append_left _ (follows earlier node later rfl needed needs)

/-- Everything that a placed node needs in turn is placed. -/
theorem Follows.closed_star {order : List Nat} (follows : Follows edges order) {node needed : Nat}
    (placed : node ∈ order) (needs : Relation.ReflTransGen (Needs edges) node needed) :
    needed ∈ order := by
  induction needs with
  | refl => exact placed
  | tail _ needs ih => exact follows.closed ih needs

/-! ## The frames of a stack -/

/-- Every edge that a frame has followed leads to a placed node or to the frame above. -/
inductive Opened (edges : List (List Nat)) (order : List Nat) :
    (above : Option Nat) → (stack : List (Nat × List Nat)) → Prop where
  | nil (above : Option Nat) : Opened edges order above []
  | cons {above : Option Nat} {node : Nat} {rest : List Nat} {stack : List (Nat × List Nat)}
      (followed : ∀ needed, Needs edges node needed →
        needed ∈ rest ∨ needed ∈ order ∨ above = some needed)
      (ahead : ∀ needed ∈ rest, Needs edges node needed)
      (link : ∀ needed, above = some needed → Needs edges node needed)
      (below : Opened edges order (some node) stack) :
      Opened edges order above ((node, rest) :: stack)

namespace Opened

variable {order : List Nat} {stack : List (Nat × List Nat)}

theorem mono {above : Option Nat} {longer : List Nat} (opened : Opened edges order above stack)
    (subset : order ⊆ longer) : Opened edges longer above stack := by
  induction opened with
  | nil above => exact .nil above
  | cons followed ahead link _ ih =>
      exact .cons (fun needed needs => (followed needed needs).imp_right (Or.imp_left (@subset _)))
        ahead link ih

/-- When the frame above is placed, the stack below is left on top. -/
theorem close {node : Nat} (opened : Opened edges order (some node) stack) :
    Opened edges (order ++ [node]) none stack := by
  have longer := opened.mono (List.subset_append_left order [node])
  cases longer with
  | nil => exact .nil none
  | cons followed ahead _ below =>
      refine .cons (fun needed needs => ?_) ahead (fun _ never => nomatch never) below
      rcases followed needed needs with isAhead | placed | same
      · exact .inl isAhead
      · exact .inr (.inl placed)
      · cases same
        exact .inr (.inl (List.mem_append_right _ (List.mem_singleton.mpr rfl)))

/-- The frame on top has followed an edge to a placed node or to the frame put above it. -/
theorem advance {above : Option Nat} {node needed : Nat} {rest : List Nat}
    (opened : Opened edges order none ((node, needed :: rest) :: stack))
    (met : needed ∈ order ∨ above = some needed)
    (only : ∀ other, above = some other → other = needed) :
    Opened edges order above ((node, rest) :: stack) := by
  cases opened with
  | cons followed ahead _ below =>
      refine .cons (fun other needs => ?_)
        (fun other member => ahead other (List.mem_cons_of_mem _ member)) (fun other same => ?_)
        below
      · rcases followed other needs with isAhead | placed | never
        · rcases List.mem_cons.mp isAhead with rfl | isAhead
          · exact .inr met
          · exact .inl isAhead
        · exact .inr (.inl placed)
        · cases never
      · rw [only other same]
        exact ahead needed List.mem_cons_self

/-- Every node on the stack needs the node above it in turn. -/
theorem needs_above {node other : Nat} (opened : Opened edges order (some node) stack)
    (member : other ∈ stack.map Prod.fst) : Relation.TransGen (Needs edges) other node := by
  induction stack generalizing node with
  | nil => cases member
  | cons frame rest ih =>
      cases opened with
      | cons _ _ link below =>
          rcases List.mem_cons.mp member with rfl | member
          · exact .single (link node rfl)
          · exact (ih below member).tail (link node rfl)

end Opened

/-! ## Moments of a search -/

/-- The nodes on the stack are those being visited, the nodes in the order are those that are
done, none comes twice, and every placed node follows the nodes it needs. -/
structure Searching (edges : List (List Nat)) (stack : List (Nat × List Nat)) (marks : List Mark)
    (order : List Nat) : Prop where
  size : marks.length = edges.length
  opened : Opened edges order none stack
  visiting : ∀ node, marks[node]? = some .visiting ↔ node ∈ stack.map Prod.fst
  placed : ∀ node, marks[node]? = some .done ↔ node ∈ order
  stack_nodup : (stack.map Prod.fst).Nodup
  order_nodup : order.Nodup
  follows : Follows edges order

/-- The marks after one of them is set. -/
theorem getElem?_set_of_mark {marks : List Mark} {node : Nat} {old : Mark}
    (isOld : marks[node]? = some old) (mark : Mark) (other : Nat) :
    (marks.set node mark)[other]? = if node = other then some mark else marks[other]? := by
  have inside : node < marks.length := (List.getElem?_eq_some_iff.mp isOld).1
  rw [List.getElem?_set]
  by_cases same : node = other
  · subst same
    simp [inside]
  · simp [same]

namespace Searching

variable {stack : List (Nat × List Nat)} {marks : List Mark} {order : List Nat}
  {node needed : Nat} {rest : List Nat}

theorem start (edges : List (List Nat)) :
    Searching edges [] (List.replicate edges.length .unvisited) [] where
  size := List.length_replicate
  opened := .nil none
  visiting node := by simp [List.getElem?_replicate]
  placed node := by simp [List.getElem?_replicate]
  stack_nodup := List.nodup_nil
  order_nodup := List.nodup_nil
  follows := follows_nil edges

/-- Only nodes that are done have a place. -/
theorem not_mem_order {mark : Mark} (searching : Searching edges stack marks order)
    (isMark : marks[node]? = some mark) (notDone : mark ≠ .done) : node ∉ order := by
  intro placed
  have isDone := (searching.placed node).mpr placed
  rw [isMark] at isDone
  exact notDone (Option.some.inj isDone)

/-- The top node is placed when all its edges have been followed. -/
theorem finish (searching : Searching edges ((node, []) :: stack) marks order) :
    Searching edges stack (marks.set node .done) (order ++ [node]) := by
  have isVisiting : marks[node]? = some .visiting :=
    (searching.visiting node).mpr List.mem_cons_self
  have set := getElem?_set_of_mark isVisiting .done
  have notPlaced := searching.not_mem_order isVisiting (by decide)
  obtain ⟨notBelow, nodupBelow⟩ := List.nodup_cons.mp searching.stack_nodup
  constructor
  · rw [List.length_set, searching.size]
  · cases searching.opened with
    | cons _ _ _ below => exact below.close
  · intro other
    rw [set]
    by_cases same : node = other
    · subst same
      simpa using notBelow
    · rw [if_neg same, searching.visiting]
      simp [Ne.symm same]
  · intro other
    rw [set, List.mem_append, List.mem_singleton]
    by_cases same : node = other
    · simp [same]
    · rw [if_neg same, searching.placed]
      simp [Ne.symm same]
  · exact nodupBelow
  · refine List.nodup_append.mpr ⟨searching.order_nodup, List.nodup_singleton node, ?_⟩
    rintro other isPlaced last isLast rfl
    exact notPlaced (List.mem_singleton.mp isLast ▸ isPlaced)
  · refine searching.follows.append fun needed needs => ?_
    cases searching.opened with
    | cons followed _ _ _ =>
        rcases followed needed needs with never | placed | never
        · cases never
        · exact placed
        · cases never

/-- An edge to a placed node is passed over. -/
theorem skip (searching : Searching edges ((node, needed :: rest) :: stack) marks order)
    (isDone : marks[needed]? = some .done) :
    Searching edges ((node, rest) :: stack) marks order where
  size := searching.size
  opened := by
    have isPlaced : needed ∈ order := (searching.placed needed).mp isDone
    exact searching.opened.advance (.inl isPlaced) fun _ never => nomatch never
  visiting := searching.visiting
  placed := searching.placed
  stack_nodup := searching.stack_nodup
  order_nodup := searching.order_nodup
  follows := searching.follows

/-- A node that has not been met is put on the stack. -/
theorem enter {below : List (Nat × List Nat)} (searching : Searching edges stack marks order)
    (unvisited : marks[node]? = some .unvisited) (opened : Opened edges order (some node) below)
    (sameNodes : below.map Prod.fst = stack.map Prod.fst) :
    Searching edges ((node, edgesOf edges node) :: below) (marks.set node .visiting) order := by
  have set := getElem?_set_of_mark unvisited .visiting
  constructor
  · rw [List.length_set, searching.size]
  · exact .cons (fun _ needs => .inl needs) (fun _ member => member) (fun _ never => nomatch never)
      opened
  · intro other
    rw [set, List.map_cons, sameNodes, List.mem_cons]
    by_cases same : node = other
    · simp [same]
    · rw [if_neg same, searching.visiting]
      simp [Ne.symm same]
  · intro other
    rw [set, ← searching.placed]
    by_cases same : node = other
    · subst same
      simp [unvisited]
    · rw [if_neg same]
  · rw [List.map_cons, sameNodes]
    refine List.nodup_cons.mpr ⟨fun member => ?_, searching.stack_nodup⟩
    have isVisiting := (searching.visiting node).mpr member
    rw [unvisited] at isVisiting
    cases isVisiting
  · exact searching.order_nodup
  · exact searching.follows

/-- The search goes on with a node that the top node needs. -/
theorem descend (searching : Searching edges ((node, needed :: rest) :: stack) marks order)
    (unvisited : marks[needed]? = some .unvisited) :
    Searching edges ((needed, edgesOf edges needed) :: (node, rest) :: stack)
      (marks.set needed .visiting) order := by
  have opened : Opened edges order (some needed) ((node, rest) :: stack) :=
    searching.opened.advance (.inr rfl) fun _ same => (Option.some.inj same).symm
  exact searching.enter unvisited opened rfl

/-- A search begins at a node that has not been met. -/
theorem visit (searching : Searching edges [] marks order)
    (unvisited : marks[node]? = some .unvisited) :
    Searching edges [(node, edgesOf edges node)] (marks.set node .visiting) order :=
  searching.enter unvisited (.nil _) rfl

/-- **A node that is needed while it is on the stack needs itself.** -/
theorem needs_itself (searching : Searching edges ((node, needed :: rest) :: stack) marks order)
    (isVisiting : marks[needed]? = some .visiting) :
    Relation.TransGen (Needs edges) needed needed := by
  have onStack := (searching.visiting needed).mp isVisiting
  cases searching.opened with
  | cons _ ahead _ below =>
      have needs : Needs edges node needed := ahead needed List.mem_cons_self
      rcases List.mem_cons.mp onStack with same | deeper
      · rw [show needed = node from same] at needs ⊢
        exact .single needs
      · exact (below.needs_above deeper).tail needs

/-- Outside a search every node of the graph is placed or has not been met. -/
theorem mem_order_of_not_unvisited (searching : Searching edges [] marks order)
    (inside : node < edges.length) (met : ¬ marks[node]? = some .unvisited) : node ∈ order := by
  have bound : node < marks.length := searching.size ▸ inside
  cases isMark : marks[node]? with
  | none => exact absurd bound (Nat.not_lt.mpr (List.getElem?_eq_none_iff.mp isMark))
  | some mark =>
      cases mark with
      | unvisited => exact absurd isMark met
      | visiting => exact ((List.not_mem_nil) ((searching.visiting node).mp isMark)).elim
      | done => exact (searching.placed node).mp isMark

/-- Only nodes of the graph are placed. -/
theorem lt_of_mem_order (searching : Searching edges stack marks order) (placed : node ∈ order) :
    node < edges.length := by
  have isDone := (searching.placed node).mpr placed
  exact searching.size ▸ (List.getElem?_eq_some_iff.mp isDone).1

end Searching

/-! ## Whole searches -/

/-- **A search that ends well has placed what was on its stack.** -/
theorem searching_of_search {stack : List (Nat × List Nat)} {marks reached : List Mark}
    {order extended : List Nat} (searching : Searching edges stack marks order)
    (ok : search edges stack marks order = .ok (reached, extended)) :
    Searching edges [] reached extended ∧ order <+: extended := by
  fun_induction search edges stack marks order with
  | case1 marks order =>
      cases ok
      exact ⟨searching, List.prefix_refl _⟩
  | case2 node stack marks order ih =>
      obtain ⟨ends, grows⟩ := ih searching.finish ok
      exact ⟨ends, (List.prefix_append order [node]).trans grows⟩
  | case3 | case4 => cases ok
  | case5 node needed rest stack marks order isDone ih => exact ih (searching.skip isDone) ok
  | case6 node needed rest stack marks order unvisited ih =>
      exact ih (searching.descend unvisited) ok

/-- **A search fails only for a reason.** -/
theorem justified_of_search {stack : List (Nat × List Nat)} {marks : List Mark} {order : List Nat}
    {failure : OrderError} (searching : Searching edges stack marks order)
    (failed : search edges stack marks order = .error failure) : failure.Justified edges := by
  fun_induction search edges stack marks order with
  | case1 => cases failed
  | case2 node stack marks order ih => exact ih searching.finish failed
  | case3 node needed rest stack marks order noMark =>
      cases failed
      have outside := List.getElem?_eq_none_iff.mp noMark
      cases searching.opened with
      | cons _ ahead _ _ => exact ⟨searching.size ▸ outside, node, ahead needed List.mem_cons_self⟩
  | case4 node needed rest stack marks order isVisiting =>
      cases failed
      exact searching.needs_itself isVisiting
  | case5 node needed rest stack marks order isDone ih => exact ih (searching.skip isDone) failed
  | case6 node needed rest stack marks order unvisited ih =>
      exact ih (searching.descend unvisited) failed

/-- The node at the bottom of the stack is placed last. -/
theorem getLast?_of_search {stack : List (Nat × List Nat)} {marks reached : List Mark}
    {order extended : List Nat} (nonempty : stack ≠ [])
    (ok : search edges stack marks order = .ok (reached, extended)) :
    extended.getLast? = stack.getLast?.map Prod.fst := by
  fun_induction search edges stack marks order with
  | case1 => exact absurd rfl nonempty
  | case2 node stack marks order ih =>
      cases stack with
      | nil =>
          rw [search] at ok
          cases ok
          simp
      | cons frame below => simpa using ih (List.cons_ne_nil _ _) ok
  | case3 | case4 => cases ok
  | case5 node needed rest stack marks order isDone ih =>
      cases stack with
      | nil => simpa using ih (List.cons_ne_nil _ _) ok
      | cons frame below => simpa using ih (List.cons_ne_nil _ _) ok
  | case6 node needed rest stack marks order unvisited ih =>
      cases stack with
      | nil => simpa using ih (List.cons_ne_nil _ _) ok
      | cons frame below => simpa using ih (List.cons_ne_nil _ _) ok

/-- Searches from each of the starts that end well have placed all of them. -/
theorem searching_of_searchAll {starts : List Nat} {marks : List Mark} {order extended : List Nat}
    (searching : Searching edges [] marks order)
    (ok : searchAll edges starts marks order = .ok extended) :
    (∃ reached, Searching edges [] reached extended) ∧ order <+: extended ∧
      ∀ start ∈ starts, start < edges.length → start ∈ extended := by
  fun_induction searchAll edges starts marks order with
  | case1 marks order =>
      cases ok
      exact ⟨⟨marks, searching⟩, List.prefix_refl _, fun _ member => by cases member⟩
  | case2 => cases ok
  | case3 start starts marks order unvisited reached middle found ih =>
      obtain ⟨between, grows⟩ := searching_of_search (searching.visit unvisited) found
      obtain ⟨ends, further, all⟩ := ih between ok
      have isLast : middle.getLast? = some start :=
        getLast?_of_search (List.cons_ne_nil _ _) found
      refine ⟨ends, grows.trans further, fun other member inside => ?_⟩
      rcases List.mem_cons.mp member with rfl | member
      · exact further.subset (List.mem_of_getLast? isLast)
      · exact all other member inside
  | case4 start starts marks order met ih =>
      obtain ⟨ends, further, all⟩ := ih searching ok
      refine ⟨ends, further, fun other member inside => ?_⟩
      rcases List.mem_cons.mp member with rfl | member
      · exact further.subset (searching.mem_order_of_not_unvisited inside met)
      · exact all other member inside

theorem justified_of_searchAll {starts : List Nat} {marks : List Mark} {order : List Nat}
    {failure : OrderError} (searching : Searching edges [] marks order)
    (failed : searchAll edges starts marks order = .error failure) :
    failure.Justified edges := by
  fun_induction searchAll edges starts marks order with
  | case1 => cases failed
  | case2 start starts marks order unvisited error found =>
      cases failed
      exact justified_of_search (searching.visit unvisited) found
  | case3 start starts marks order unvisited reached middle found ih =>
      exact ih (searching_of_search (searching.visit unvisited) found).1 failed
  | case4 start starts marks order met ih => exact ih searching failed

/-- Starts that are placed already are passed over. -/
theorem searchAll_of_placed {starts : List Nat} {marks : List Mark} {order : List Nat}
    (searching : Searching edges [] marks order) (placed : ∀ start ∈ starts, start ∈ order) :
    searchAll edges starts marks order = .ok order := by
  induction starts with
  | nil => rfl
  | cons start starts ih =>
      have isDone := (searching.placed start).mpr (placed start List.mem_cons_self)
      have met : ¬ marks[start]? = some .unvisited := by
        rw [isDone]
        exact fun same => nomatch same
      rw [searchAll, if_neg met]
      exact ih fun other member => placed other (List.mem_cons_of_mem _ member)

/-! ## Orders of graphs -/

/-- The list has every node of the graph once, each after the nodes it needs. -/
structure Orders (edges : List (List Nat)) (order : List Nat) : Prop where
  nodup : order.Nodup
  mem_iff : ∀ node, node ∈ order ↔ node < edges.length
  follows : Follows edges order

theorem orders_of_topologicalOrder {order : List Nat} (ok : topologicalOrder edges = .ok order) :
    Orders edges order := by
  obtain ⟨⟨reached, searching⟩, _, all⟩ := searching_of_searchAll (.start edges) ok
  exact
    { nodup := searching.order_nodup
      mem_iff := fun node =>
        ⟨searching.lt_of_mem_order, fun inside => all node (List.mem_range.mpr inside) inside⟩
      follows := searching.follows }

theorem justified_of_topologicalOrder {failure : OrderError}
    (failed : topologicalOrder edges = .error failure) : failure.Justified edges :=
  justified_of_searchAll (.start edges) failed

/-- **A graph without circles whose edges stay inside it has an order.** -/
theorem exists_topologicalOrder
    (inside : ∀ node needed, Needs edges node needed → needed < edges.length)
    (acyclic : ∀ node, ¬ Relation.TransGen (Needs edges) node node) :
    ∃ order, topologicalOrder edges = .ok order := by
  cases found : topologicalOrder edges with
  | ok order => exact ⟨order, rfl⟩
  | error failure =>
      have justified := justified_of_topologicalOrder found
      cases failure with
      | cycle node => exact absurd justified (acyclic node)
      | outOfRange node =>
          obtain ⟨outside, user, needs⟩ := justified
          exact absurd (inside user node needs) (Nat.not_lt.mpr outside)

/-- **A first node that needs all others in turn comes last.** -/
theorem getLast?_of_topologicalOrder {order : List Nat} (nonempty : 0 < edges.length)
    (needs : ∀ node, node < edges.length → Relation.ReflTransGen (Needs edges) 0 node)
    (ok : topologicalOrder edges = .ok order) : order.getLast? = some 0 := by
  obtain ⟨count, isCount⟩ := Nat.exists_eq_succ_of_ne_zero (Nat.ne_of_gt nonempty)
  have unvisited : (List.replicate edges.length Mark.unvisited)[0]? = some .unvisited := by
    simp [nonempty]
  have start := Searching.start edges
  rw [topologicalOrder, isCount, List.range_succ_eq_map, ← isCount, searchAll, if_pos unvisited]
    at ok
  split at ok
  case h_1 => cases ok
  case h_2 reached extended found =>
    obtain ⟨searching, _⟩ := searching_of_search (start.visit unvisited) found
    have isLast : extended.getLast? = some 0 := getLast?_of_search (List.cons_ne_nil _ _) found
    have placed : ∀ node, node < edges.length → node ∈ extended := fun node within =>
      searching.follows.closed_star (List.mem_of_getLast? isLast) (needs node within)
    -- Everything is placed after the first search, so the other starts add nothing.
    rw [searchAll_of_placed searching] at ok
    · cases ok
      exact isLast
    · intro node member
      obtain ⟨before, isBefore, rfl⟩ := List.mem_map.mp member
      have bound := List.mem_range.mp isBefore
      exact placed _ (by omega)

end StageManifest.Graph
