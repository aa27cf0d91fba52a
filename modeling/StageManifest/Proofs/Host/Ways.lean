import StageManifest.Proofs.Host.Files

/-!
# Ways to places

A path leads to a place name by name (`Location.along`).  In a tree in which
everything lies in a directory, a path that does not lead to a directory ends with
a proper name below a directory (`FileTree.Rooted.exists_names_of_locate?`).
Every change leaves a tree so (`FileTree.Rooted.write?`,
`FileTree.Rooted.makeDirectories`, `FileTree.Rooted.removeAt`).
-/

set_option autoImplicit false

namespace StageManifest

open HostPath (isIdle)

/-! ## Walking along names -/

namespace Location

/-- The place that a name leads to. -/
def next (location : Location) (name : List UInt8) : Location :=
  if isIdle name then location
  else if name = FileTree.upward then location.dropLast
  else location ++ [name]

/-- The place that names lead to. -/
def along (start : Location) (names : List (List UInt8)) : Location :=
  names.foldl next start

/-- A name that leads into the directory with that name. -/
def IsProper (name : List UInt8) : Prop :=
  isIdle name = false ∧ name ≠ FileTree.upward

theorem along_append (start : Location) (first second : List (List UInt8)) :
    along start (first ++ second) = along (along start first) second :=
  List.foldl_append

/-- Proper names lead downward. -/
theorem along_of_proper {names : List (List UInt8)} (proper : ∀ name ∈ names, IsProper name)
    (start : Location) : along start names = start ++ names := by
  induction names generalizing start with
  | nil => rw [List.append_nil]; rfl
  | cons name rest ih =>
      obtain ⟨first, others⟩ := List.forall_mem_cons.mp proper
      have step : next start name = start ++ [name] := by
        rw [next, if_neg (Bool.not_eq_true _ ▸ first.1), if_neg first.2]
      rw [along, List.foldl_cons, step, ← along, ih others, List.append_assoc,
        List.singleton_append]

/-- The names of the place that names lead to were there at the start or are among the names, as
proper ones. -/
theorem mem_along {start : Location} {names : List (List UInt8)} {name : List UInt8}
    (member : name ∈ along start names) : name ∈ start ∨ name ∈ names ∧ IsProper name := by
  induction names generalizing start with
  | nil => exact .inl member
  | cons first rest ih =>
      rcases ih member with before | ⟨after, proper⟩
      · unfold next at before
        split at before
        · exact .inl before
        · split at before
          · exact .inl (List.dropLast_subset _ before)
          · rcases List.mem_append.mp before with old | new
            · exact .inl old
            · rw [List.mem_singleton.mp new]
              exact .inr ⟨List.mem_cons_self, Bool.eq_false_iff.mpr ‹_›, ‹_›⟩
      · exact .inr ⟨List.mem_cons_of_mem _ after, proper⟩

end Location

namespace FileTree

variable {tree after : FileTree} {here location following : Location} {path : HostPath}
  {entry : TreeEntry} {name : List UInt8} {content : List UInt8}

/-! ## Steps -/

theorem next_of_step (stepped : tree.step location name = some following) :
    tree.isDirectory location = true ∧ following = location.next name := by
  unfold step at stepped
  split at stepped
  · cases stepped
  next open? =>
    have isDirectory : tree.isDirectory location = true := by
      simp only [Bool.or_eq_true, Bool.not_eq_true', not_or] at open?
      exact Bool.not_eq_false _ ▸ open?.1
    refine ⟨isDirectory, ?_⟩
    unfold Location.next
    split at stepped
    · rw [if_pos ‹_›, Option.some.inj stepped]
    · rw [if_neg ‹_›]
      split at stepped
      · rw [if_pos ‹_›, Option.some.inj stepped]
      · rw [if_neg ‹_›, Option.some.inj stepped]

theorem eq_along_of_foldlM {names : List (List UInt8)} {start : Location}
    (walked : names.foldlM tree.step start = some location) : location = start.along names := by
  induction names generalizing start with
  | nil =>
      cases walked
      rfl
  | cons name rest ih =>
      rw [List.foldlM_cons, Option.bind_eq_bind, Option.bind_eq_some_iff] at walked
      obtain ⟨following, stepped, walked⟩ := walked
      rw [ih walked, (next_of_step stepped).2]
      rfl

/-! ## Rooted trees -/

/-- What is in the tree lies in a directory. -/
def Rooted (tree : FileTree) : Prop :=
  ∀ location entry, tree.entry? location = some entry → tree.isDirectory location.dropLast = true

theorem rooted_of_forall_mem
    (parents : ∀ pair ∈ tree.entries, tree.isDirectory pair.1.dropLast = true) : tree.Rooted := by
  intro location entry isThere
  unfold entry? at isThere
  split at isThere
  next isRoot =>
    rw [List.isEmpty_iff.mp isRoot]
    rfl
  · obtain ⟨_, _, split, _⟩ := List.lookup_eq_some_iff.mp isThere
    exact parents (location, entry) (split ▸ List.mem_append_right _ List.mem_cons_self)

namespace Rooted

/-- What is above a directory is a directory, so only a proper name leads to something else. -/
theorem isProper_of_step (rooted : tree.Rooted)
    (stepped : tree.step location name = some following)
    (notDirectory : tree.isDirectory following = false) :
    tree.isDirectory location = true ∧ Location.IsProper name ∧ following = location ++ [name] := by
  obtain ⟨isDirectory, next⟩ := next_of_step stepped
  refine ⟨isDirectory, ?_⟩
  unfold Location.next at next
  split at next
  · rw [next, isDirectory] at notDirectory
    cases notDirectory
  next notIdle =>
    split at next
    · have isThere := isDirectory
      rw [FileTree.isDirectory, beq_iff_eq] at isThere
      rw [next, rooted location .directory isThere] at notDirectory
      cases notDirectory
    next notUpward => exact ⟨⟨Bool.eq_false_iff.mpr notIdle, notUpward⟩, next⟩

/-- **A path that does not lead to a directory ends with a proper name**, and before that it leads
to a directory. -/
theorem exists_names_of_locate? (rooted : tree.Rooted)
    (located : tree.locate? here path = some location)
    (notDirectory : tree.isDirectory location = false) :
    ∃ above last, path.names = above ++ [last] ∧ Location.IsProper last ∧
      location = (start here path).along above ++ [last] ∧
      tree.isDirectory location.dropLast = true := by
  unfold locate? at located
  split at located
  · cases located
  have someNames : path.names ≠ [] := List.splitOn_ne_nil _ _
  obtain ⟨above, last, split⟩ := (List.eq_nil_or_concat path.names).resolve_left someNames
  rw [List.concat_eq_append] at split
  rw [split, List.foldlM_append, Option.bind_eq_bind, Option.bind_eq_some_iff] at located
  obtain ⟨directory, walked, stepped⟩ := located
  simp only [List.foldlM_cons, List.foldlM_nil, bind_pure] at stepped
  obtain ⟨isDirectory, proper, rfl⟩ := rooted.isProper_of_step stepped notDirectory
  refine ⟨above, last, split, proper, ?_, ?_⟩
  · rw [eq_along_of_foldlM walked]
  · rwa [List.dropLast_concat]

/-! ## Changes of rooted trees -/

theorem put (rooted : tree.Rooted) (notDirectory : tree.isDirectory location = false)
    (above : tree.isDirectory location.dropLast = true) :
    FileTree.Rooted (tree.put location entry) := by
  intro place held isThere
  by_cases same : place = location
  · exact isDirectory_put notDirectory (same ▸ above)
  · rw [entry?_put_of_ne same] at isThere
    exact isDirectory_put notDirectory (rooted place held isThere)

/-- A written file lies in a directory. -/
theorem write? (rooted : tree.Rooted) (written : tree.write? here path content = some after) :
    after.Rooted := by
  obtain ⟨location, located, notDirectory, rfl⟩ := exists_location_of_write? written
  obtain ⟨_, _, _, _, _, above⟩ := rooted.exists_names_of_locate? located notDirectory
  exact rooted.put notDirectory above

theorem makeAlong (rooted : tree.Rooted) (location : Location) (names : List (List UInt8)) :
    FileTree.Rooted (tree.makeAlong location names).1 := by
  induction names generalizing tree location with
  | nil => exact rooted
  | cons name rest ih =>
      rw [FileTree.makeAlong]
      split
      · exact rooted
      next following stepped =>
        split
        · exact ih rooted following
        · exact rooted
        next isFree =>
          have notDirectory := isDirectory_of_free isFree
          obtain ⟨isDirectory, _, rfl⟩ := rooted.isProper_of_step stepped notDirectory
          refine ih (rooted.put notDirectory ?_) _
          rwa [List.dropLast_concat]

/-- Every directory that was made lies in a directory. -/
theorem makeDirectories (rooted : tree.Rooted) (here : Location) (path : HostPath) :
    FileTree.Rooted (tree.makeDirectories here path).1 := by
  unfold FileTree.makeDirectories
  split
  · exact rooted
  · split
    · exact rooted
    · exact rooted.makeAlong _ _

theorem remove (rooted : tree.Rooted) (location : Location) :
    FileTree.Rooted (tree.remove location) := by
  intro place held isThere
  by_cases isRoot : place = []
  · subst isRoot
    rfl
  obtain ⟨wasThere, apart⟩ := (entry?_remove_eq_some_iff isRoot).mp isThere
  have wasDirectory := rooted place held wasThere
  by_cases isTop : place.dropLast = []
  · rw [isTop]
    rfl
  · rw [FileTree.isDirectory, beq_iff_eq] at wasDirectory ⊢
    refine (entry?_remove_eq_some_iff isTop).mpr ⟨wasDirectory, fun below => apart ?_⟩
    exact below.trans (List.dropLast_prefix place)

/-- What remains lies in a directory. -/
theorem removeAt (rooted : tree.Rooted) (here : Location) (path : HostPath) :
    FileTree.Rooted (tree.removeAt here path) := by
  unfold FileTree.removeAt
  split
  · exact rooted
  · exact rooted.remove _

end Rooted

end FileTree

end StageManifest
