import StageManifest.Host.Files

/-!
# Written files

A file that was written is found by the path it was written to
(`FileTree.find?_of_write?`), and what is at other places stays there
(`FileTree.entry?_put_of_ne`).  Making directories keeps what is there
(`FileTree.entry?_of_makeDirectories`).  Removing a place removes what is below it
and nothing else (`FileTree.entry?_remove_eq_some_iff`).
-/

set_option autoImplicit false

namespace StageManifest.FileTree

variable {tree after : FileTree} {here location place : Location} {path : HostPath}
  {entry : TreeEntry} {content : List UInt8}

/-! ## Places -/

theorem lookup_filter (keep : Location → Bool) (kept : keep place = true)
    (entries : List (Location × TreeEntry)) :
    (entries.filter fun pair => keep pair.1).lookup place = entries.lookup place := by
  induction entries with
  | nil => rfl
  | cons pair rest ih =>
      rw [List.filter_cons, List.lookup_cons]
      split
      · rw [List.lookup_cons, ih]
      next isDropped =>
        have different : place ≠ pair.1 := by
          rintro rfl
          exact isDropped kept
        rw [ih, beq_eq_false_iff_ne.mpr different]

theorem entry?_put_of_ne (different : place ≠ location) :
    entry? (tree.put location entry) place = tree.entry? place := by
  have filtered := lookup_filter (· != location) (bne_iff_ne.mpr different) tree.entries
  unfold entry?
  rw [put, List.lookup_cons, beq_eq_false_iff_ne.mpr different, filtered]

theorem entry?_put_self (notRoot : location ≠ []) :
    entry? (tree.put location entry) location = some entry := by
  unfold entry?
  rw [if_neg (by simpa using notRoot), put, List.lookup_cons_self]

theorem isDirectory_of_file (isFile : tree.entry? location = some (.file content)) :
    tree.isDirectory location = false := by
  rw [isDirectory, isFile]
  rfl

theorem isDirectory_of_free (isFree : tree.entry? location = none) :
    tree.isDirectory location = false := by
  rw [isDirectory, isFree]
  rfl

/-- A directory is there for all that is put somewhere else than a directory. -/
theorem isDirectory_put (notDirectory : tree.isDirectory location = false)
    (isDirectory : tree.isDirectory place = true) :
    FileTree.isDirectory (tree.put location entry) place = true := by
  have different : place ≠ location := by
    rintro rfl
    rw [notDirectory] at isDirectory
    cases isDirectory
  rw [FileTree.isDirectory, entry?_put_of_ne different]
  exact isDirectory

/-- **Removing a place removes what is below it**, except for the root, and nothing else. -/
theorem entry?_remove_eq_some_iff (notRoot : place ≠ []) :
    entry? (tree.remove location) place = some entry ↔
      tree.entry? place = some entry ∧ ¬ location <+: place := by
  unfold entry?
  rw [if_neg (by simpa using notRoot), if_neg (by simpa using notRoot)]
  by_cases below : location <+: place
  · refine iff_of_false (fun isThere => ?_) (fun both => both.2 below)
    obtain ⟨_, _, split, _⟩ := List.lookup_eq_some_iff.mp isThere
    have member : (place, entry) ∈ FileTree.entries (tree.remove location) :=
      split ▸ List.mem_append_right _ List.mem_cons_self
    have apart := (List.mem_filter.mp member).2
    rw [List.isPrefixOf_iff_prefix.mpr below] at apart
    cases apart
  · have kept : (!location.isPrefixOf place) = true := by
      rw [Bool.not_eq_true', ← Bool.not_eq_true, List.isPrefixOf_iff_prefix]
      exact below
    have filtered :=
      lookup_filter (fun place => !location.isPrefixOf place) kept tree.entries
    rw [remove, filtered]
    exact ⟨fun isThere => ⟨isThere, below⟩, And.left⟩

/-! ## Ways -/

/-- The way to a place that is not a directory does not lead through it. -/
theorem foldlM_step_put (notDirectory : tree.isDirectory location = false)
    {names : List (List UInt8)} {start : Location}
    (walked : names.foldlM tree.step start = some location) :
    names.foldlM (tree.put location entry).step start = some location := by
  induction names generalizing start with
  | nil => exact walked
  | cons name rest ih =>
      rw [List.foldlM_cons, Option.bind_eq_bind, Option.bind_eq_some_iff] at walked ⊢
      obtain ⟨next, stepped, walked⟩ := walked
      refine ⟨next, ?_, ih walked⟩
      have different : start ≠ location := by
        rintro rfl
        rw [step, notDirectory] at stepped
        cases stepped
      rw [← stepped, step, step, isDirectory, isDirectory, entry?_put_of_ne different]

theorem locate?_put (located : tree.locate? here path = some location)
    (notDirectory : tree.isDirectory location = false) :
    (tree.put location entry).locate? here path = some location := by
  unfold locate? at located ⊢
  split at located
  · cases located
  next usable =>
    rw [if_neg usable]
    exact foldlM_step_put notDirectory located

/-! ## Files -/

theorem exists_location_of_write? (written : tree.write? here path content = some after) :
    ∃ location, tree.locate? here path = some location ∧ tree.isDirectory location = false ∧
      after = tree.put location (.file content) := by
  unfold write? at written
  split at written
  · cases written
  next location located =>
    split at written
    · cases written
    next notDirectory =>
      exact ⟨location, located, Bool.eq_false_iff.mpr notDirectory, (Option.some.inj written).symm⟩

theorem write?_of_locate? (located : tree.locate? here path = some location)
    (notDirectory : tree.isDirectory location = false) :
    tree.write? here path content = some (tree.put location (.file content)) := by
  rw [write?, located]
  exact if_neg (Bool.eq_false_iff.mp notDirectory)

/-- **A file that was written is found with its content.** -/
theorem find?_of_write? (written : tree.write? here path content = some after) :
    after.find? here path = some (.file content) := by
  obtain ⟨location, located, notDirectory, rfl⟩ := exists_location_of_write? written
  have notRoot : location ≠ [] := by
    rintro rfl
    cases notDirectory
  rw [find?, locate?_put located notDirectory, Option.bind_some, entry?_put_self notRoot]

/-! ## Directories -/

theorem entry?_of_makeAlong {names : List (List UInt8)}
    (isThere : tree.entry? place = some entry) :
    entry? (tree.makeAlong location names).1 place = some entry := by
  induction names generalizing tree location with
  | nil => exact isThere
  | cons name rest ih =>
      rw [makeAlong]
      split
      · exact isThere
      next next _ =>
        split
        · exact ih isThere
        · exact isThere
        next isFree =>
          refine ih ?_
          rw [entry?_put_of_ne, isThere]
          rintro rfl
          rw [isFree] at isThere
          cases isThere

/-- **Making directories keeps what is there.** -/
theorem entry?_of_makeDirectories (isThere : tree.entry? place = some entry) :
    entry? (tree.makeDirectories here path).1 place = some entry := by
  unfold makeDirectories
  split
  · exact isThere
  · split
    · exact isThere
    · exact entry?_of_makeAlong isThere

end StageManifest.FileTree
