import Mathlib.Data.List.DropRight
import StageManifest.Plan.Load
import StageManifest.Proofs.Host.Ways

/-!
# The directory that a path names

The file that a path leads to lies in the directory above its place.  What the
path names as its directory is cut off from its text.  The two are the same if the
path is a bare name or starts at the root and passes through proper names only
(`projectDirectory_eq_iff`).  A relative path with a slash names a relative
directory, whatever the working directory is (`projectDirectory_of_relative`).
-/

set_option autoImplicit false

namespace StageManifest

open HostPath (slash dot isIdle dropIdleEnd)

/-! ## Names and paths -/

/-- Lists of names without slashes are known by their paths, but for the list of one empty name. -/
theorem Location.eq_of_intercalate_eq {first second : Location}
    (firstPlain : ∀ name ∈ first, slash ∉ name) (secondPlain : ∀ name ∈ second, slash ∉ name)
    (firstNamed : first ≠ [[]]) (secondNamed : second ≠ [[]])
    (same : [slash].intercalate first = [slash].intercalate second) : first = second := by
  have empty : ∀ {names : Location}, (∀ name ∈ names, slash ∉ name) → names ≠ [[]] →
      [slash].intercalate names = [] → names = [] := by
    intro names plain named isEmpty
    refine Classical.byContradiction fun notEmpty => named ?_
    rw [← List.splitOn_intercalate slash plain notEmpty, isEmpty, List.splitOn_nil]
  by_cases firstEmpty : first = []
  · subst firstEmpty
    exact (empty secondPlain secondNamed same.symm).symm
  · by_cases secondEmpty : second = []
    · subst secondEmpty
      exact empty firstPlain firstNamed same
    · rw [← List.splitOn_intercalate slash firstPlain firstEmpty, same,
        List.splitOn_intercalate slash secondPlain secondEmpty]

/-! ## Names at the end that lead nowhere -/

namespace HostPath

theorem dropIdleEnd_eq_rdropWhile (names : List (List UInt8)) :
    dropIdleEnd names = names.rdropWhile isIdle := rfl

theorem dropIdleEnd_concat {names : List (List UInt8)} {last : List UInt8}
    (notIdle : isIdle last = false) : dropIdleEnd (names ++ [last]) = names ++ [last] :=
  List.rdropWhile_concat_neg _ _ _ (Bool.eq_false_iff.mp notIdle)

theorem dropIdleEnd_ne_singleton_nil (names : List (List UInt8)) : dropIdleEnd names ≠ [[]] := by
  intro same
  have kept : names.rdropWhile isIdle ≠ [] := by
    rw [← dropIdleEnd_eq_rdropWhile, same]
    exact List.cons_ne_nil _ _
  have notIdle := List.rdropWhile_last_not isIdle names kept
  simp only [← dropIdleEnd_eq_rdropWhile, same, List.getLast_singleton] at notIdle
  exact notIdle rfl

/-- Idle names at the end do not matter for where one gets. -/
theorem along_dropIdleEnd (start : Location) (names : List (List UInt8)) :
    start.along (dropIdleEnd names) = start.along names := by
  induction names using List.reverseRecOn with
  | nil => rfl
  | append_singleton names name ih =>
      by_cases idle : isIdle name
      · rw [dropIdleEnd_eq_rdropWhile, List.rdropWhile_concat_pos _ _ _ idle,
          ← dropIdleEnd_eq_rdropWhile, ih, Location.along_append]
        simp only [Location.along, List.foldl_cons, List.foldl_nil, Location.next, if_pos idle]
      · rw [dropIdleEnd_concat (Bool.eq_false_iff.mpr idle)]

/-! ## Directories in the text of a path -/

variable {path : HostPath} {above : List (List UInt8)} {last : List UInt8}

theorem slash_not_mem_of_mem_names {name : List UInt8} (member : name ∈ path.names) :
    slash ∉ name := by
  obtain ⟨bytes⟩ := path
  simp only [names] at member
  induction bytes generalizing name with
  | nil =>
      rw [List.splitOn_nil, List.mem_singleton] at member
      rw [member]
      exact List.not_mem_nil
  | cons byte rest ih =>
      rw [List.splitOn_cons_eq_if_modifyHead] at member
      split at member
      · rcases List.mem_cons.mp member with rfl | member
        · exact List.not_mem_nil
        · exact ih member
      next different =>
        obtain ⟨first, others, split⟩ := List.exists_cons_of_ne_nil (List.splitOn_ne_nil slash rest)
        rw [split, List.modifyHead_cons] at member
        rcases List.mem_cons.mp member with rfl | member
        · intro inFirst
          rcases List.mem_cons.mp inFirst with same | inRest
          · exact different (beq_iff_eq.mpr same.symm)
          · exact ih (split ▸ List.mem_cons_self) inRest
        · exact ih (split ▸ List.mem_cons_of_mem _ member)

/-- The directory keeps what leads the path and loses the last name and the idle names before it. -/
theorem parent?_eq {bytes start : List UInt8} (led : lead bytes = start)
    (split : (bytes.drop start.length).splitOn slash = above ++ [last])
    (notIdle : isIdle last = false) :
    parent? ⟨bytes⟩ = some ⟨start ++ [slash].intercalate (dropIdleEnd above)⟩ := by
  simp only [parent?, led, split, dropIdleEnd_concat notIdle]
  split
  next never => simp at never
  next name others same => rw [← same, List.dropLast_concat]

/-- The directory of an absolute path is made of its names, without idle names at the end. -/
theorem parent?_of_absolute {rest : List UInt8} (split : rest.splitOn slash = above ++ [last])
    (notIdle : isIdle last = false) :
    parent? ⟨slash :: rest⟩ = some (Location.path (dropIdleEnd above)) :=
  parent?_eq rfl split notIdle

/-- Nothing leads a path whose first name is not idle. -/
theorem lead_of_name {name rest : List UInt8} (plain : slash ∉ name)
    (notIdle : isIdle name = false) :
    lead (name ++ rest) = [] := by
  cases name with
  | nil => cases notIdle
  | cons first more =>
      have notSlash : first ≠ slash := fun same => plain (same ▸ List.mem_cons_self)
      simp only [List.cons_append, lead, if_neg notSlash]
      refine if_neg fun led => ?_
      simp only [Bool.and_eq_true, decide_eq_true_eq, Bool.or_eq_true, List.isEmpty_iff,
        beq_iff_eq] at led
      obtain ⟨rfl, led⟩ := led
      cases more with
      | nil => simp [isIdle] at notIdle
      | cons second others =>
          simp only [List.cons_append, List.head?_cons, Option.some.injEq] at led
          rcases led with never | same
          · cases never
          · exact plain (List.mem_cons_of_mem _ (same ▸ List.mem_cons_self))

/-- A bare name has the empty directory. -/
theorem parent?_of_bare {name : List UInt8} (plain : slash ∉ name) (notIdle : isIdle name = false) :
    parent? ⟨name⟩ = some ⟨[]⟩ := by
  have led : lead name = [] := by
    rw [← List.append_nil name]
    exact lead_of_name plain notIdle
  have split : name.splitOn slash = [] ++ [name] := List.splitOn_eq_singleton plain
  exact parent?_eq led split notIdle

theorem names_append_slash {first rest : List UInt8} (plain : slash ∉ first) :
    names ⟨first ++ slash :: rest⟩ = first :: names ⟨rest⟩ :=
  List.splitOn_append_cons_self_of_not_mem plain rest

/-- A name that is not idle stays in front. -/
theorem dropIdleEnd_cons {name : List UInt8} (notIdle : isIdle name = false)
    (names : List (List UInt8)) : dropIdleEnd (name :: names) = name :: dropIdleEnd names := by
  induction names using List.reverseRecOn with
  | nil =>
      rw [dropIdleEnd_eq_rdropWhile, List.rdropWhile_singleton, if_neg (by rw [notIdle]; nofun)]
      rfl
  | append_singleton names other ih =>
      rw [← List.cons_append]
      by_cases idle : isIdle other
      · rw [dropIdleEnd_eq_rdropWhile, dropIdleEnd_eq_rdropWhile,
          List.rdropWhile_concat_pos _ _ _ idle, List.rdropWhile_concat_pos _ _ _ idle]
        exact ih
      · rw [dropIdleEnd_concat (Bool.eq_false_iff.mpr idle),
          dropIdleEnd_concat (Bool.eq_false_iff.mpr idle), List.cons_append]

/-- The directory of a relative path with a slash is not empty and relative. -/
theorem parent?_of_relative {first rest : List UInt8} (plain : slash ∉ first) (named : first ≠ [])
    (split : rest.splitOn slash = above ++ [last]) (notIdle : isIdle last = false) :
    ∃ byte more, byte ≠ slash ∧ parent? ⟨first ++ slash :: rest⟩ = some ⟨byte :: more⟩ := by
  by_cases isDot : first = [dot]
  · subst isDot
    have names : (slash :: rest).splitOn slash = ([] :: above) ++ [last] := by
      rw [List.cons_append, ← split]
      exact names_append_slash List.not_mem_nil
    exact ⟨dot, _, by decide, parent?_eq rfl names notIdle⟩
  · have firstNotIdle : isIdle first = false := by
      simp [isIdle, isDot, named]
    have names : (first ++ slash :: rest).splitOn slash = (first :: above) ++ [last] := by
      rw [List.cons_append, ← split]
      exact names_append_slash plain
    have cut := parent?_eq (lead_of_name plain firstNotIdle) names notIdle
    rw [dropIdleEnd_cons firstNotIdle] at cut
    obtain ⟨byte, more, rfl⟩ := List.exists_cons_of_ne_nil named
    obtain ⟨tail, starts⟩ : ∃ tail,
        [slash].intercalate ((byte :: more) :: dropIdleEnd above) = byte :: tail := by
      cases dropIdleEnd above <;> exact ⟨_, rfl⟩
    rw [List.nil_append, starts] at cut
    exact ⟨byte, tail, fun same => plain (same ▸ List.mem_cons_self), cut⟩

/-- A path is a bare name, starts at the root, or is relative with a slash. -/
theorem cases_of_names (split : path.names = above ++ [last]) :
    (path = ⟨last⟩ ∧ slash ∉ last ∧ above = []) ∨
    (∃ rest deeper, path = ⟨slash :: rest⟩ ∧ above = [] :: deeper ∧
      rest.splitOn slash = deeper ++ [last]) ∨
    ∃ first rest deeper, path = ⟨first ++ slash :: rest⟩ ∧ slash ∉ first ∧ first ≠ [] ∧
      above = first :: deeper ∧ rest.splitOn slash = deeper ++ [last] := by
  obtain ⟨bytes⟩ := path
  by_cases hasSlash : slash ∈ bytes
  · obtain ⟨first, rest, rfl, plain⟩ := List.eq_append_cons_of_mem hasSlash
    rw [names_append_slash plain] at split
    have others : (names ⟨rest⟩) ≠ [] := List.splitOn_ne_nil _ _
    obtain ⟨deeper, rfl⟩ : ∃ deeper, above = first :: deeper := by
      cases above with
      | nil => exact absurd (List.cons.inj split).2 others
      | cons name deeper => exact ⟨deeper, by rw [(List.cons.inj split).1]⟩
    have deeperSplit : rest.splitOn slash = deeper ++ [last] := (List.cons.inj split).2
    by_cases named : first = []
    · subst named
      exact .inr (.inl ⟨rest, deeper, rfl, rfl, deeperSplit⟩)
    · exact .inr (.inr ⟨first, rest, deeper, rfl, plain, named, rfl, deeperSplit⟩)
  · have single : [bytes] = above ++ [last] :=
      (List.splitOn_eq_singleton hasSlash).symm.trans split
    cases above with
    | nil =>
        cases single
        exact .inl ⟨rfl, hasSlash, rfl⟩
    | cons name deeper => simp at single

/-- Names below the root, without idle ones at the end, make up the place that they lead to exactly
if they are proper. -/
theorem path_dropIdleEnd_eq_iff {names : List (List UInt8)}
    (noSlash : ∀ name ∈ names, slash ∉ name) :
    Location.path (dropIdleEnd names) = Location.path (Location.along [] names) ↔
      ∀ name ∈ dropIdleEnd names, Location.IsProper name := by
  have kept : ∀ name ∈ dropIdleEnd names, slash ∉ name := fun name member =>
    noSlash name ((List.rdropWhile_prefix isIdle names).subset member)
  have walked : ∀ name ∈ Location.along [] (dropIdleEnd names),
      name ∈ dropIdleEnd names ∧ Location.IsProper name := fun name member =>
    (Location.mem_along member).resolve_left List.not_mem_nil
  rw [← along_dropIdleEnd]
  constructor
  · intro same name member
    have sameNames := Location.eq_of_intercalate_eq kept
      (fun name member => kept name (walked name member).1) (dropIdleEnd_ne_singleton_nil names) ?_
      (List.cons.inj (HostPath.mk.inj same)).2
    · rw [sameNames] at member
      exact (walked name member).2
    · intro never
      cases (walked [] (never ▸ List.mem_cons_self)).2.1
  · intro proper
    rw [Location.along_of_proper proper, List.nil_append]

/-- The path is a bare name, or it starts at the root and its directory has proper names only. -/
def IsPlain (path : HostPath) : Prop :=
  path.names.length = 1 ∨
    path.isAbsolute = true ∧ ∀ name ∈ dropIdleEnd path.names.tail.dropLast, Location.IsProper name

end HostPath

/-! ## Project directories -/

section ProjectDirectory

variable {tree : FileTree} {here location : Location} {path : HostPath} {content : List UInt8}

/-- A relative path with a slash names a relative directory, whatever the working directory is. -/
theorem projectDirectory_of_relative (rooted : tree.Rooted)
    (located : tree.locate? here path = some location)
    (isFile : tree.entry? location = some (.file content)) (relative : path.isAbsolute = false)
    (hasSlash : path.names.length ≠ 1) :
    ∃ directory : HostPath, directory.isAbsolute = false ∧
      ∀ workingDirectory, projectDirectory workingDirectory path = directory := by
  obtain ⟨above, last, split, proper, _⟩ :=
    rooted.exists_names_of_locate? located (FileTree.isDirectory_of_file isFile)
  rcases HostPath.cases_of_names split with ⟨_, _, rfl⟩ | ⟨rest, deeper, rfl, _⟩ |
    ⟨first, rest, deeper, rfl, plain, named, _, deeperSplit⟩
  · rw [split] at hasSlash
    exact absurd rfl hasSlash
  · cases relative
  · obtain ⟨byte, more, notSlash, cut⟩ :=
      HostPath.parent?_of_relative plain named deeperSplit proper.1
    refine ⟨⟨byte :: more⟩, ?_, fun workingDirectory => ?_⟩
    · simpa [HostPath.isAbsolute] using notSlash
    · rw [projectDirectory, cut]
      rfl

/-- **The directory that a path of a file names is where the file is exactly if the path is
plain.** -/
theorem projectDirectory_eq_iff (rooted : tree.Rooted)
    (located : tree.locate? here path = some location)
    (isFile : tree.entry? location = some (.file content)) :
    projectDirectory here.path path = Location.path location.dropLast ↔ path.IsPlain := by
  obtain ⟨above, last, split, proper, rfl, _⟩ :=
    rooted.exists_names_of_locate? located (FileTree.isDirectory_of_file isFile)
  rw [List.dropLast_concat, HostPath.IsPlain, split]
  rcases HostPath.cases_of_names split with ⟨rfl, plain, rfl⟩ |
    ⟨rest, deeper, rfl, rfl, deeperSplit⟩ | ⟨first, rest, deeper, rfl, plain, named, rfl, deeperSplit⟩
  · have relative : HostPath.isAbsolute ⟨last⟩ = false := by
      refine beq_eq_false_iff_ne.mpr fun same => plain ?_
      exact List.mem_of_mem_head? same
    rw [FileTree.start, relative, projectDirectory, HostPath.parent?_of_bare plain proper.1]
    exact ⟨fun _ => .inl rfl, fun _ => rfl⟩
  · have start : FileTree.start here ⟨slash :: rest⟩ = [] := rfl
    have walked : Location.along [] ([] :: deeper) = Location.along [] deeper := rfl
    have noSlash : ∀ name ∈ deeper, slash ∉ name := by
      intro name member
      have isName : name ∈ HostPath.names ⟨rest⟩ := by
        rw [HostPath.names, deeperSplit]
        exact List.mem_append_left _ member
      exact HostPath.slash_not_mem_of_mem_names isName
    have tail : (([] :: deeper) ++ [last]).tail.dropLast = deeper := List.dropLast_concat
    rw [start, walked, tail, projectDirectory, HostPath.parent?_of_absolute deeperSplit proper.1]
    refine (HostPath.path_dropIdleEnd_eq_iff noSlash).trans ⟨fun each => .inr ⟨rfl, each⟩, ?_⟩
    rintro (short | ⟨_, each⟩)
    · simp at short
    · exact each
  · obtain ⟨byte, more, notSlash, cut⟩ :=
      HostPath.parent?_of_relative plain named deeperSplit proper.1
    rw [projectDirectory, cut]
    constructor
    · intro same
      exact absurd (List.cons.inj (HostPath.mk.inj same)).1 notSlash
    · rintro (short | ⟨absolute, _⟩)
      · simp at short
      · obtain ⟨head, others, rfl⟩ := List.exists_cons_of_ne_nil named
        have isSlash : head = slash := by simpa [HostPath.isAbsolute] using absolute
        exact absurd (isSlash ▸ List.mem_cons_self) plain

end ProjectDirectory

end StageManifest
