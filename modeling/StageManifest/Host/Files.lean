import StageManifest.Host.Path

/-!
# Trees of files

Files and directories by their places.  A place is the list of names from the
root.  A path leads to a place name by name, and every place on the way must be
a directory.  A path holds no zero byte, and it and its names are not longer than
certain limits.  The root is always there.
-/

set_option autoImplicit false

namespace StageManifest

/-- The names from the root to a file or directory. -/
abbrev Location := List (List UInt8)

/-- The absolute path of a place. -/
def Location.path (location : Location) : HostPath :=
  ⟨HostPath.slash :: [HostPath.slash].intercalate location⟩

/-- What is at a place. -/
inductive TreeEntry where
  | directory
  | file (content : List UInt8)
deriving DecidableEq, Repr

/-- Files and directories. -/
structure FileTree where
  entries : List (Location × TreeEntry) := []
deriving Repr

namespace FileTree

/-- What is at a place. -/
def entry? (tree : FileTree) (location : Location) : Option TreeEntry :=
  if location.isEmpty then some .directory else tree.entries.lookup location

/-- Whether there is a directory at a place. -/
def isDirectory (tree : FileTree) (location : Location) : Bool :=
  tree.entry? location == some .directory

/-- The tree with something at a place. -/
def put (tree : FileTree) (location : Location) (entry : TreeEntry) : FileTree :=
  ⟨(location, entry) :: tree.entries.filter fun pair => pair.1 != location⟩

/-- The tree without a place and all that is below it. -/
def remove (tree : FileTree) (location : Location) : FileTree :=
  ⟨tree.entries.filter fun pair => !location.isPrefixOf pair.1⟩

/-! ## Ways through the tree -/

/-- The name that leads to the directory above. -/
def upward : List UInt8 := [HostPath.dot, HostPath.dot]

/-- The most bytes of a name. -/
def nameLimit : Nat := 255

/-- The most bytes of a path. -/
def pathLimit : Nat := 4095

/-- Whether a path can be asked for at all. -/
def isUsable (path : HostPath) : Bool :=
  path.bytes.length ≤ pathLimit && !path.bytes.contains 0

/-- The place that a name leads to from a place. -/
def step (tree : FileTree) (location : Location) (name : List UInt8) : Option Location :=
  if !tree.isDirectory location || decide (nameLimit < name.length) then none
  else if HostPath.isIdle name then some location
  else if name = upward then some location.dropLast
  else some (location ++ [name])

/-- Where a path starts, if relative paths start at a place. -/
def start (here : Location) (path : HostPath) : Location :=
  if path.isAbsolute then [] else here

/-- The place that a path leads to, where something may be or not. -/
def locate? (tree : FileTree) (here : Location) (path : HostPath) : Option Location :=
  if path.bytes.isEmpty || !isUsable path then none
  else path.names.foldlM tree.step (start here path)

/-- What is at a path. -/
def find? (tree : FileTree) (here : Location) (path : HostPath) : Option TreeEntry :=
  (tree.locate? here path).bind tree.entry?

/-! ## Changes -/

/-- The tree after a file was written, if it could be. -/
def write? (tree : FileTree) (here : Location) (path : HostPath) (content : List UInt8) :
    Option FileTree :=
  match tree.locate? here path with
  | none => none
  | some location =>
      if tree.isDirectory location then none else some (tree.put location (.file content))

/-- The tree after the directories along names were made, as far as they could be, and whether all
of them are there. -/
def makeAlong (tree : FileTree) (location : Location) : List (List UInt8) → FileTree × Bool
  | [] => (tree, true)
  | name :: rest =>
      match tree.step location name with
      | none => (tree, false)
      | some next =>
          match tree.entry? next with
          | some .directory => tree.makeAlong next rest
          | some (.file _) => (tree, false)
          | none => (tree.put next .directory).makeAlong next rest

/-- The tree after a directory and those above it were made, and whether it is there. -/
def makeDirectories (tree : FileTree) (here : Location) (path : HostPath) : FileTree × Bool :=
  if path.bytes.isEmpty then (tree, true)
  else if !isUsable path then (tree, false)
  else tree.makeAlong (start here path) path.names

/-- The tree without what is at a path. -/
def removeAt (tree : FileTree) (here : Location) (path : HostPath) : FileTree :=
  match tree.locate? here path with
  | none => tree
  | some location => tree.remove location

end FileTree

end StageManifest
