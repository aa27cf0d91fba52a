import StageManifest.HostPath

/-!
# Paths and their pieces

A path is made of names with slashes between them.  A path that starts with a
slash is absolute.  The names `.` and the empty name lead nowhere, so a path
keeps its meaning without them; they are kept in the text of a path and skipped
only where its last name is cut off.
-/

set_option autoImplicit false

namespace StageManifest.HostPath

/-- The byte between the names of a path. -/
def slash : UInt8 := 0x2F

/-- The byte of a dot. -/
def dot : UInt8 := 0x2E

/-- Whether a path starts at the root. -/
def isAbsolute (path : HostPath) : Bool := path.bytes.head? == some slash

/-- The names of a path, the empty ones included. -/
def names (path : HostPath) : List (List UInt8) := path.bytes.splitOn slash

/-- Whether a name leads nowhere. -/
def isIdle (name : List UInt8) : Bool := name.isEmpty || name == [dot]

/-- A path that starts at another path, unless it is absolute. -/
def join (base path : HostPath) : HostPath :=
  if path.isAbsolute then path
  else if base.bytes.isEmpty || base.bytes.getLast? == some slash then ⟨base.bytes ++ path.bytes⟩
  else ⟨base.bytes ++ slash :: path.bytes⟩

/-- A path below another path. -/
def below (base : HostPath) (names : List String) : HostPath :=
  names.foldl (fun path name => path.join (.ofText name)) base

/-! ## Parents -/

/-- What a path starts with before its first name: the root, a dot, or nothing. -/
def lead (bytes : List UInt8) : List UInt8 :=
  match bytes with
  | first :: rest =>
      if first = slash then [first]
      else if first = dot && (rest.isEmpty || rest.head? == some slash) then [first]
      else []
  | [] => []

/-- Names without those at their end that lead nowhere. -/
def dropIdleEnd (names : List (List UInt8)) : List (List UInt8) :=
  (names.reverse.dropWhile isIdle).reverse

/-- The path without its last name.  The root and the empty path have none. -/
def parent? (path : HostPath) : Option HostPath :=
  let start := lead path.bytes
  match dropIdleEnd ((path.bytes.drop start.length).splitOn slash) with
  | [] => if start = [dot] then some ⟨[]⟩ else none
  | name :: rest =>
      some ⟨start ++ [slash].intercalate (dropIdleEnd (name :: rest).dropLast)⟩

/-- The path and the paths above it, with a bound on how many there are. -/
def ancestorsWithin : (bound : Nat) → HostPath → List HostPath
  | 0, path => [path]
  | bound + 1, path =>
      match path.parent? with
      | none => [path]
      | some above => path :: ancestorsWithin bound above

/-- The path and the paths above it, the nearest first. -/
def ancestors (path : HostPath) : List HostPath := path.ancestorsWithin path.bytes.length

end StageManifest.HostPath
