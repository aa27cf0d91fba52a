import StageManifest.Toml.Value

/-!
# Tables under construction

A document builds its tables statement by statement, and some ways to reopen a
table are mistakes.  A table under construction therefore knows how it came into
being: implicitly, because a path led through it, or by a header of its own, and
whether the path was the dotted key of a pair.

An assignment with a dotted key may only go through tables that such keys have
made.  A header may open a table once, and may turn an implicit table that no
dotted key has made into an explicit one.  Nothing is ever assigned twice.
-/

set_option autoImplicit false

namespace StageManifest.Toml

/-- A table under construction, over the type of what its entries hold. -/
structure Section (Content : Type) where
  implicit : Bool
  dotted : Bool
  entries : List (String × Content)

/-- What an entry of a table under construction holds. -/
inductive Draft where
  | value (value : Value)
  | table (content : Section Draft)
  | tables (items : List (Section Draft))

namespace Section

variable {Content : Type}

/-- A table without entries that a header or the document itself has made. -/
def explicit : Section Content := ⟨false, false, []⟩

/-- What an entry holds. -/
def find? (content : Section Content) (key : String) : Option Content :=
  content.entries.lookup key

/-- The table with one more entry at its end. -/
def append (content : Section Content) (key : String) (entry : Content) : Section Content :=
  { content with entries := content.entries ++ [(key, entry)] }

/-- The table with another content for an entry that it has. -/
def replace (content : Section Content) (key : String) (entry : Content) : Section Content :=
  { content with
    entries := content.entries.map fun pair => if pair.1 == key then (key, entry) else pair }

/-- The table without an entry. -/
def remove (content : Section Content) (key : String) : Section Content :=
  { content with entries := content.entries.filter fun pair => pair.1 != key }

end Section

/-- Changes the table that a path leads to, making the tables on the way that do not exist. -/
def descend (dotted : Bool) (change : Section Draft → Option (Section Draft)) :
    (path : List String) → Section Draft → Option (Section Draft)
  | [], content => change content
  | key :: path, content =>
      match content.find? key with
      | none =>
          (descend dotted change path ⟨true, dotted, []⟩).map fun made =>
            content.append key (.table made)
      | some (.value _) => none
      | some (.table child) =>
          if dotted && !child.implicit then none
          else (descend dotted change path child).map fun changed =>
            content.replace key (.table changed)
      | some (.tables items) =>
          match items.getLast? with
          | none => none
          | some last =>
              (descend dotted change path last).map fun changed =>
                content.replace key (.tables (items.dropLast ++ [changed]))

/-- Assigns a value under a dotted key, given as the path to a table and the key there. -/
def assign (path : List String) (key : String) (value : Value) (content : Section Draft) :
    Option (Section Draft) :=
  descend true
    (fun found =>
      if found.dotted == path.isEmpty then none
      else
        match found.find? key with
        | some _ => none
        | none => some (found.append key (.value value)))
    path content

mutual
/-- The value of an entry. -/
def Draft.toValue : Draft → Value
  | .value value => value
  | .table ⟨_, _, entries⟩ => .table (draftEntries entries)
  | .tables items => .array .headers (draftItems items)

/-- The values of entries. -/
def draftEntries : List (String × Draft) → List (String × Value)
  | [] => []
  | (key, draft) :: rest => (key, draft.toValue) :: draftEntries rest

/-- The tables of an array. -/
def draftItems : List (Section Draft) → List Value
  | [] => []
  | ⟨_, _, entries⟩ :: rest => .table (draftEntries entries) :: draftItems rest
end

/-- The path to a key of at least one part, and its last part. -/
def splitKey? (key : List String) : Option (List String × String) :=
  key.getLast?.map fun last => (key.dropLast, last)

/-- A table after the assignments of pairs. -/
def assignAll : (pairs : List (List String × Value)) → Section Draft → Option (Section Draft)
  | [], content => some content
  | (key, value) :: pairs, content => do
      let (path, last) ← splitKey? key
      let content ← assign path last value content
      assignAll pairs content

/-- The table that an inline table with the given pairs is. -/
def inlineTable? (pairs : List (List String × Value)) : Option Value :=
  (assignAll pairs .explicit).map fun content => .table (draftEntries content.entries)

/-! ## Documents -/

/-- A document of which some statements have been read. -/
structure Building where
  root : Section Draft
  current : Section Draft
  /-- Where the open table belongs; nowhere for the document itself. -/
  path : List String
  /-- Whether the open table is an item of an array of tables. -/
  isItem : Bool

namespace Building

/-- A document without statements. -/
def start : Building := ⟨.explicit, .explicit, [], false⟩

/-- The document's tables after the open one is put into its place. -/
def close (building : Building) : Option (Section Draft) :=
  match splitKey? building.path with
  | none => some building.current
  | some (path, key) =>
      descend false
        (fun parent =>
          if building.isItem then
            match parent.find? key with
            | none => some (parent.append key (.tables [building.current]))
            | some (.tables items) =>
                some (parent.replace key (.tables (items ++ [building.current])))
            | some _ => none
          else
            match parent.find? key with
            | none => some (parent.append key (.table building.current))
            | some _ => none)
        path building.root

/-- The document after an assignment. -/
def addPair (building : Building) (key : List String) (value : Value) : Option Building := do
  let (path, last) ← splitKey? key
  let current ← assign path last value building.current
  return { building with current := current }

/-- What a table that a header reopens holds already; a table that may not be reopened is none. -/
def reopened? (parent : Section Draft) (key : String) : Option (List (String × Draft)) :=
  match parent.find? key with
  | none => some []
  | some (.table child) => if child.implicit && !child.dotted then some child.entries else none
  | some _ => none

/-- The table that a path leads to, as a header sees it. -/
def reach? : (path : List String) → Section Draft → Option (Section Draft)
  | [], content => some content
  | key :: path, content =>
      match content.find? key with
      | none => some ⟨true, false, []⟩
      | some (.value _) => none
      | some (.table child) => reach? path child
      | some (.tables items) => items.getLast?.bind (reach? path)

/-- The document after the header of a table. -/
def openTable (building : Building) (key : List String) : Option Building := do
  let root ← building.close
  let (path, last) ← splitKey? key
  let parent ← reach? path root
  let entries ← reopened? parent last
  let root ← descend false (fun parent => some (parent.remove last)) path root
  return ⟨root, ⟨false, false, entries⟩, key, false⟩

/-- The document after the header of an item of an array of tables. -/
def openItem (building : Building) (key : List String) : Option Building := do
  let root ← building.close
  let (path, last) ← splitKey? key
  let root ← descend false
    (fun parent =>
      match parent.find? last with
      | none => some (parent.append last (.tables []))
      | some (.tables _) => some parent
      | some _ => none)
    path root
  return ⟨root, .explicit, key, true⟩

/-- The entries of the whole document. -/
def finish (building : Building) : Option (List (String × Value)) :=
  building.close.map fun root => draftEntries root.entries

end Building

end StageManifest.Toml
