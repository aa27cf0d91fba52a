import StageManifest.CommandLine.Invocation
import StageManifest.Plan.Resolve
import StageManifest.Progress
import StageManifest.Text.Json

/-!
# Lists of targets

The targets of a plan are listed in rising order of their keys: as a table with
columns of fixed widths, as JSON with one field a line, or by their keys alone.
A text that is wider than its column pushes the rest of the line to the right.
-/

set_option autoImplicit false

namespace StageManifest

/-- A target as it is listed. -/
structure ListedTarget where
  target : String
  base : String
  steps : Nat
  tag : Option String
  description : Option String
deriving DecidableEq, Repr

/-- The targets of a plan as they are listed. -/
def Plan.listing (plan : Plan) : List ListedTarget :=
  plan.stages.toList.map fun (key, stage) =>
    ⟨key, stage.base.reference, stage.layers.size, stage.tag, plan.descriptions.find? key⟩

namespace Listing

/-! ## Tables -/

/-- A text with blanks after it up to a width. -/
def padded (width : Nat) (text : String) : String :=
  text ++ String.ofList (List.replicate (width - text.length) ' ')

/-- The widths of the columns. -/
def widths : List Nat := [20, 28, 6, 30]

/-- The text of a row. -/
def row (cells : List String) : String :=
  " ".intercalate ((widths.zip cells).map fun (width, cell) => padded width cell)

/-- The line below the names of the columns. -/
def rule : String := String.ofList (List.replicate 86 '-')

/-- What stands for a tag that is not set. -/
def noTag : String := "-"

/-- The lines of a target in a table. -/
def targetLines (listed : ListedTarget) : List String :=
  row [listed.target, listed.base, Nat.repr listed.steps, listed.tag.getD noTag] ::
    (listed.description.map fun description => "  " ++ description).toList

/-- The lines of a table. -/
def tableLines (listing : List ListedTarget) : List String :=
  row ["TARGET", "BASE", "STEPS", "TAG"] :: rule :: listing.flatMap targetLines ++
    ["", Nat.repr listing.length ++ " target(s)"]

/-! ## JSON -/

/-- A text or `null`. -/
def jsonOption : Option String → String
  | some text => Text.jsonString text
  | none => "null"

/-- The fields of a target with the texts of their values. -/
def jsonFields (listed : ListedTarget) : List (String × String) :=
  [("target", Text.jsonString listed.target), ("base", Text.jsonString listed.base),
    ("steps", Nat.repr listed.steps), ("tag", jsonOption listed.tag),
    ("description", jsonOption listed.description)]

/-- A target as a JSON object, indented as an item of an array. -/
def jsonObject (listed : ListedTarget) : String :=
  "  \x7b\n" ++
    ",\n".intercalate ((jsonFields listed).map fun (name, value) =>
      "    " ++ Text.jsonString name ++ ": " ++ value) ++
    "\n  \x7d"

/-- A list of targets as a JSON array. -/
def json (listing : List ListedTarget) : String :=
  if listing.isEmpty then "[]"
  else "[\n" ++ ",\n".intercalate (listing.map jsonObject) ++ "\n]"

/-! ## Forms -/

/-- The lines that list targets of a build file. -/
def lines (form : ListingForm) (file : HostPath) (listing : List ListedTarget) : List String :=
  match form with
  | .json => [json listing]
  | .plain => listing.map (·.target)
  | .table =>
      if listing.isEmpty then [informationNote ("No targets in " ++ file.display)]
      else tableLines listing

end Listing

end StageManifest
