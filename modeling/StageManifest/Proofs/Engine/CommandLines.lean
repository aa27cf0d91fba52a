import Mathlib.Tactic.Common
import StageManifest.Engine.Request
import StageManifest.Proofs.Text.TextBytes

/-!
# What a command line says

The command line of an engine is its program and a list of words, some of which
are texts of the user and may look like flags.  It is still read in one way
only.  The words of an option that is set begin with a flag of its own, and the
words after them begin with another one, so where an option is expected its flag
tells whether it is set (`IsOption`); the value is then the next word, whatever
that looks like.

Paths are shown as texts there.  So a command line determines the engine and the
request up to what is shown of its paths (`showAlike_of_arguments_eq`), and the
request itself if its paths are texts (`determined_by_command_line`).
-/

set_option autoImplicit false

namespace StageManifest

/-! ## Words of options -/

/-- The words of an option, if they are there, begin with a flag; and what is set can be told from
the words, whatever follows that does not begin with the flag. -/
structure IsOption {α : Type} (flag : String) (words : α → List String) : Prop where
  start : ∀ value, words value = [] ∨ (words value).head? = some flag
  told : ∀ value other rest more, rest.head? ≠ some flag → more.head? ≠ some flag →
    words value ++ rest = words other ++ more → value = other ∧ rest = more

/-- The words of an option begin with no other flag, if those after them do not. -/
theorem IsOption.head?_append_ne {α : Type} {flag other : String} {words : α → List String}
    (isOption : IsOption flag words) (value : α) {rest : List String} (different : flag ≠ other)
    (further : rest.head? ≠ some other) : (words value ++ rest).head? ≠ some other := by
  rcases isOption.start value with absent | starts
  · rwa [absent, List.nil_append]
  · rw [List.head?_append, starts, Option.some_or]
    exact fun same => different (Option.some.inj same)

/-- The words of a flag without a value. -/
def flagWords (flag : String) (set : Bool) : List String := if set then [flag] else []

theorem isOption_flagWords (flag : String) : IsOption flag (flagWords flag) where
  start set := by cases set <;> simp [flagWords]
  told set other rest more start moreStart same := by
    cases set with
    | false =>
        cases other with
        | false => exact ⟨rfl, same⟩
        | true =>
            change rest = flag :: more at same
            exact absurd (congrArg List.head? same) start
    | true =>
        cases other with
        | false =>
            change flag :: rest = more at same
            exact absurd (congrArg List.head? same).symm moreStart
        | true => exact ⟨rfl, (List.cons.inj same).2⟩

/-- The words of a flag with a value, which stands behind a fixed text. -/
def valueWords (flag before : String) : Option String → List String
  | none => []
  | some value => [flag, before ++ value]

theorem isOption_valueWords (flag before : String) : IsOption flag (valueWords flag before) where
  start value := by cases value <;> simp [valueWords]
  told value other rest more start moreStart same := by
    cases value with
    | none =>
        cases other with
        | none => exact ⟨rfl, same⟩
        | some second =>
            change rest = flag :: (before ++ second) :: more at same
            exact absurd (congrArg List.head? same) start
    | some first =>
        cases other with
        | none =>
            change flag :: (before ++ first) :: rest = more at same
            exact absurd (congrArg List.head? same).symm moreStart
        | some second =>
            change flag :: (before ++ first) :: rest = flag :: (before ++ second) :: more at same
            obtain ⟨_, following⟩ := List.cons.inj same
            obtain ⟨values, rests⟩ := List.cons.inj following
            exact ⟨congrArg some ((String.append_right_inj before).mp values), rests⟩

/-! ## The engine -/

/-- The program and the first arguments tell the engine, whatever follows. -/
theorem EngineKind.eq_of_append_eq {kind other : EngineKind} {rest more : List String}
    (sameProgram : kind.program = other.program)
    (same : kind.leadingArguments ++ rest = other.leadingArguments ++ more) :
    kind = other ∧ rest = more := by
  cases kind with
  | docker =>
      cases other with
      | docker => exact ⟨rfl, List.append_cancel_left same⟩
      | depot project => exact absurd sameProgram (by decide : "docker" ≠ "depot")
  | depot project =>
      cases other with
      | docker => exact absurd sameProgram (by decide : "depot" ≠ "docker")
      | depot second =>
          simp only [leadingArguments, List.cons_append, List.cons.injEq, true_and,
            List.nil_append] at same
          exact ⟨congrArg depot same.1, same.2⟩

/-! ## The request -/

namespace BuildRequest

/-- Two requests have the same options, and their paths are shown alike. -/
structure ShowAlike (request other : BuildRequest) : Prop where
  manifestPath : request.manifestPath.display = other.manifestPath.display
  context : request.context.display = other.context.display
  tag : request.tag = other.tag
  quiet : request.quiet = other.quiet
  output : request.output.map HostPath.display = other.output.map HostPath.display
  push : request.push = other.push

/-- The words of the paths, which every command line ends with. -/
def pathWords (request : BuildRequest) : List String :=
  ["-f", request.manifestPath.display, request.context.display]

theorem arguments_eq (request : BuildRequest) (kind : EngineKind) :
    request.arguments kind = kind.leadingArguments ++ (flagWords "--quiet" request.quiet ++
      (valueWords "-t" "" request.tag ++
        (valueWords "--output" "type=local,dest=" (request.output.map HostPath.display) ++
          (flagWords "--push" request.push ++ request.pathWords)))) := by
  obtain ⟨manifestPath, context, tag, quiet, output, push⟩ := request
  cases tag <;> cases output <;> simp [arguments, flagWords, valueWords, pathWords]

/-- **A command line determines the engine and what is shown of the request.** -/
theorem showAlike_of_arguments_eq {request other : BuildRequest} {kind otherKind : EngineKind}
    (sameProgram : kind.program = otherKind.program)
    (same : request.arguments kind = other.arguments otherKind) :
    kind = otherKind ∧ request.ShowAlike other := by
  have isQuiet := isOption_flagWords "--quiet"
  have isTag := isOption_valueWords "-t" ""
  have isOutput := isOption_valueWords "--output" "type=local,dest="
  have isPush := isOption_flagWords "--push"
  -- No path stands where an option is expected, and each option has a flag of its own.
  have paths (later : BuildRequest) {flag : String} (different : "-f" ≠ flag) :
      later.pathWords.head? ≠ some flag := fun starts => different (Option.some.inj starts)
  have afterOutput (later : BuildRequest) {flag : String} (different : "-f" ≠ flag)
      (differs : "--push" ≠ flag) :
      (flagWords "--push" later.push ++ later.pathWords).head? ≠ some flag :=
    isPush.head?_append_ne _ differs (paths later different)
  have afterTag (later : BuildRequest) {flag : String} (different : "-f" ≠ flag)
      (differs : "--push" ≠ flag ∧ "--output" ≠ flag) :
      (valueWords "--output" "type=local,dest=" (later.output.map HostPath.display) ++
        (flagWords "--push" later.push ++ later.pathWords)).head? ≠ some flag :=
    isOutput.head?_append_ne _ differs.2 (afterOutput later different differs.1)
  have afterQuiet (later : BuildRequest) :=
    isTag.head?_append_ne later.tag (by decide : "-t" ≠ "--quiet")
      (afterTag later (by decide) (by decide))
  rw [arguments_eq, arguments_eq] at same
  obtain ⟨sameKind, same⟩ := EngineKind.eq_of_append_eq sameProgram same
  obtain ⟨quiet, same⟩ := isQuiet.told _ _ _ _ (afterQuiet request) (afterQuiet other) same
  obtain ⟨tag, same⟩ := isTag.told _ _ _ _ (afterTag request (by decide) (by decide))
    (afterTag other (by decide) (by decide)) same
  obtain ⟨output, same⟩ := isOutput.told _ _ _ _ (afterOutput request (by decide) (by decide))
    (afterOutput other (by decide) (by decide)) same
  obtain ⟨push, same⟩ := isPush.told _ _ _ _ (paths request (by decide))
    (paths other (by decide)) same
  simp only [pathWords, List.cons.injEq, true_and, and_true] at same
  exact ⟨sameKind, same.1, same.2, tag, quiet, output, push⟩

/-- The paths of the request are in UTF-8. -/
structure HasTextPaths (request : BuildRequest) : Prop where
  manifestPath : request.manifestPath.IsText
  context : request.context.IsText
  output : ∀ directory ∈ request.output, directory.IsText

/-- What is shown of the output gives it back. -/
theorem HasTextPaths.map_ofText_output {request : BuildRequest} (texts : request.HasTextPaths) :
    (request.output.map HostPath.display).map HostPath.ofText = request.output := by
  rw [Option.map_map, Option.map_congr (g := id), Option.map_id_fun, id_eq]
  intro directory isOutput
  exact HostPath.ofText_display_eq_iff.mpr (texts.output directory isOutput)

theorem ShowAlike.eq {request other : BuildRequest} (alike : request.ShowAlike other)
    (texts : request.HasTextPaths) (otherTexts : other.HasTextPaths) : request = other := by
  have manifestPath := texts.manifestPath.eq_of_display_eq otherTexts.manifestPath alike.manifestPath
  have context := texts.context.eq_of_display_eq otherTexts.context alike.context
  have output : request.output = other.output := by
    rw [← texts.map_ofText_output, alike.output, otherTexts.map_ofText_output]
  obtain ⟨_, _, tag, quiet, _, push⟩ := alike
  cases request
  cases other
  rw [mk.injEq]
  exact ⟨manifestPath, context, tag, quiet, output, push⟩

/-- **The command line of an engine determines the engine and the request**, whatever the texts in
it look like, if the paths are in UTF-8. -/
theorem determined_by_command_line {request other : BuildRequest} {kind otherKind : EngineKind}
    (texts : request.HasTextPaths) (otherTexts : other.HasTextPaths)
    (sameProgram : kind.program = otherKind.program)
    (same : request.arguments kind = other.arguments otherKind) :
    kind = otherKind ∧ request = other := by
  obtain ⟨sameKind, alike⟩ := showAlike_of_arguments_eq sameProgram same
  exact ⟨sameKind, alike.eq texts otherTexts⟩

/-! ## Values that look like flags -/

/-- A request whose texts are flags. -/
def ofFlags : BuildRequest where
  manifestPath := .ofText "-f"
  context := .ofText "--push"
  tag := some "--output"
  output := some (.ofText "-t")

/-- The same request, with its manifest named by bytes. -/
def ofFlagBytes : BuildRequest := { ofFlags with manifestPath := ⟨[0x2D, 0x66]⟩ }

theorem hasTextPaths_ofFlags : ofFlags.HasTextPaths where
  manifestPath := ⟨_, rfl⟩
  context := ⟨_, rfl⟩
  output := by
    rintro directory ⟨⟩
    exact ⟨_, rfl⟩

theorem hasTextPaths_ofFlagBytes : ofFlagBytes.HasTextPaths :=
  { hasTextPaths_ofFlags with manifestPath := ⟨"-f", rfl⟩ }

/-- A tag and paths that are flags are told from flags. -/
theorem determined_by_command_line_of_flags :
    ofFlags.HasTextPaths ∧ ofFlagBytes.HasTextPaths ∧
      ofFlags.arguments (.depot "-t") =
        ["build", "--suppress-no-output-warning", "--project", "-t", "-t", "--output", "--output",
          "type=local,dest=-t", "-f", "-f", "--push"] ∧
      ofFlagBytes.arguments (.depot "-t") = ofFlags.arguments (.depot "-t") ∧
      ofFlagBytes = ofFlags := by
  have words : ofFlagBytes.arguments (.depot "-t") = ofFlags.arguments (.depot "-t") := by decide
  have determined :=
    determined_by_command_line hasTextPaths_ofFlagBytes hasTextPaths_ofFlags rfl words
  exact ⟨hasTextPaths_ofFlags, hasTextPaths_ofFlagBytes, by decide, words, determined.2⟩

end BuildRequest

end StageManifest
