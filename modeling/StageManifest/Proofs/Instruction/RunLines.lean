import StageManifest.Proofs.Instruction.Lines
import StageManifest.Proofs.Text.Cuts
import StageManifest.Proofs.Text.Digits

/-!
# Reading the lines of run instructions

The line of a run instruction has three nested lists: words with spaces between them,
of which those with the mount flag come first, pieces of a mount with commas between
them, and a key and a value with an equals sign between them.  Reading takes them
apart again (`Instruction.readRun?`).

As long as no text of a mount has a comma or a space in it, and the command is not
taken for a mount, reading gives the instruction again.  An option that is set to an
empty text is told from one that is not set, and a text may look like another key.
So different run instructions are written differently
(`Instruction.run_determined_by_text`).
-/

set_option autoImplicit false

namespace StageManifest

namespace CacheMount

/-! ## Reading a mount -/

/-- The number of 32 bits that is written in a base. -/
def readNumber? (base : Nat) (digits : List Char) : Option UInt32 :=
  if digits.isEmpty then none
  else ((Text.digitsValue base 0 digits).filter (· < UInt32.size)).map UInt32.ofNat

/-- The mount with an option set to what a value says. -/
def readOption? (mount : CacheMount) (key : String) (value : List Char) : Option CacheMount :=
  match key with
  | "type" => if value = "cache".toList then some mount else none
  | "target" => some { mount with target := String.ofList value }
  | "sharing" => do
      return { mount with sharing := some (← Sharing.ofKeyword? (String.ofList value)) }
  | "id" => some { mount with id := some (String.ofList value) }
  | "uid" => do return { mount with uid := some (← readNumber? 10 value) }
  | "gid" => do return { mount with gid := some (← readNumber? 10 value) }
  | "mode" => do return { mount with mode := some (← readNumber? 8 value) }
  | "source" => some { mount with source := some (String.ofList value) }
  | _ => none

/-- The mount with what a piece says: a key and a value with the first equals sign between them, or
the flag of a mount that is only read. -/
def readPiece? (mount : CacheMount) (piece : List Char) : Option CacheMount :=
  match Text.cutFirst ['='] piece with
  | some (key, value) => mount.readOption? (String.ofList key) value
  | none => if piece = "ro".toList then some { mount with readOnly := true } else none

/-- The mount that is written as pieces with commas between them. -/
def read? (text : List Char) : Option CacheMount :=
  (text.splitOn ',').foldlM readPiece? {}

theorem readNumber?_of_digitsValue {base : Nat} {digits : List Char} {number : UInt32}
    (filled : digits ≠ []) (read : Text.digitsValue base 0 digits = some number.toNat) :
    readNumber? base digits = some number := by
  have small : number.toNat < UInt32.size := number.toNat_lt
  simp [readNumber?, filled, read, small, UInt32.ofNat_toNat]

theorem readNumber?_repr (number : UInt32) :
    readNumber? 10 (Nat.repr number.toNat).toList = some number := by
  rw [Nat.repr_eq_ofList_toDigits, String.toList_ofList]
  exact readNumber?_of_digitsValue Nat.toDigits_ne_nil
    (Text.digitsValue_toDigits (by decide) (by decide) number.toNat)

theorem readNumber?_paddedDigits (width : Nat) (number : UInt32) :
    readNumber? 8 (Text.paddedDigits 8 width number.toNat).toList = some number := by
  rw [Text.paddedDigits, String.toList_ofList]
  apply readNumber?_of_digitsValue
  · exact List.append_ne_nil_of_right_ne_nil _ Nat.toDigits_ne_nil
  · rw [Text.digitsValue_zeroPadded (by decide) (by decide)]
    exact Text.digitsValue_toDigits (by decide) (by decide) number.toNat

/-- A piece that starts with a key is read as that option, even if there are equals signs in its
value. -/
theorem readPiece?_append {start key : String} (isStart : start = key ++ "=")
    (plain : '=' ∉ key.toList) (mount : CacheMount) (value : String) :
    mount.readPiece? (start ++ value).toList = mount.readOption? key value.toList := by
  have cut : Text.cutFirst ['='] (start ++ value).toList = some (key.toList, value.toList) := by
    rw [isStart, String.toList_append, String.toList_append, List.append_assoc]
    exact Text.cutFirst_append plain value.toList
  rw [readPiece?, cut]
  exact congrArg (mount.readOption? · value.toList) String.ofList_toList

/-- An option that is set is read, and one that is not set changes nothing. -/
theorem foldlM_option {α : Type} {start key : String} (isStart : start = key ++ "=")
    (plain : '=' ∉ key.toList) (write : α → String) (holding : Option α → CacheMount)
    (reads : ∀ set, (holding none).readOption? key (write set).toList = some (holding (some set)))
    (option : Option α) :
    ((option.map fun set => start ++ write set).toList.map String.toList).foldlM readPiece?
      (holding none) = some (holding option) := by
  cases option with
  | none => rfl
  | some set =>
      rw [Option.map_some, Option.toList_some, List.map_singleton, List.foldlM_cons,
        readPiece?_append isStart plain, reads set]
      rfl

/-- The pieces of a mount are read as the mount. -/
theorem foldlM_pieces (mount : CacheMount) :
    (mount.pieces.map String.toList).foldlM readPiece? {} = some mount := by
  obtain ⟨target, sharing, id, source, uid, gid, mode, readOnly⟩ := mount
  have readTarget : (["type=cache", "target=" ++ target].map String.toList).foldlM readPiece? {} =
      some { target } := by
    have readKind : readPiece? {} "type=cache".toList = some {} := by decide
    rw [List.map_cons, List.map_singleton, List.foldlM_cons, readKind, Option.bind_eq_bind,
      Option.bind_some, List.foldlM_cons,
      readPiece?_append (by decide : "target=" = "target" ++ "=") (by decide)]
    simp [readOption?]
  have readSharing := foldlM_option (by decide : "sharing=" = "sharing" ++ "=") (by decide)
    Sharing.keyword (fun sharing => { target, sharing }) (fun set => by cases set <;> rfl) sharing
  have readId := foldlM_option (by decide : "id=" = "id" ++ "=") (by decide)
    (fun id => id) (fun id => { target, sharing, id }) (fun set => by simp [readOption?]) id
  have readFlag : ((if readOnly then ["ro"] else []).map String.toList).foldlM readPiece?
      { target, sharing, id } = some { target, sharing, id, readOnly } := by
    cases readOnly <;> rfl
  have readUid := foldlM_option (by decide : "uid=" = "uid" ++ "=") (by decide)
    (fun uid => Nat.repr uid.toNat) (fun uid => { target, sharing, id, readOnly, uid })
    (fun set => by simp only [readOption?, readNumber?_repr]; rfl) uid
  have readGid := foldlM_option (by decide : "gid=" = "gid" ++ "=") (by decide)
    (fun gid => Nat.repr gid.toNat) (fun gid => { target, sharing, id, readOnly, uid, gid })
    (fun set => by simp only [readOption?, readNumber?_repr]; rfl) gid
  have readMode := foldlM_option (by decide : "mode=" = "mode" ++ "=") (by decide)
    (fun mode => Text.paddedDigits 8 4 mode.toNat)
    (fun mode => { target, sharing, id, readOnly, uid, gid, mode })
    (fun set => by simp only [readOption?, readNumber?_paddedDigits]; rfl) mode
  have readSource := foldlM_option (by decide : "source=" = "source" ++ "=") (by decide)
    (fun source => source)
    (fun source => { target, sharing, id, readOnly, uid, gid, mode, source })
    (fun set => by simp [readOption?]) source
  simp only [pieces, List.map_append, List.foldlM_append, Option.bind_eq_bind, readTarget,
    readSharing, readId, readFlag, readUid, readGid, readMode, readSource, Option.bind_some]

/-- **The text of a mount is read as the mount**, if there are no commas in the texts that it is
given. -/
theorem read?_text {mount : CacheMount}
    (plain : ∀ text ∈ mount.freeTexts, ',' ∉ text.toList) :
    read? mount.text.toList = some mount := by
  have lack : ∀ piece ∈ mount.pieces.map String.toList, ',' ∉ piece := by
    intro characters member
    obtain ⟨piece, isPiece, rfl⟩ := List.mem_map.mp member
    exact not_mem_of_mem_pieces (by decide) plain piece isPiece
  have filled : mount.pieces.map String.toList ≠ [] := by simp [pieces]
  have whole : mount.text.toList = [','].intercalate (mount.pieces.map String.toList) :=
    String.toList_intercalate
  rw [read?, whole, List.splitOn_intercalate ',' lack filled, foldlM_pieces]

end CacheMount

/-! ## Reading a line -/

namespace Text

/-- A joined text comes apart into its pieces, if the separator is in none of them but perhaps the
last one. -/
theorem splitOn_intercalate_concat {separator : Char} {pieces : List (List Char)}
    (absent : ∀ piece ∈ pieces, separator ∉ piece) (last : List Char) :
    ([separator].intercalate (pieces ++ [last])).splitOn separator =
      pieces ++ last.splitOn separator := by
  induction pieces with
  | nil => simp
  | cons piece rest ih =>
      obtain ⟨inPiece, others⟩ := List.forall_mem_cons.mp absent
      have more : rest ++ [last] ≠ [] := by simp
      rw [List.cons_append, List.intercalate_cons_of_ne_nil more, List.append_assoc,
        List.singleton_append, List.splitOn_append_cons_self_of_not_mem inPiece, ih others,
        List.cons_append]

end Text

namespace Instruction

/-- The word is a mount with its flag. -/
def isMountFlag (word : List Char) : Bool := "--mount=".toList.isPrefixOf word

/-- The mount of a word with the mount flag. -/
def readMountFlag? (word : List Char) : Option CacheMount :=
  (Text.afterStart? "--mount=".toList word).bind CacheMount.read?

/-- The run instruction of a line: the mounts of the words at its start that have the mount flag,
and the rest of it as the command. -/
def readRun? (line : List Char) : Option Instruction := do
  let rest ← Text.afterStart? "RUN ".toList line
  let words := rest.splitOn ' '
  let mounts ← (words.takeWhile isMountFlag).mapM readMountFlag?
  return .run (String.ofList ([' '].intercalate (words.dropWhile isMountFlag))) mounts

/-- The mounts and the command of a run instruction can be told apart on its line: there is neither
a comma nor a space in the texts of the mounts, and the command does not start with a mount flag. -/
structure IsDecodable (command : String) (mounts : List CacheMount) : Prop where
  mounts : ∀ mount ∈ mounts, ∀ text ∈ mount.freeTexts, ',' ∉ text.toList ∧ ' ' ∉ text.toList
  command : ¬ "--mount=".toList <+: command.toList

/-- The command stands behind the mounts like one more word. -/
theorem text_run (command : String) (mounts : List CacheMount) :
    (run command mounts).text =
      "RUN " ++ " ".intercalate (mounts.map mountFlag ++ [command]) := by
  cases mounts with
  | nil => simp [text]
  | cons mount rest =>
      rw [text, String.intercalate_append_of_ne_nil (by simp) (by simp),
        String.intercalate_singleton]
      · simp only [String.append_assoc]
      · exact nofun

/-- If each item is read from what is written for it, so are all the items. -/
theorem mapM_map_eq_some {α β : Type} {write : α → β} {read : β → Option α} {items : List α}
    (reads : ∀ item ∈ items, read (write item) = some item) :
    (items.map write).mapM read = some items := by
  induction items with
  | nil => rfl
  | cons item rest ih =>
      obtain ⟨isRead, others⟩ := List.forall_mem_cons.mp reads
      simp [isRead, ih others]

/-- A mount with its flag is read as the mount. -/
theorem readMountFlag?_mountFlag {mount : CacheMount}
    (plain : ∀ text ∈ mount.freeTexts, ',' ∉ text.toList) :
    readMountFlag? (mountFlag mount).toList = some mount := by
  have start : Text.afterStart? "--mount=".toList (mountFlag mount).toList =
      some mount.text.toList := by
    rw [mountFlag, String.toList_append]
    exact Text.afterStart?_eq_some.mpr rfl
  rw [readMountFlag?, start, Option.bind_some, CacheMount.read?_text plain]

theorem isMountFlag_mountFlag (mount : CacheMount) :
    isMountFlag (mountFlag mount).toList = true := by
  rw [isMountFlag, mountFlag, String.toList_append, List.isPrefixOf_iff_prefix]
  exact List.prefix_append _ _

theorem not_mem_mountFlag {mount : CacheMount}
    (plain : ∀ text ∈ mount.freeTexts, ' ' ∉ text.toList) : ' ' ∉ (mountFlag mount).toList := by
  rw [mountFlag, String.toList_append, List.mem_append, not_or]
  constructor
  · decide
  · exact Text.not_mem_intercalate (by decide) (CacheMount.not_mem_of_mem_pieces (by decide) plain)

/-- The first word of a command has no mount flag, if the command does not start with one. -/
theorem not_isMountFlag_of_head {command : List Char} (plain : ¬ "--mount=".toList <+: command) :
    ∀ word ∈ (command.splitOn ' ').head?, isMountFlag word = false := by
  intro word isFirst
  obtain ⟨others, words⟩ := List.head?_eq_some_iff.mp isFirst
  rw [Bool.eq_false_iff]
  intro isFlag
  apply plain
  have starts : word <+: command := by
    have together : [' '].intercalate (command.splitOn ' ') = command :=
      List.intercalate_splitOn ' '
    rw [← together, words]
    cases others with
    | nil => simp
    | cons next rest => simp [List.intercalate_cons_cons, List.append_assoc]
  exact (List.isPrefixOf_iff_prefix.mp isFlag).trans starts

section

variable {command : String} {mounts : List CacheMount}

/-- **The line of a run instruction is read as the instruction.** -/
theorem readRun?_text (decodable : IsDecodable command mounts) :
    readRun? (run command mounts).text.toList = some (run command mounts) := by
  let flags := mounts.map fun mount => (mountFlag mount).toList
  have lack : ∀ flag ∈ flags, ' ' ∉ flag := by
    intro flag member
    obtain ⟨mount, isMount, rfl⟩ := List.mem_map.mp member
    exact not_mem_mountFlag fun text isText => (decodable.mounts mount isMount text isText).2
  have areFlags : ∀ flag ∈ flags, isMountFlag flag = true := by
    intro flag member
    obtain ⟨mount, _, rfl⟩ := List.mem_map.mp member
    exact isMountFlag_mountFlag mount
  have noFlag := not_isMountFlag_of_head decodable.command
  have whole : (run command mounts).text.toList =
      "RUN ".toList ++ [' '].intercalate (flags ++ [command.toList]) := by
    rw [text_run, String.toList_append, String.toList_intercalate, List.map_append, List.map_map]
    rfl
  have start : Text.afterStart? "RUN ".toList (run command mounts).text.toList =
      some ([' '].intercalate (flags ++ [command.toList])) :=
    Text.afterStart?_eq_some.mpr whole
  have readFlags : flags.mapM readMountFlag? = some mounts := by
    apply mapM_map_eq_some
    intro mount isMount
    exact readMountFlag?_mountFlag fun text isText =>
      (decodable.mounts mount isMount text isText).1
  simp only [readRun?, start, Option.bind_eq_bind, Option.bind_some,
    Text.splitOn_intercalate_concat lack, Text.takeWhile_append areFlags noFlag,
    Text.dropWhile_append areFlags noFlag, readFlags, List.intercalate_splitOn,
    String.ofList_toList, Option.pure_def]

/-- **The line of a run instruction determines the instruction**: it is read from it, and no other
run instruction is written alike. -/
theorem run_determined_by_text (decodable : IsDecodable command mounts) :
    readRun? (run command mounts).text.toList = some (run command mounts) ∧
      ∀ other others, IsDecodable other others →
        (run other others).text = (run command mounts).text →
        other = command ∧ others = mounts := by
  refine ⟨readRun?_text decodable, fun other others otherDecodable same => ?_⟩
  have read := readRun?_text otherDecodable
  rw [same, readRun?_text decodable] at read
  cases read
  exact ⟨rfl, rfl⟩

end

/-! ## Texts that look like other parts

The target has equals signs, the id is set and empty, the source looks like the flag, and the
command has a mount flag behind a space.
-/

namespace Lookalike

def mount : CacheMount :=
  { target := "/c=id=x"
    sharing := some .locked
    id := some ""
    source := some "ro"
    uid := some 0
    gid := some 4294967295
    mode := some 5
    readOnly := true }

def mounts : List CacheMount := [mount, { target := "" }]

def command : String := " --mount=type=cache make, all"

theorem isDecodable : IsDecodable command mounts where
  mounts := by decide
  command := by decide

end Lookalike

/-- The instruction is read from its line. -/
theorem run_determined_by_text_of_lookalike :
    IsDecodable Lookalike.command Lookalike.mounts ∧
      (run Lookalike.command Lookalike.mounts).text =
        "RUN --mount=type=cache,target=/c=id=x,sharing=locked,id=,ro,uid=0,gid=4294967295," ++
          "mode=0005,source=ro --mount=type=cache,target=  --mount=type=cache make, all" ∧
      readRun? (run Lookalike.command Lookalike.mounts).text.toList =
        some (run Lookalike.command Lookalike.mounts) :=
  ⟨Lookalike.isDecodable, by decide +kernel, (run_determined_by_text Lookalike.isDecodable).1⟩

end Instruction

end StageManifest
