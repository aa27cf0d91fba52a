import StageManifest.Instruction.MountDocument
import StageManifest.Proofs.Config.Text

/-!
# The text of a cache mount

The text of a cache mount is a document of plain entries: its target, the options
that are set and the flag.  Reading goes through the entries in their order, and an
option that is not set leaves the mount as it is
(`CacheMount.ofEntries_optionEntry`).  So reading gives the mount again, whatever
texts and numbers it holds (`CacheMount.ofDocument_documentText`).

Together with the text of a configuration: what is written is read as what it was
(`read_written`).
-/

set_option autoImplicit false

namespace StageManifest

open Toml (Value)

namespace Toml

/-- Entries are put into a record one after the other. -/
theorem Shape.ofEntries_append {σ : Type} (shape : Shape σ) (first second : List (String × Value))
    (record : σ) :
    shape.ofEntries (first ++ second) record =
      (shape.ofEntries first record).bind (shape.ofEntries second) := by
  induction first generalizing record with
  | nil => rfl
  | cons entry rest ih =>
      obtain ⟨key, value⟩ := entry
      rw [List.cons_append, ofEntries, ofEntries]
      split
      · split
        · rfl
        · exact ih record
      · split
        · rfl
        next changed _ => exact ih changed

end Toml

namespace CacheMount

/-! ## Entries -/

theorem isPlain_of_mem_optionEntry {α : Type} {key : String} {value : α → Value}
    (plain : ∀ set, (value set).IsPlain) (option : Option α) :
    ∀ pair ∈ optionEntry key value option, pair.2.IsPlain := by
  cases option with
  | none => exact nofun
  | some set => exact List.forall_mem_singleton.mpr (plain set)

theorem isPlain_of_mem_entries (mount : CacheMount) : ∀ pair ∈ mount.entries, pair.2.IsPlain := by
  simp only [entries, List.forall_mem_append, List.forall_mem_singleton]
  refine ⟨⟨⟨⟨⟨⟨⟨trivial, ?_⟩, ?_⟩, ?_⟩, ?_⟩, ?_⟩, ?_⟩, trivial⟩
  all_goals refine isPlain_of_mem_optionEntry (fun _ => ?_) _
  all_goals trivial

/-- The keys that a written mount may have, in their order. -/
def keys : List String :=
  ["target", "sharing", "id", "source", "uid", "gid", "mode", "readonly"]

theorem keys_optionEntry {α : Type} (key : String) (value : α → Value) (option : Option α) :
    ((optionEntry key value option).map (·.1)).Sublist [key] := by
  cases option with
  | none => exact List.nil_sublist _
  | some set => exact List.Sublist.refl _

/-- Each key is written at most once, and the keys keep their order. -/
theorem keys_entries (mount : CacheMount) : (mount.entries.map (·.1)).Sublist keys := by
  simp only [entries, List.map_append]
  exact (List.Sublist.refl ["target"])
    |>.append (keys_optionEntry "sharing" _ _)
    |>.append (keys_optionEntry "id" _ _)
    |>.append (keys_optionEntry "source" _ _)
    |>.append (keys_optionEntry "uid" _ _)
    |>.append (keys_optionEntry "gid" _ _)
    |>.append (keys_optionEntry "mode" _ _)
    |>.append (List.Sublist.refl ["readonly"])

/-! ## Reading -/

@[simp]
theorem decodeUInt32_numberValue (mode : Toml.Mode) (number : UInt32) :
    Toml.decodeUInt32 mode (numberValue number) = .ok number := by
  have small := number.toNat_lt
  have value : (Int64.ofNat number.toNat).toInt = number.toNat :=
    Int64.toInt_ofNat_of_lt (Nat.lt_trans small (by decide))
  rw [Toml.decodeUInt32, numberValue, Toml.decodeNatural, value, if_pos]
  · exact congrArg Except.ok UInt32.ofNat_toNat
  · rw [Bool.and_eq_true, decide_eq_true_eq, decide_eq_true_eq]
    omega

/-- An option that is set is put into the mount, and one that is not set changes nothing. -/
theorem ofEntries_optionEntry {α : Type} (key : String) (value : α → Value)
    (holding : Option α → CacheMount)
    (reads : ∀ set, shape.ofEntries [(key, value set)] (holding none) = .ok (holding (some set)))
    (option : Option α) :
    shape.ofEntries (optionEntry key value option) (holding none) = .ok (holding option) := by
  cases option with
  | none => rfl
  | some set => exact reads set

/-- The entries of a mount are fitted to it. -/
theorem ofEntries_entries (mount : CacheMount) : shape.ofEntries mount.entries {} = .ok mount := by
  obtain ⟨target, sharing, id, source, uid, gid, mode, readOnly⟩ := mount
  have readTarget : shape.ofEntries [("target", .string target)] {} = .ok { target } := rfl
  have readSharing := ofEntries_optionEntry "sharing" (fun sharing => .string sharing.keyword)
    (fun sharing => { target, sharing }) (fun set => by cases set <;> rfl) sharing
  have readId := ofEntries_optionEntry "id" .string (fun id => { target, sharing, id })
    (fun _ => rfl) id
  have readSource := ofEntries_optionEntry "source" .string
    (fun source => { target, sharing, id, source }) (fun _ => rfl) source
  have readUid := ofEntries_optionEntry "uid" numberValue
    (fun uid => { target, sharing, id, source, uid })
    (fun _ => by simp [Toml.Shape.ofEntries, shape]) uid
  have readGid := ofEntries_optionEntry "gid" numberValue
    (fun gid => { target, sharing, id, source, uid, gid })
    (fun _ => by simp [Toml.Shape.ofEntries, shape]) gid
  have readMode := ofEntries_optionEntry "mode" numberValue
    (fun mode => { target, sharing, id, source, uid, gid, mode })
    (fun _ => by simp [Toml.Shape.ofEntries, shape]) mode
  simp only [entries, Toml.Shape.ofEntries_append, Except.bind, readTarget, readSharing, readId,
    readSource, readUid, readGid, readMode]
  rfl

/-- **The text of a mount holds the mount.** -/
theorem ofDocument_documentText (mount : CacheMount) :
    ofDocument mount.documentText = .ok mount := by
  have distinct : (mount.entries.map (·.1)).Nodup :=
    (keys_entries mount).nodup (by decide)
  have read := Toml.readDocument_pairs .compact (isPlain_of_mem_entries mount) distinct
  rw [ofDocument, Toml.parseAs, documentText, read]
  simp only [Toml.Shape.decode, ofEntries_entries]

end CacheMount

/-- **What is written is read as what it was**: the text of a configuration gives the configuration,
and the text of a cache mount gives the mount. -/
theorem read_written :
    (∀ config : Config, Toml.parseAs (Config.decode .document) config.text = .ok config) ∧
      ∀ mount : CacheMount, CacheMount.ofDocument mount.documentText = .ok mount :=
  ⟨Config.parseAs_text, CacheMount.ofDocument_documentText⟩

end StageManifest
