import Mathlib.Data.List.Perm.Basic
import StageManifest.Instruction.Recipe
import StageManifest.Proofs.Text.ByteOrder
import StageManifest.Proofs.Toml.Data

/-!
# Canonical text

The order in which variables, labels and packages are given has no influence on the
instruction (`Instruction.independent_of_order`).  Entries made of pairs with distinct keys
are these pairs in the order of their keys (`Entries.perm_toList_ofList`), and there is one such
arrangement only; likewise the names of packages are sorted with their repetitions.  Of two
values for one key the later is kept, as if it had been given in the place of the earlier one.
-/

set_option autoImplicit false

namespace StageManifest

/-! ## Entries of pairs -/

namespace Entries

variable {α : Type} {entries others : Entries α} {key : String} {value : α}
  {pairs : List (String × α)}

theorem mem_toList_iff : (key, value) ∈ entries.toList ↔ entries.find? key = some value := by
  have rising : Toml.RisingKeys entries.toList := entries.rising
  exact ⟨Toml.lookup_of_mem rising.distinctKeys, Toml.mem_of_lookup⟩

/-- Entries are known by their lookups. -/
theorem eq_of_find? (same : ∀ key, entries.find? key = others.find? key) : entries = others := by
  have lists : entries.toList = others.toList :=
    Toml.eq_of_lookup entries.rising others.rising same
  cases entries
  cases others
  cases lists
  rfl

/-- Entries are known by what they hold, in whatever order. -/
theorem eq_of_perm (perm : entries.toList.Perm others.toList) : entries = others := by
  refine eq_of_find? fun key => Option.ext fun value => ?_
  rw [← mem_toList_iff, ← mem_toList_iff, perm.mem_iff]

/-- Pairs with distinct keys are all among the entries made of them, and nothing else is. -/
theorem perm_toList_ofList (distinct : Toml.DistinctKeys pairs) :
    (ofList pairs).toList.Perm pairs := by
  have nodup : (ofList pairs).toList.Nodup := .of_map _ (ofList pairs).nodup_keys
  refine (List.perm_ext_iff_of_nodup nodup (.of_map _ distinct)).mpr fun pair => ?_
  rw [mem_toList_iff]
  constructor
  · intro found
    rw [find?_ofList] at found
    exact List.mem_reverse.mp (Toml.mem_of_lookup found)
  · exact Toml.find?_ofList_of_mem distinct

/-- The order of pairs with distinct keys has no influence on the entries made of them. -/
theorem ofList_eq_of_perm {pairs others : List (String × α)} (perm : pairs.Perm others)
    (distinct : Toml.DistinctKeys pairs) : ofList pairs = ofList others := by
  have distinctOthers : Toml.DistinctKeys others := (perm.map _).nodup_iff.mp distinct
  apply eq_of_perm
  apply (perm_toList_ofList distinct).trans
  exact perm.trans (perm_toList_ofList distinctOthers).symm

/-- The keys of entries are in the order of their bytes. -/
theorem inByteOrder_keys (entries : Entries α) : Text.InByteOrder entries.keys := by
  refine Text.inByteOrder_iff.mpr (entries.rising_keys.imp fun less => ?_)
  exact String.not_lt.mp (String.lt_asymm less)

/-- The pairs with another value in the place of the one they have for a key. -/
def withValue (key : String) (value : α) (pairs : List (String × α)) : List (String × α) :=
  pairs.map fun pair => if pair.1 = key then (key, value) else pair

theorem lookup_withValue (key other : String) (value : α) (pairs : List (String × α)) :
    (withValue key value pairs).lookup other =
      if other = key then (pairs.lookup key).map fun _ => value else pairs.lookup other := by
  induction pairs with
  | nil => simp [withValue]
  | cons pair rest ih =>
      obtain ⟨first, held⟩ := pair
      rw [withValue, List.map_cons, ← withValue, List.lookup_cons, List.lookup_cons]
      by_cases isKey : first = key
      · subst isKey
        by_cases same : other = first
        · simp [same]
        · rw [if_pos rfl, List.lookup_cons, beq_eq_false_iff_ne.mpr same, ih, if_neg same,
            if_neg same]
      · have absent : key ≠ first := fun again => isKey again.symm
        rw [if_neg isKey, List.lookup_cons, beq_eq_false_iff_ne.mpr absent, ih]
        by_cases same : other = first
        · simp [same, isKey]
        · rw [beq_eq_false_iff_ne.mpr same]

/-- A later value for a key has the effect of giving it in the place of the earlier one. -/
theorem ofList_append_of_mem (known : key ∈ pairs.map (·.1)) (value : α) :
    ofList (pairs ++ [(key, value)]) = ofList (withValue key value pairs) := by
  obtain ⟨pair, isPair, rfl⟩ := List.mem_map.mp known
  have found : (pairs.reverse.lookup pair.1).isSome :=
    List.lookup_isSome_iff.mpr ⟨pair, List.mem_reverse.mpr isPair, beq_self_eq_true _⟩
  obtain ⟨old, found⟩ := Option.isSome_iff_exists.mp found
  have kept : ofList (pairs ++ [(pair.1, value)]) = (ofList pairs).insert pair.1 value :=
    List.foldl_append
  refine eq_of_find? fun other => ?_
  rw [kept, find?_insert, find?_ofList, find?_ofList, withValue, ← List.map_reverse, ← withValue,
    lookup_withValue, found, Option.map_some]

end Entries

/-! ## Sorted names -/

namespace Recipe

theorem perm_sortedNames (names : List String) : (sortedNames names).Perm names :=
  List.mergeSort_perm names _

theorem pairwise_sortedNames (names : List String) :
    (sortedNames names).Pairwise fun first second => first ≤ second := by
  have transitive (first second third : String) :
      decide (first ≤ second) → decide (second ≤ third) → decide (first ≤ third) := by
    simpa using String.le_trans
  have total (first second : String) : decide (first ≤ second) || decide (second ≤ first) := by
    simpa using String.le_total first second
  exact (List.pairwise_mergeSort transitive total names).imp of_decide_eq_true

theorem sortedNames_eq_of_perm {names others : List String} (perm : names.Perm others) :
    sortedNames names = sortedNames others := by
  have together : (sortedNames names).Perm (sortedNames others) :=
    (perm_sortedNames names).trans (perm.trans (perm_sortedNames others).symm)
  exact together.eq_of_pairwise (fun _ _ _ _ => String.le_antisymm) (pairwise_sortedNames names)
    (pairwise_sortedNames others)

/-- The sorted names are in the order of their bytes. -/
theorem inByteOrder_sortedNames (names : List String) : Text.InByteOrder (sortedNames names) :=
  Text.inByteOrder_iff.mpr (pairwise_sortedNames names)

/-- The line that installs packages. -/
theorem text_aptInstall (packages : List String) :
    (aptInstall packages).text =
      "RUN --mount=type=cache,target=/var/cache/apt,sharing=locked " ++
        "--mount=type=cache,target=/var/lib/apt,sharing=locked " ++
        "apt-get update && DEBIAN_FRONTEND=noninteractive apt-get install -y " ++
        "--no-install-recommends " ++ " ".intercalate (sortedNames packages) := by
  have start : "RUN " ++ " ".intercalate ([packageCache "/var/cache/apt",
        packageCache "/var/lib/apt"].map Instruction.mountFlag) ++ " " =
      "RUN --mount=type=cache,target=/var/cache/apt,sharing=locked " ++
        "--mount=type=cache,target=/var/lib/apt,sharing=locked " := by
    decide +kernel
  rw [← start, aptInstall, Instruction.text]
  · simp only [String.append_assoc]
  · exact List.cons_ne_nil _ _

end Recipe

namespace Instruction

/-- **The order of what is given has no influence on an instruction.**  Pairs with distinct keys
make the same instruction in any order, and its text has one piece for each pair, in the order of
the bytes of the keys.  A second value for a key has the effect of giving it in the place of the
first.  Packages make the same instruction in any order, and its text names all of them, as often
as they are given, in the order of their bytes. -/
theorem independent_of_order :
    (∀ pairs others : List (String × String), pairs.Perm others → (pairs.map (·.1)).Nodup →
      envOf pairs = envOf others ∧ labelOf pairs = labelOf others ∧
      ∃ sorted : List (String × String),
        sorted.Perm pairs ∧ Text.InByteOrder (sorted.map (·.1)) ∧
        (envOf pairs).text =
          Text.joinLines (sorted.map fun (name, value) => "ENV " ++ name ++ " " ++ value) ∧
        (labelOf pairs).text =
          "LABEL " ++ " ".intercalate (sorted.map fun (key, value) =>
            "\"" ++ key ++ "\"=\"" ++ value ++ "\"")) ∧
    (∀ (pairs : List (String × String)) (key value : String), key ∈ pairs.map (·.1) →
      envOf (pairs ++ [(key, value)]) = envOf (Entries.withValue key value pairs) ∧
      labelOf (pairs ++ [(key, value)]) = labelOf (Entries.withValue key value pairs)) ∧
    (∀ packages others : List String, packages.Perm others →
      Recipe.aptInstall packages = Recipe.aptInstall others ∧
      ∃ sorted : List String, sorted.Perm packages ∧ Text.InByteOrder sorted ∧
        (Recipe.aptInstall packages).text =
          "RUN --mount=type=cache,target=/var/cache/apt,sharing=locked " ++
            "--mount=type=cache,target=/var/lib/apt,sharing=locked " ++
            "apt-get update && DEBIAN_FRONTEND=noninteractive apt-get install -y " ++
            "--no-install-recommends " ++ " ".intercalate sorted) := by
  refine ⟨fun pairs others perm distinct => ?_, fun pairs key value known => ?_,
    fun packages others perm => ?_⟩
  · have same := Entries.ofList_eq_of_perm perm distinct
    refine ⟨congrArg Instruction.env same, congrArg Instruction.label same, ?_⟩
    exact ⟨(Entries.ofList pairs).toList, Entries.perm_toList_ofList distinct,
      (Entries.ofList pairs).inByteOrder_keys, rfl, rfl⟩
  · have same := Entries.ofList_append_of_mem known value
    exact ⟨congrArg Instruction.env same, congrArg Instruction.label same⟩
  · have same : Recipe.aptInstall packages = Recipe.aptInstall others := by
      rw [Recipe.aptInstall, Recipe.aptInstall, Recipe.sortedNames_eq_of_perm perm]
    exact ⟨same, Recipe.sortedNames packages, Recipe.perm_sortedNames packages,
      Recipe.inByteOrder_sortedNames packages, Recipe.text_aptInstall packages⟩

/-- A character beyond the first plane comes last, though its first half in UTF-16 would come before
the wide tilde; a variable is given twice, and so is a package. -/
theorem independent_of_order_beyond_ascii :
    (envOf [("😀", "1"), ("～", "2"), ("Z", "3")] = envOf [("Z", "3"), ("😀", "1"), ("～", "2")] ∧
      (envOf [("😀", "1"), ("～", "2"), ("Z", "3")]).text = "ENV Z 3\nENV ～ 2\nENV 😀 1") ∧
    envOf [("Z", "1"), ("a", "2"), ("Z", "3")] = envOf [("Z", "3"), ("a", "2")] ∧
    Recipe.aptInstall ["zsh", "curl", "zsh"] = Recipe.aptInstall ["zsh", "zsh", "curl"] := by
  have ⟨perm, again, packages⟩ := independent_of_order
  refine ⟨⟨?_, by decide +kernel⟩, ?_, ?_⟩
  · exact (perm _ _ (by decide) (by decide)).1
  · exact (again [("Z", "1"), ("a", "2")] "Z" "3" (by decide)).1
  · exact (packages _ _ (by decide)).1

end Instruction

end StageManifest
