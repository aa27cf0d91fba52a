import Mathlib.Data.List.Nodup
import StageManifest.Stage.Names

/-!
# Names in the order in which they are drawn

The source after some draws and the names drawn until then.  A source that numbers
its names repeats none of them until its counter starts again
(`nodup_firstNames_numbered`).
-/

set_option autoImplicit false

namespace StageManifest.NameSource

/-- The source after a number of draws. -/
def after (source : NameSource) : Nat → NameSource
  | 0 => source
  | count + 1 => (source.after count).next.2

/-- The first names that a source hands out. -/
def firstNames (source : NameSource) (count : Nat) : List String :=
  (List.range count).map fun drawn => (source.after drawn).next.1

theorem firstNames_succ (source : NameSource) (count : Nat) :
    source.firstNames (count + 1) = source.firstNames count ++ [(source.after count).next.1] := by
  rw [firstNames, List.range_succ, List.map_append, List.map_singleton, ← firstNames]

/-! ## Numbered names -/

/-- A counter goes on by one with each draw. -/
theorem after_numbered (stem : String) (drawn : UInt64) (count : Nat) :
    (numbered stem drawn).after count = .numbered stem (drawn + UInt64.ofNat count) := by
  induction count with
  | zero => exact congrArg (numbered stem) (UInt64.add_zero drawn).symm
  | succ count ih => rw [after, ih, next, UInt64.ofNat_add, ← UInt64.add_assoc, UInt64.ofNat_one]

/-- Under one stem, different numbers give different names. -/
theorem eq_of_next_numbered {stem : String} {first second : UInt64}
    (same : (numbered stem first).next.1 = (numbered stem second).next.1) : first = second := by
  have texts := congrArg String.toList same
  simp only [next, String.toList_append, List.append_assoc, List.append_cancel_left_eq,
    Nat.repr_eq_ofList_toDigits, String.toList_ofList] at texts
  have numbers := congrArg (Nat.ofDigitChars 10 · 0) texts
  simp only [Nat.ofDigitChars_ten_toDigits] at numbers
  exact UInt64.toNat_inj.mp numbers

/-- Draws that are not too far apart give different names. -/
theorem eq_of_next_after_numbered {stem : String} {drawn : UInt64} {first second : Nat}
    (firstSmall : first < UInt64.size) (secondSmall : second < UInt64.size)
    (same : ((numbered stem drawn).after first).next.1 =
      ((numbered stem drawn).after second).next.1) : first = second := by
  rw [after_numbered, after_numbered] at same
  have counters := (UInt64.add_right_inj drawn).mp (eq_of_next_numbered same)
  rw [← UInt64.toNat_ofNat_of_lt' firstSmall, ← UInt64.toNat_ofNat_of_lt' secondSmall, counters]

/-- **Numbered names do not repeat** until the counter starts again. -/
theorem nodup_firstNames_numbered (stem : String) (drawn : UInt64) {count : Nat}
    (few : count ≤ UInt64.size) : ((numbered stem drawn).firstNames count).Nodup := by
  refine List.Nodup.map_on ?_ List.nodup_range
  intro first isFirst second isSecond same
  exact eq_of_next_after_numbered (Nat.lt_of_lt_of_le (List.mem_range.mp isFirst) few)
    (Nat.lt_of_lt_of_le (List.mem_range.mp isSecond) few) same

end StageManifest.NameSource
