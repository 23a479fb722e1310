/-!
Sets of numbers below 64, kept in one machine word: bit `i` is set exactly when `i` is a member.
Membership is `has`; every other operation is described through it.
-/

namespace Cadence

/-- A set of numbers below 64. -/
abbrev Mask := UInt64

namespace Mask

/-- Whether `i` is a member; nothing from 64 on ever is. -/
def has (mask : Mask) (i : Nat) : Bool :=
  i < 64 && (mask >>> i.toUInt64) &&& 1 == 1

/-- The number of members. -/
def count (mask : Mask) : Nat :=
  (List.range 64).countP mask.has

/-- The least member, or 64 for the empty set. -/
def lowest (mask : Mask) : Nat :=
  ((List.range 64).find? mask.has).getD 64

/-- The set without its least member. -/
def dropLowest (mask : Mask) : Mask :=
  mask &&& (mask - 1)

/-- The least member from `start` on. -/
def nextFrom (mask : Mask) (start : Nat) : Option Nat :=
  if start < 64 then
    let above := mask >>> start.toUInt64
    if above = 0 then none else some (start + lowest above)
  else none

/-- Without its least member a mask is a smaller number, since subtracting one already lowers it. -/
theorem dropLowest_lt {mask : Mask} (nonempty : mask ≠ 0)
    : mask.dropLowest.toNat < mask.toNat := by
  have positive : 0 < mask.toNat := by
    rcases Nat.eq_zero_or_pos mask.toNat with zero | positive
    · exact absurd (UInt64.toNat.inj zero) nonempty
    · exact positive
  have smaller : (mask - 1).toNat = mask.toNat - 1 := by
    have within : (1 : UInt64) ≤ mask := UInt64.le_iff_toNat_le.mpr (by simp; omega)
    rw [UInt64.toNat_sub_of_le _ _ within]
    rfl
  have below : mask.dropLowest.toNat ≤ (mask - 1).toNat := by
    rw [dropLowest, UInt64.toNat_and]
    exact Nat.and_le_right
  omega

/-- The members in ascending order, each found as the least one left. -/
def values (mask : Mask) : List Nat :=
  if _empty : mask = 0 then [] else mask.lowest :: mask.dropLowest.values
termination_by mask.toNat
decreasing_by exact dropLowest_lt ‹_›

/-- The numbers below 64 for which `member` holds. -/
def ofPred (member : Nat → Bool) : Mask :=
  ((List.range 64).filter member).foldl (fun mask i => mask ||| (1 : Mask) <<< i.toUInt64) 0

end Mask

end Cadence
