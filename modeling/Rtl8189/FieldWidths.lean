import Mathlib.Algebra.Group.Nat.Defs

/-!
# Field widths

The sizes of the small numbered sets and fixed-width fields that the driver
indexes with: four access categories, key slots and rates in one section, a
four-bit fragment or TID, a twelve-bit sequence number, a sixteen-bit word.
-/
namespace Rtl8189

instance neZero4 : @NeZero ℕ Zero.ofOfNat0 4 := ⟨by decide⟩
instance neZero5 : @NeZero ℕ Zero.ofOfNat0 5 := ⟨by decide⟩
instance neZero6 : @NeZero ℕ Zero.ofOfNat0 6 := ⟨by decide⟩
instance neZero16 : @NeZero ℕ Zero.ofOfNat0 16 := ⟨by decide⟩
instance neZero256 : @NeZero ℕ Zero.ofOfNat0 256 := ⟨by decide⟩
instance neZero4096 : @NeZero ℕ Zero.ofOfNat0 4096 := ⟨by decide⟩
instance neZero65536 : @NeZero ℕ Zero.ofOfNat0 65536 := ⟨by decide⟩

/-! The indices of an array of six -/

theorem zero_lt_six : 0 < 6 := by decide
theorem one_lt_six : 1 < 6 := by decide
theorem two_lt_six : 2 < 6 := by decide
theorem three_lt_six : 3 < 6 := by decide
theorem four_lt_six : 4 < 6 := by decide
theorem five_lt_six : 5 < 6 := by decide

end Rtl8189
