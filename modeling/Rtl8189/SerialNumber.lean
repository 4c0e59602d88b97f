import Mathlib.Data.Int.ModEq

/-!
# Serial numbers modulo `2 * h`

A counter that wraps is compared by the half space its difference falls in. The
comparison is not transitive on residues. It agrees with the order of unwrapped
integers as long as the two integers stay within `h` of each other, and a
residue has exactly one representative within `h` of a chosen centre.
-/
namespace Rtl8189.SerialNumber

def Before (h x y : ℤ) : Prop := h ≤ (x - y) % (2 * h)

instance (h x y : ℤ) : Decidable (Before h x y) := inferInstanceAs (Decidable (_ ≤ _))

theorem before_iff_lt {h x y : ℤ} (hl : -h ≤ x - y) (hr : x - y < h) :
    Before h x y ↔ x < y := by
  unfold Before
  by_cases hxy : x < y
  · have hm : (x - y) % (2 * h) = x - y + 2 * h := by
      rw [← Int.add_emod_right, Int.emod_eq_of_lt] <;> omega
    omega
  · have hm : (x - y) % (2 * h) = x - y := Int.emod_eq_of_lt (by omega) (by omega)
    omega

theorem before_congr {h x x' y y' : ℤ} (hx : x % (2 * h) = x' % (2 * h))
    (hy : y % (2 * h) = y' % (2 * h)) : Before h x y ↔ Before h x' y' := by
  unfold Before
  rw [Int.sub_emod, hx, hy, ← Int.sub_emod]

/-- The integer congruent to `r` in the half-open interval of length `2 * h`
centred at `c`. -/
def nearest (h c r : ℤ) : ℤ := c - h + (r - c + h) % (2 * h)

theorem nearest_emod (h c r : ℤ) : nearest h c r % (2 * h) = r % (2 * h) := by
  unfold nearest
  rw [Int.add_emod_emod]
  congr 1
  omega

theorem nearest_ge {h : ℤ} (hh : 0 < h) (c r : ℤ) : c - h ≤ nearest h c r := by
  have hm := Int.emod_nonneg (r - c + h) (by omega : 2 * h ≠ 0)
  unfold nearest
  omega

theorem nearest_lt {h : ℤ} (hh : 0 < h) (c r : ℤ) : nearest h c r < c + h := by
  have hm := Int.emod_lt_of_pos (r - c + h) (by omega : 0 < 2 * h)
  unfold nearest
  omega

end Rtl8189.SerialNumber
