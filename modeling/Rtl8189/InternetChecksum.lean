import Mathlib.Data.List.Basic

/-!
# Sums of ones' complement

Bytes are summed as words of sixteen bits, the first byte of a word in front. The carries are
added in again at the other end.
-/
namespace Rtl8189.InternetChecksum

/-- The sum of the words, with the first byte in the upper or the lower half of its word. -/
def wordSum : Bool → List UInt8 → ℕ
  | _, [] => 0
  | true, b :: bs => 256 * b.toNat + wordSum false bs
  | false, b :: bs => b.toNat + wordSum true bs

def half (upper : Bool) (n : ℕ) : Bool := if n % 2 = 0 then upper else !upper

theorem half_succ (upper : Bool) (n : ℕ) : half upper (n + 1) = half (!upper) n := by
  unfold half
  rcases Nat.mod_two_eq_zero_or_one n with h | h
  · have hsucc : (n + 1) % 2 ≠ 0 := by omega
    rw [if_pos h, if_neg hsucc]
  · have hsucc : (n + 1) % 2 = 0 := by omega
    have hne : n % 2 ≠ 0 := by omega
    rw [if_neg hne, if_pos hsucc, Bool.not_not]

theorem wordSum_append (upper : Bool) (bs cs : List UInt8) :
    wordSum upper (bs ++ cs) = wordSum upper bs + wordSum (half upper bs.length) cs := by
  induction bs generalizing upper with
  | nil => exact (Nat.zero_add _).symm
  | cons b bs ih =>
    rw [List.cons_append, List.length_cons, half_succ]
    cases upper
    · rw [wordSum, wordSum, ih, Nat.add_assoc]
      rfl
    · rw [wordSum, wordSum, ih, Nat.add_assoc]
      rfl

theorem wordSum_append_even {bs : List UInt8} (h : bs.length % 2 = 0) (cs : List UInt8) :
    wordSum true (bs ++ cs) = wordSum true bs + wordSum true cs := by
  rw [wordSum_append, half, if_pos h]

def foldLoop (n : ℕ) : ℕ :=
  if n < 65536 then n else foldLoop (n % 65536 + n / 65536)
termination_by n
decreasing_by omega

def complement (n : ℕ) : ℕ := 65535 - foldLoop n

theorem foldLoop_eq (n : ℕ) : foldLoop n = if n = 0 then 0 else (n - 1) % 65535 + 1 := by
  induction n using Nat.strongRecOn with
  | ind n ih =>
    rw [foldLoop]
    split_ifs with hlt hzero hzero
    · exact hzero
    · omega
    · omega
    · rw [ih _ (by omega), if_neg (by omega)]
      omega

theorem foldLoop_le (n : ℕ) : foldLoop n ≤ 65535 := by
  rw [foldLoop_eq]
  split_ifs <;> omega

theorem foldLoop_mod (n : ℕ) : foldLoop n % 65535 = n % 65535 := by
  rw [foldLoop_eq]
  split_ifs with h
  · rw [h]
  · omega

theorem foldLoop_eq_top {n : ℕ} (h : 0 < n) : foldLoop n = 65535 ↔ n % 65535 = 0 := by
  rw [foldLoop_eq, if_neg (Nat.ne_of_gt h)]
  omega

theorem complement_lt (n : ℕ) : complement n < 65536 := by
  unfold complement
  omega

theorem complement_inj {m n : ℕ} (hm : 0 < m) (hn : 0 < n) :
    complement m = complement n ↔ m % 65535 = n % 65535 := by
  have hle := foldLoop_le m
  have hle' := foldLoop_le n
  rw [foldLoop_eq, if_neg (Nat.ne_of_gt hm)] at hle
  rw [foldLoop_eq, if_neg (Nat.ne_of_gt hn)] at hle'
  rw [complement, complement, foldLoop_eq, foldLoop_eq, if_neg (Nat.ne_of_gt hm),
    if_neg (Nat.ne_of_gt hn)]
  omega

end Rtl8189.InternetChecksum
