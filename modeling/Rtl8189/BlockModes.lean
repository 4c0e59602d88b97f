import Mathlib.Data.List.Basic
import Mathlib.Tactic.Common
import Rtl8189.FieldWidths

/-!
# Counter mode and CBC-MAC in memory

A text in memory is encrypted in place block by block, or chained into a MAC. The
cipher is any function on blocks. Both loops are compared with what they compute on the
bytes of the text.
-/
namespace Rtl8189.BlockModes

abbrev Block := Fin 16 → UInt8

abbrev Mem := ℕ → UInt8

def xorBlock (a b : Block) : Block := fun i => a i ^^^ b i

def blockAt (m : Mem) (p : ℕ) : Block := fun i => m (p + i)

def padded (m : Mem) (p r : ℕ) : Block := fun i => if i < r then m (p + i) else 0

def write (m : Mem) (p r : ℕ) (b : Block) : Mem := fun k =>
  if p ≤ k ∧ k < p + r then b (Fin.ofNat 16 (k - p)) else m k

def bytesAt (m : Mem) (p size : ℕ) : List UInt8 := (List.range size).map fun i => m (p + i)

def paddedBlocks (l : List UInt8) : List Block :=
  (List.range ((l.length + 15) / 16)).map fun n i => l.getD (16 * n + i) 0

def cbcMac (enc : Block → Block) (bs : List Block) (out : Block) : Block :=
  bs.foldl (fun out b => enc (xorBlock out b)) out

/-! ## Counter mode -/

/-- The keystream may be computed from the memory, as it is at that time. -/
def cryptBlocks (ks : Mem → ℕ → Block) (m : Mem) (p : ℕ) : ℕ → Mem
  | 0 => m
  | n + 1 =>
    let m := cryptBlocks ks m p n
    write m (p + 16 * n) 16 (xorBlock (ks m (n + 1)) (blockAt m (p + 16 * n)))

def crypt (ks : Mem → ℕ → Block) (m : Mem) (p size : ℕ) : Mem :=
  let n := size / 16
  let r := size % 16
  let m := cryptBlocks ks m p n
  if 0 < r then write m (p + 16 * n) r (xorBlock (ks m (n + 1)) (padded m (p + 16 * n) r)) else m

def ReadsBelow (ks : Mem → ℕ → Block) (p : ℕ) : Prop :=
  ∀ m m' : Mem, (∀ k < p, m' k = m k) → ∀ c, ks m' c = ks m c

def xorAt (ks : ℕ → Block) (p k : ℕ) (b : UInt8) : UInt8 :=
  ks ((k - p) / 16 + 1) (Fin.ofNat 16 (k - p)) ^^^ b

variable {ks : Mem → ℕ → Block} {m : Mem} {p : ℕ}

theorem write_of_out {q r k : ℕ} (b : Block) (h : ¬ (q ≤ k ∧ k < q + r)) :
    write m q r b k = m k := if_neg h

theorem ofNat_val {q : ℕ} (hq : q < 16) : ((Fin.ofNat 16 q : Fin 16) : ℕ) = q :=
  Nat.mod_eq_of_lt hq

theorem ofNat_block (k n : ℕ) (h : p + 16 * n ≤ k) :
    Fin.ofNat 16 (k - (p + 16 * n)) = Fin.ofNat 16 (k - p) := by
  apply Fin.ext
  have hsplit : k - p = k - (p + 16 * n) + 16 * n := by omega
  simp only [Fin.ofNat, hsplit, Nat.add_mul_mod_self_left]

theorem cryptBlocks_apply (hks : ReadsBelow ks p) (n k : ℕ) :
    cryptBlocks ks m p n k =
      if p ≤ k ∧ k < p + 16 * n then xorAt (ks m) p k (m k) else m k := by
  induction n generalizing k with
  | zero =>
    rw [if_neg (by omega)]
    rfl
  | succ n ih =>
    have hbelow : ∀ j < p, cryptBlocks ks m p n j = m j := by
      intro j hj
      rw [ih, if_neg (by omega)]
    simp only [cryptBlocks, hks m _ hbelow]
    by_cases hlast : p + 16 * n ≤ k ∧ k < p + 16 * n + 16
    · have hdiv : (k - p) / 16 = n := by omega
      have hidx : p + 16 * n + (k - (p + 16 * n)) = k := by omega
      rw [write, if_pos hlast, if_pos (by omega), xorAt, hdiv, xorBlock, blockAt,
        ofNat_val (by omega), hidx, ih, if_neg (by omega), ofNat_block k n hlast.1]
    · rw [write_of_out _ hlast, ih]
      by_cases hin : p ≤ k ∧ k < p + 16 * n
      · rw [if_pos hin, if_pos (by omega)]
      · rw [if_neg hin, if_neg (by omega)]

theorem crypt_apply (hks : ReadsBelow ks p) (size k : ℕ) :
    crypt ks m p size k = if p ≤ k ∧ k < p + size then xorAt (ks m) p k (m k) else m k := by
  have hsize := Nat.div_add_mod size 16
  have hbelow : ∀ j < p, cryptBlocks ks m p (size / 16) j = m j := by
    intro j hj
    rw [cryptBlocks_apply hks, if_neg (by omega)]
  simp only [crypt, hks m _ hbelow]
  by_cases hr : 0 < size % 16
  · rw [if_pos hr]
    by_cases hlast : p + 16 * (size / 16) ≤ k ∧ k < p + 16 * (size / 16) + size % 16
    · have hdiv : (k - p) / 16 = size / 16 := by omega
      have hidx : p + 16 * (size / 16) + (k - (p + 16 * (size / 16))) = k := by omega
      have hval : ((Fin.ofNat 16 (k - (p + 16 * (size / 16))) : Fin 16) : ℕ) =
          k - (p + 16 * (size / 16)) := ofNat_val (by omega)
      rw [write, if_pos hlast, if_pos (by omega), xorAt, hdiv, xorBlock, padded, hval,
        if_pos (by omega), hidx, cryptBlocks_apply hks, if_neg (by omega),
        ofNat_block k (size / 16) hlast.1]
    · rw [write_of_out _ hlast, cryptBlocks_apply hks]
      by_cases hin : p ≤ k ∧ k < p + 16 * (size / 16)
      · rw [if_pos hin, if_pos (by omega)]
      · rw [if_neg hin, if_neg (by omega)]
  · rw [if_neg hr, cryptBlocks_apply hks]
    have hfull : 16 * (size / 16) = size := by omega
    rw [hfull]

theorem crypt_of_out (hks : ReadsBelow ks p) {size k : ℕ} (h : ¬ (p ≤ k ∧ k < p + size)) :
    crypt ks m p size k = m k := by rw [crypt_apply hks, if_neg h]

theorem crypt_crypt (hks : ReadsBelow ks p) (size k : ℕ) :
    crypt ks (crypt ks m p size) p size k = m k := by
  have hbelow : ks (crypt ks m p size) = ks m := by
    funext c
    exact hks m _ (fun j hj => crypt_of_out hks (by omega)) c
  rw [crypt_apply hks, crypt_apply hks, hbelow]
  split_ifs
  · rw [xorAt, xorAt, ← UInt8.xor_assoc, UInt8.xor_self, UInt8.zero_xor]
  · rfl

theorem crypt_congr {m' : Mem} {size : ℕ} (hks : ReadsBelow ks p)
    (h : ∀ k < p + size, m' k = m k) {k : ℕ} (hk : k < p + size) :
    crypt ks m' p size k = crypt ks m p size k := by
  have hbelow : ks m' = ks m := by
    funext c
    exact hks m _ (fun j hj => h j (by omega)) c
  rw [crypt_apply hks, crypt_apply hks, hbelow, h k hk]

/-! ## Chaining -/

def chainBlocks (enc : Block → Block) (m : Mem) (p : ℕ) (out : Block) : ℕ → Block
  | 0 => out
  | n + 1 => enc (xorBlock (chainBlocks enc m p out n) (blockAt m (p + 16 * n)))

def chain (enc : Block → Block) (m : Mem) (p size : ℕ) (out : Block) : Block :=
  let n := size / 16
  let r := size % 16
  let out := chainBlocks enc m p out n
  if 0 < r then enc (xorBlock out (padded m (p + 16 * n) r)) else out

variable {enc : Block → Block}

theorem length_bytesAt (m : Mem) (p size : ℕ) : (bytesAt m p size).length = size := by
  simp [bytesAt]

theorem bytesAt_getD (m : Mem) (p : ℕ) {size k : ℕ} (hk : k < size) :
    (bytesAt m p size).getD k 0 = m (p + k) := by
  simp [bytesAt, List.getD_eq_getElem?_getD, hk]

theorem cbcMac_append (bs cs : List Block) (out : Block) :
    cbcMac enc (bs ++ cs) out = cbcMac enc cs (cbcMac enc bs out) := List.foldl_append

theorem chainBlocks_eq (m : Mem) (p : ℕ) (out : Block) (n : ℕ) :
    chainBlocks enc m p out n =
      cbcMac enc ((List.range n).map fun k => blockAt m (p + 16 * k)) out := by
  induction n with
  | zero => rfl
  | succ n ih =>
    rw [List.range_succ, List.map_append, cbcMac_append, ← ih]
    rfl

theorem chain_eq (m : Mem) (p size : ℕ) (out : Block) :
    chain enc m p size out = cbcMac enc (paddedBlocks (bytesAt m p size)) out := by
  have hfull : (List.range (size / 16)).map (fun k => blockAt m (p + 16 * k)) =
      (List.range (size / 16)).map fun n (i : Fin 16) =>
        (bytesAt m p size).getD (16 * n + i) 0 := by
    apply List.map_congr_left
    intro n hn
    funext i
    have hlt := List.mem_range.mp hn
    have hi := i.isLt
    rw [bytesAt_getD m p (by omega), blockAt, Nat.add_assoc]
  simp only [chain, paddedBlocks, length_bytesAt]
  by_cases hr : 0 < size % 16
  · have hcount : (size + 15) / 16 = size / 16 + 1 := by omega
    have hlast : padded m (p + 16 * (size / 16)) (size % 16) = fun i : Fin 16 =>
        (bytesAt m p size).getD (16 * (size / 16) + i) 0 := by
      funext i
      rw [padded]
      split_ifs with hi
      · rw [bytesAt_getD m p (by omega), Nat.add_assoc]
      · rw [List.getD_eq_getElem?_getD, List.getElem?_eq_none, Option.getD_none]
        rw [length_bytesAt]
        omega
    rw [if_pos hr, hcount, List.range_succ, List.map_append, cbcMac_append, ← hfull,
      chainBlocks_eq, hlast]
    rfl
  · have hcount : (size + 15) / 16 = size / 16 := by omega
    rw [if_neg hr, hcount, ← hfull, chainBlocks_eq]

theorem bytesAt_congr {m m' : Mem} {p size : ℕ} (h : ∀ k, p ≤ k → k < p + size → m' k = m k) :
    bytesAt m' p size = bytesAt m p size := by
  apply List.map_congr_left
  intro i hi
  have hlt := List.mem_range.mp hi
  exact h (p + i) (by omega) (by omega)

end Rtl8189.BlockModes
