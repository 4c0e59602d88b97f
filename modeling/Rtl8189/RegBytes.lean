import Mathlib.Data.BitVec
import Mathlib.Data.List.Nodup
import Mathlib.Tactic.FinCases

/-!
# Byte-addressed registers

A register is four bytes, the least significant first. A write through a mask replaces the
bits of the mask and puts the others back; through a mask of one byte it is the update of
that byte. Writes of bytes at different addresses do not meet, so each of a list of them
stays in force at the end of the list.
-/
namespace Rtl8189.RegBytes

abbrev Regs := ℕ → BitVec 8

def read32 (m : Regs) (a : ℕ) : BitVec 32 := m (a + 3) ++ m (a + 2) ++ m (a + 1) ++ m a

def byteOf (v : BitVec 32) (k : ℕ) : BitVec 8 := v.extractLsb' (8 * k) 8

def write32 (m : Regs) (a : ℕ) (v : BitVec 32) : Regs := fun x =>
  if a ≤ x ∧ x < a + 4 then byteOf v (x - a) else m x

def calculateBitShift (mask : BitVec 32) : ℕ :=
  ((List.range 32).find? fun i => mask.getLsbD i).getD 32

def setBits (original mask data : BitVec 32) : BitVec 32 :=
  (original &&& ~~~mask) ||| ((data <<< calculateBitShift mask) &&& mask)

def bMaskDWord : BitVec 32 := 0xffffffff

def setReg (m : Regs) (a : ℕ) (mask data : BitVec 32) : Regs :=
  write32 m a (if mask = bMaskDWord then data else setBits (read32 m a) mask data)

def bMaskByte : Fin 4 → BitVec 32
  | 0 => 0xff
  | 1 => 0xff00
  | 2 => 0xff0000
  | 3 => 0xff000000

theorem setReg_outside {m : Regs} {a x : ℕ} (mask data : BitVec 32) (hx : x < a ∨ a + 4 ≤ x) :
    setReg m a mask data x = m x := by
  unfold setReg write32
  rw [if_neg (by omega)]

theorem getLsbD_read32 (m : Regs) (a i : ℕ) : (read32 m a).getLsbD i =
    if i < 8 then (m a).getLsbD i
    else if i - 8 < 8 then (m (a + 1)).getLsbD (i - 8)
    else if i - 8 - 8 < 8 then (m (a + 2)).getLsbD (i - 8 - 8)
    else (m (a + 3)).getLsbD (i - 8 - 8 - 8) := by
  change BitVec.getLsbD (w := 8 + 8 + 8 + 8)
    (m (a + 3) ++ m (a + 2) ++ m (a + 1) ++ m a) i = _
  simp only [BitVec.getLsbD_append]

theorem byteOf_read32 (m : Regs) (a : ℕ) (k : Fin 4) : byteOf (read32 m a) k = m (a + k) := by
  apply BitVec.eq_of_getLsbD_eq
  intro i hi
  unfold byteOf
  rw [BitVec.getLsbD_extractLsb', decide_eq_true hi, Bool.true_and, getLsbD_read32]
  fin_cases k
  · rw [if_pos (by simpa using hi)]
    simp
  · rw [if_neg (by simp), if_pos (by simpa using hi)]
    simp
  · rw [if_neg (by simp; omega), if_neg (by simp; omega), if_pos (by simp; omega)]
    congr 1
    simp
    omega
  · rw [if_neg (by simp; omega), if_neg (by simp; omega), if_neg (by simp; omega)]
    congr 1
    simp
    omega

theorem calculateBitShift_byte (j : Fin 4) : calculateBitShift (bMaskByte j) = 8 * j := by
  revert j
  decide

theorem getLsbD_bMaskByte (j : Fin 4) (i : Fin 32) :
    (bMaskByte j).getLsbD i = decide (8 * (j : ℕ) ≤ i ∧ (i : ℕ) < 8 * j + 8) := by
  revert i j
  decide +kernel

theorem byteOf_setBits (o d : BitVec 32) (j k : Fin 4) :
    byteOf (setBits o (bMaskByte j) d) k = if k = j then d.setWidth 8 else byteOf o k := by
  apply BitVec.eq_of_getLsbD_eq
  intro i hi
  have hk := k.isLt
  have hm := getLsbD_bMaskByte j ⟨8 * k + i, by omega⟩
  simp only at hm
  have hbit : (byteOf (setBits o (bMaskByte j) d) k).getLsbD i =
      ((o.getLsbD (8 * k + i) && !(bMaskByte j).getLsbD (8 * k + i)) ||
        (!decide (8 * (k : ℕ) + i < 8 * j) && d.getLsbD (8 * k + i - 8 * j) &&
          (bMaskByte j).getLsbD (8 * k + i))) := by
    have h32 : 8 * (k : ℕ) + i < 32 := by omega
    simp only [byteOf, setBits, BitVec.getLsbD_extractLsb', BitVec.getLsbD_or,
      BitVec.getLsbD_and, BitVec.getLsbD_not, BitVec.getLsbD_shiftLeft, calculateBitShift_byte,
      decide_eq_true hi, decide_eq_true h32, Bool.true_and]
  rw [hbit, hm]
  split_ifs with hkj
  · subst hkj
    simp [hi]
  · have : ¬ (8 * (j : ℕ) ≤ 8 * k + i ∧ 8 * (k : ℕ) + i < 8 * j + 8) := by
      intro h
      exact hkj (Fin.ext (by omega))
    simp [this, byteOf, hi]

theorem setReg_byte (m : Regs) (a : ℕ) (j : Fin 4) (d : BitVec 32) :
    setReg m a (bMaskByte j) d = Function.update m (a + j) (d.setWidth 8) := by
  have hne : bMaskByte j ≠ bMaskDWord := by
    revert j
    decide
  funext x
  by_cases hx : a ≤ x ∧ x < a + 4
  · obtain ⟨k, rfl⟩ : ∃ k : Fin 4, x = a + k := ⟨⟨x - a, by omega⟩, by simp; omega⟩
    have hval : setReg m a (bMaskByte j) d (a + k) =
        byteOf (setBits (read32 m a) (bMaskByte j) d) k := by
      unfold setReg write32
      rw [if_pos hx, if_neg hne, Nat.add_sub_cancel_left]
    rw [hval, byteOf_setBits, byteOf_read32]
    by_cases hkj : k = j
    · subst hkj
      rw [if_pos rfl, Function.update_self]
    · have hne' : a + (k : ℕ) ≠ a + j := fun h => hkj (Fin.ext (by omega))
      rw [if_neg hkj, Function.update_of_ne hne']
  · have hj := j.isLt
    rw [setReg_outside _ _ (by omega), Function.update_of_ne (by omega)]

section Updates

variable {ι : Type*} (addr : ι → ℕ) (value : ι → BitVec 8)

def updates (l : List ι) (m : Regs) : Regs :=
  l.foldl (fun m i => Function.update m (addr i) (value i)) m

variable {addr value}

theorem updates_of_not_mem {l : List ι} {x : ℕ} (m : Regs) (hx : x ∉ l.map addr) :
    updates addr value l m x = m x := by
  induction l generalizing m with
  | nil => rfl
  | cons i l ih =>
    rw [List.map_cons, List.mem_cons, not_or] at hx
    change updates addr value l (Function.update m (addr i) (value i)) x = m x
    rw [ih _ hx.2, Function.update_of_ne hx.1]

theorem updates_of_mem {l : List ι} (hl : (l.map addr).Nodup) (m : Regs) {i : ι} (hi : i ∈ l) :
    updates addr value l m (addr i) = value i := by
  induction l generalizing m with
  | nil => exact absurd hi List.not_mem_nil
  | cons k l ih =>
    rw [List.map_cons, List.nodup_cons] at hl
    change updates addr value l (Function.update m (addr k) (value k)) (addr i) = value i
    obtain rfl | hi := List.mem_cons.1 hi
    · rw [updates_of_not_mem _ hl.1, Function.update_self]
    · exact ih hl.2 _ hi

theorem updates_congr {l : List ι} {m m' : Regs} {x : ℕ} (h : m x = m' x) :
    updates addr value l m x = updates addr value l m' x := by
  induction l generalizing m m' with
  | nil => exact h
  | cons i l ih =>
    have hi : Function.update m (addr i) (value i) x = Function.update m' (addr i) (value i) x := by
      by_cases hx : x = addr i
      · rw [hx, Function.update_self, Function.update_self]
      · rw [Function.update_of_ne hx, Function.update_of_ne hx, h]
    exact ih hi

theorem updates_append (l l' : List ι) (m : Regs) :
    updates addr value (l ++ l') m = updates addr value l' (updates addr value l m) :=
  List.foldl_append

end Updates

end Rtl8189.RegBytes
