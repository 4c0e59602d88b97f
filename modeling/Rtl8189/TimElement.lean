import Mathlib.Data.Nat.Bitwise
import Mathlib.Data.Set.Basic
import Rtl8189.RecvFrame

/-!
# The TIM element

`rtw_set_tim_ie` writes the octets of the bitmap from the first to the last that is not zero,
from an even one on. Read by the rule of the standard they are the bitmap again.
-/
namespace Rtl8189.TimElement

def rtwBmpIsSet (bmp : List UInt8) (id : ℕ) : Bool :=
  id / 8 < bmp.length ∧ (byteAt bmp (id / 8)).testBit (id % 8)

def rtwBmpNotEmpty (bmp : List UInt8) : Bool := bmp.any (· ≠ 0)

/-- The search for the last octet that is not zero, except octet 0. -/
def lastNonzero (bmp : List UInt8) : ℕ → ℕ
  | 0 => 0
  | i + 1 => if byteAt bmp (i + 1) ≠ 0 then i + 1 else lastNonzero bmp i

def u8 (n : ℕ) : ℕ := n % 256

def timRange (timBmp : List UInt8) : ℕ × ℕ :=
  if rtwBmpNotEmpty timBmp then
    let n1 := timBmp.findIdx (· ≠ 0) &&& 0xFE
    (n1, u8 (lastNonzero timBmp (timBmp.length - 1) + 256 - n1 + 1))
  else (0, 1)

/-- The element of `rtw_set_tim_ie`, and the length that it returns. -/
def rtwSetTimIe (dtimCnt dtimPeriod : UInt8) (timBmp : List UInt8) : List UInt8 × ℕ :=
  let n1 := (timRange timBmp).1
  let bmpLen := (timRange timBmp).2
  (5 :: UInt8.ofNat (2 + 1 + bmpLen) :: dtimCnt :: dtimPeriod ::
      UInt8.ofNat ((if rtwBmpIsSet timBmp 0 then 1 else 0) ||| n1) ::
      (timBmp.drop n1).take bmpLen,
    u8 (2 + 2 + 1 + bmpLen))

def aids (bmp : List UInt8) : Set ℕ := {aid | (byteAt bmp (aid / 8)).testBit (aid % 8) = true}

def firstOctet (ie : List UInt8) : ℕ := 2 * (byteAt ie 4 / 2)

/-- The AIDs that a TIM element announces: AID 0 by the bitmap control, the others by the partial
virtual bitmap, in which the octets not sent are zero. -/
def announced (ie : List UInt8) : Set ℕ :=
  {aid | if aid = 0 then (byteAt ie 4).testBit 0 = true
    else firstOctet ie ≤ aid / 8 ∧ aid / 8 < firstOctet ie + (byteAt ie 1 - 3) ∧
      (byteAt ie (5 + (aid / 8 - firstOctet ie))).testBit (aid % 8) = true}

structure TimBmp where
  octets : List UInt8
  pos : 1 ≤ octets.length
  le : octets.length ≤ 251

/-! ## The octets that are written -/

theorem and_even {n : ℕ} (h : n < 256) : n &&& 0xFE = 2 * (n / 2) := by
  have hall : ∀ m < 256, m &&& 0xFE = 2 * (m / 2) := by decide +kernel
  exact hall n h

theorem one_or {n : ℕ} (h : n < 128) : 1 ||| 2 * n = 2 * n + 1 := by
  have hall : ∀ m < 128, 1 ||| 2 * m = 2 * m + 1 := by decide +kernel
  exact hall n h

theorem byteAt_of_le {bmp : List UInt8} {i : ℕ} (h : bmp.length ≤ i) : byteAt bmp i = 0 := by
  rw [byteAt, List.getD_eq_default _ _ h]
  rfl

theorem byteAt_eq_zero_iff (bmp : List UInt8) (i : ℕ) : byteAt bmp i = 0 ↔ bmp.getD i 0 = 0 :=
  UInt8.toNat_inj (b := 0)

theorem lastNonzero_le (bmp : List UInt8) (i : ℕ) : lastNonzero bmp i ≤ i := by
  induction i with
  | zero => exact Nat.le_refl 0
  | succ i ih =>
    rw [lastNonzero]
    split_ifs
    · exact Nat.le_refl _
    · exact ih.trans (Nat.le_succ i)

theorem lastNonzero_after {bmp : List UInt8} {i j : ℕ} (hlast : lastNonzero bmp i < j)
    (hj : j ≤ i) : byteAt bmp j = 0 := by
  induction i with
  | zero => omega
  | succ i ih =>
    rw [lastNonzero] at hlast
    split_ifs at hlast with hzero
    · omega
    · rcases Nat.lt_or_eq_of_le hj with hlt | rfl
      · exact ih hlast (Nat.le_of_lt_succ hlt)
      · exact not_not.mp hzero

/-- Outside the range every octet is zero, and it starts as late as an even octet can. -/
structure Ranges (bmp : List UInt8) (n1 len : ℕ) : Prop where
  even : 2 * (n1 / 2) = n1
  pos : 0 < len
  inside : n1 + len ≤ bmp.length
  before : ∀ i < n1, byteAt bmp i = 0
  behind : ∀ i, n1 + len ≤ i → byteAt bmp i = 0
  tight : rtwBmpNotEmpty bmp = true → byteAt bmp n1 ≠ 0 ∨ byteAt bmp (n1 + 1) ≠ 0

theorem timRange_ranges (b : TimBmp) :
    Ranges b.octets (timRange b.octets).1 (timRange b.octets).2 := by
  obtain ⟨bmp, hpos, hle⟩ := b
  rw [timRange]
  by_cases hne : rtwBmpNotEmpty bmp = true
  · rw [if_pos hne]
    have hex : ∃ x ∈ bmp, decide (x ≠ 0) = true := List.any_eq_true.mp hne
    have hf : bmp.findIdx (· ≠ 0) < bmp.length := List.findIdx_lt_length_of_exists hex
    generalize hfirst : bmp.findIdx (· ≠ 0) = f at hf
    have hbefore : ∀ i < f, byteAt bmp i = 0 := by
      intro i hi
      rw [byteAt_eq_zero_iff, List.getD_eq_getElem _ _ (by omega)]
      have hnot := List.not_of_lt_findIdx (hfirst ▸ hi)
      simpa using hnot
    have hat : byteAt bmp f ≠ 0 := by
      rw [Ne, byteAt_eq_zero_iff, List.getD_eq_getElem _ _ hf]
      have hyes : decide (bmp[f] ≠ 0) = true := by
        subst hfirst
        exact @List.findIdx_getElem _ (fun x => decide (x ≠ 0)) bmp hf
      exact of_decide_eq_true hyes
    have hlast_le := lastNonzero_le bmp (bmp.length - 1)
    have hafter : ∀ j, lastNonzero bmp (bmp.length - 1) < j → byteAt bmp j = 0 := by
      intro j hj
      by_cases hin : j ≤ bmp.length - 1
      · exact lastNonzero_after hj hin
      · exact byteAt_of_le (by omega)
    generalize lastNonzero bmp (bmp.length - 1) = n2 at hlast_le hafter
    have hfn2 : f ≤ n2 := by
      by_contra hlt
      exact hat (hafter f (Nat.lt_of_not_le hlt))
    dsimp only
    rw [and_even (by omega)]
    have hlen : u8 (n2 + 256 - 2 * (f / 2) + 1) = n2 - 2 * (f / 2) + 1 := by
      rw [u8]
      omega
    rw [hlen]
    refine ⟨by omega, by omega, by omega, fun i hi => hbefore i (by omega), fun i hi => ?_, ?_⟩
    · exact hafter i (by omega)
    · intro _
      rcases Nat.mod_two_eq_zero_or_one f with heven | hodd
      · have heq : 2 * (f / 2) = f := by omega
        exact .inl (heq.symm ▸ hat)
      · have heq : 2 * (f / 2) + 1 = f := by omega
        exact .inr (heq.symm ▸ hat)
  · rw [if_neg hne]
    have hall : ∀ i, byteAt bmp i = 0 := by
      intro i
      by_cases hi : i < bmp.length
      · rw [byteAt_eq_zero_iff, List.getD_eq_getElem _ _ hi]
        by_contra hx
        exact hne (List.any_eq_true.mpr ⟨bmp[i], List.getElem_mem hi, decide_eq_true hx⟩)
      · exact byteAt_of_le (Nat.le_of_not_lt hi)
    exact ⟨rfl, Nat.one_pos, by omega, fun i _ => hall i, fun i _ => hall i, fun h => absurd h hne⟩

/-! ## Reading it back -/

theorem byteAt_take_drop {bmp : List UInt8} {n1 len k : ℕ} (hk : k < len) :
    byteAt ((bmp.drop n1).take len) k = byteAt bmp (n1 + k) := by
  rw [byteAt, byteAt, List.getD_eq_getElem?_getD, List.getD_eq_getElem?_getD,
    List.getElem?_take_of_lt hk, List.getElem?_drop]

theorem isSet_zero (b : TimBmp) :
    rtwBmpIsSet b.octets 0 = (byteAt b.octets 0).testBit 0 := by
  have hpos := b.pos
  simp [rtwBmpIsSet, Nat.lt_of_lt_of_le Nat.zero_lt_one hpos]

variable (dtimCnt dtimPeriod : UInt8) (b : TimBmp)

structure Fields (ie : List UInt8) (n1 len : ℕ) : Prop where
  id : byteAt ie 0 = 5
  length : byteAt ie 1 = 3 + len
  total : ie.length = 2 + byteAt ie 1
  group : (byteAt ie 4).testBit 0 = rtwBmpIsSet b.octets 0
  first : firstOctet ie = n1
  octets : ∀ k < len, byteAt ie (5 + k) = byteAt b.octets (n1 + k)

theorem rtwSetTimIe_fields : Fields b (rtwSetTimIe dtimCnt dtimPeriod b.octets).1
    (timRange b.octets).1 (timRange b.octets).2 := by
  have hle := b.le
  obtain ⟨heven, hlen, hin, -, -, -⟩ := timRange_ranges b
  rw [rtwSetTimIe]
  generalize (timRange b.octets).1 = n1 at heven hin
  generalize (timRange b.octets).2 = len at hlen hin
  have hlength : (UInt8.ofNat (2 + 1 + len)).toNat = 3 + len := by
    rw [UInt8.toNat_ofNat', Nat.mod_eq_of_lt (by omega)]
  have hctrl : (UInt8.ofNat ((if rtwBmpIsSet b.octets 0 then 1 else 0) ||| n1)).toNat =
      n1 + (rtwBmpIsSet b.octets 0).toNat := by
    rw [UInt8.toNat_ofNat', ← heven]
    cases rtwBmpIsSet b.octets 0 with
    | false =>
      rw [if_neg Bool.false_ne_true, Nat.zero_or]
      exact Nat.mod_eq_of_lt (by omega)
    | true =>
      rw [if_pos rfl, one_or (by omega)]
      exact Nat.mod_eq_of_lt (by omega)
  dsimp only
  generalize UInt8.ofNat (2 + 1 + len) = lenByte at hlength
  generalize UInt8.ofNat ((if rtwBmpIsSet b.octets 0 then 1 else 0) ||| n1) = ctrl at hctrl
  refine ⟨rfl, hlength, ?_, ?_, ?_, ?_⟩
  · change _ = 2 + lenByte.toNat
    rw [hlength]
    simp only [List.length_cons, List.length_take, List.length_drop]
    omega
  · change ctrl.toNat.testBit 0 = _
    rw [hctrl, Nat.testBit_zero]
    cases rtwBmpIsSet b.octets 0 <;> simp <;> omega
  · change 2 * (ctrl.toNat / 2) = n1
    rw [hctrl]
    cases rtwBmpIsSet b.octets 0 <;> simp <;> omega
  · intro k hk
    refine Eq.trans ?_ (byteAt_take_drop hk)
    exact byteAt_append_right [5, lenByte, dtimCnt, dtimPeriod, ctrl] _ k

theorem announced_tim : announced (rtwSetTimIe dtimCnt dtimPeriod b.octets).1 = aids b.octets := by
  obtain ⟨-, -, -, hbefore, hbehind, -⟩ := timRange_ranges b
  obtain ⟨-, hlength, -, hgroup, hfirst, hoctets⟩ := rtwSetTimIe_fields dtimCnt dtimPeriod b
  ext aid
  change (if aid = 0 then _ else _) ↔ (byteAt b.octets (aid / 8)).testBit (aid % 8) = true
  rw [hfirst, hlength, Nat.add_sub_cancel_left]
  by_cases haid : aid = 0
  · subst haid
    rw [if_pos rfl, hgroup, isSet_zero]
  · rw [if_neg haid]
    constructor
    · rintro ⟨hge, hlt, hbit⟩
      rw [hoctets _ (by omega), Nat.add_sub_cancel' hge] at hbit
      exact hbit
    · intro hbit
      have hge : (timRange b.octets).1 ≤ aid / 8 := by
        by_contra hlt
        rw [hbefore _ (Nat.lt_of_not_le hlt), Nat.zero_testBit] at hbit
        exact Bool.false_ne_true hbit
      have hlt : aid / 8 < (timRange b.octets).1 + (timRange b.octets).2 := by
        by_contra hge'
        rw [hbehind _ (Nat.le_of_not_lt hge'), Nat.zero_testBit] at hbit
        exact Bool.false_ne_true hbit
      refine ⟨hge, hlt, ?_⟩
      rw [hoctets _ (by omega), Nat.add_sub_cancel' hge]
      exact hbit

/-- The element is the bitmap: its AIDs, an even offset up to which there is nothing, and the
length of what is written. -/
theorem tim_encodes (dtimCnt dtimPeriod : UInt8) (b : TimBmp) :
    let ie := (rtwSetTimIe dtimCnt dtimPeriod b.octets).1
    announced ie = aids b.octets ∧ byteAt ie 2 = dtimCnt.toNat ∧ byteAt ie 3 = dtimPeriod.toNat ∧
      firstOctet ie % 2 = 0 ∧ (∀ i < firstOctet ie, byteAt b.octets i = 0) ∧
      (rtwBmpNotEmpty b.octets = true →
        byteAt b.octets (firstOctet ie) ≠ 0 ∨ byteAt b.octets (firstOctet ie + 1) ≠ 0) ∧
      ie.length = 2 + byteAt ie 1 ∧
      (rtwSetTimIe dtimCnt dtimPeriod b.octets).2 = u8 ie.length := by
  intro ie
  obtain ⟨heven, -, -, hbefore, -, htight⟩ := timRange_ranges b
  obtain ⟨-, hlength, htotal, -, hfirst, -⟩ := rtwSetTimIe_fields dtimCnt dtimPeriod b
  refine ⟨announced_tim dtimCnt dtimPeriod b, rfl, rfl, ?_, ?_, ?_, htotal, ?_⟩
  · rw [hfirst]
    omega
  · rw [hfirst]
    exact hbefore
  · rw [hfirst]
    exact htight
  · rw [htotal, hlength, ← Nat.add_assoc]
    rfl

end Rtl8189.TimElement
