import Rtl8189.EfuseWrite
import Rtl8189.EventRun

/-!
# Programming the efuse map

A write of the map is a write of the sections that change. It is refused when the recorded
size and the bytes it needs do not fit; the packets then go out section by section.
-/
namespace Rtl8189.EfuseMap

open Tape EfusePacket EfuseRead EfuseWrite EventRun

/-! ## Masks -/

def arrayMP8188EMSDIO (r : ℕ) : UInt8 :=
  [0xFF, 0xF3, 0, 0, 0, 0, 0, 0, 0, 0, 0, 0x0F, 0xF3, 0xFF, 0xFF, 0xFF, 0xFF, 0xFF].getD r 0

/-- A row of the mask stands for eight words. A cleared bit masks the word. -/
def addressMasked (maskbuf : ℕ → UInt8) (offset : ℕ) : Bool :=
  let r := offset / 16
  let c := offset % 16 / 2
  if c < 4 then maskbuf r &&& (0x10 <<< UInt8.ofNat c) == 0
  else maskbuf r &&& (0x01 <<< UInt8.ofNat (c - 4)) == 0

def rtwFileEfuseIsMasked (ad : Adapter) (offset : ℕ) : Bool :=
  if ad.boffefusemask then false else addressMasked ad.maskfileBuffer offset

def efuseIsMasked (ad : Adapter) (offset : ℕ) : Bool :=
  if ad.boffefusemask then false else addressMasked arrayMP8188EMSDIO offset

def isMasked (ad : Adapter) (offset : ℕ) : Bool :=
  if ad.bFileMaskEfuse then rtwFileEfuseIsMasked ad offset else efuseIsMasked ad offset

/-! ## The write -/

structure MapWrite where
  ad : Adapter
  addr : ℕ
  cnts : ℕ
  data : ℕ → UInt8

def efuseImage (c : MapWrite) (map : ℕ → UInt8) : ℕ → UInt8 :=
  let efuse := fun a => if c.addr ≤ a ∧ a < c.addr + c.cnts then c.data (a - c.addr) else map a
  if c.ad.boffefusemask then efuse
  else
    (List.range c.cnts).foldl (fun efuse i =>
      if isMasked c.ad (c.addr + i) then Function.update efuse (c.addr + i) (map (c.addr + i))
      else efuse) efuse

def sectionData (map : ℕ → UInt8) (s : ℕ) : ℕ → UInt8 := fun k =>
  if k < 8 then map (8 * s + k) else 0xFF

section Loops

variable (addr cnts : ℕ) (efuse map : ℕ → UInt8)

/-- The bytes from `addr + idx` on that belong to the section, the first of them being its
byte `i`: where the map shall change, the word is enabled and the byte is replaced. -/
def sectionLoop (i idx : ℕ) (wordEn : UInt8) (newdata : ℕ → UInt8) : ℕ × UInt8 × (ℕ → UInt8) :=
  if i < 8 ∧ idx < cnts then
    if efuse (addr + idx) ≠ map (addr + idx) then
      sectionLoop (i + 1) (idx + 1) (enable wordEn (i / 2))
        (Function.update newdata i (efuse (addr + idx)))
    else sectionLoop (i + 1) (idx + 1) wordEn newdata
  else (idx, wordEn, newdata)
termination_by 8 - i

theorem le_sectionLoop (i idx : ℕ) (wordEn : UInt8) (newdata : ℕ → UInt8) :
    idx ≤ (sectionLoop addr cnts efuse map i idx wordEn newdata).1 := by
  fun_induction sectionLoop addr cnts efuse map i idx wordEn newdata with
  | case1 _ _ _ _ _ _ ih => exact Nat.le_trans (Nat.le_succ _) ih
  | case2 _ _ _ _ _ _ ih => exact Nat.le_trans (Nat.le_succ _) ih
  | case3 => exact Nat.le_refl _

theorem lt_sectionLoop {i idx : ℕ} (hi : i < 8) (hidx : idx < cnts) (wordEn : UInt8)
    (newdata : ℕ → UInt8) :
    idx < (sectionLoop addr cnts efuse map i idx wordEn newdata).1 := by
  unfold sectionLoop
  rw [if_pos ⟨hi, hidx⟩]
  split_ifs <;> exact le_sectionLoop _ _ _ _ _ _ _ _

def sectionScan (idx : ℕ) (offset : UInt8) : ℕ × UInt8 × (ℕ → UInt8) :=
  sectionLoop addr cnts efuse map ((addr + idx) % 8) idx 0xF (sectionData map offset.toNat)

theorem lt_sectionScan {idx : ℕ} (hidx : idx < cnts) (offset : UInt8) :
    idx < (sectionScan addr cnts efuse map idx offset).1 :=
  lt_sectionLoop _ _ _ _ (Nat.mod_lt _ (by decide)) hidx _ _

def packetBytes (offset wordEn : UInt8) : ℕ :=
  efuseCalculateWordCnts wordEn * 2 + if efuseMaxSectionBase ≤ offset.toNat then 2 else 1

def chkTotalByte (idx : ℕ) (offset : UInt8) : ℕ :=
  if h : idx < cnts then
    let r := sectionScan addr cnts efuse map idx offset
    have := lt_sectionScan addr cnts efuse map h offset
    (if r.2.1 ≠ 0xF then packetBytes offset r.2.1 else 0) + chkTotalByte r.1 (offset + 1)
  else 0
termination_by cnts - idx

def programLoop (idx : ℕ) (offset : UInt8) (e : Efuse) : Bool × Efuse :=
  if h : idx < cnts then
    let r := sectionScan addr cnts efuse map idx offset
    have := lt_sectionScan addr cnts efuse map h offset
    if r.2.1 ≠ 0xF then
      match efusePgPacketWrite efuseRealContentLen88E e offset r.2.1 r.2.2 with
      | (false, e) => (false, e)
      | (true, e) => programLoop r.1 (offset + 1) e
    else programLoop r.1 (offset + 1) e
  else (true, e)
termination_by cnts - idx

end Loops

def startAddress (e : Efuse) : ℕ × Efuse :=
  if e.efuseUsedBytes = 0 then efuseGetCurrentSize e else (e.efuseUsedBytes, e)

def rtwEfuseMapWrite (e : Efuse) (c : MapWrite) : Bool × Efuse :=
  if efuseMapLen88E < c.addr + c.cnts then (false, e)
  else
    match rtwEfuseMapRead c.ad e 0 efuseMapLen88E fun _ => 0xFF with
    | (false, _, e) => (false, e)
    | (true, map, e) =>
      let efuse := efuseImage c map
      let offset := UInt8.ofNat (c.addr / 8)
      let (startAddr, e) := startAddress e
      if availableEfuseBytes ≤ startAddr + chkTotalByte c.addr c.cnts efuse map 0 offset then
        (false, e)
      else programLoop c.addr c.cnts efuse map 0 offset e

def blank : Efuse := ⟨fun _ => 0xFF, 0⟩

/-- `rtw_efuse_map_read` of the whole map. As in the write itself, the buffer is `0xFF`
before. -/
def wholeMap (ad : Adapter) (e : Efuse) : ℕ → UInt8 :=
  (rtwEfuseMapRead ad e 0 efuseMapLen88E fun _ => 0xFF).2.1

/-! ## What changes -/

section Changes

variable (map efuse : ℕ → UInt8)

def maskStep (s : ℕ) (wordEn : UInt8) (k : ℕ) : UInt8 :=
  if efuse (8 * s + k) ≠ map (8 * s + k) then enable wordEn (k / 2) else wordEn

def sectionMask (s : ℕ) : UInt8 := (List.range 8).foldl (maskStep map efuse s) 0xF

variable {map efuse}

theorem maskStep_foldl_of_eq {s : ℕ} {ks : List ℕ}
    (h : ∀ k ∈ ks, efuse (8 * s + k) = map (8 * s + k)) (wordEn : UInt8) :
    ks.foldl (maskStep map efuse s) wordEn = wordEn := by
  induction ks with
  | nil => rfl
  | cons k ks ih =>
    rw [List.foldl_cons, maskStep, if_neg (not_not_intro (h k List.mem_cons_self))]
    exact ih fun k' hk' => h k' (List.mem_cons_of_mem k hk')

theorem maskStep_foldl {s : ℕ} {ks : List ℕ} (hks : ∀ k ∈ ks, k < 8) {wordEn : UInt8}
    (hw : wordEn < 16) :
    ks.foldl (maskStep map efuse s) wordEn < 16 ∧
      ∀ i < 4, enabled (ks.foldl (maskStep map efuse s) wordEn) i = true ↔
        enabled wordEn i = true ∨ ∃ k ∈ ks, k / 2 = i ∧ efuse (8 * s + k) ≠ map (8 * s + k) := by
  induction ks generalizing wordEn with
  | nil => simpa using hw
  | cons k ks ih =>
    have hk : k / 2 < 4 := by
      have := hks k List.mem_cons_self
      omega
    have hrest : ∀ k' ∈ ks, k' < 8 := fun k' hk' => hks k' (List.mem_cons_of_mem k hk')
    rw [List.foldl_cons, maskStep]
    split_ifs with hne
    · obtain ⟨hlt, hen⟩ := ih hrest (enable_lt hw hk)
      refine ⟨hlt, ?_⟩
      intro i hi
      have hcomm : (i == k / 2) = true ↔ k / 2 = i := by rw [beq_iff_eq, eq_comm]
      rw [hen i hi, enabled_enable hw hk hi]
      simp only [Bool.or_eq_true, hcomm, List.exists_mem_cons_iff, hne, ne_eq,
        not_false_eq_true, and_true, or_assoc]
    · obtain ⟨hlt, hen⟩ := ih hrest hw
      refine ⟨hlt, ?_⟩
      intro i hi
      rw [hen i hi]
      simp [hne]

theorem sectionMask_lt (s : ℕ) : sectionMask map efuse s < 16 :=
  (maskStep_foldl (fun _ => List.mem_range.mp) (by decide)).1

theorem enabled_sectionMask {s i : ℕ} (hi : i < 4) :
    enabled (sectionMask map efuse s) i = true ↔
      ∃ k < 8, k / 2 = i ∧ efuse (8 * s + k) ≠ map (8 * s + k) := by
  have hnone : ∀ i < 4, enabled 0xF i = false := by decide
  have hstart : (0xF : UInt8) < 16 := by decide
  rw [sectionMask, (maskStep_foldl (fun _ => List.mem_range.mp) hstart).2 i hi, hnone i hi]
  simp

theorem sectionMask_wordEn_lt {s : ℕ} (h : sectionMask map efuse s ≠ 0xF) :
    sectionMask map efuse s < 15 := by
  have hlt : sectionMask map efuse s < 16 := sectionMask_lt s
  rw [UInt8.lt_iff_toNat_lt] at hlt ⊢
  rw [ne_eq, ← UInt8.toNat_inj] at h
  have h16 : (16 : UInt8).toNat = 16 := rfl
  have h15 : (15 : UInt8).toNat = 15 := rfl
  omega

theorem sectionMask_eq_iff {s : ℕ} :
    sectionMask map efuse s = 0xF ↔ ∀ k < 8, efuse (8 * s + k) = map (8 * s + k) := by
  constructor
  · intro h k hk
    by_contra hne
    have hen : enabled (sectionMask map efuse s) (k / 2) = true :=
      (enabled_sectionMask (by omega)).mpr ⟨k, hk, rfl, hne⟩
    rw [h] at hen
    have hnone : ∀ i < 4, enabled 0xF i = false := by decide
    rw [hnone (k / 2) (by omega)] at hen
    exact absurd hen (by decide)
  · intro h
    exact maskStep_foldl_of_eq (fun k hk => h k (List.mem_range.mp hk)) _

variable (map efuse)

def changes (s : ℕ) : Option Packet :=
  if h : s < efuseMaxSection88E ∧ sectionMask map efuse s ≠ 0xF then
    some {
      offset := UInt8.ofNat s
      wordEn := sectionMask map efuse s
      data := sectionData efuse s
      offset_lt := by
        rw [UInt8.toNat_ofNat_of_lt' (Nat.lt_trans h.1 (by decide))]
        exact h.1
      wordEn_lt := sectionMask_wordEn_lt h.2 }
  else none

def packetsFrom (s : ℕ) : List Packet :=
  (List.range' s (efuseMaxSection88E - s)).filterMap (changes map efuse)

def packets : List Packet := packetsFrom map efuse 0

theorem packetsFrom_succ {s : ℕ} (hs : s < efuseMaxSection88E) :
    packetsFrom map efuse s = (changes map efuse s).toList ++ packetsFrom map efuse (s + 1) := by
  rw [packetsFrom, show efuseMaxSection88E - s = efuseMaxSection88E - (s + 1) + 1 by omega,
    List.range'_succ, List.filterMap_cons]
  cases changes map efuse s <;> rfl

variable {map efuse}

theorem changes_eq_none {s : ℕ} (h : ∀ k < 8, efuse (8 * s + k) = map (8 * s + k)) :
    changes map efuse s = none :=
  dif_neg fun hs => hs.2 (sectionMask_eq_iff.mpr h)

theorem packetsFrom_eq_nil {s : ℕ} (h : ∀ a, 8 * s ≤ a → efuse a = map a) :
    packetsFrom map efuse s = [] := by
  rw [packetsFrom, List.filterMap_eq_nil_iff]
  intro t ht
  rw [List.mem_range'_1] at ht
  exact changes_eq_none fun k _ => h _ (by omega)

end Changes

/-! ## The loops over the sections -/

section Scan

variable {addr cnts : ℕ} {efuse map : ℕ → UInt8}

theorem sectionLoop_spec {s i idx : ℕ} (wordEn : UInt8) (newdata : ℕ → UInt8)
    (hs : 8 * s + i = addr + idx) (hi : i ≤ 8) (hidx : idx ≤ cnts)
    (hout : ∀ a, addr + cnts ≤ a → efuse a = map a) :
    sectionLoop addr cnts efuse map i idx wordEn newdata =
      (min cnts (idx + (8 - i)), (List.range' i (8 - i)).foldl (maskStep map efuse s) wordEn,
        fun k => if i ≤ k ∧ k < 8 ∧ efuse (8 * s + k) ≠ map (8 * s + k) then efuse (8 * s + k)
          else newdata k) := by
  fun_induction sectionLoop addr cnts efuse map i idx wordEn newdata with
  | case1 i idx wordEn newdata hlt hne ih =>
    rw [← hs] at hne
    rw [ih (by omega) (by omega) (by omega), show 8 - i = 8 - (i + 1) + 1 by omega,
      List.range'_succ, List.foldl_cons, maskStep, if_pos hne, ← hs]
    refine Prod.ext (by omega) (Prod.ext rfl ?_)
    funext k
    by_cases hk : k = i
    · subst hk
      simp [hne, hlt.1]
    · have hle : i + 1 ≤ k ↔ i ≤ k := by omega
      simp [Function.update_of_ne hk, hle]
  | case2 i idx wordEn newdata hlt heq ih =>
    rw [← hs] at heq
    rw [ih (by omega) (by omega) (by omega), show 8 - i = 8 - (i + 1) + 1 by omega,
      List.range'_succ, List.foldl_cons, maskStep, if_neg heq]
    refine Prod.ext (by omega) (Prod.ext rfl ?_)
    funext k
    by_cases hk : k = i
    · subst hk
      simp [not_not.mp heq]
    · have hle : i + 1 ≤ k ↔ i ≤ k := by omega
      simp [hle]
  | case3 i idx wordEn newdata hend =>
    have hsame : ∀ k, i ≤ k → k < 8 → efuse (8 * s + k) = map (8 * s + k) := by
      intro k hk hk8
      exact hout _ (by omega)
    rw [maskStep_foldl_of_eq]
    · refine Prod.ext (by omega) (Prod.ext rfl ?_)
      funext k
      exact (if_neg fun hk => hk.2.2 (hsame k hk.1 hk.2.1)).symm
    · intro k hk
      rw [List.mem_range'_1] at hk
      exact hsame k hk.1 (by omega)

structure AtSection (addr cnts : ℕ) (efuse map : ℕ → UInt8) (idx s : ℕ) : Prop where
  idx_le : idx ≤ cnts
  first : idx < cnts → s = (addr + idx) / 8 ∧ (idx = 0 ∨ (addr + idx) % 8 = 0)
  last : idx = cnts → ∀ a, 8 * s ≤ a → efuse a = map a

variable (hmap : addr + cnts ≤ efuseMapLen88E)
  (hout : ∀ a, (¬ addr ≤ a ∨ ¬ a < addr + cnts) → efuse a = map a)

include hout in
theorem sectionScan_spec {idx s : ℕ} {offset : UInt8} (hat : AtSection addr cnts efuse map idx s)
    (hidx : idx < cnts) (hoffset : offset.toNat = s) :
    (sectionScan addr cnts efuse map idx offset).2 = (sectionMask map efuse s, sectionData efuse s) ∧
      AtSection addr cnts efuse map (sectionScan addr cnts efuse map idx offset).1 (s + 1) := by
  obtain ⟨hs, hfirst⟩ := hat.first hidx
  set i := (addr + idx) % 8 with hi
  have hbefore : ∀ k < i, efuse (8 * s + k) = map (8 * s + k) := by
    intro k hk
    exact hout _ (by omega)
  rw [sectionScan, hoffset, sectionLoop_spec (s := s) _ _ (by omega) (by omega) hidx.le
    (fun a ha => hout a (by omega))]
  refine ⟨Prod.ext ?_ ?_, ?_⟩
  · have hsplit : List.range 8 = List.range' 0 i ++ List.range' i (8 - i) := by
      have happend : List.range' 0 i ++ List.range' (0 + i) (8 - i) = List.range' 0 (i + (8 - i)) :=
        List.range'_append_1
      rw [List.range_eq_range', ← Nat.add_sub_cancel' (show i ≤ 8 by omega), ← happend,
        Nat.zero_add, Nat.add_sub_cancel' (show i ≤ 8 by omega)]
    have hsame : ∀ k ∈ List.range' 0 i, efuse (8 * s + k) = map (8 * s + k) := by
      intro k hk
      rw [List.mem_range'_1] at hk
      exact hbefore k (by omega)
    rw [sectionMask, hsplit, List.foldl_append, maskStep_foldl_of_eq hsame]
  · funext k
    simp only [sectionData]
    by_cases hk : k < 8
    · by_cases hne : i ≤ k ∧ k < 8 ∧ efuse (8 * s + k) ≠ map (8 * s + k)
      · rw [if_pos hne, if_pos hk]
      · rw [if_neg hne, if_pos hk, if_pos hk]
        by_cases hik : i ≤ k
        · exact (not_not.mp fun h => hne ⟨hik, hk, h⟩).symm
        · exact (hbefore k (Nat.lt_of_not_le hik)).symm
    · rw [if_neg fun h => hk h.2.1]
      simp only [if_neg hk]
  · refine ⟨Nat.min_le_left _ _, ?_, ?_⟩
    · intro hlt
      dsimp only at hlt ⊢
      omega
    · intro hend a ha
      dsimp only at hend
      exact hout a (by omega)

theorem changes_eq_some {s : ℕ} {offset : UInt8} (hoffset : offset.toNat = s)
    (hs : s < efuseMaxSection88E) (hne : sectionMask map efuse s ≠ 0xF) :
    ∃ p, changes map efuse s = some p ∧ p.offset = offset ∧ p.wordEn = sectionMask map efuse s ∧
      p.data = sectionData efuse s := by
  subst hoffset
  exact ⟨_, dif_pos ⟨hs, hne⟩, UInt8.ofNat_toNat, rfl, rfl⟩

theorem AtSection.lt {idx s : ℕ} (hat : AtSection addr cnts efuse map idx s) (hidx : idx < cnts)
    (hmap : addr + cnts ≤ efuseMapLen88E) : s < efuseMaxSection88E := by
  have hs := (hat.first hidx).1
  simp only [efuseMapLen88E, efuseMaxSection88E] at *
  omega

theorem toNat_succ {offset : UInt8} {s : ℕ} (hoffset : offset.toNat = s)
    (hs : s < efuseMaxSection88E) : (offset + 1).toNat = s + 1 := by
  simp only [efuseMaxSection88E] at hs
  rw [UInt8.toNat_add, hoffset, UInt8.toNat_one]
  omega

include hmap hout in
theorem chkTotalByte_spec {idx s : ℕ} {offset : UInt8} (hat : AtSection addr cnts efuse map idx s)
    (hoffset : offset.toNat = s) :
    chkTotalByte addr cnts efuse map idx offset = size enc (packetsFrom map efuse s) := by
  fun_induction chkTotalByte addr cnts efuse map idx offset generalizing s with
  | case1 idx offset hidx r hlt =>
    rename_i ih
    obtain ⟨hr, hnext⟩ := sectionScan_spec hout hat hidx hoffset
    have hs := hat.lt hidx hmap
    rw [ih hnext (toNat_succ hoffset hs), packetsFrom_succ _ _ hs, size_append]
    congr 1
    simp only [r, hr]
    split_ifs with hne
    · obtain ⟨p, hp, hpo, hpw, -⟩ := changes_eq_some hoffset hs hne
      rw [hp, Option.toList_some, size_cons, size_nil, length_enc, hpo, hpw, packetBytes]
      omega
    · rw [changes_eq_none (sectionMask_eq_iff.mp (not_not.mp hne))]
      rfl
  | case2 idx offset hidx =>
    have hlast := hat.last (Nat.le_antisymm hat.idx_le (Nat.le_of_not_lt hidx))
    rw [packetsFrom_eq_nil hlast, size_nil]

include hout in
theorem atSection_zero : AtSection addr cnts efuse map 0 (addr / 8) where
  idx_le := Nat.zero_le _
  first := fun _ => ⟨rfl, Or.inl rfl⟩
  last := by
    rintro rfl a -
    exact hout a (by omega)

end Scan

def overlay (c : MapWrite) (map : ℕ → UInt8) : ℕ → UInt8 := fun a =>
  if c.addr ≤ a ∧ a < c.addr + c.cnts ∧ isMasked c.ad a = false then c.data (a - c.addr)
  else map a

theorem isMasked_of_boffefusemask {ad : Adapter} (h : ad.boffefusemask = true) (offset : ℕ) :
    isMasked ad offset = false := by
  simp [isMasked, rtwFileEfuseIsMasked, efuseIsMasked, h]

theorem mask_foldl (c : MapWrite) (map efuse : ℕ → UInt8) (is : List ℕ) (a : ℕ) :
    is.foldl (fun efuse i =>
        if isMasked c.ad (c.addr + i) then Function.update efuse (c.addr + i) (map (c.addr + i))
        else efuse) efuse a =
      if ∃ i ∈ is, a = c.addr + i ∧ isMasked c.ad a = true then map a else efuse a := by
  induction is generalizing efuse with
  | nil => simp
  | cons i is ih =>
    rw [List.foldl_cons, ih]
    by_cases ha : a = c.addr + i
    · subst ha
      by_cases hm : isMasked c.ad (c.addr + i) = true <;> simp [hm]
    · have hrest : (if isMasked c.ad (c.addr + i) = true then
          Function.update efuse (c.addr + i) (map (c.addr + i)) else efuse) a = efuse a := by
        split_ifs
        · exact Function.update_of_ne ha _ _
        · rfl
      rw [hrest]
      simp [ha]

theorem efuseImage_eq (c : MapWrite) (map : ℕ → UInt8) : efuseImage c map = overlay c map := by
  funext a
  unfold efuseImage overlay
  split_ifs with hoff hin hin
  · simp [hin.1, hin.2.1]
  · simp only [isMasked_of_boffefusemask hoff, and_true] at hin
    exact if_neg hin
  · rw [mask_foldl, if_neg, if_pos ⟨hin.1, hin.2.1⟩]
    rintro ⟨i, -, -, hm⟩
    rw [hm] at hin
    exact absurd hin.2.2 (by decide)
  · rw [mask_foldl]
    split_ifs with hm hrange
    · rfl
    · exfalso
      refine hm ⟨a - c.addr, List.mem_range.mpr (by omega), by omega, ?_⟩
      exact Bool.eq_true_of_not_eq_false fun hfalse => hin ⟨hrange.1, hrange.2, hfalse⟩
    · rfl

end Rtl8189.EfuseMap
