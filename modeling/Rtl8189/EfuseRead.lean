import Mathlib.Data.Nat.Basic
import Rtl8189.EfusePacket

/-!
# Reading the efuse

The map is decoded from the log, either out of the cells, one register access a byte, or
out of a copy that the firmware leaves in the packet buffer. Only the first way also
records how many bytes are used.
-/
namespace Rtl8189.EfuseRead

open Tape EfusePacket

structure Efuse where
  cells : ℕ → UInt8
  /-- `HW_VAR_EFUSE_BYTES` -/
  efuseUsedBytes : ℕ

/-- The settings of the driver, and what the firmware answers to `CMD_READ_EFUSE_MAP`:
nothing if the command fails, else the packet buffer from the beacon head on. -/
structure Adapter where
  fwIol : UInt8 := 1
  boffefusemask : Bool := false
  bFileMaskEfuse : Bool := false
  maskfileBuffer : ℕ → UInt8 := fun _ => 0
  cmdReadEfuseMap : (ℕ → UInt8) → Option (ℕ → UInt8) := fun _ => none

/-! ## Decoding -/

abbrev EFuseWord := ℕ → ℕ → UInt16

def setWord (w : EFuseWord) (offset i : ℕ) (v : UInt16) : EFuseWord := fun offset' i' =>
  if offset' = offset ∧ i' = i then v else w offset' i'

/-- The data of `n` words from word `i` on, and the address behind them. -/
def readWords (rd : ℕ → UInt8) (offset : ℕ) :
    ℕ → ℕ → UInt8 → ℕ → EFuseWord → ℕ × EFuseWord
  | 0, _, _, addr, w => (addr, w)
  | n + 1, i, wren, addr, w =>
    if wren &&& 1 = 0 then
      let w := setWord w offset i (rd addr).toUInt16
      if efuseRealContentLen88E ≤ addr + 1 then (addr + 1, w)
      else
        let w := setWord w offset i (w offset i ||| ((rd (addr + 1)).toUInt16 <<< 8 &&& 0xff00))
        if efuseRealContentLen88E ≤ addr + 2 then (addr + 2, w)
        else readWords rd offset n (i + 1) (wren >>> 1) (addr + 2) w
    else readWords rd offset n (i + 1) (wren >>> 1) addr w

/-- The data of a section that does not exist. The mask is not shifted here. -/
def skipWords : ℕ → UInt8 → ℕ → ℕ
  | 0, _, addr => addr
  | n + 1, wren, addr =>
    if wren &&& 1 = 0 then
      if efuseRealContentLen88E ≤ addr + 1 then addr + 1
      else if efuseRealContentLen88E ≤ addr + 2 then addr + 2
      else skipWords n wren (addr + 2)
    else skipWords n wren addr

/-- `skip` tells the two decoders apart: one of them skips the data of a section that
does not exist. -/
def readSection (skip : Bool) (rd : ℕ → UInt8) (offset wren : UInt8) (addr : ℕ)
    (w : EFuseWord) : ℕ × EFuseWord :=
  if offset.toNat < efuseMaxSection88E then readWords rd offset.toNat 4 0 wren addr w
  else if skip then (skipWords 4 wren addr, w)
  else (addr, w)

/-- One round of the loop, for the header `header` that was read below `addr`. -/
def readPacket (skip : Bool) (rd : ℕ → UInt8) (header : UInt8) (addr : ℕ) (w : EFuseWord) :
    ℕ × EFuseWord :=
  if extHeader header then
    if allWordsDisabled (rd addr) then (addr + 1, w)
    else
      readSection skip rd (twoByteOffset header (rd addr)) (rd addr &&& 0x0F) (addr + 1) w
  else readSection skip rd (oneByteOffset header) (header &&& 0x0F) addr w

/-- The address behind the next header, which stays when there is none. -/
def nextHeader (rd : ℕ → UInt8) (addr : ℕ) : ℕ :=
  if rd addr ≠ 0xFF ∧ addr < efuseRealContentLen88E then addr + 1 else addr

theorem nextHeader_of_ne {rd : ℕ → UInt8} {addr : ℕ} (h : rd addr ≠ 0xFF)
    (haddr : addr < efuseRealContentLen88E) : nextHeader rd addr = addr + 1 :=
  if_pos ⟨h, haddr⟩

theorem nextHeader_of_ge {rd : ℕ → UInt8} {addr : ℕ} (haddr : efuseRealContentLen88E ≤ addr) :
    nextHeader rd addr = addr := if_neg fun h => absurd h.2 (Nat.not_lt.mpr haddr)

theorem le_readWords (rd : ℕ → UInt8) (offset n i : ℕ) (wren : UInt8) (addr : ℕ)
    (w : EFuseWord) : addr ≤ (readWords rd offset n i wren addr w).1 := by
  induction n generalizing i wren addr w with
  | zero => rfl
  | succ n ih =>
    simp only [readWords]
    split_ifs
    · exact Nat.le_succ _
    · exact Nat.le_add_right _ _
    · exact Nat.le_trans (Nat.le_add_right _ _) (ih _ _ _ _)
    · exact ih _ _ _ _

theorem le_skipWords (n : ℕ) (wren : UInt8) (addr : ℕ) : addr ≤ skipWords n wren addr := by
  induction n generalizing addr with
  | zero => rfl
  | succ n ih =>
    simp only [skipWords]
    split_ifs
    · exact Nat.le_succ _
    · exact Nat.le_add_right _ _
    · exact Nat.le_trans (Nat.le_add_right _ _) (ih _)
    · exact ih _

theorem le_readSection (skip : Bool) (rd : ℕ → UInt8) (offset wren : UInt8) (addr : ℕ)
    (w : EFuseWord) : addr ≤ (readSection skip rd offset wren addr w).1 := by
  unfold readSection
  split_ifs
  · exact le_readWords _ _ _ _ _ _ _
  · exact le_skipWords _ _ _
  · exact Nat.le_refl _

theorem le_readPacket (skip : Bool) (rd : ℕ → UInt8) (header : UInt8) (addr : ℕ)
    (w : EFuseWord) : addr ≤ (readPacket skip rd header addr w).1 := by
  unfold readPacket
  split_ifs
  · exact Nat.le_succ _
  · exact Nat.le_trans (Nat.le_succ _) (le_readSection _ _ _ _ _ _)
  · exact le_readSection _ _ _ _ _ _

def readLoop (skip : Bool) (rd : ℕ → UInt8) (header : UInt8) (addr : ℕ) (w : EFuseWord) :
    ℕ × EFuseWord :=
  if header ≠ 0xFF ∧ addr < efuseRealContentLen88E then
    let r := readPacket skip rd header addr w
    readLoop skip rd (rd r.1) (nextHeader rd r.1) r.2
  else (addr, w)
termination_by if header = 0xFF then 0 else efuseRealContentLen88E + 1 - addr
decreasing_by
  have hle := le_readPacket skip rd header addr w
  rename_i h
  rw [if_neg (c := header = 0xFF) h.1]
  split_ifs with hblank
  · simp only [efuseRealContentLen88E] at *
    omega
  · rcases Nat.lt_or_ge (readPacket skip rd header addr w).1 efuseRealContentLen88E with hr | hr
    · rw [nextHeader_of_ne hblank hr]
      omega
    · rw [nextHeader_of_ge hr]
      omega

def efuseTbl (w : EFuseWord) (k : ℕ) : UInt8 :=
  let v := w (k / 8) (k % 8 / 2)
  if k % 2 = 0 then (v &&& 0xff).toUInt8 else ((v >>> 8) &&& 0xff).toUInt8

def copyOut (w : EFuseWord) (offset sizeByte : ℕ) (pbuf : ℕ → UInt8) : ℕ → UInt8 := fun k =>
  if k < sizeByte then efuseTbl w (offset + k) else pbuf k

/-- A blank efuse leaves the buffer and the recorded size alone. -/
def halEfuseReadEFuse88E (e : Efuse) (offset sizeByte : ℕ) (pbuf : ℕ → UInt8) :
    (ℕ → UInt8) × Efuse :=
  if efuseMapLen88E < offset + sizeByte then (pbuf, e)
  else if e.cells 0 = 0xFF then (pbuf, e)
  else
    let r := readLoop true e.cells (e.cells 0) 1 fun _ _ => 0xFFFF
    (copyOut r.2 offset sizeByte pbuf, { e with efuseUsedBytes := r.1 })

def efusePhymapToLogical (phymap : ℕ → UInt8) (offset sizeByte : ℕ) (pbuf : ℕ → UInt8) :
    ℕ → UInt8 :=
  if phymap 0 = 0xFF then pbuf
  else copyOut (readLoop false phymap (phymap 0) 1 fun _ _ => 0xFFFF).2 offset sizeByte pbuf

/-! ## The copy of the firmware -/

def copyBytes (buf : ℕ → UInt8) (src n : ℕ) (content : ℕ → UInt8) (count : ℕ) : ℕ → UInt8 :=
  fun k => if count ≤ k ∧ k < count + n then buf (src + (k - count)) else content k

/-- Eight bytes in each round, less the two of the length at the start. -/
def txpktbufLoop (buf : ℕ → UInt8) (len limit : ℕ) (i : ℕ) (content : ℕ → UInt8) (count : ℕ) :
    ℕ → UInt8 :=
  let skip := if i = 0 then 2 else 0
  let n := min (4 - skip) (limit - count)
  let content := copyBytes buf (8 * i + skip) n content count
  let count' := count + n
  let n' := if count' < limit ∧ count' + 2 < len then min 4 (limit - count') else 0
  let content := copyBytes buf (8 * i + 4) n' content count'
  let count' := count' + n'
  if limit ≤ count' ∨ len ≤ count' + 2 then content
  else txpktbufLoop buf len limit (i + 1) content count'
termination_by limit - count
decreasing_by
  split_ifs at * <;> omega

/-- The length in front counts itself. It is a `u16`, and so is the limit. -/
def efuseReadPhymapFromTxpktbuf (buf : ℕ → UInt8) (content : ℕ → UInt8) : ℕ → UInt8 :=
  let len := (buf 0).toNat + 256 * (buf 1).toNat
  let limit := if len < 2 + 512 then (len + 65534) % 65536 else 512
  txpktbufLoop buf len limit 0 content 0

def rtwIOLApplied (ad : Adapter) : Bool := ad.fwIol == 1

def iolReadEfuse (ad : Adapter) (e : Efuse) (offset sizeByte : ℕ) (logicalMap : ℕ → UInt8) :
    Bool × (ℕ → UInt8) :=
  let physicalMap : ℕ → UInt8 := fun _ => 0xFF
  match ad.cmdReadEfuseMap e.cells with
  | none => (false, efusePhymapToLogical physicalMap offset sizeByte logicalMap)
  | some buf =>
    (true, efusePhymapToLogical (efuseReadPhymapFromTxpktbuf buf physicalMap) offset sizeByte
      logicalMap)

def readEFuseByIC (ad : Adapter) (e : Efuse) (offset sizeByte : ℕ) (pbuf : ℕ → UInt8) :
    (ℕ → UInt8) × Efuse :=
  if rtwIOLApplied ad then
    let r := iolReadEfuse ad e offset sizeByte pbuf
    if r.1 then (r.2, e) else halEfuseReadEFuse88E e offset sizeByte r.2
  else halEfuseReadEFuse88E e offset sizeByte pbuf

def rtwEfuseMapRead (ad : Adapter) (e : Efuse) (addr cnts : ℕ) (data : ℕ → UInt8) :
    Bool × (ℕ → UInt8) × Efuse :=
  if efuseMapLen88E < addr + cnts then (false, data, e)
  else (true, readEFuseByIC ad e addr cnts data)

/-! ## What is read -/

theorem word_low (lo hi : UInt8) :
    ((lo.toUInt16 ||| (hi.toUInt16 <<< 8 &&& 0xff00)) &&& 0xff).toUInt8 = lo := by
  apply UInt8.eq_of_toBitVec_eq
  ext i hi'
  simp
  interval_cases i <;> simp

theorem word_high (lo hi : UInt8) :
    (((lo.toUInt16 ||| (hi.toUInt16 <<< 8 &&& 0xff00)) >>> 8) &&& 0xff).toUInt8 = hi := by
  apply UInt8.eq_of_toBitVec_eq
  ext i hi'
  simp
  interval_cases i <;> simp

theorem efuseTbl_blank : efuseTbl (fun _ _ => 0xFFFF) = fun _ => 0xFF := by
  funext k
  simp only [efuseTbl]
  split_ifs <;> rfl

theorem efuseTbl_setWord (w : EFuseWord) (offset i : ℕ) (data : ℕ → UInt8) (k : ℕ) :
    efuseTbl (setWord (setWord w offset i (data (2 * i)).toUInt16) offset i
        ((data (2 * i)).toUInt16 ||| ((data (2 * i + 1)).toUInt16 <<< 8 &&& 0xff00))) k =
      if k / 8 = offset ∧ k % 8 / 2 = i then data (k % 8) else efuseTbl w k := by
  by_cases hk : k / 8 = offset ∧ k % 8 / 2 = i
  · simp only [efuseTbl, setWord, if_pos hk]
    split_ifs with hpar
    · rw [word_low, show k % 8 = 2 * i by omega]
    · rw [word_high, show k % 8 = 2 * i + 1 by omega]
  · simp only [efuseTbl, setWord, if_neg hk]

/-- Word `q` is an enabled one of the `n` words from word `i` on. -/
def wordRead (wren : UInt8) (i n q : ℕ) : Bool := i ≤ q && q < i + n && enabled wren (q - i)

theorem wordRead_succ (wren : UInt8) (i n q : ℕ) :
    wordRead wren i (n + 1) q =
      (q == i && enabled wren 0 || wordRead (wren >>> 1) (i + 1) n q) := by
  rcases lt_trichotomy q i with hq | rfl | hq
  · simp [wordRead, hq.ne, Nat.not_le.mpr hq, show ¬ i + 1 ≤ q by omega]
  · simp [wordRead]
  · have hne : (q == i) = false := beq_false_of_ne hq.ne'
    have hsub : q - i = q - (i + 1) + 1 := by omega
    have hbound : i + 1 + n = i + (n + 1) := by omega
    simp only [wordRead, enabled_shift, hne, Bool.false_and, Bool.false_or, ← hsub, hbound,
      hq.le, Nat.succ_le_of_lt hq, decide_true, Bool.true_and]

theorem readWords_none (rd : ℕ → UInt8) (offset : ℕ) {n i : ℕ} {wren : UInt8} (addr : ℕ)
    {data : ℕ → UInt8} (w : EFuseWord) (h : payload data n i wren = []) :
    readWords rd offset n i wren addr w = (addr, w) := by
  induction n generalizing i wren with
  | zero => rfl
  | succ n ih =>
    by_cases hen : enabled wren 0 = true
    · simp [payload, hen] at h
    · simp only [payload, if_neg hen, List.nil_append] at h
      simp only [readWords, and_one_eq_zero, if_neg hen]
      exact ih h

theorem readWords_spec {rd : ℕ → UInt8} (offset : ℕ) {n i : ℕ} {wren : UInt8} {addr : ℕ}
    {data : ℕ → UInt8} (w : EFuseWord) (h : Starts rd addr (payload data n i wren))
    (hroom : addr + (payload data n i wren).length ≤ efuseRealContentLen88E) :
    (readWords rd offset n i wren addr w).1 = addr + (payload data n i wren).length ∧
      ∀ k, efuseTbl (readWords rd offset n i wren addr w).2 k =
        if k / 8 = offset ∧ wordRead wren i n (k % 8 / 2) = true then data (k % 8)
        else efuseTbl w k := by
  induction n generalizing i wren addr w with
  | zero =>
    refine ⟨rfl, ?_⟩
    intro k
    have hnone : wordRead wren i 0 (k % 8 / 2) = false := by
      simp only [wordRead, Bool.and_eq_false_imp, Bool.and_eq_true, decide_eq_true_eq]
      omega
    simp only [hnone, Bool.false_eq_true, and_false, if_false]
    rfl
  | succ n ih =>
    by_cases hen : enabled wren 0 = true
    · simp only [payload, if_pos hen, List.cons_append, List.nil_append] at h hroom ⊢
      simp only [List.length_cons] at hroom ⊢
      have hself : setWord w offset i (data (2 * i)).toUInt16 offset i =
          (data (2 * i)).toUInt16 := if_pos ⟨rfl, rfl⟩
      obtain ⟨haddr, hw⟩ := ih
        (setWord (setWord w offset i (data (2 * i)).toUInt16) offset i
          ((data (2 * i)).toUInt16 ||| ((data (2 * i + 1)).toUInt16 <<< 8 &&& 0xff00)))
        (show Starts rd (addr + 2) _ from h.tail.tail) (by omega)
      have hstep : readWords rd offset (n + 1) i wren addr w =
          readWords rd offset n (i + 1) (wren >>> 1) (addr + 2)
            (setWord (setWord w offset i (data (2 * i)).toUInt16) offset i
              ((data (2 * i)).toUInt16 |||
                ((data (2 * i + 1)).toUInt16 <<< 8 &&& 0xff00))) := by
        simp only [readWords, and_one_eq_zero, if_pos hen,
          if_neg (show ¬ efuseRealContentLen88E ≤ addr + 1 by omega), h.head, h.tail.head, hself]
        split_ifs with hend
        · -- at the end of the efuse no word can be left
          have hnone : payload data n (i + 1) (wren >>> 1) = [] :=
            List.eq_nil_of_length_eq_zero (by omega)
          rw [readWords_none _ _ _ _ hnone]
        · rfl
      rw [hstep]
      refine ⟨by omega, ?_⟩
      intro k
      rw [hw k, efuseTbl_setWord, wordRead_succ]
      by_cases ho : k / 8 = offset <;> by_cases hk : k % 8 / 2 = i <;> simp [ho, hk, hen]
    · simp only [payload, if_neg hen, List.nil_append] at h hroom ⊢
      obtain ⟨haddr, hw⟩ := ih w h hroom
      simp only [readWords, and_one_eq_zero, if_neg hen]
      refine ⟨haddr, ?_⟩
      intro k
      rw [hw k, wordRead_succ]
      simp [hen]

theorem PgPkt.apply_eq (m : ℕ → UInt8) (p : PgPkt) (k : ℕ) : p.apply m k =
    if k / 8 = p.offset.toNat ∧ wordRead p.wordEn 0 4 (k % 8 / 2) = true then p.data (k % 8)
    else m k := by
  have hq : k % 8 / 2 < 4 := by omega
  simp [PgPkt.apply, wordRead, hq]

/-- A packet at `addr`, whose first header byte has been read. -/
theorem readPacket_spec (skip : Bool) {rd : ℕ → UInt8} {p : Packet} {addr : ℕ}
    {rest : List UInt8} (w : EFuseWord) (h : Holds 0xFF rd addr (enc p ++ rest))
    (hroom : addr + (enc p).length < efuseRealContentLen88E) :
    (readPacket skip rd (rd addr) (addr + 1) w).1 = addr + (enc p).length ∧
      efuseTbl (readPacket skip rd (rd addr) (addr + 1) w).2 = p.apply (efuseTbl w) := by
  by_cases hext : efuseMaxSectionBase ≤ p.offset.toNat
  · obtain ⟨-, hheader, -, hsome, hoffset, hwren⟩ := twoByte_spec p
    simp only [enc, header, if_pos hext, List.cons_append, List.nil_append,
      List.length_cons] at h hroom ⊢
    obtain ⟨haddr, hw⟩ := readWords_spec p.offset.toNat w h.tail.tail.starts (by omega)
    simp only [readPacket, h.head, hheader, if_true, h.tail.head, hsome, Bool.false_eq_true,
      if_false, hoffset, hwren, readSection, if_pos p.offset_lt]
    refine ⟨by omega, ?_⟩
    funext k
    rw [hw k, PgPkt.apply_eq]
  · obtain ⟨-, hheader, hoffset, hwren⟩ := oneByte_spec p (Nat.lt_of_not_le hext)
    simp only [enc, header, if_neg hext, List.cons_append, List.nil_append,
      List.length_cons] at h hroom ⊢
    obtain ⟨haddr, hw⟩ := readWords_spec p.offset.toNat w h.tail.starts (by omega)
    simp only [readPacket, h.head, hheader, Bool.false_eq_true, if_false, hoffset, hwren,
      readSection, if_pos p.offset_lt]
    refine ⟨by omega, ?_⟩
    funext k
    rw [hw k, PgPkt.apply_eq]

theorem enc_head_ne {rd : ℕ → UInt8} {p : Packet} {addr : ℕ} {rest : List UInt8}
    (h : Holds 0xFF rd addr (enc p ++ rest)) : rd addr ≠ 0xFF := by
  by_cases hext : efuseMaxSectionBase ≤ p.offset.toNat
  · simp only [enc, header, if_pos hext, List.cons_append] at h
    rw [h.head]
    exact (twoByte_spec p).1
  · simp only [enc, header, if_neg hext, List.cons_append] at h
    rw [h.head]
    exact (oneByte_spec p (Nat.lt_of_not_le hext)).1

theorem readLoop_spec (skip : Bool) {rd : ℕ → UInt8} {log : List Packet} {addr : ℕ}
    (w : EFuseWord) (h : Holds 0xFF rd addr (image enc log))
    (hroom : addr + size enc log < efuseRealContentLen88E) :
    (readLoop skip rd (rd addr) (nextHeader rd addr) w).1 = addr + size enc log ∧
      efuseTbl (readLoop skip rd (rd addr) (nextHeader rd addr) w).2 =
        replay (efuseTbl w) log := by
  induction log generalizing addr w with
  | nil =>
    have hblank : rd addr = 0xFF := h.end_blank
    unfold readLoop nextHeader
    simp [hblank]
  | cons p log ih =>
    rw [image_cons] at h
    rw [size_cons] at hroom
    have hne := enc_head_ne h
    have hlen : 0 < (enc p).length := by
      rw [length_enc]
      split_ifs <;> omega
    obtain ⟨haddr, hw⟩ := readPacket_spec skip w h (by omega)
    obtain ⟨hend, hreplay⟩ := ih
      (readPacket skip rd (rd addr) (addr + 1) w).2 h.drop (by omega)
    rw [nextHeader_of_ne hne (by omega), readLoop, if_pos ⟨hne, by omega⟩]
    simp only [haddr]
    rw [hend, hreplay, hw, size_cons, replay_cons]
    exact ⟨by omega, rfl⟩

/-- The cells hold the log, which is not at the end of the efuse, and the recorded size is a
place where a packet starts or the end of the log. -/
structure Logged (e : Efuse) (log : List Packet) : Prop where
  cells : Holds 0xFF e.cells 0 (image enc log)
  recorded : Boundary enc log e.efuseUsedBytes
  room : size enc log < efuseRealContentLen88E

def logMap (log : List Packet) : ℕ → UInt8 := replay (fun _ => 0xFF) log

theorem copyOut_readLoop (skip : Bool) {cells : ℕ → UInt8} {log : List Packet}
    (h : Holds 0xFF cells 0 (image enc log)) (hroom : size enc log < efuseRealContentLen88E)
    (hne : cells 0 ≠ 0xFF) :
    (readLoop skip cells (cells 0) 1 fun _ _ => 0xFFFF).1 = size enc log ∧
      copyOut (readLoop skip cells (cells 0) 1 fun _ _ => 0xFFFF).2 0 efuseMapLen88E
        (fun _ => 0xFF) = logMap log := by
  have hspec := readLoop_spec skip (fun _ _ => 0xFFFF) h (by omega)
  rw [nextHeader_of_ne hne (by decide), Nat.zero_add, Nat.zero_add, efuseTbl_blank] at hspec
  refine ⟨hspec.1, ?_⟩
  funext k
  simp only [copyOut, Nat.zero_add, hspec.2, logMap]
  split_ifs with hk
  · rfl
  · rw [replay_of_ge _ _ (Nat.le_of_not_lt hk)]

theorem cells_zero {cells : ℕ → UInt8} {log : List Packet}
    (h : Holds 0xFF cells 0 (image enc log)) : cells 0 = 0xFF ↔ log = [] := by
  constructor
  · intro hblank
    cases log with
    | nil => rfl
    | cons p log =>
      rw [image_cons] at h
      exact absurd hblank (enc_head_ne h)
  · rintro rfl
    exact h.end_blank

theorem halEfuseReadEFuse88E_spec {e : Efuse} {log : List Packet} (h : Logged e log) :
    halEfuseReadEFuse88E e 0 efuseMapLen88E (fun _ => 0xFF) =
      (logMap log, ⟨e.cells, if log = [] then e.efuseUsedBytes else size enc log⟩) := by
  have hlen : ¬ efuseMapLen88E < 0 + efuseMapLen88E := by decide
  unfold halEfuseReadEFuse88E
  rw [if_neg hlen]
  by_cases hnil : log = []
  · subst hnil
    rw [if_pos ((cells_zero h.cells).mpr rfl), if_pos rfl]
    rfl
  · have hne : e.cells 0 ≠ 0xFF := fun hblank => hnil ((cells_zero h.cells).mp hblank)
    obtain ⟨hsize, hmap⟩ := copyOut_readLoop true h.cells h.room hne
    rw [if_neg hne, if_neg hnil]
    simp only [hsize, hmap]

theorem efusePhymapToLogical_spec {cells : ℕ → UInt8} {log : List Packet}
    (h : Holds 0xFF cells 0 (image enc log)) (hroom : size enc log < efuseRealContentLen88E) :
    efusePhymapToLogical cells 0 efuseMapLen88E (fun _ => 0xFF) = logMap log := by
  unfold efusePhymapToLogical
  split_ifs with hblank
  · rw [(cells_zero h).mp hblank]
    rfl
  · exact (copyOut_readLoop false h hroom hblank).2

/-! ## What the firmware copies -/

/-- In front of the cells stands a length that counts itself. -/
def Adapter.Faithful (ad : Adapter) : Prop :=
  ∀ cells buf, ad.cmdReadEfuseMap cells = some buf →
    ∃ n, efuseRealContentLen88E ≤ n ∧ n + 2 < 65536 ∧
      (buf 0).toNat + 256 * (buf 1).toNat = n + 2 ∧ ∀ i < n, buf (i + 2) = cells i

def Copied (buf content : ℕ → UInt8) (count : ℕ) : Prop :=
  ∀ k, content k = if k < count then buf (k + 2) else 0xFF

theorem Copied.copyBytes {buf content : ℕ → UInt8} {count src n : ℕ}
    (h : Copied buf content count) (hsrc : n ≠ 0 → src = count + 2) :
    Copied buf (copyBytes buf src n content count) (count + n) := by
  intro k
  simp only [EfuseRead.copyBytes, h k]
  by_cases hk : count ≤ k ∧ k < count + n
  · have hidx : src + (k - count) = k + 2 := by omega
    rw [if_pos hk, if_pos hk.2, hidx]
  · rw [if_neg hk]
    by_cases hlt : k < count
    · rw [if_pos hlt, if_pos (by omega)]
    · rw [if_neg hlt, if_neg (by omega)]

theorem txpktbuf_round {len limit i count skip n n' : ℕ} (hlimit : limit + 2 ≤ len)
    (hcount : count ≤ limit) (hpos : count + 2 = max 2 (8 * i))
    (hskip : skip = if i = 0 then 2 else 0) (hn : n = min (4 - skip) (limit - count))
    (hn' : n' = if count + n < limit ∧ count + n + 2 < len then min 4 (limit - (count + n))
      else 0) :
    (n ≠ 0 → 8 * i + skip = count + 2) ∧ (n' ≠ 0 → 8 * i + 4 = count + n + 2) ∧
      (count + n + n' = limit ∨
        count + n + n' < limit ∧ count + n + n' + 2 = max 2 (8 * (i + 1))) := by
  split_ifs at hskip hn' <;> omega

theorem txpktbufLoop_spec {buf content : ℕ → UInt8} {len limit i count : ℕ}
    (hlimit : limit + 2 ≤ len) (hcount : count ≤ limit) (hpos : count + 2 = max 2 (8 * i))
    (h : Copied buf content count) :
    Copied buf (txpktbufLoop buf len limit i content count) limit := by
  fun_induction txpktbufLoop buf len limit i content count with
  | case1 i content₀ count₀ skip n content₁ count₁ n' content₂ count₂ hdone =>
    obtain ⟨hlo, hhi, hend⟩ : (n ≠ 0 → 8 * i + skip = count₀ + 2) ∧
        (n' ≠ 0 → 8 * i + 4 = count₁ + 2) ∧
        (count₂ = limit ∨ count₂ < limit ∧ count₂ + 2 = max 2 (8 * (i + 1))) :=
      txpktbuf_round hlimit hcount hpos rfl rfl rfl
    have hcopied : Copied buf content₂ count₂ := (h.copyBytes hlo).copyBytes hhi
    clear_value count₂
    have hlast : count₂ = limit := by omega
    rwa [← hlast]
  | case2 i content₀ count₀ skip n content₁ count₁ n' content₂ count₂ hmore ih =>
    obtain ⟨hlo, hhi, hend⟩ : (n ≠ 0 → 8 * i + skip = count₀ + 2) ∧
        (n' ≠ 0 → 8 * i + 4 = count₁ + 2) ∧
        (count₂ = limit ∨ count₂ < limit ∧ count₂ + 2 = max 2 (8 * (i + 1))) :=
      txpktbuf_round hlimit hcount hpos rfl rfl rfl
    have hcopied : Copied buf content₂ count₂ := (h.copyBytes hlo).copyBytes hhi
    clear_value count₂
    exact ih (by omega) (by omega) hcopied

theorem efuseReadPhymapFromTxpktbuf_spec {cells buf : ℕ → UInt8} {log : List Packet} {n : ℕ}
    (h : Holds 0xFF cells 0 (image enc log)) (hroom : size enc log < efuseRealContentLen88E)
    (hn : efuseRealContentLen88E ≤ n) (hlt : n + 2 < 65536)
    (hlen : (buf 0).toNat + 256 * (buf 1).toNat = n + 2)
    (hbuf : ∀ i < n, buf (i + 2) = cells i) :
    efuseReadPhymapFromTxpktbuf buf (fun _ => 0xFF) = cells := by
  have hlimit : (if n + 2 < 2 + 512 then (n + 2 + 65534) % 65536 else 512) = min n 512 := by
    split_ifs <;> omega
  have hcopied : Copied buf (txpktbufLoop buf (n + 2) (min n 512) 0 (fun _ => 0xFF) 0)
      (min n 512) := by
    refine txpktbufLoop_spec (by omega) (by omega) rfl ?_
    intro k
    rw [if_neg (Nat.not_lt_zero k)]
  unfold efuseReadPhymapFromTxpktbuf
  simp only [hlen, hlimit]
  funext k
  rw [hcopied k]
  simp only [efuseRealContentLen88E] at hn hroom
  split_ifs with hk
  · exact hbuf k (by omega)
  · have hblank := h.past_end (i := k) (by unfold size at hroom; omega)
    rw [Nat.zero_add] at hblank
    exact hblank.symm

/-! ## The whole map -/

def iolReads (ad : Adapter) (e : Efuse) : Bool :=
  rtwIOLApplied ad && (ad.cmdReadEfuseMap e.cells).isSome

theorem efusePhymapToLogical_blank (offset sizeByte : ℕ) (pbuf : ℕ → UInt8) :
    efusePhymapToLogical (fun _ => 0xFF) offset sizeByte pbuf = pbuf := if_pos rfl

theorem rtwEfuseMapRead_spec {ad : Adapter} {e : Efuse} {log : List Packet}
    (had : ad.Faithful) (h : Logged e log) :
    rtwEfuseMapRead ad e 0 efuseMapLen88E (fun _ => 0xFF) =
      (true, logMap log, ⟨e.cells,
        if iolReads ad e = true ∨ log = [] then e.efuseUsedBytes else size enc log⟩) := by
  have hlen : ¬ efuseMapLen88E < 0 + efuseMapLen88E := by decide
  rw [rtwEfuseMapRead, if_neg hlen, readEFuseByIC, iolReads]
  by_cases happlied : rtwIOLApplied ad = true
  · rw [if_pos happlied]
    cases hcmd : ad.cmdReadEfuseMap e.cells with
    | none =>
      simp only [iolReadEfuse, hcmd, efusePhymapToLogical_blank, Bool.false_eq_true, if_false,
        halEfuseReadEFuse88E_spec h, Option.isSome_none, Bool.and_false, false_or]
    | some buf =>
      obtain ⟨n, hn, hlt, hbuflen, hbuf⟩ := had e.cells buf hcmd
      have hphymap := efuseReadPhymapFromTxpktbuf_spec h.cells h.room hn hlt hbuflen hbuf
      simp only [iolReadEfuse, hcmd, hphymap, efusePhymapToLogical_spec h.cells h.room, if_true,
        happlied, Option.isSome_some, Bool.and_self, true_or]
  · simp only [happlied, Bool.false_eq_true, if_false, halEfuseReadEFuse88E_spec h,
      Bool.false_and, false_or]

end Rtl8189.EfuseRead
