import Mathlib.Data.Nat.Bits
import Mathlib.Tactic.IntervalCases
import Rtl8189.Tape

/-!
# Packets of the efuse

The efuse holds a log of packets. A packet carries words of one section of the map: a
header of one or two bytes with the section and the word mask, then the two bytes of each
enabled word. In the mask a cleared bit enables the word.
-/
namespace Rtl8189.EfusePacket

open Tape

def efuseRealContentLen88E : ℕ := 256
def efuseMapLen88E : ℕ := 512
def efuseMaxSection88E : ℕ := 64
def efuseMaxSectionBase : ℕ := 16

/-- `EFUSE_REAL_CONTENT_LEN_88E - EFUSE_OOB_PROTECT_BYTES_88E` -/
def availableEfuseBytes : ℕ := 238

/-! ## Word masks -/

def enabled (wordEn : UInt8) (i : ℕ) : Bool := !wordEn.toNat.testBit i

/-- `wordEn &= ~BIT(i)` -/
def enable (wordEn : UInt8) (i : ℕ) : UInt8 := wordEn &&& ~~~(1 <<< UInt8.ofNat i)

def efuseCalculateWordCnts (wordEn : UInt8) : ℕ := (List.range 4).countP (enabled wordEn)

theorem enabled_shift (wordEn : UInt8) (i : ℕ) :
    enabled (wordEn >>> 1) i = enabled wordEn (i + 1) := by
  simp [enabled, UInt8.toNat_shiftRight, Nat.testBit_shiftRight, Nat.add_comm]

theorem and_one_eq_zero (wordEn : UInt8) : wordEn &&& 1 = 0 ↔ enabled wordEn 0 := by
  rw [← UInt8.toNat_inj]
  simp [enabled]

theorem enable_fin : ∀ w < 16, ∀ k < 4,
    enable (UInt8.ofNat w) k < 16 ∧
      ∀ i < 4, enabled (enable (UInt8.ofNat w) k) i = (enabled (UInt8.ofNat w) i || i == k) := by
  decide +kernel

theorem enable_lt {wordEn : UInt8} (hw : wordEn < 16) {k : ℕ} (hk : k < 4) :
    enable wordEn k < 16 := by
  simpa using (enable_fin wordEn.toNat hw k hk).1

theorem enabled_enable {wordEn : UInt8} (hw : wordEn < 16) {k i : ℕ} (hk : k < 4) (hi : i < 4) :
    enabled (enable wordEn k) i = (enabled wordEn i || i == k) := by
  simpa using (enable_fin wordEn.toNat hw k hk).2 i hi

theorem eq_disabled_fin : ∀ w < 16, (∀ i < 4, enabled (UInt8.ofNat w) i = false) →
    UInt8.ofNat w = 0xF := by
  decide +kernel

theorem exists_enabled {wordEn : UInt8} (hw : wordEn < 15) : ∃ i < 4, enabled wordEn i = true := by
  by_contra! hnone
  have hlt : wordEn < 16 := UInt8.lt_trans hw (by decide)
  have h15 := eq_disabled_fin wordEn.toNat hlt (by simpa using hnone)
  rw [UInt8.ofNat_toNat] at h15
  rw [h15] at hw
  exact absurd hw (by decide)

/-! ## Headers -/

def extHeader (header : UInt8) : Bool := header &&& 0x1F == 0x0F

def allWordsDisabled (wde : UInt8) : Bool := wde &&& 0x0F == 0x0F

def oneByteHeader (offset wordEn : UInt8) : UInt8 := ((offset <<< 4) &&& 0xF0) ||| wordEn

def twoByteHeader (offset : UInt8) : UInt8 := ((offset &&& 0x07) <<< 5) ||| 0x0F

def twoByteHeaderExt (offset wordEn : UInt8) : UInt8 := ((offset &&& 0x78) <<< 1) ||| wordEn

def oneByteOffset (header : UInt8) : UInt8 := (header >>> 4) &&& 0x0F

def twoByteOffset (header ext : UInt8) : UInt8 := ((ext &&& 0xF0) >>> 1) ||| ((header &&& 0xE0) >>> 5)

theorem oneByteHeader_fin : ∀ o < 16, ∀ w < 15,
    let h := oneByteHeader (UInt8.ofNat o) (UInt8.ofNat w)
    h ≠ 0xFF ∧ extHeader h = false ∧ oneByteOffset h = UInt8.ofNat o ∧
      h &&& 0x0F = UInt8.ofNat w := by
  decide +kernel

theorem twoByteHeader_fin : ∀ o < 64, ∀ w < 15,
    let h := twoByteHeader (UInt8.ofNat o)
    let ext := twoByteHeaderExt (UInt8.ofNat o) (UInt8.ofNat w)
    h ≠ 0xFF ∧ extHeader h = true ∧ ext ≠ 0xFF ∧ allWordsDisabled ext = false ∧
      twoByteOffset h ext = UInt8.ofNat o ∧ ext &&& 0x0F = UInt8.ofNat w := by
  decide +kernel

/-! ## Packets -/

/-- `PGPKT_STRUCT`. The field `word_cnts` is always `efuseCalculateWordCnts wordEn`. -/
structure PgPkt where
  offset : UInt8
  wordEn : UInt8
  data : ℕ → UInt8

/-- A packet that the map has room for, with at least one word. -/
structure Packet extends PgPkt where
  offset_lt : offset.toNat < efuseMaxSection88E
  wordEn_lt : wordEn < 15

/-- The enabled ones of `n` words from word `i` on; the mask is shifted along. -/
def payload (data : ℕ → UInt8) : ℕ → ℕ → UInt8 → List UInt8
  | 0, _, _ => []
  | n + 1, i, wordEn =>
    (if enabled wordEn 0 then [data (2 * i), data (2 * i + 1)] else []) ++
      payload data n (i + 1) (wordEn >>> 1)

def header (offset wordEn : UInt8) : List UInt8 :=
  if efuseMaxSectionBase ≤ offset.toNat then
    [twoByteHeader offset, twoByteHeaderExt offset wordEn]
  else [oneByteHeader offset wordEn]

def enc (p : Packet) : List UInt8 := header p.offset p.wordEn ++ payload p.data 4 0 p.wordEn

theorem payload_eq (data : ℕ → UInt8) (wordEn : UInt8) :
    payload data 4 0 wordEn = (List.range 4).flatMap fun i =>
      if enabled wordEn i then [data (2 * i), data (2 * i + 1)] else [] := by
  simp [payload, enabled_shift, List.range_succ]

theorem length_payload (data : ℕ → UInt8) (wordEn : UInt8) :
    (payload data 4 0 wordEn).length = 2 * efuseCalculateWordCnts wordEn := by
  simp only [payload_eq, efuseCalculateWordCnts, List.range_succ, List.range_zero,
    List.flatMap_append, List.flatMap_nil, List.flatMap_cons, List.countP_append,
    List.countP_nil, List.countP_cons, List.length_append, List.length_nil]
  split_ifs <;> simp

theorem efuseCalculateWordCnts_le (wordEn : UInt8) : efuseCalculateWordCnts wordEn ≤ 4 :=
  List.countP_le_length

theorem length_header (offset wordEn : UInt8) :
    (header offset wordEn).length = if efuseMaxSectionBase ≤ offset.toNat then 2 else 1 := by
  unfold header
  split_ifs <;> rfl

theorem length_enc (p : Packet) :
    (enc p).length = (if efuseMaxSectionBase ≤ p.offset.toNat then 2 else 1) +
      2 * efuseCalculateWordCnts p.wordEn := by
  rw [enc, List.length_append, length_header, length_payload]

theorem length_enc_le (p : Packet) : (enc p).length ≤ 10 := by
  have hcnts := efuseCalculateWordCnts_le p.wordEn
  rw [length_enc]
  split_ifs <;> omega

theorem oneByte_spec (p : Packet) (hp : p.offset.toNat < efuseMaxSectionBase) :
    let h := oneByteHeader p.offset p.wordEn
    h ≠ 0xFF ∧ extHeader h = false ∧ oneByteOffset h = p.offset ∧ h &&& 0x0F = p.wordEn := by
  simpa using oneByteHeader_fin p.offset.toNat hp p.wordEn.toNat p.wordEn_lt

theorem twoByte_spec (p : Packet) :
    let h := twoByteHeader p.offset
    let ext := twoByteHeaderExt p.offset p.wordEn
    h ≠ 0xFF ∧ extHeader h = true ∧ ext ≠ 0xFF ∧ allWordsDisabled ext = false ∧
      twoByteOffset h ext = p.offset ∧ ext &&& 0x0F = p.wordEn := by
  simpa using twoByteHeader_fin p.offset.toNat p.offset_lt p.wordEn.toNat p.wordEn_lt

/-! ## The map -/

def PgPkt.apply (m : ℕ → UInt8) (p : PgPkt) : ℕ → UInt8 := fun a =>
  if a / 8 = p.offset.toNat ∧ enabled p.wordEn (a % 8 / 2) then p.data (a % 8) else m a

/-- The map that a log stands for: a later packet overrides an earlier one. -/
def replay (m : ℕ → UInt8) (log : List Packet) : ℕ → UInt8 :=
  log.foldl (fun m p => p.apply m) m

@[simp] theorem replay_nil (m : ℕ → UInt8) : replay m [] = m := rfl

@[simp] theorem replay_cons (m : ℕ → UInt8) (p : Packet) (log : List Packet) :
    replay m (p :: log) = replay (p.apply m) log := rfl

theorem replay_append (m : ℕ → UInt8) (log post : List Packet) :
    replay m (log ++ post) = replay (replay m log) post := List.foldl_append

theorem replay_of_ge (m : ℕ → UInt8) (log : List Packet) {a : ℕ} (ha : efuseMapLen88E ≤ a) :
    replay m log a = m a := by
  induction log generalizing m with
  | nil => rfl
  | cons p log ih =>
    have hp := p.offset_lt
    have hne : a / 8 ≠ p.offset.toNat := by
      simp only [efuseMapLen88E, efuseMaxSection88E] at ha hp
      omega
    rw [replay_cons, ih, PgPkt.apply, if_neg fun h => hne h.1]

end Rtl8189.EfusePacket
