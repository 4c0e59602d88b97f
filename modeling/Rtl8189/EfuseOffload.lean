import Rtl8189.EfuseAgree

/-!
# The efuse by way of the firmware

The firmware leaves a length and a copy of the cells in the packet buffer, which is read eight
bytes at a time, and decoded by a second decoder. It steps over the data of a section that does
not exist otherwise than the first one does.
-/
namespace Rtl8189.EfuseOffload

open EfusePacket EfuseRead EfuseAgree

/-! ## The two decoders -/

def phymapOf (cells : ℕ → UInt8) : ℕ → UInt8 := fun a =>
  if a < efuseRealContentLen88E then cells a else 0xFF

/-- The rounds of the second decoder: a header with the address behind it, and the words. -/
inductive Comes (rd : ℕ → UInt8) :
    UInt8 → ℕ → EFuseWord → UInt8 → ℕ → Prop
  | here (header : UInt8) (addr : ℕ) (w : EFuseWord) : Comes rd header addr w header addr
  | next {header header' : UInt8} {addr addr' : ℕ} {w : EFuseWord}
      (hround : header ≠ 0xFF ∧ addr < efuseRealContentLen88E)
      (hrest : Comes rd (rd (readPacket false rd header addr w).1)
        (nextHeader rd (readPacket false rd header addr w).1)
        (readPacket false rd header addr w).2 header' addr') : Comes rd header addr w header' addr'

/-- A section that does not exist, with the first word enabled and cells behind its header, or one
that does, with its data behind all the cells. -/
def Parts (cells : ℕ → UInt8) (header : UInt8) (addr : ℕ) : Prop :=
  header ≠ 0xFF ∧ extHeader header = true ∧ allWordsDisabled (phymapOf cells addr) = false ∧
    if (twoByteOffset header (phymapOf cells addr)).toNat < efuseMaxSection88E then
      addr + 1 = efuseRealContentLen88E ∧ cells efuseRealContentLen88E ≠ 0xFF
    else phymapOf cells addr &&& 0x0F &&& 1 = 0 ∧ addr + 2 < efuseRealContentLen88E

def Clear (cells : ℕ → UInt8) : Prop :=
  ∀ header addr, Comes (phymapOf cells) (phymapOf cells 0) 1 (fun _ _ => 0xFFFF) header addr →
    addr < efuseRealContentLen88E → ¬ Parts cells header addr

section Decoders

variable {rd rd' : ℕ → UInt8}

theorem readWords_congr (hrd : ∀ k < efuseRealContentLen88E, rd k = rd' k) (offset n i : ℕ)
    (wren : UInt8) {addr : ℕ} (haddr : rd addr = rd' addr) (w : EFuseWord) :
    readWords rd offset n i wren addr w = readWords rd' offset n i wren addr w := by
  induction n generalizing i wren addr w with
  | zero => rfl
  | succ n ih =>
    rw [readWords, readWords, haddr]
    by_cases hbit : wren &&& 1 = 0
    · rw [if_pos hbit, if_pos hbit]
      dsimp only
      by_cases hlow : efuseRealContentLen88E ≤ addr + 1
      · rw [if_pos hlow, if_pos hlow]
      · rw [if_neg hlow, if_neg hlow, hrd (addr + 1) (Nat.not_le.mp hlow)]
        by_cases hhigh : efuseRealContentLen88E ≤ addr + 2
        · rw [if_pos hhigh, if_pos hhigh]
        · rw [if_neg hhigh, if_neg hhigh]
          exact ih _ _ (hrd (addr + 2) (Nat.not_le.mp hhigh)) _
    · rw [if_neg hbit, if_neg hbit]
      exact ih _ _ haddr _

theorem skipWords_none {wren : UInt8} (h : wren &&& 1 ≠ 0) (n addr : ℕ) :
    skipWords n wren addr = addr := by
  induction n with
  | zero => rfl
  | succ n ih => rw [skipWords, if_neg h, ih]

theorem skipWords_end {wren : UInt8} (h : wren &&& 1 = 0) {addr : ℕ}
    (haddr : efuseRealContentLen88E ≤ addr + 1) (n : ℕ) :
    efuseRealContentLen88E ≤ skipWords (n + 1) wren addr := by
  rw [skipWords, if_pos h, if_pos haddr]
  exact haddr

end Decoders

section Agreement

variable {cells : ℕ → UInt8} {header : UInt8} {addr : ℕ}

theorem phymapOf_lt {a : ℕ} (h : a < efuseRealContentLen88E) : phymapOf cells a = cells a :=
  if_pos h

theorem phymapOf_ge {a : ℕ} (h : efuseRealContentLen88E ≤ a) : phymapOf cells a = 0xFF :=
  if_neg (Nat.not_lt.mpr h)

def SameEnd (r r' : ℕ × EFuseWord) : Prop :=
  r.2 = r'.2 ∧ (r.1 = r'.1 ∨ efuseRealContentLen88E ≤ r.1 ∧ efuseRealContentLen88E ≤ r'.1 + 1)

theorem readSection_words {offset : UInt8} (wren : UInt8)
    (hoffset : offset.toNat < efuseMaxSection88E) (haddr : cells addr = phymapOf cells addr)
    (w : EFuseWord) :
    SameEnd (readSection true cells offset wren addr w)
      (readSection false (phymapOf cells) offset wren addr w) := by
  rw [readSection, readSection, if_pos hoffset, if_pos hoffset,
    readWords_congr (fun k hk => (phymapOf_lt hk).symm) _ _ _ _ haddr]
  exact ⟨rfl, .inl rfl⟩

theorem readSection_skips {offset wren : UInt8} (hoffset : efuseMaxSection88E ≤ offset.toNat)
    (hend : wren &&& 1 = 0 → efuseRealContentLen88E ≤ addr + 1) (w : EFuseWord) :
    SameEnd (readSection true cells offset wren addr w)
      (readSection false (phymapOf cells) offset wren addr w) := by
  rw [readSection, readSection, if_neg (Nat.not_lt.mpr hoffset), if_neg (Nat.not_lt.mpr hoffset),
    if_pos rfl, if_neg Bool.false_ne_true]
  refine ⟨rfl, ?_⟩
  by_cases hbit : wren &&& 1 = 0
  · exact .inr ⟨skipWords_end hbit (hend hbit) 3, hend hbit⟩
  · exact .inl (skipWords_none hbit 4 addr)

theorem readPacket_agree (hne : header ≠ 0xFF) (haddr : addr < efuseRealContentLen88E)
    (hnot : ¬ Parts cells header addr) (w : EFuseWord) :
    SameEnd (readPacket true cells header addr w)
      (readPacket false (phymapOf cells) header addr w) := by
  rw [readPacket, readPacket, ← @phymapOf_lt cells addr haddr]
  by_cases hext : extHeader header = true
  · rw [if_pos hext, if_pos hext]
    by_cases hall : allWordsDisabled (phymapOf cells addr) = true
    · rw [if_pos hall, if_pos hall]
      exact ⟨rfl, .inl rfl⟩
    · rw [if_neg hall, if_neg hall]
      have hparts := fun h => hnot ⟨hne, hext, Bool.not_eq_true _ ▸ hall, h⟩
      by_cases hoffset :
          (twoByteOffset header (phymapOf cells addr)).toNat < efuseMaxSection88E
      · rw [if_pos hoffset] at hparts
        refine readSection_words _ hoffset ?_ w
        by_cases hlast : addr + 1 = efuseRealContentLen88E
        · rw [phymapOf_ge hlast.ge, hlast]
          exact by_contra fun hff => hparts ⟨hlast, hff⟩
        · exact (phymapOf_lt (Nat.lt_of_le_of_ne haddr hlast)).symm
      · rw [if_neg hoffset] at hparts
        refine readSection_skips (Nat.not_lt.mp hoffset) (fun hbit => ?_) w
        exact Nat.not_lt.mp fun hlt => hparts ⟨hbit, hlt⟩
  · rw [if_neg hext, if_neg hext]
    have hoffset : (oneByteOffset header).toNat < efuseMaxSection88E := by
      rw [oneByteOffset, UInt8.toNat_and]
      exact Nat.lt_of_le_of_lt Nat.and_le_right (by decide)
    exact readSection_words _ hoffset (phymapOf_lt haddr).symm w

theorem readLoop_end (skip : Bool) (rd : ℕ → UInt8) {a : ℕ} (ha : efuseRealContentLen88E ≤ a + 1)
    (w : EFuseWord) : (readLoop skip rd (rd a) (nextHeader rd a) w).2 = w := by
  have hstop : rd a = 0xFF ∨ efuseRealContentLen88E ≤ nextHeader rd a := by
    by_cases hff : rd a = 0xFF
    · exact .inl hff
    · refine .inr ?_
      rcases Nat.lt_or_ge a efuseRealContentLen88E with hlt | hge
      · rw [nextHeader_of_ne hff hlt]
        exact ha
      · rw [nextHeader_of_ge hge]
        exact hge
  rw [readLoop_stop skip rd _ _ _ hstop]

theorem le_nextHeader (rd : ℕ → UInt8) (a : ℕ) : a ≤ nextHeader rd a := by
  rw [nextHeader]
  split
  · exact Nat.le_succ a
  · exact le_rfl

theorem nextHeader_agree (a : ℕ) : nextHeader cells a = nextHeader (phymapOf cells) a := by
  rcases Nat.lt_or_ge a efuseRealContentLen88E with hlt | hge
  · rw [nextHeader, nextHeader, phymapOf_lt hlt]
  · rw [nextHeader_of_ge hge, nextHeader_of_ge hge]

theorem readLoop_agree {w : EFuseWord} :
    (∀ h a, Comes (phymapOf cells) header addr w h a → a < efuseRealContentLen88E →
      ¬ Parts cells h a) →
      ∀ header', (addr < efuseRealContentLen88E → header' = header) →
        (readLoop true cells header' addr w).2 =
          (readLoop false (phymapOf cells) header addr w).2 := by
  fun_induction readLoop false (phymapOf cells) header addr w with
  | case1 header addr w hround r ih =>
    intro hclear header' hsame
    obtain rfl := hsame hround.2
    obtain ⟨hwords, hend⟩ := readPacket_agree hround.1 hround.2
      (hclear _ _ (.here header' addr w) hround.2) w
    rw [readLoop, if_pos hround]
    dsimp only
    rw [hwords]
    rcases hend with heq | ⟨hge, hge'⟩
    · rw [heq, nextHeader_agree]
      refine ih (fun h a hcomes => hclear h a (.next hround hcomes)) _ fun hlt => ?_
      exact (phymapOf_lt ((le_nextHeader _ _).trans_lt hlt)).symm
    · rw [readLoop_end true cells (by omega), readLoop_end false (phymapOf cells) hge']
  | case2 header addr w hstop =>
    intro _ header' hsame
    have hstop' : header' = 0xFF ∨ efuseRealContentLen88E ≤ addr := by
      rcases Nat.lt_or_ge addr efuseRealContentLen88E with hlt | hge
      · exact .inl ((hsame hlt).trans (by_contra fun hne => hstop ⟨hne, hlt⟩))
      · exact .inr hge
    rw [readLoop_stop _ _ _ _ _ hstop']

theorem decoders_same (hclear : Clear cells) (used : ℕ) {offset sizeByte : ℕ}
    (hrange : offset + sizeByte ≤ efuseMapLen88E) (pbuf : ℕ → UInt8) :
    efusePhymapToLogical (phymapOf cells) offset sizeByte pbuf =
      (halEfuseReadEFuse88E ⟨cells, used⟩ offset sizeByte pbuf).1 := by
  have hzero : phymapOf cells 0 = cells 0 := phymapOf_lt (by decide)
  rw [efusePhymapToLogical, halEfuseReadEFuse88E, if_neg (Nat.not_lt.mpr hrange), hzero]
  by_cases hblank : cells 0 = 0xFF
  · rw [if_pos hblank, if_pos hblank]
  · rw [if_neg hblank, if_neg hblank]
    dsimp only
    rw [readLoop_agree (by rwa [Clear, hzero] at hclear) _ fun _ => rfl]

end Agreement

/-! ## The packet buffer -/

/-- The rounds of `efuse_read_phymap_from_txpktbuf`: what is copied, and the count. -/
def bufferRounds (buf : ℕ → UInt8) (len limit : ℕ) (i : ℕ) (content : ℕ → UInt8) (count : ℕ) :
    (ℕ → UInt8) × ℕ :=
  let skip := if i = 0 then 2 else 0
  let n := min (4 - skip) (limit - count)
  let content := copyBytes buf (8 * i + skip) n content count
  let count' := count + n
  let n' := if count' < limit ∧ count' + 2 < len then min 4 (limit - count') else 0
  let content := copyBytes buf (8 * i + 4) n' content count'
  let count' := count' + n'
  if limit ≤ count' ∨ len ≤ count' + 2 then (content, count')
  else bufferRounds buf len limit (i + 1) content count'
termination_by limit - count
decreasing_by
  split_ifs at * <;> omega

def lengthWord (buf : ℕ → UInt8) : ℕ := (buf 0).toNat + 256 * (buf 1).toNat

/-- The difference of the length is signed in the comparison, and a `u16` in the limit. -/
def limitOf (len : ℕ) (size : UInt16) : ℕ :=
  if len < 2 + size.toNat then (len + 65534) % 65536 else size.toNat

/-- `efuse_read_phymap_from_txpktbuf`: the destination, and `*size`. -/
def readPhymapFromTxpktbuf (buf : ℕ → UInt8) (content : ℕ → UInt8) (size : UInt16) :
    (ℕ → UInt8) × ℕ :=
  bufferRounds buf (lengthWord buf) (limitOf (lengthWord buf) size) 0 content 0

def Filled (buf base content : ℕ → UInt8) (count : ℕ) : Prop :=
  ∀ k, content k = if k < count then buf (k + 2) else base k

def ReadsBuffer (buf base : ℕ → UInt8) (size : UInt16) : Prop :=
  (readPhymapFromTxpktbuf buf base size).2 = min (lengthWord buf - 2) size.toNat ∧
    Filled buf base (readPhymapFromTxpktbuf buf base size).1 (min (lengthWord buf - 2) size.toNat)

section Buffer

variable {buf base content : ℕ → UInt8} {len limit i count : ℕ}

theorem Filled.copyBytes {src n : ℕ} (h : Filled buf base content count)
    (hsrc : n ≠ 0 → src = count + 2) :
    Filled buf base (copyBytes buf src n content count) (count + n) := by
  intro k
  rw [EfuseRead.copyBytes, h k]
  by_cases hk : count ≤ k ∧ k < count + n
  · have hidx : src + (k - count) = k + 2 := by omega
    rw [if_pos hk, if_pos hk.2, hidx]
  · rw [if_neg hk]
    by_cases hlt : k < count
    · rw [if_pos hlt, if_pos (by omega)]
    · rw [if_neg hlt, if_neg (by omega)]

theorem bufferRounds_spec (hlimit : limit + 2 ≤ len) (hcount : count ≤ limit)
    (hpos : count + 2 = max 2 (8 * i)) (h : Filled buf base content count) :
    (bufferRounds buf len limit i content count).2 = limit ∧
      Filled buf base (bufferRounds buf len limit i content count).1 limit := by
  fun_induction bufferRounds buf len limit i content count with
  | case1 i content₀ count₀ skip n content₁ count₁ n' content₂ count₂ hdone =>
    obtain ⟨hlo, hhi, hend⟩ : (n ≠ 0 → 8 * i + skip = count₀ + 2) ∧
        (n' ≠ 0 → 8 * i + 4 = count₁ + 2) ∧
        (count₂ = limit ∨ count₂ < limit ∧ count₂ + 2 = max 2 (8 * (i + 1))) :=
      txpktbuf_round hlimit hcount hpos rfl rfl rfl
    have hfilled : Filled buf base content₂ count₂ := (h.copyBytes hlo).copyBytes hhi
    clear_value count₂
    obtain rfl : count₂ = limit := by omega
    exact ⟨rfl, hfilled⟩
  | case2 i content₀ count₀ skip n content₁ count₁ n' content₂ count₂ hmore ih =>
    obtain ⟨hlo, hhi, hend⟩ : (n ≠ 0 → 8 * i + skip = count₀ + 2) ∧
        (n' ≠ 0 → 8 * i + 4 = count₁ + 2) ∧
        (count₂ = limit ∨ count₂ < limit ∧ count₂ + 2 = max 2 (8 * (i + 1))) :=
      txpktbuf_round hlimit hcount hpos rfl rfl rfl
    have hfilled : Filled buf base content₂ count₂ := (h.copyBytes hlo).copyBytes hhi
    clear_value count₂
    exact ih (by omega) (by omega) hfilled

theorem bufferRounds_short (hlen : len < 2) (hlimit : 2 ≤ limit) :
    (bufferRounds buf len limit 0 content 0).2 = 2 := by
  have hmin : min (4 - 2) (limit - 0) = 2 := by omega
  have hno : ¬ (0 + 2 < limit ∧ 0 + 2 + 2 < len) := by omega
  have hdone : limit ≤ 0 + 2 + 0 ∨ len ≤ 0 + 2 + 0 + 2 := by omega
  rw [bufferRounds, if_pos rfl, hmin, if_neg hno, if_pos hdone]

theorem lengthWord_lt : lengthWord buf < 65536 := by
  have hlow := (buf 0).toNat_lt
  have hhigh := (buf 1).toNat_lt
  rw [lengthWord]
  omega

theorem readsBuffer_iff (size : UInt16) : ReadsBuffer buf base size ↔ 2 ≤ lengthWord buf := by
  have hword := @lengthWord_lt buf
  by_cases hlen : 2 ≤ lengthWord buf
  · have hlimit : limitOf (lengthWord buf) size = min (lengthWord buf - 2) size.toNat := by
      rw [limitOf]
      split_ifs <;> omega
    refine iff_of_true ?_ hlen
    rw [ReadsBuffer, readPhymapFromTxpktbuf, hlimit]
    refine bufferRounds_spec (by omega) (Nat.zero_le _) rfl fun k => ?_
    rw [if_neg (Nat.not_lt_zero k)]
  · refine iff_of_false (fun h => ?_) hlen
    have hlimit : 2 ≤ limitOf (lengthWord buf) size := by
      rw [limitOf, if_pos (by omega)]
      omega
    have hcount := h.1
    rw [readPhymapFromTxpktbuf, bufferRounds_short (by omega) hlimit] at hcount
    omega

end Buffer

/-- The offloaded read is the direct one when it comes to no section that the decoders part at, and
the packet buffer is read right just when its length counts itself. -/
theorem offloaded_read (cells : ℕ → UInt8) (used : ℕ) :
    (Clear cells → ∀ offset sizeByte, offset + sizeByte ≤ efuseMapLen88E → ∀ pbuf,
      efusePhymapToLogical (phymapOf cells) offset sizeByte pbuf =
        (halEfuseReadEFuse88E ⟨cells, used⟩ offset sizeByte pbuf).1) ∧
      ∀ buf base size, ReadsBuffer buf base size ↔ 2 ≤ lengthWord buf :=
  ⟨fun hclear _ _ hrange pbuf => decoders_same hclear used hrange pbuf,
    fun _ _ size => readsBuffer_iff size⟩

def oneSection : ℕ → UInt8 := content [0x30, 1, 2, 3, 4, 5, 6, 7, 8]

theorem clear_oneSection : Clear oneSection := by
  have hblank : phymapOf oneSection (readPacket false (phymapOf oneSection)
      (phymapOf oneSection 0) 1 fun _ _ => 0xFFFF).1 = 0xFF := by decide +kernel
  intro header addr hcomes _ hparts
  cases hcomes with
  | here => exact absurd hparts.2.1 (by decide +kernel)
  | next hround hrest =>
    rw [hblank] at hrest
    cases hrest with
    | here => exact hparts.1 rfl
    | next hround' _ => exact hround'.1 rfl

theorem offloaded_read_section : efusePhymapToLogical (phymapOf oneSection) 24 8 (fun _ => 0) =
    (halEfuseReadEFuse88E ⟨oneSection, 0⟩ 24 8 fun _ => 0).1 :=
  (offloaded_read oneSection 0).1 clear_oneSection 24 8 (by decide) _

def invalidSection : ℕ → UInt8 := content [0x0F, 0x8E, 0x0E, 0x12, 0x34]

theorem offloaded_differs :
    efusePhymapToLogical (phymapOf invalidSection) 0 2 (fun _ => 0) 0 = 0x12 ∧
      (halEfuseReadEFuse88E ⟨invalidSection, 0⟩ 0 2 fun _ => 0).1 0 = 0xFF ∧
      ¬ ReadsBuffer (fun _ => 0) (fun _ => 0) 512 :=
  ⟨by decide +kernel, by decide +kernel, fun h => absurd h.1 (by decide +kernel)⟩

end Rtl8189.EfuseOffload
