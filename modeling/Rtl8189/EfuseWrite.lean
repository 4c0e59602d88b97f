import Rtl8189.EfuseRead

/-!
# Writing a packet to the efuse

A packet goes to the end of the log. The end is found by walking the headers from the
recorded size on; a header without its data that is met on the way is completed first.
Every byte is read back, and words that do not hold are written again as a new packet.
-/
namespace Rtl8189.EfuseWrite

open Tape EfusePacket EfuseRead

def efuseOneByteWrite (e : Efuse) (addr : ℕ) (data : UInt8) : Efuse :=
  { e with cells := Function.update e.cells addr data }

/-- `AVAILABLE_EFUSE_ADDR`, which is not the one of this chip -/
def efuseRealContentLen : ℕ := 512

def efuseRepeatThreshold : ℕ := 3

/-- The end of the log, from a place where a packet starts. -/
def currentSizeLoop (cells : ℕ → UInt8) (addr : ℕ) : ℕ :=
  if addr < efuseRealContentLen then
    if cells addr ≠ 0xFF then
      if extHeader (cells addr) then
        if allWordsDisabled (cells (addr + 1)) then currentSizeLoop cells (addr + 2)
        else
          currentSizeLoop cells
            (addr + 1 + efuseCalculateWordCnts (cells (addr + 1) &&& 0x0F) * 2 + 1)
      else
        currentSizeLoop cells (addr + efuseCalculateWordCnts (cells addr &&& 0x0F) * 2 + 1)
    else addr
  else addr
termination_by efuseRealContentLen - addr

def efuseGetCurrentSize (e : Efuse) : ℕ × Efuse :=
  let addr := currentSizeLoop e.cells e.efuseUsedBytes
  (addr, { e with efuseUsedBytes := addr })

/-! ## Words -/

/-- The address of the next word, the mask of the bad words, and the efuse. -/
structure WordWrite where
  startAddr : ℕ
  badworden : UInt8
  e : Efuse

def wordWrite (wordEn : UInt8) (data : ℕ → UInt8) (s : WordWrite) (i : ℕ) : WordWrite :=
  if enabled wordEn i then
    let e := efuseOneByteWrite s.e s.startAddr (data (2 * i))
    let e := efuseOneByteWrite e (s.startAddr + 1) (data (2 * i + 1))
    { startAddr := s.startAddr + 2
      badworden :=
        if data (2 * i) ≠ e.cells s.startAddr ∨ data (2 * i + 1) ≠ e.cells (s.startAddr + 1) then
          enable s.badworden i
        else s.badworden
      e }
  else s

def efuseWordEnableDataWrite (e : Efuse) (efuseAddr : ℕ) (wordEn : UInt8) (data : ℕ → UInt8) :
    UInt8 × Efuse :=
  let s := (List.range 4).foldl (wordWrite wordEn data) ⟨efuseAddr, 0x0F, e⟩
  (s.badworden, s.e)

/-! ## Headers -/

/-- `tmpHeader` is what was read back. `left` counts the repetitions that are still allowed;
the result is how many are left, or none over the limit. -/
def headerRepeat (addr : ℕ) (pgHeader : UInt8) : ℕ → Efuse → UInt8 → Option ℕ × Efuse
  | left, e, tmpHeader =>
    if tmpHeader = 0xFF ∨ pgHeader ≠ tmpHeader then
      match left with
      | 0 => (none, e)
      | left + 1 =>
        let e := efuseOneByteWrite e addr pgHeader
        headerRepeat addr pgHeader left e (e.cells addr)
    else (some left, e)

def headerWrite (e : Efuse) (addr : ℕ) (pgHeader : UInt8) (left : ℕ) : Option ℕ × Efuse :=
  let e := efuseOneByteWrite e addr pgHeader
  headerRepeat addr pgHeader left e (e.cells addr)

/-- Whether the header is written, and the address of its last byte. The repetition ends
only with the header in place, so there is no other header to be repaired. -/
def efusePgPacketWrite1ByteHeader (e : Efuse) (addr : ℕ) (p : PgPkt) : Bool × ℕ × Efuse :=
  match headerWrite e addr (oneByteHeader p.offset p.wordEn) (efuseRepeatThreshold + 1) with
  | (none, e) => (false, addr, e)
  | (some _, e) => (true, addr, e)

def efusePgPacketWrite2ByteHeader (e : Efuse) (addr : ℕ) (p : PgPkt) (left : ℕ) :
    Bool × ℕ × Efuse :=
  if addr < availableEfuseBytes then
    match headerWrite e addr (twoByteHeader p.offset) left with
    | (none, e) => (false, addr, e)
    | (some left, e) =>
      let ext := twoByteHeaderExt p.offset p.wordEn
      match headerWrite e (addr + 1) ext left with
      | (none, e) => (false, addr, e)
      | (some left, e) =>
        if allWordsDisabled ext then
          match left with
          | 0 => (false, addr, e)
          | left + 1 => efusePgPacketWrite2ByteHeader e (addr + 2) p left
        else (true, addr + 1, e)
  else (false, addr, e)
termination_by availableEfuseBytes - addr

def efusePgPacketWriteHeader (e : Efuse) (addr : ℕ) (p : PgPkt) : Bool × ℕ × Efuse :=
  if efuseMaxSectionBase ≤ p.offset.toNat then
    efusePgPacketWrite2ByteHeader e addr p (efuseRepeatThreshold + 1)
  else efusePgPacketWrite1ByteHeader e addr p

/-! ## Packets -/

def wordEnMatched (wordEn curWordEn : UInt8) : UInt8 :=
  (List.range 4).foldl
    (fun m i => if enabled wordEn i ∧ enabled curWordEn i then enable m i else m) 0x0F

def disableMatched (matched wordEn : UInt8) : UInt8 :=
  (List.range 4).foldl (fun w i => if enabled matched i then w ||| 1 <<< UInt8.ofNat i else w) wordEn

def efuseCheckIfDatafollowed (e : Efuse) (wordCnts startAddr : ℕ) : Bool :=
  (List.range (wordCnts * 2)).any fun i => e.cells (startAddr + i) ≠ 0xFF

/-- `Efuse_PgPacketWrite` as it is called again for words that do not hold. -/
abbrev Rewrite := Efuse → PgPkt → Bool × Efuse

/-- The words of the packet go behind a header that has none, if it is one of the same
section. The words that were written are no longer enabled in the packet. -/
def partialWrite (rewrite : Rewrite) (e : Efuse) (startAddr : ℕ) (curOffset curWordEn : UInt8)
    (p : PgPkt) : Bool × PgPkt × Efuse :=
  let matched := wordEnMatched p.wordEn curWordEn
  if curOffset = p.offset ∧
      ¬ efuseCheckIfDatafollowed e (efuseCalculateWordCnts curWordEn) (startAddr + 1) ∧
      matched ≠ 0x0F then
    let (badworden, e) := efuseWordEnableDataWrite e (startAddr + 1) matched p.data
    let (ok, e) := if badworden ≠ 0x0F then rewrite e { p with wordEn := badworden } else (true, e)
    if ok then
      (true, { p with wordEn := disableMatched matched p.wordEn }, e)
    else (false, p, e)
  else (true, p, e)

def partialWriteCheck (rewrite : Rewrite) (e : Efuse) (startAddr : ℕ) (p : PgPkt) :
    Bool × ℕ × PgPkt × Efuse :=
  if availableEfuseBytes ≤ startAddr then (false, startAddr, p, e)
  else if e.cells startAddr = 0xFF then (true, startAddr, p, e)
  else if extHeader (e.cells startAddr) then
    let ext := e.cells (startAddr + 1)
    if allWordsDisabled ext then (false, startAddr, p, e)
    else
      match partialWrite rewrite e (startAddr + 1) (twoByteOffset (e.cells startAddr) ext)
          (ext &&& 0x0F) p with
      | (false, p, e) => (false, startAddr, p, e)
      | (true, p, e) =>
        partialWriteCheck rewrite e
          (startAddr + 1 + efuseCalculateWordCnts (ext &&& 0x0F) * 2 + 1) p
  else
    let cur := e.cells startAddr
    match partialWrite rewrite e startAddr (oneByteOffset cur) (cur &&& 0x0F) p with
    | (false, p, e) => (false, startAddr, p, e)
    | (true, p, e) =>
      partialWriteCheck rewrite e (startAddr + efuseCalculateWordCnts (cur &&& 0x0F) * 2 + 1) p
termination_by availableEfuseBytes - startAddr

def efusePartialWriteCheck (rewrite : Rewrite) (e : Efuse) (p : PgPkt) : Bool × ℕ × PgPkt × Efuse :=
  partialWriteCheck rewrite e (e.efuseUsedBytes % efuseRealContentLen) p

/-- The bound is the length of the map. -/
def efusePgCheckAvailableAddr (e : Efuse) : Bool × Efuse :=
  let (size, e) := efuseGetCurrentSize e
  (size < efuseMapLen88E, e)

/-- The bytes of disabled words are `0xFF`. -/
def efuseConstructPGPkt (offset wordEn : UInt8) (data : ℕ → UInt8) : PgPkt where
  offset
  wordEn
  data := fun k => if enabled wordEn (k / 2) then data k else 0xFF

def efusePgPacketWriteData (rewrite : Rewrite) (e : Efuse) (addr : ℕ) (p : PgPkt) :
    Bool × Efuse :=
  let (badworden, e) := efuseWordEnableDataWrite e (addr + 1) p.wordEn p.data
  if badworden = 0x0F then (true, e) else rewrite e { p with wordEn := badworden }

/-- `rewrite` bounds how often words that do not hold are written again. -/
def efusePgPacketWrite : ℕ → Efuse → UInt8 → UInt8 → (ℕ → UInt8) → Bool × Efuse
  | 0, e, _, _, _ => (false, e)
  | rewrites + 1, e, offset, wordEn, data =>
    let rewrite : Rewrite := fun e p => efusePgPacketWrite rewrites e p.offset p.wordEn p.data
    match efusePgCheckAvailableAddr e with
    | (false, e) => (false, e)
    | (true, e) =>
      match efusePartialWriteCheck rewrite e (efuseConstructPGPkt offset wordEn data) with
      | (false, _, _, e) => (false, e)
      | (true, startAddr, p, e) =>
        match efusePgPacketWriteHeader e startAddr p with
        | (false, _, e) => (false, e)
        | (true, startAddr, e) => efusePgPacketWriteData rewrite e startAddr p

/-! ## What is written -/

def burn (e : Efuse) (addr : ℕ) (bs : List UInt8) : Efuse :=
  { e with cells := writeAll e.cells addr bs }

theorem burn_append (e : Efuse) (addr : ℕ) (bs cs : List UInt8) :
    burn e addr (bs ++ cs) = burn (burn e addr bs) (addr + bs.length) cs := by
  simp only [burn, writeAll_append]

theorem wordWrite_foldl (wordEn : UInt8) (data : ℕ → UInt8) (is : List ℕ) (s : WordWrite) :
    let bytes := is.flatMap fun i =>
      if enabled wordEn i then [data (2 * i), data (2 * i + 1)] else []
    is.foldl (wordWrite wordEn data) s =
      ⟨s.startAddr + bytes.length, s.badworden, burn s.e s.startAddr bytes⟩ := by
  induction is generalizing s with
  | nil => rfl
  | cons i is ih =>
    simp only [List.foldl_cons, List.flatMap_cons, ih]
    by_cases hen : enabled wordEn i = true
    · have hread : Function.update (Function.update s.e.cells s.startAddr (data (2 * i)))
          (s.startAddr + 1) (data (2 * i + 1)) s.startAddr = data (2 * i) := by
        rw [Function.update_of_ne (by omega), Function.update_self]
      simp only [wordWrite, if_pos hen, efuseOneByteWrite, hread, Function.update_self, ne_eq,
        not_true_eq_false, or_self, if_false, burn_append, List.length_append, List.length_cons,
        List.length_nil]
      rw [Nat.add_assoc]
      rfl
    · simp only [wordWrite, if_neg hen, List.nil_append]

theorem efuseWordEnableDataWrite_eq (e : Efuse) (addr : ℕ) (wordEn : UInt8)
    (data : ℕ → UInt8) :
    efuseWordEnableDataWrite e addr wordEn data = (0x0F, burn e addr (payload data 4 0 wordEn)) := by
  rw [efuseWordEnableDataWrite, wordWrite_foldl, payload_eq]

theorem headerWrite_eq (e : Efuse) (addr : ℕ) {pgHeader : UInt8} (hne : pgHeader ≠ 0xFF)
    (left : ℕ) : headerWrite e addr pgHeader left = (some left, burn e addr [pgHeader]) := by
  unfold headerWrite headerRepeat
  simp [efuseOneByteWrite, hne, burn, writeAll]

theorem efusePgPacketWriteHeader_eq (e : Efuse) {addr : ℕ} (haddr : addr < availableEfuseBytes)
    (p : Packet) (q : PgPkt) (hoffset : q.offset = p.offset) (hwordEn : q.wordEn = p.wordEn) :
    ∃ last, efusePgPacketWriteHeader e addr q =
        (true, last, burn e addr (header p.offset p.wordEn)) ∧
      last + 1 = addr + (header p.offset p.wordEn).length := by
  unfold efusePgPacketWriteHeader
  rw [hoffset]
  by_cases hext : efuseMaxSectionBase ≤ p.offset.toNat
  · obtain ⟨hheader, -, hextHeader, hsome, -, -⟩ := twoByte_spec p
    refine ⟨addr + 1, ?_, ?_⟩
    · rw [if_pos hext, efusePgPacketWrite2ByteHeader, if_pos haddr, hoffset, hwordEn]
      simp only [headerWrite_eq e addr hheader, headerWrite_eq _ _ hextHeader, hsome,
        Bool.false_eq_true, if_false, header, if_pos hext]
      rfl
    · rw [length_header, if_pos hext]
  · obtain ⟨hheader, -, -, -⟩ := oneByte_spec p (Nat.lt_of_not_le hext)
    refine ⟨addr, ?_, ?_⟩
    · rw [if_neg hext, efusePgPacketWrite1ByteHeader, hoffset, hwordEn]
      simp only [headerWrite_eq e addr hheader, header, if_neg hext]
    · rw [length_header, if_neg hext]

/-! ## The end of the log -/

theorem currentSizeLoop_packet {cells : ℕ → UInt8} {p : Packet} {addr : ℕ} {rest : List UInt8}
    (h : Holds 0xFF cells addr (enc p ++ rest)) (haddr : addr < efuseRealContentLen) :
    currentSizeLoop cells addr = currentSizeLoop cells (addr + (enc p).length) := by
  have hne := enc_head_ne h
  rw [currentSizeLoop, if_pos haddr, if_pos hne, length_enc]
  by_cases hext : efuseMaxSectionBase ≤ p.offset.toNat
  · obtain ⟨-, hheader, -, hsome, -, hwren⟩ := twoByte_spec p
    simp only [enc, header, if_pos hext, List.cons_append, List.nil_append] at h
    rw [h.head, h.tail.head, hheader, hsome, hwren, if_pos rfl, if_neg Bool.false_ne_true,
      if_pos hext]
    congr 1
    omega
  · obtain ⟨-, hheader, -, hwren⟩ := oneByte_spec p (Nat.lt_of_not_le hext)
    simp only [enc, header, if_neg hext, List.cons_append, List.nil_append] at h
    rw [h.head, hheader, hwren, if_neg Bool.false_ne_true, if_neg hext]
    congr 1
    omega

theorem currentSizeLoop_blank {cells : ℕ → UInt8} {addr : ℕ} (h : cells addr = 0xFF) :
    currentSizeLoop cells addr = addr := by
  unfold currentSizeLoop
  simp [h]

theorem currentSizeLoop_spec {cells : ℕ → UInt8} {log : List Packet} {addr : ℕ}
    (h : Holds 0xFF cells 0 (image enc log)) (hroom : size enc log < efuseRealContentLen88E)
    (haddr : Boundary enc log addr) : currentSizeLoop cells addr = size enc log := by
  refine haddr.scan h (currentSizeLoop cells) ?_ ?_
  · intro a ha hblank
    exact currentSizeLoop_blank hblank
  · intro a p post ha hpost
    rw [image_cons] at hpost
    refine currentSizeLoop_packet hpost ?_
    simp only [efuseRealContentLen88E, efuseRealContentLen] at hroom ⊢
    omega

theorem efuseGetCurrentSize_spec {e : Efuse} {log : List Packet} (h : Logged e log) :
    efuseGetCurrentSize e = (size enc log, ⟨e.cells, size enc log⟩) := by
  rw [efuseGetCurrentSize, currentSizeLoop_spec h.cells h.room h.recorded]

/-! ## A packet -/

theorem payload_efuseConstructPGPkt (offset wordEn : UInt8) (data : ℕ → UInt8) :
    payload (efuseConstructPGPkt offset wordEn data).data 4 0 wordEn =
      payload data 4 0 wordEn := by
  simp only [payload_eq]
  congr 1
  funext i
  split_ifs with hen
  · have hhi : (2 * i + 1) / 2 = i := by omega
    simp [efuseConstructPGPkt, hen, hhi]
  · rfl

/-- A packet is written at the end of the log as long as this is below the protected bytes. -/
theorem efusePgPacketWrite_spec {e : Efuse} {log : List Packet} (h : Logged e log) (p : Packet)
    (rewrites : ℕ) :
    efusePgPacketWrite (rewrites + 1) e p.offset p.wordEn p.data =
      if size enc log < availableEfuseBytes then
        (true, burn ⟨e.cells, size enc log⟩ (size enc log) (enc p))
      else (false, ⟨e.cells, size enc log⟩) := by
  have hroom := h.room
  have hlt : size enc log < efuseMapLen88E := by
    simp only [efuseRealContentLen88E, efuseMapLen88E] at *
    omega
  have hmod : size enc log % efuseRealContentLen = size enc log := Nat.mod_eq_of_lt hlt
  have hend : e.cells (size enc log) = 0xFF := by
    have hblank := h.cells.past_end (i := size enc log) le_rfl
    rwa [Nat.zero_add] at hblank
  rw [efusePgPacketWrite, efusePgCheckAvailableAddr, efuseGetCurrentSize_spec h]
  simp only [hlt, decide_true, efusePartialWriteCheck, hmod]
  rw [partialWriteCheck]
  split_ifs with hfull havail havail
  · omega
  · rfl
  · obtain ⟨last, hheader, hlast⟩ := efusePgPacketWriteHeader_eq ⟨e.cells, size enc log⟩ havail
      p (efuseConstructPGPkt p.offset p.wordEn p.data) rfl rfl
    simp only [hheader, efusePgPacketWriteData, efuseWordEnableDataWrite_eq, hlast]
    rw [if_pos trivial, show (efuseConstructPGPkt p.offset p.wordEn p.data).wordEn = p.wordEn from rfl,
      payload_efuseConstructPGPkt, enc, burn_append]
  · omega

theorem logged_burn {e : Efuse} {log : List Packet} (h : Logged e log) (p : Packet)
    (hroom : size enc log < availableEfuseBytes) :
    Logged (burn ⟨e.cells, size enc log⟩ (size enc log) (enc p)) (log ++ [p]) where
  cells := by
    have hcells := h.cells.writeAll (enc p)
    rw [image_append, image_cons, image_nil, List.append_nil]
    exact hcells
  recorded := (boundary_end log).append [p]
  room := by
    have hlen := length_enc_le p
    rw [size_append, size_cons, size_nil]
    simp only [availableEfuseBytes, efuseRealContentLen88E] at *
    omega

end Rtl8189.EfuseWrite
