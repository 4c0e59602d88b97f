import Mathlib.Data.List.Induction
import Rtl8189.EfuseWrite

/-!
# The decoders of the efuse

Three functions walk the same log: one decodes the whole map, one collects the data of a
single section, one looks for the end. The content is arbitrary here, it need not have been
written by the driver.
-/
namespace Rtl8189.EfuseAgree

open Tape EfusePacket EfuseRead EfuseWrite

/-! ## One section -/

inductive ReadState where
  | header
  | data
deriving DecidableEq

structure PgRead where
  readState : ReadState
  efuseAddr : ℕ
  hworden : UInt8
  wordCnts : ℕ
  tmpdata : ℕ → UInt8
  data : ℕ → UInt8

def efuseWordEnableDataRead (wordEn : UInt8) (sourdata targetdata : ℕ → UInt8) : ℕ → UInt8 :=
  fun k => if k < 8 ∧ enabled wordEn (k / 2) then sourdata k else targetdata k

def readTmpdata (cells : ℕ → UInt8) (addr n : ℕ) (tmpdata : ℕ → UInt8) : ℕ → UInt8 :=
  fun k => if k < n then cells (addr + k) else tmpdata k

/-- Behind the header of a packet, whose last byte is at `addr`. -/
def readHeader (cells : ℕ → UInt8) (offset : UInt8) (s : PgRead) (addr : ℕ)
    (hoffset hworden : UInt8) : PgRead :=
  let wordCnts := efuseCalculateWordCnts hworden
  if hoffset = offset then
    let tmpdata := readTmpdata cells (addr + 1) (wordCnts * 2) s.tmpdata
    if ∃ k < wordCnts * 2, cells (addr + 1 + k) ≠ 0xFF then
      ⟨.data, addr, hworden, wordCnts, tmpdata, s.data⟩
    else ⟨.header, addr + wordCnts * 2 + 1, hworden, wordCnts, tmpdata, s.data⟩
  else ⟨.header, addr + wordCnts * 2 + 1, hworden, wordCnts, s.tmpdata, s.data⟩

def pgReadRound (cells : ℕ → UInt8) (offset : UInt8) (s : PgRead) : Option PgRead :=
  match s.readState with
  | .header =>
    let efuseData := cells s.efuseAddr
    if efuseData ≠ 0xFF then
      if extHeader efuseData then
        let ext := cells (s.efuseAddr + 1)
        if allWordsDisabled ext then some { s with efuseAddr := s.efuseAddr + 2 }
        else
          some (readHeader cells offset s (s.efuseAddr + 1) (twoByteOffset efuseData ext)
            (ext &&& 0x0F))
      else
        some (readHeader cells offset s s.efuseAddr (oneByteOffset efuseData)
          (efuseData &&& 0x0F))
    else none
  | .data =>
    some { s with
      readState := .header
      efuseAddr := s.efuseAddr + s.wordCnts * 2 + 1
      data := efuseWordEnableDataRead s.hworden s.tmpdata s.data }

def PgRead.left (s : PgRead) : ℕ :=
  2 * (efuseRealContentLen - s.efuseAddr) + if s.readState = .header then 1 else 0

theorem readHeader_left (cells : ℕ → UInt8) (offset : UInt8) (s : PgRead) {addr : ℕ}
    (hoffset hworden : UInt8) (hs : s.readState = .header) (haddr : s.efuseAddr ≤ addr)
    (hlt : s.efuseAddr < efuseRealContentLen) :
    (readHeader cells offset s addr hoffset hworden).left < s.left := by
  simp only [readHeader]
  split_ifs <;> simp only [PgRead.left, hs, if_true, reduceCtorEq, if_false] <;> omega

theorem pgReadRound_left {cells : ℕ → UInt8} {offset : UInt8} {s s' : PgRead}
    (h : pgReadRound cells offset s = some s') (hlt : s.efuseAddr < efuseRealContentLen) :
    s'.left < s.left := by
  cases hs : s.readState with
  | header =>
    simp only [pgReadRound, hs] at h
    split_ifs at h <;> obtain rfl := Option.some.inj h
    · simp only [PgRead.left, hs, if_true]
      omega
    · exact readHeader_left _ _ _ _ _ hs (Nat.le_succ _) hlt
    · exact readHeader_left _ _ _ _ _ hs le_rfl hlt
  | data =>
    simp only [pgReadRound, hs] at h
    obtain rfl := Option.some.inj h
    simp only [PgRead.left, hs, if_true, reduceCtorEq, if_false]
    omega

def pgReadLoop (cells : ℕ → UInt8) (offset : UInt8) (s : PgRead) : PgRead :=
  if _hlt : s.efuseAddr < efuseRealContentLen then
    match _h : pgReadRound cells offset s with
    | some s' => pgReadLoop cells offset s'
    | none => s
  else s
termination_by s.left
decreasing_by exact pgReadRound_left _h _hlt

def efusePgPacketRead (cells : ℕ → UInt8) (offset : UInt8) (data : ℕ → UInt8) :
    Bool × (ℕ → UInt8) :=
  if efuseMaxSection88E < offset.toNat then (false, data)
  else
    let s := pgReadLoop cells offset ⟨.header, 0, 0, 0, fun _ => 0xFF, fun k =>
      if k < 8 then 0xFF else data k⟩
    ((List.range 8).any fun k => s.data k != 0xFF, s.data)

/-! ## What a content says -/

/-- The data of word `i` stand behind those of the enabled words before it. -/
def pktAt (cells : ℕ → UInt8) (addr : ℕ) (offset wordEn : UInt8) : PgPkt where
  offset := offset
  wordEn := wordEn
  data k := cells (addr + 2 * (List.range (k / 2)).countP (enabled wordEn) + k % 2)

/-- From `addr` on the packets follow each other up to a blank header at `z`. -/
inductive Walk (cells : ℕ → UInt8) : ℕ → List PgPkt → ℕ → Prop
  | stop {addr : ℕ} (hblank : cells addr = 0xFF) : Walk cells addr [] addr
  | disabled {addr z : ℕ} {ps : List PgPkt} (hne : cells addr ≠ 0xFF)
      (hext : extHeader (cells addr) = true) (hall : allWordsDisabled (cells (addr + 1)) = true)
      (hrest : Walk cells (addr + 2) ps z) : Walk cells addr ps z
  | twoByte {addr z : ℕ} {ps : List PgPkt} (hne : cells addr ≠ 0xFF)
      (hext : extHeader (cells addr) = true) (hall : allWordsDisabled (cells (addr + 1)) = false)
      (hrest : Walk cells
        (addr + 2 + 2 * efuseCalculateWordCnts (cells (addr + 1) &&& 0x0F)) ps z) :
      Walk cells addr (pktAt cells (addr + 2) (twoByteOffset (cells addr) (cells (addr + 1)))
        (cells (addr + 1) &&& 0x0F) :: ps) z
  | oneByte {addr z : ℕ} {ps : List PgPkt} (hne : cells addr ≠ 0xFF)
      (hext : extHeader (cells addr) = false)
      (hrest : Walk cells
        (addr + 1 + 2 * efuseCalculateWordCnts (cells addr &&& 0x0F)) ps z) :
      Walk cells addr (pktAt cells (addr + 1) (oneByteOffset (cells addr))
        (cells addr &&& 0x0F) :: ps) z

theorem countP_range_succ (q : ℕ → Bool) (n : ℕ) :
    (List.range (n + 1)).countP q = (List.range n).countP q + if q n then 1 else 0 := by
  simp [List.range_succ, List.countP_append, List.countP_singleton]

def words (data : ℕ → UInt8) (wordEn : UInt8) (n : ℕ) : List UInt8 :=
  (List.range n).flatMap fun i => if enabled wordEn i then [data (2 * i), data (2 * i + 1)] else []

theorem words_succ (data : ℕ → UInt8) (wordEn : UInt8) (n : ℕ) :
    words data wordEn (n + 1) = words data wordEn n ++
      if enabled wordEn n then [data (2 * n), data (2 * n + 1)] else [] := by
  simp [words, List.range_succ]

theorem length_words (data : ℕ → UInt8) (wordEn : UInt8) (n : ℕ) :
    (words data wordEn n).length = 2 * (List.range n).countP (enabled wordEn) := by
  induction n with
  | zero => rfl
  | succ n ih =>
    rw [words_succ, List.length_append, ih, countP_range_succ]
    split_ifs <;> simp [Nat.mul_add]

theorem words_starts (cells : ℕ → UInt8) (addr : ℕ) (offset wordEn : UInt8) (n : ℕ) :
    Starts cells addr (words (pktAt cells addr offset wordEn).data wordEn n) := by
  induction n with
  | zero => exact fun i hi => absurd hi (Nat.not_lt_zero i)
  | succ n ih =>
    rw [words_succ]
    refine ih.append ?_
    rw [length_words]
    split_ifs
    · have hlo : 2 * n / 2 = n := by omega
      have hhi : (2 * n + 1) / 2 = n := by omega
      intro i hi
      have hi' : i = 0 ∨ i = 1 := by
        simp only [List.length_cons, List.length_nil] at hi
        omega
      rcases hi' with rfl | rfl
      · simp [pktAt, hlo]
      · simp [pktAt, hhi]
    · exact fun i hi => absurd hi (Nat.not_lt_zero i)

theorem payload_starts (cells : ℕ → UInt8) (addr : ℕ) (offset wordEn : UInt8) :
    Starts cells addr (payload (pktAt cells addr offset wordEn).data 4 0 wordEn) := by
  rw [payload_eq]
  exact words_starts cells addr offset wordEn 4

theorem Walk.le {cells : ℕ → UInt8} {addr z : ℕ} {ps : List PgPkt} (h : Walk cells addr ps z) :
    addr ≤ z := by
  induction h with
  | stop => exact le_rfl
  | disabled _ _ _ _ ih => omega
  | twoByte _ _ _ _ ih => omega
  | oneByte _ _ _ ih => omega

theorem currentSizeLoop_walk {cells : ℕ → UInt8} {addr z : ℕ} {ps : List PgPkt}
    (h : Walk cells addr ps z) (hz : z < efuseRealContentLen) :
    currentSizeLoop cells addr = z := by
  induction h with
  | stop hblank => exact currentSizeLoop_blank hblank
  | disabled hne hext hall hrest ih =>
    have hle := hrest.le
    rw [currentSizeLoop, if_pos (by omega), if_pos hne, if_pos hext, if_pos hall, ih hz]
  | @twoByte addr z ps hne hext hall hrest ih =>
    have hle := hrest.le
    have haddr : addr + 1 + efuseCalculateWordCnts (cells (addr + 1) &&& 0x0F) * 2 + 1 =
        addr + 2 + 2 * efuseCalculateWordCnts (cells (addr + 1) &&& 0x0F) := by omega
    rw [currentSizeLoop, if_pos (by omega), if_pos hne, if_pos hext,
      if_neg (by rw [hall]; exact Bool.false_ne_true), haddr, ih hz]
  | @oneByte addr z ps hne hext hrest ih =>
    have hle := hrest.le
    have haddr : addr + efuseCalculateWordCnts (cells addr &&& 0x0F) * 2 + 1 =
        addr + 1 + 2 * efuseCalculateWordCnts (cells addr &&& 0x0F) := by omega
    rw [currentSizeLoop, if_pos (by omega), if_pos hne,
      if_neg (by rw [hext]; exact Bool.false_ne_true), haddr, ih hz]

/-! ## The whole map -/

def applyAll (m : ℕ → UInt8) (ps : List PgPkt) : ℕ → UInt8 := ps.foldl (fun m p => p.apply m) m

theorem applyAll_congr {m m' : ℕ → UInt8} (ps : List PgPkt) {k : ℕ} (h : m k = m' k) :
    applyAll m ps k = applyAll m' ps k := by
  induction ps generalizing m m' with
  | nil => exact h
  | cons p ps ih =>
    refine ih ?_
    simp only [PgPkt.apply, h]

/-- A section that does not exist is skipped as if all its words were there. -/
theorem readSection_spec (cells : ℕ → UInt8) (offset wren : UInt8) (addr : ℕ) (w : EFuseWord)
    (hroom : addr + 2 * efuseCalculateWordCnts wren ≤ efuseRealContentLen88E)
    (hfull : efuseMaxSection88E ≤ offset.toNat → wren = 0) :
    (readSection true cells offset wren addr w).1 = addr + 2 * efuseCalculateWordCnts wren ∧
      ∀ k < efuseMapLen88E, efuseTbl (readSection true cells offset wren addr w).2 k =
        (pktAt cells addr offset wren).apply (efuseTbl w) k := by
  rcases Nat.lt_or_ge offset.toNat efuseMaxSection88E with hlt | hge
  · have hstarts := payload_starts cells addr offset wren
    obtain ⟨haddr, hw⟩ := readWords_spec offset.toNat w hstarts (by rwa [length_payload])
    rw [length_payload] at haddr
    simp only [readSection, if_pos hlt]
    refine ⟨haddr, ?_⟩
    intro k _
    rw [hw k, PgPkt.apply_eq]
    rfl
  · obtain rfl := hfull hge
    have hcnts : efuseCalculateWordCnts 0 = 4 := rfl
    have hskip : skipWords 4 0 addr = addr + 8 := by
      rw [hcnts] at hroom
      simp only [skipWords, UInt8.zero_and, if_true]
      split_ifs <;> omega
    simp only [readSection, if_neg (Nat.not_lt.mpr hge), if_true, hskip, hcnts, true_and]
    intro k hk
    have hne : k / 8 ≠ offset.toNat := by
      simp only [efuseMapLen88E, efuseMaxSection88E] at hk hge
      omega
    rw [PgPkt.apply, if_neg fun h => hne h.1]

theorem readSection_none (cells : ℕ → UInt8) (offset wren : UInt8) (addr : ℕ) (w : EFuseWord)
    (hnone : efuseCalculateWordCnts wren = 0)
    (hfull : efuseMaxSection88E ≤ offset.toNat → wren = 0) :
    readSection true cells offset wren addr w = (addr, w) := by
  have hlt : offset.toNat < efuseMaxSection88E := by
    by_contra hge
    rw [hfull (Nat.le_of_not_lt hge)] at hnone
    exact absurd hnone (by decide)
  have hpayload : payload (pktAt cells addr offset wren).data 4 0 wren = [] := by
    rw [← List.length_eq_zero_iff, length_payload, hnone]
  rw [readSection, if_pos hlt, readWords_none _ _ _ _ hpayload]

theorem readLoop_stop (skip : Bool) (rd : ℕ → UInt8) (header : UInt8) (addr : ℕ) (w : EFuseWord)
    (h : header = 0xFF ∨ efuseRealContentLen88E ≤ addr) :
    readLoop skip rd header addr w = (addr, w) := by
  rw [readLoop, if_neg]
  rintro ⟨hne, hlt⟩
  rcases h with rfl | hge
  · exact hne rfl
  · exact absurd hlt (Nat.not_lt.mpr hge)

theorem readLoop_walk {cells : ℕ → UInt8} {addr z : ℕ} {ps : List PgPkt}
    (h : Walk cells addr ps z) (hz : z ≤ efuseRealContentLen88E)
    (hfull : ∀ p ∈ ps, efuseMaxSection88E ≤ p.offset.toNat → p.wordEn = 0) (w : EFuseWord) :
    (readLoop true cells (cells addr) (nextHeader cells addr) w).1 = z ∧
      ∀ k < efuseMapLen88E,
        efuseTbl (readLoop true cells (cells addr) (nextHeader cells addr) w).2 k =
          applyAll (efuseTbl w) ps k := by
  induction h generalizing w with
  | stop hblank =>
    have hnext : nextHeader cells _ = _ := if_neg fun h => h.1 hblank
    rw [readLoop_stop _ _ _ _ _ (.inl hblank), hnext]
    exact ⟨rfl, fun _ _ => rfl⟩
  | @disabled addr z ps hne hext hall hrest ih =>
    have hle := hrest.le
    rw [nextHeader_of_ne hne (by omega), readLoop, if_pos ⟨hne, by omega⟩]
    simp only [readPacket, hext, hall, if_true]
    exact ih hz hfull w
  | @twoByte addr z ps hne hext hall hrest ih =>
    have hle := hrest.le
    obtain ⟨haddr, hw⟩ := readSection_spec cells (twoByteOffset (cells addr) (cells (addr + 1)))
      (cells (addr + 1) &&& 0x0F) (addr + 1 + 1) w (by omega) (hfull _ List.mem_cons_self)
    obtain ⟨hend, hrest'⟩ := ih hz (fun p hp => hfull p (List.mem_cons_of_mem _ hp))
      (readSection true cells (twoByteOffset (cells addr) (cells (addr + 1)))
        (cells (addr + 1) &&& 0x0F) (addr + 1 + 1) w).2
    rw [nextHeader_of_ne hne (by omega), readLoop, if_pos ⟨hne, by omega⟩]
    simp only [readPacket, hext, hall, if_true, Bool.false_eq_true, if_false]
    rw [haddr]
    refine ⟨hend, ?_⟩
    intro k hk
    rw [hrest' k hk]
    exact applyAll_congr ps (hw k hk)
  | @oneByte addr z ps hne hext hrest ih =>
    have hle := hrest.le
    obtain ⟨haddr, hw⟩ := readSection_spec cells (oneByteOffset (cells addr))
      (cells addr &&& 0x0F) (addr + 1) w (by omega) (hfull _ List.mem_cons_self)
    obtain ⟨hend, hrest'⟩ := ih hz (fun p hp => hfull p (List.mem_cons_of_mem _ hp))
      (readSection true cells (oneByteOffset (cells addr)) (cells addr &&& 0x0F) (addr + 1) w).2
    have hloop : readLoop true cells (cells addr) (nextHeader cells addr) w =
        readLoop true cells
          (cells (addr + 1 + 2 * efuseCalculateWordCnts (cells addr &&& 0x0F)))
          (nextHeader cells (addr + 1 + 2 * efuseCalculateWordCnts (cells addr &&& 0x0F)))
          (readSection true cells (oneByteOffset (cells addr)) (cells addr &&& 0x0F)
            (addr + 1) w).2 := by
      rw [nextHeader_of_ne hne (by omega)]
      rcases Nat.lt_or_ge (addr + 1) efuseRealContentLen88E with hlt | hge
      · rw [readLoop, if_pos ⟨hne, hlt⟩]
        simp only [readPacket, hext, Bool.false_eq_true, if_false]
        rw [haddr]
      · have hnone : efuseCalculateWordCnts (cells addr &&& 0x0F) = 0 := by omega
        rw [readSection_none _ (oneByteOffset (cells addr)) _ _ _ hnone
          (hfull _ List.mem_cons_self), hnone, nextHeader_of_ge (by omega), readLoop_stop _ _ _ _ _ (.inr hge),
          readLoop_stop _ _ _ _ _ (.inr (by omega))]
    rw [hloop]
    refine ⟨hend, ?_⟩
    intro k hk
    rw [hrest' k hk]
    exact applyAll_congr ps (hw k hk)

/-! ## The walk of one section -/

def isBlank (p : PgPkt) : Bool := (payload p.data 4 0 p.wordEn).all (· == 0xFF)

/-- What a packet does to `tmpdata` and `data`. -/
def collect (offset : UInt8) (r : (ℕ → UInt8) × (ℕ → UInt8)) (p : PgPkt) :
    (ℕ → UInt8) × (ℕ → UInt8) :=
  if p.offset = offset then
    let tmpdata := fun k => ((payload p.data 4 0 p.wordEn)[k]?).getD (r.1 k)
    (tmpdata, if isBlank p then r.2 else efuseWordEnableDataRead p.wordEn tmpdata r.2)
  else r

theorem readTmpdata_eq (cells : ℕ → UInt8) (addr : ℕ) (offset wordEn : UInt8)
    (tmpdata : ℕ → UInt8) :
    readTmpdata cells addr (efuseCalculateWordCnts wordEn * 2) tmpdata =
      fun k => ((payload (pktAt cells addr offset wordEn).data 4 0 wordEn)[k]?).getD
        (tmpdata k) := by
  have hstarts := payload_starts cells addr offset wordEn
  funext k
  simp only [readTmpdata]
  split_ifs with hk
  · rw [hstarts k (by rw [length_payload]; omega), Option.getD_some]
  · rw [List.getElem?_eq_none (by rw [length_payload]; omega), Option.getD_none]

theorem isBlank_pktAt (cells : ℕ → UInt8) (addr : ℕ) (offset wordEn : UInt8) :
    isBlank (pktAt cells addr offset wordEn) = false ↔
      ∃ k < efuseCalculateWordCnts wordEn * 2, cells (addr + k) ≠ 0xFF := by
  have hstarts := payload_starts cells addr offset wordEn
  have hlen := length_payload (pktAt cells addr offset wordEn).data wordEn
  have hmem : isBlank (pktAt cells addr offset wordEn) = false ↔
      ∃ b ∈ payload (pktAt cells addr offset wordEn).data 4 0 wordEn, b ≠ 0xFF := by
    simp [isBlank, pktAt]
  rw [hmem]
  constructor
  · rintro ⟨b, hb, hne⟩
    obtain ⟨k, hk, rfl⟩ := List.getElem_of_mem hb
    have hcell := hstarts k hk
    rw [List.getElem?_eq_getElem hk] at hcell
    refine ⟨k, by omega, ?_⟩
    rwa [← Option.some.inj hcell]
  · rintro ⟨k, hk, hne⟩
    have hcell := hstarts k (by omega)
    exact ⟨cells (addr + k), List.mem_of_getElem? hcell, hne⟩

theorem pgReadLoop_some {cells : ℕ → UInt8} {offset : UInt8} {s s' : PgRead}
    (hlt : s.efuseAddr < efuseRealContentLen) (h : pgReadRound cells offset s = some s') :
    pgReadLoop cells offset s = pgReadLoop cells offset s' := by
  rw [pgReadLoop, dif_pos hlt]
  split
  · next s'' h' =>
    rw [h] at h'
    obtain rfl := Option.some.inj h'
    rfl
  · next h' => rw [h] at h'; cases h'

theorem pgReadLoop_none {cells : ℕ → UInt8} {offset : UInt8} {s : PgRead}
    (h : pgReadRound cells offset s = none) : pgReadLoop cells offset s = s := by
  rw [pgReadLoop]
  split
  · split
    · next h' => rw [h] at h'; cases h'
    · rfl
  · rfl

theorem pgReadLoop_readHeader (cells : ℕ → UInt8) (offset : UInt8) (s : PgRead) (addr : ℕ)
    (hoffset hworden : UInt8) (haddr : addr < efuseRealContentLen) :
    let r := collect offset (s.tmpdata, s.data) (pktAt cells (addr + 1) hoffset hworden)
    pgReadLoop cells offset (readHeader cells offset s addr hoffset hworden) =
      pgReadLoop cells offset ⟨.header, addr + 1 + 2 * efuseCalculateWordCnts hworden, hworden,
        efuseCalculateWordCnts hworden, r.1, r.2⟩ := by
  have hend : addr + efuseCalculateWordCnts hworden * 2 + 1 =
      addr + 1 + 2 * efuseCalculateWordCnts hworden := by omega
  have htmp := readTmpdata_eq cells (addr + 1) hoffset hworden s.tmpdata
  have hblank := isBlank_pktAt cells (addr + 1) hoffset hworden
  by_cases ho : hoffset = offset
  · by_cases hdata : ∃ k < efuseCalculateWordCnts hworden * 2, cells (addr + 1 + k) ≠ 0xFF
    · have hsome := hblank.mpr hdata
      simp only [readHeader, if_pos ho, if_pos hdata]
      rw [pgReadLoop_some haddr rfl]
      simp only [collect, show (pktAt cells (addr + 1) hoffset hworden).offset = offset from ho,
        if_true, hsome, Bool.false_eq_true, if_false, hend, htmp]
      rfl
    · have hnone : isBlank (pktAt cells (addr + 1) hoffset hworden) = true := by
        rw [← Bool.not_eq_false, hblank]
        exact hdata
      simp only [readHeader, if_pos ho, if_neg hdata, collect,
        show (pktAt cells (addr + 1) hoffset hworden).offset = offset from ho, if_true, hnone,
        hend, htmp]
      rfl
  · simp only [readHeader, if_neg ho, collect,
      show (pktAt cells (addr + 1) hoffset hworden).offset ≠ offset from ho, if_false, hend]

theorem pgReadLoop_walk {cells : ℕ → UInt8} {addr z : ℕ} {ps : List PgPkt}
    (h : Walk cells addr ps z) (hz : z < efuseRealContentLen) (offset : UInt8) (s : PgRead)
    (hs : s.readState = .header) (haddr : s.efuseAddr = addr) :
    (pgReadLoop cells offset s).data = (ps.foldl (collect offset) (s.tmpdata, s.data)).2 := by
  induction h generalizing s with
  | stop hblank =>
    have hnone : pgReadRound cells offset s = none := by
      simp [pgReadRound, hs, haddr, hblank]
    rw [pgReadLoop_none hnone]
    rfl
  | @disabled addr z ps hne hext hall hrest ih =>
    have hle := hrest.le
    have hround : pgReadRound cells offset s = some { s with efuseAddr := s.efuseAddr + 2 } := by
      simp [pgReadRound, hs, haddr, hne, hext, hall]
    rw [pgReadLoop_some (by omega) hround]
    exact ih hz _ hs (congrArg (· + 2) haddr)
  | @twoByte addr z ps hne hext hall hrest ih =>
    have hle := hrest.le
    have hround : pgReadRound cells offset s = some (readHeader cells offset s (addr + 1)
        (twoByteOffset (cells addr) (cells (addr + 1))) (cells (addr + 1) &&& 0x0F)) := by
      simp [pgReadRound, hs, haddr, hne, hext, hall]
    rw [pgReadLoop_some (by omega) hround, pgReadLoop_readHeader _ _ _ _ _ _ (by omega)]
    exact ih hz _ rfl rfl
  | @oneByte addr z ps hne hext hrest ih =>
    have hle := hrest.le
    have hround : pgReadRound cells offset s = some (readHeader cells offset s addr
        (oneByteOffset (cells addr)) (cells addr &&& 0x0F)) := by
      simp [pgReadRound, hs, haddr, hne, hext]
    rw [pgReadLoop_some (by omega) hround, pgReadLoop_readHeader _ _ _ _ _ _ (by omega)]
    exact ih hz _ rfl rfl

/-! ## Agreement -/

def carries (offset : UInt8) (j : ℕ) (p : PgPkt) : Bool := p.offset == offset && enabled p.wordEn j

/-- The last packet with the word has all words before it too and is not blank, or no packet
with the word says anything. -/
def WordAgrees (ps : List PgPkt) (offset : UInt8) (j : ℕ) : Prop :=
  ∀ p, (ps.filter (carries offset j)).getLast? = some p →
    isBlank p = false ∧ (∀ i < j, enabled p.wordEn i = true) ∨
      ∀ q ∈ ps.filter (carries offset j), isBlank q = true

theorem payload_getElem (data : ℕ → UInt8) {wordEn : UInt8} {k : ℕ} (hk : k < 8)
    (hen : ∀ i ≤ k / 2, enabled wordEn i = true) :
    (payload data 4 0 wordEn)[k]? = some (data k) := by
  have h0 := hen 0 (Nat.zero_le _)
  rw [payload_eq]
  rcases (by omega : k / 2 = 0 ∨ k / 2 = 1 ∨ k / 2 = 2 ∨ k / 2 = 3) with hj | hj | hj | hj
  · obtain rfl | rfl : k = 0 ∨ k = 1 := by omega
    all_goals simp [List.range_succ, h0]
  · have h1 := hen 1 hj.ge
    obtain rfl | rfl : k = 2 ∨ k = 3 := by omega
    all_goals simp [List.range_succ, h0, h1]
  · have h1 := hen 1 (by omega)
    have h2 := hen 2 hj.ge
    obtain rfl | rfl : k = 4 ∨ k = 5 := by omega
    all_goals simp [List.range_succ, h0, h1, h2]
  · have h1 := hen 1 (by omega)
    have h2 := hen 2 (by omega)
    have h3 := hen 3 hj.ge
    obtain rfl | rfl : k = 6 ∨ k = 7 := by omega
    all_goals simp [List.range_succ, h0, h1, h2, h3]

theorem data_of_isBlank {p : PgPkt} (h : isBlank p = true) {k : ℕ} (hk : k < 8)
    (hen : enabled p.wordEn (k / 2) = true) : p.data k = 0xFF := by
  have hall : ∀ b ∈ payload p.data 4 0 p.wordEn, b = 0xFF := by
    simpa [isBlank] using h
  apply hall
  rw [payload_eq, List.mem_flatMap]
  refine ⟨k / 2, List.mem_range.mpr (by omega), ?_⟩
  rw [if_pos hen]
  rcases Nat.mod_two_eq_zero_or_one k with hpar | hpar
  · rw [show 2 * (k / 2) = k by omega]
    exact List.mem_cons_self
  · rw [show 2 * (k / 2) + 1 = k by omega]
    exact List.mem_cons_of_mem _ List.mem_cons_self

theorem collect_of_not_carries {offset : UInt8} {p : PgPkt} {k : ℕ}
    (h : carries offset (k / 2) p = true → isBlank p = true) (r : (ℕ → UInt8) × (ℕ → UInt8)) :
    (collect offset r p).2 k = r.2 k := by
  simp only [collect]
  split_ifs with ho hblank
  · rfl
  · have hen : ¬ enabled p.wordEn (k / 2) = true := by
      intro hen
      exact hblank (h (by simp [carries, ho, hen]))
    simp only [efuseWordEnableDataRead, hen, Bool.false_eq_true, and_false, if_false]
  · rfl

theorem collect_of_isBlank {ps : List PgPkt} {offset : UInt8} {k : ℕ}
    (h : ∀ q ∈ ps.filter (carries offset (k / 2)), isBlank q = true)
    (r : (ℕ → UInt8) × (ℕ → UInt8)) : (ps.foldl (collect offset) r).2 k = r.2 k := by
  induction ps generalizing r with
  | nil => rfl
  | cons p ps ih =>
    have hp : carries offset (k / 2) p = true → isBlank p = true := by
      intro hc
      exact h p (List.mem_filter.mpr ⟨List.mem_cons_self, hc⟩)
    have hps : ∀ q ∈ ps.filter (carries offset (k / 2)), isBlank q = true := by
      intro q hq
      obtain ⟨hmem, hc⟩ := List.mem_filter.mp hq
      exact h q (List.mem_filter.mpr ⟨List.mem_cons_of_mem _ hmem, hc⟩)
    rw [List.foldl_cons, ih hps, collect_of_not_carries hp]

theorem apply_section (m : ℕ → UInt8) (p : PgPkt) {offset : UInt8} {k : ℕ} (hk : k < 8) :
    p.apply m (8 * offset.toNat + k) =
      if carries offset (k / 2) p = true then p.data k else m (8 * offset.toNat + k) := by
  have hdiv : (8 * offset.toNat + k) / 8 = offset.toNat := by omega
  have hmod : (8 * offset.toNat + k) % 8 = k := by omega
  simp only [PgPkt.apply, hdiv, hmod, carries, Bool.and_eq_true, beq_iff_eq, UInt8.toNat_inj,
    eq_comm (a := offset)]

/-- The induction adds the last packet, which decides when it carries the word. -/
theorem section_agrees {ps : List PgPkt} {offset : UInt8} {k : ℕ} (hk : k < 8)
    (h : WordAgrees ps offset (k / 2)) (r : (ℕ → UInt8) × (ℕ → UInt8)) (m : ℕ → UInt8)
    (hr : r.2 k = 0xFF) (hm : m (8 * offset.toNat + k) = 0xFF) :
    (ps.foldl (collect offset) r).2 k = applyAll m ps (8 * offset.toNat + k) := by
  induction ps using List.reverseRecOn with
  | nil => rw [List.foldl_nil, hr, applyAll, List.foldl_nil, hm]
  | append_singleton ps p ih =>
    rw [List.foldl_append, List.foldl_cons, List.foldl_nil, applyAll, List.foldl_append,
      List.foldl_cons, List.foldl_nil, apply_section _ _ hk]
    by_cases hc : carries offset (k / 2) p = true
    · have hlast : (List.filter (carries offset (k / 2)) (ps ++ [p])).getLast? = some p := by
        simp [List.filter_append, hc]
      obtain ⟨ho, hen⟩ : p.offset = offset ∧ enabled p.wordEn (k / 2) = true := by
        simpa [carries] using hc
      rw [if_pos hc]
      rcases h p hlast with ⟨hsome, hbefore⟩ | hblank
      · have hfull : ∀ i ≤ k / 2, enabled p.wordEn i = true := by
          intro i hi
          rcases Nat.lt_or_eq_of_le hi with hlt | rfl
          · exact hbefore i hlt
          · exact hen
        simp only [collect, if_pos ho, hsome, Bool.false_eq_true, if_false,
          efuseWordEnableDataRead, if_pos (And.intro hk hen), payload_getElem p.data hk hfull,
          Option.getD_some]
      · have hp : isBlank p = true := hblank p (by simp [hc])
        have hps : ∀ q ∈ ps.filter (carries offset (k / 2)), isBlank q = true := by
          intro q hq
          exact hblank q (by rw [List.filter_append]; exact List.mem_append_left _ hq)
        rw [collect_of_not_carries fun _ => hp, collect_of_isBlank hps, hr,
          data_of_isBlank hp hk hen]
    · have hps : List.filter (carries offset (k / 2)) (ps ++ [p]) =
          ps.filter (carries offset (k / 2)) := by
        simp [List.filter_append, hc]
      rw [WordAgrees, hps] at h
      rw [if_neg hc, collect_of_not_carries fun hcarry => absurd hcarry hc]
      exact ih h

def Agree (cells : ℕ → UInt8) : Prop :=
  let hal := halEfuseReadEFuse88E ⟨cells, 0⟩ 0 efuseMapLen88E fun _ => 0xFF
  (∀ s < efuseMaxSection88E, ∀ data, ∀ k < 8,
    hal.1 (8 * s + k) = (efusePgPacketRead cells (UInt8.ofNat s) data).2 k) ∧
    hal.2.efuseUsedBytes = (efuseGetCurrentSize ⟨cells, 0⟩).1

theorem halEfuseReadEFuse88E_walk {cells : ℕ → UInt8} {z : ℕ} {ps : List PgPkt}
    (h : Walk cells 0 ps z) (hz : z ≤ efuseRealContentLen88E)
    (hfull : ∀ p ∈ ps, efuseMaxSection88E ≤ p.offset.toNat → p.wordEn = 0) :
    let hal := halEfuseReadEFuse88E ⟨cells, 0⟩ 0 efuseMapLen88E fun _ => 0xFF
    hal.2.efuseUsedBytes = z ∧
      ∀ k < efuseMapLen88E, hal.1 k = applyAll (fun _ => 0xFF) ps k := by
  have hlen : ¬ efuseMapLen88E < 0 + efuseMapLen88E := by decide
  obtain ⟨hend, hmap⟩ := readLoop_walk h hz hfull fun _ _ => 0xFFFF
  simp only [halEfuseReadEFuse88E, if_neg hlen]
  by_cases hblank : cells 0 = 0xFF
  · rw [if_pos hblank]
    cases h with
    | stop => exact ⟨rfl, fun _ _ => rfl⟩
    | disabled hne => exact absurd hblank hne
    | twoByte hne => exact absurd hblank hne
    | oneByte hne => exact absurd hblank hne
  · rw [nextHeader_of_ne hblank (by decide)] at hend hmap
    rw [if_neg hblank]
    refine ⟨hend, ?_⟩
    intro k hk
    simp only [copyOut, if_pos hk, Nat.zero_add]
    rw [hmap k hk, efuseTbl_blank]

instance (ps : List PgPkt) (offset : UInt8) (j : ℕ) : Decidable (WordAgrees ps offset j) :=
  match hlast : (ps.filter (carries offset j)).getLast? with
  | none => .isTrue fun p hp => by rw [hlast] at hp; cases hp
  | some p =>
    decidable_of_iff (isBlank p = false ∧ (∀ i < j, enabled p.wordEn i = true) ∨
      ∀ q ∈ ps.filter (carries offset j), isBlank q = true)
      ⟨fun h q hq => by rw [hlast] at hq; obtain rfl := Option.some.inj hq; exact h,
        fun h => h p hlast⟩

def content (bs : List UInt8) (addr : ℕ) : UInt8 := bs.getD addr 0xFF

/-- A full section, a header without words, half a section, a section that does not exist and
a blank packet. -/
def mixed : ℕ → UInt8 := content [0x30, 1, 2, 3, 4, 5, 6, 7, 8, 0x2F, 0x0F, 0x8F, 0x2C, 9, 10,
  11, 12, 0x0F, 0x80, 1, 2, 3, 4, 5, 6, 7, 8, 0x5E, 0xFF, 0xFF]

theorem walk_mixed : Walk mixed 0 [pktAt mixed 1 3 0, pktAt mixed 13 20 0xC, pktAt mixed 19 64 0,
    pktAt mixed 28 5 0xE] 30 :=
  .oneByte (by decide) (by decide) <| .disabled (by decide) (by decide) (by decide) <|
    .twoByte (by decide) (by decide) (by decide) <|
      .twoByte (by decide) (by decide) (by decide) <|
        .oneByte (by decide) (by decide) <| .stop (by decide)

end Rtl8189.EfuseAgree
