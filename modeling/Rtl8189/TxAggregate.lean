import Rtl8189.Coalesce
import Rtl8189.XmitPool

/-!
# SDIO transmit aggregates

Where `xmit_xmitframes` puts the frames of a transmit buffer, and what it writes
down about the buffer that goes out. A frame is taken for its last fragment: the
room and the pages are counted from `last_txcmdsz`, which is the length of a
frame only when it has a single fragment.
-/
namespace Rtl8189.TxAggregate

open Coalesce XmitPool

def maxXmitbufSz : ℕ := 20480

/-- A data frame with its packet. The header is one of a data frame. -/
structure DataFrame where
  id : ℕ := 0
  extTag : Bool := false
  allocAddr : Bool := false
  qsel : ℕ := 0
  attrib : PktAttrib := {}
  payload : List UInt8
  /-- What `rtw_make_wlanhdr` and `xmitframe_addmic` need is there. -/
  makeWlanhdr : Bool := true
  micKeySet : Bool := true
  hdrlen_le : attrib.hdrlen ≤ 36 := by decide

def DataFrame.xmitFrame (f : DataFrame) : XmitFrame where
  id := f.id
  extTag := f.extTag
  allocAddr := f.allocAddr
  qsel := f.qsel
  hdrlen := f.attrib.hdrlen
  ivLen := f.attrib.encrypt.ivLen
  icvLen := f.attrib.encrypt.icvLen
  pktlen := f.payload.length
  encrypt := f.attrib.encrypt
  bswenc := f.attrib.bswenc

/-- Positions are counted from `phead`, which is well aligned. -/
def DataFrame.coalesce (fragLen : ℤ) (bufAddr : ℕ) (f : DataFrame) : Option TxLayout :=
  rtwXmitframeCoalesce ⟨some bufAddr, f.makeWlanhdr, f.micKeySet⟩ f.attrib fragLen f.payload

inductive TxPipe where
  | high
  | mid
  | low
  deriving DecidableEq

/-- What the driver is set up with. A threshold is refused outside of
`MIN_FRAG_THRESHOLD` and `MAX_FRAG_THRESHOLD`. -/
structure TxSetup where
  env : XmitEnv := {}
  numQ : TxPipe → UInt8
  numPubQ : UInt8
  queue2Pipe : Fin 4 → TxPipe
  txOqtMaxFreeSpace : UInt8
  fragLen : ℤ := 2346
  fragLen_low : 256 ≤ fragLen := by decide
  fragLen_high : fragLen ≤ 2346 := by decide

/-- `rtw_hal_set_sdio_tx_max_length` with a divisor of 2. -/
def TxSetup.sdioTxMaxLen (s : TxSetup) (q : TxPipe) : ℕ :=
  let len := ((s.numQ q).toNat + s.numPubQ.toNat) / 2 * 128
  if maxXmitbufSz < len then maxXmitbufSz else len

def TxSetup.xmitEnv (s : TxSetup) : XmitEnv :=
  { s.env with
    pageSize := 128
    maxXmitLen := fun ac => s.sdioTxMaxLen (s.queue2Pipe ac)
    txOqtMaxFreeSpace := s.txOqtMaxFreeSpace.toNat }

/-- A frame in a buffer, as `rtw_xmitframe_coalesce` left it. -/
structure Placed where
  frame : DataFrame
  bufAddr : ℕ
  frags : List Frag
  lastTxcmdsz : ℕ

def Placed.txlen (p : Placed) : ℕ := 32 + p.lastTxcmdsz

def Placed.fragEnd (p : Placed) (g : Frag) : ℤ :=
  g.memStart + p.frame.attrib.hdrlen + p.frame.attrib.ivLen + g.body.length +
    micLen p.frame.attrib g + p.frame.attrib.swIcv

def place (f : DataFrame) (bufAddr : ℕ) (t : TxLayout) : Placed :=
  ⟨f, bufAddr, t.frags, t.lastTxcmdsz.toNat⟩

structure PendingBuf where
  len : ℕ
  pgNum : UInt8
  aggNum : UInt8
  frames : List Placed

/-- `xmit_xmitframes` on the way, with the frames in the open buffer. -/
structure XmitState where
  ctx : XmitCtx
  ptail : ℕ := 0
  frames : List Placed := []
  pending : List PendingBuf := []

def closed (s : XmitState) (b : XmitBuf) : List PendingBuf :=
  if 0 < b.len ∧ b.privData.isSome then
    [⟨b.len, UInt8.ofNat b.pgNum, UInt8.ofNat s.ctx.aggNum, s.frames⟩]
  else []

/-- `prepareXmitbuf`, with the buffer it closes. -/
def prepare (env : XmitEnv) (ac : Fin 4) (single : Bool) (s : XmitState) (f : DataFrame) :
    XmitState × Option XmitBuf :=
  let r := prepareXmitbuf env ac single s.ctx f.xmitFrame
  match s.ctx.pxmitbuf with
  | none => ({ s with ctx := r.1, ptail := 0, frames := [] }, r.2)
  | some b =>
    if bufUnfit env ac s.ctx b f.xmitFrame then
      (⟨r.1, 0, [], s.pending ++ closed s b⟩, r.2)
    else ({ s with ctx := r.1 }, r.2)

/-- `xmitOne`, with the frame at the tail of the buffer. -/
def xmit (env : XmitEnv) (fragLen : ℤ) (s : XmitState) (b : XmitBuf) (f : DataFrame) :
    XmitState :=
  let t := f.coalesce fragLen s.ptail
  let last := t.map fun t => t.lastTxcmdsz.toNat
  let ctx := xmitOne { env with coalesce := fun _ => last } s.ctx b f.xmitFrame
  match t with
  | none => { s with ctx }
  | some t =>
    let p := place f s.ptail t
    { s with ctx, ptail := s.ptail + rnd8 p.txlen, frames := s.frames ++ [p] }

/-- `frameLoop` -/
def frames (env : XmitEnv) (fragLen : ℤ) (ac : Fin 4) (single : Bool) :
    XmitState → List DataFrame → XmitState × List DataFrame
  | s, [] => (s, [])
  | s, f :: l =>
    match prepare env ac single s f with
    | (s, none) => (s, f :: l)
    | (s, some b) => frames env fragLen ac single (xmit env fragLen s b f) l

/-- `staLoop` -/
def stations (env : XmitEnv) (fragLen : ℤ) (ac : Fin 4) (single : Bool) :
    XmitState → List (List DataFrame) → XmitState × List (List DataFrame)
  | s, [] => (s, [])
  | s, q :: qs =>
    let r := frames env fragLen ac single s q
    let err := r.1.ctx.err
    if r.2.isEmpty then
      if err ≠ .none then (r.1, qs) else stations env fragLen ac single r.1 qs
    else if err = .txBalance then (r.1, qs ++ [r.2])
    else if err ≠ .none then (r.1, r.2 :: qs)
    else
      let t := stations env fragLen ac single r.1 qs
      (t.1, r.2 :: t.2)

def dump (s : XmitState) : XmitState :=
  match s.ctx.pxmitbuf with
  | none => s
  | some b => ⟨dumpXmitbuf s.ctx, 0, [], s.pending ++ closed s b⟩

structure HwQueue where
  accnt : ℤ := 0
  staQueue : List (List DataFrame) := []

/-- `acLoop` -/
def categories (env : XmitEnv) (fragLen : ℤ) :
    List (Fin 4) → (Fin 4 → HwQueue) → XmitState → (Fin 4 → HwQueue) × XmitState
  | [], hw, s => (hw, s)
  | i :: is, hw, s =>
    if env.waitMore i && 0 < (hw i).accnt && (hw i).accnt < 5 then
      (hw, { s with ctx := { s.ctx with err := .txWaitMoreFrame } })
    else
      let r := stations env fragLen i ((hw i).staQueue.length ≤ 1)
        { s with ctx := { s.ctx with accnt := (hw i).accnt } } (hw i).staQueue
      let hw := Function.update hw i ⟨r.1.ctx.accnt, r.2⟩
      let s := dump r.1
      if s.ctx.err = .xbufUnavail then (hw, s) else categories env fragLen is hw s

/-- `xmitXmitframes`, with the buffers that go out. -/
def TxSetup.xmitXmitframes (s : TxSetup) (hw : Fin 4 → HwQueue) (pool : FramePool) :
    (Fin 4 → HwQueue) × XmitState :=
  categories s.xmitEnv s.fragLen
    ((List.finRange 4).map (if s.env.wifiSpec then s.env.wmmParaSeq else id)) hw
    { ctx := { pool := pool } }

/-- The frames of the buffer fit in it, none reaches into the next one, and their
number and the pages of the buffer are written down right. -/
structure WellLaid (c : PendingBuf) : Prop where
  len_le : c.len ≤ maxXmitbufSz
  aggNum : c.frames.length = c.aggNum.toNat
  inside : ∀ p ∈ c.frames, ∀ g ∈ p.frags, p.fragEnd g ≤ c.len
  disjoint : c.frames.Pairwise fun p q => ∀ g ∈ p.frags, p.fragEnd g ≤ q.bufAddr
  pages : c.len ≤ 128 * c.pgNum.toNat

def DataFrame.Fits (fragLen : ℤ) (f : DataFrame) : Prop :=
  OneFragment f.attrib fragLen f.payload ∧ 32 + wlanPktSize f.xmitFrame ≤ maxXmitbufSz

/-! ## One frame -/

theorem le_rnd4 (x : ℤ) : x ≤ rnd4 x := by
  simp only [rnd4]
  split_ifs <;> omega

theorem coalesceLoop_last {a : PktAttrib} {fragLen : ℤ} (h : Sizes a fragLen) {fuel : ℕ}
    (frgInx : ℕ) (memStart : ℤ) (hdr : WlanHdr) {pkt : List UInt8} (hfuel : pkt.length < fuel) :
    let c := coalesceLoop a fragLen fuel frgInx memStart hdr pkt
    ∃ g ∈ c.frags, g.hdr.mFrag = false ∧ memStart ≤ g.memStart ∧
      c.lastTxcmdsz = a.hdrlen + a.ivLen + g.body.length + a.swIcv := by
  induction fuel generalizing frgInx memStart hdr pkt with
  | zero => omega
  | succ fuel ih =>
    have hpos := roomOf_pos h frgInx
    have hiv := a.ivLen_le.1
    have hsw := a.swIcv_le.1
    rw [coalesceLoop_succ h]
    split_ifs with hlast
    · refine ⟨_, List.mem_singleton_self _, rfl, le_rfl, ?_⟩
      simp only [List.length_append]
      omega
    · rw [not_or] at hlast
      have hrest : (pkt.drop (roomOf a fragLen frgInx)).length < fuel := by
        rw [List.length_drop]
        omega
      have hstart := le_rnd4 (memStart + a.hdrlen + a.ivLen + (llcOf a frgInx).length +
        roomOf a fragLen frgInx + a.swIcv)
      obtain ⟨g, hg, hmore, hmem, hsize⟩ := ih (frgInx + 1)
        (rnd4 (memStart + a.hdrlen + a.ivLen + (llcOf a frgInx).length +
          roomOf a fragLen frgInx + a.swIcv) + 32) { hdr with mFrag := true } hrest
      exact ⟨g, List.mem_cons_of_mem _ hg, hmore, by omega, hsize⟩

section Frame

variable {fragLen : ℤ} {f : DataFrame} {bufAddr : ℕ} {t : TxLayout}

/-- The length that `xmit_xmitframes` reckons with beforehand. -/
theorem wlanPktSize_eq (f : DataFrame) :
    (wlanPktSize f.xmitFrame : ℤ) = f.attrib.hdrlen + f.attrib.ivLen + 8 + f.attrib.swIcv +
      f.payload.length + if f.attrib.encrypt = .tkip then 8 else 0 := by
  have hsize : wlanPktSize f.xmitFrame = f.attrib.hdrlen + f.attrib.encrypt.ivLen + (6 + 2) +
      f.payload.length + (if f.attrib.encrypt = .tkip then 8 else 0) +
        if f.attrib.bswenc then f.attrib.encrypt.icvLen else 0 := rfl
  rw [hsize]
  simp only [PktAttrib.ivLen, PktAttrib.swIcv, PktAttrib.icvLen]
  split_ifs <;> omega

theorem place_one (hlow : 256 ≤ fragLen) (hhigh : fragLen ≤ 2346)
    (ht : f.coalesce fragLen bufAddr = some t) (hone : OneFragment f.attrib fragLen f.payload) :
    (place f bufAddr t).lastTxcmdsz = wlanPktSize f.xmitFrame ∧
      ∀ g ∈ (place f bufAddr t).frags,
        (place f bufAddr t).fragEnd g = bufAddr + (place f bufAddr t).txlen := by
  obtain ⟨hfrags, hlast, -, -⟩ := rtwXmitframeCoalesce_some rfl ht
  rw [coalesceLoop_one ⟨hlow, hhigh, f.hdrlen_le⟩ hone] at hfrags hlast
  have hsize : t.lastTxcmdsz = wlanPktSize f.xmitFrame := by
    rw [hlast, wlanPktSize_eq]
  have hlen : (place f bufAddr t).lastTxcmdsz = wlanPktSize f.xmitFrame := by
    simp only [place, hsize, Int.toNat_natCast]
  refine ⟨hlen, ?_⟩
  intro g hg
  obtain rfl : g = ⟨bufAddr + 32, {}, rtwPutSnap f.attrib.etherType ++ f.payload⟩ := by
    simpa only [place, hfrags, List.mem_singleton] using hg
  have hbody : (rtwPutSnap f.attrib.etherType ++ f.payload).length = 8 + f.payload.length := by
    rw [List.length_append, rtwPutSnap_length]
  have hpkt := wlanPktSize_eq f
  simp only [Placed.fragEnd, Placed.txlen, hbody, micLen, place, true_and]
  omega

theorem place_many (hlow : 256 ≤ fragLen) (hhigh : fragLen ≤ 2346)
    (ht : f.coalesce fragLen bufAddr = some t)
    (hmany : ¬OneFragment f.attrib fragLen f.payload) :
    ∃ g ∈ (place f bufAddr t).frags,
      bufAddr + (place f bufAddr t).txlen + 8 ≤ (place f bufAddr t).fragEnd g := by
  have hs : Sizes f.attrib fragLen := ⟨hlow, hhigh, f.hdrlen_le⟩
  have hpos := roomOf_pos hs 0
  have hiv := f.attrib.ivLen_le.1
  have hsw := f.attrib.swIcv_le.1
  obtain ⟨hfrags, hlast, -, -⟩ := rtwXmitframeCoalesce_some rfl ht
  rw [OneFragment, ← le_roomOf_iff hs] at hmany
  rw [coalesceLoop_succ hs, if_neg hmany] at hfrags hlast
  rw [not_or, not_le] at hmany
  have hrest : (f.payload.drop (roomOf f.attrib fragLen 0)).length < f.payload.length := by
    rw [List.length_drop]
    omega
  have hstart := le_rnd4 (bufAddr + 32 + f.attrib.hdrlen + f.attrib.ivLen +
    (llcOf f.attrib 0).length + roomOf f.attrib fragLen 0 + f.attrib.swIcv)
  obtain ⟨g, hg, hmore, hmem, hsize⟩ := coalesceLoop_last hs (0 + 1)
    (rnd4 (bufAddr + 32 + f.attrib.hdrlen + f.attrib.ivLen + (llcOf f.attrib 0).length +
      roomOf f.attrib fragLen 0 + f.attrib.swIcv) + 32) { mFrag := true } hrest
  refine ⟨g, ?_, ?_⟩
  · simp only [place, hfrags]
    exact List.mem_cons_of_mem _ hg
  · simp only [Placed.fragEnd, Placed.txlen, place, micLen, hmore, true_and]
    simp only [hsize] at hlast
    omega

end Frame

/-! ## The open buffer -/

theorem pageNum_eq (len : ℕ) : pageNum len 128 = (len + 127) / 128 := by
  have hmod : len &&& (128 - 1) = len % 128 := Nat.and_two_pow_sub_one_eq_mod len 7
  simp only [pageNum, hmod]
  split_ifs <;> omega

theorem sdioTxMaxLen_le (s : TxSetup) (q : TxPipe) : s.sdioTxMaxLen q ≤ maxXmitbufSz := by
  simp only [TxSetup.sdioTxMaxLen]
  split_ifs with hlen
  · exact le_rfl
  · exact not_lt.mp hlen

theorem maxPages_le (s : TxSetup) (ac : Fin 4) :
    pageNum (s.xmitEnv.maxXmitLen ac) 128 ≤ 160 := by
  have hlen : s.xmitEnv.maxXmitLen ac ≤ 20480 := sdioTxMaxLen_le s (s.queue2Pipe ac)
  rw [pageNum_eq]
  omega

structure Layout (fragLen : ℤ) (aggNum ptail : ℕ) (frames : List Placed) (len pgNum : ℕ) :
    Prop where
  count : frames.length = aggNum
  aggNum_le : aggNum ≤ 254
  tail : ptail = rnd8 len
  empty : frames = [] → len = 0 ∧ pgNum = 0
  placed : ∀ p ∈ frames, ∃ t, p.frame.coalesce fragLen p.bufAddr = some t ∧
    p = place p.frame p.bufAddr t
  txlen_le : ∀ p ∈ frames, p.bufAddr + p.txlen ≤ len
  laid : ((∀ p ∈ frames, ∀ g ∈ p.frags, p.fragEnd g ≤ rnd8 len) ∧
      frames.Pairwise fun p q => ∀ g ∈ p.frags, p.fragEnd g ≤ q.bufAddr) ↔
    ∀ p ∈ frames, OneFragment p.frame.attrib fragLen p.frame.payload
  pages : rnd8 len ≤ 128 * pgNum
  bound : (∀ p ∈ frames, p.frame.Fits fragLen) → pgNum ≤ 160

def Open (fragLen : ℤ) (s : XmitState) (b : XmitBuf) : Prop :=
  Layout fragLen s.ctx.aggNum s.ptail s.frames b.len b.pgNum

structure Ready (fragLen : ℤ) (s : XmitState) (b : XmitBuf) (f : DataFrame) : Prop where
  buf : Open fragLen s b
  room : s.frames ≠ [] → b.pgNum + pageNum (32 + wlanPktSize f.xmitFrame) 128 ≤ 160
  aggNum_lt : s.ctx.aggNum < 254

def Judged (fragLen : ℤ) (c : PendingBuf) : Prop :=
  WellLaid c ↔ ∀ p ∈ c.frames, p.frame.Fits fragLen

section Buffer

variable {st : TxSetup} {s : XmitState} {b : XmitBuf} {f : DataFrame}

theorem Layout.exact {aggNum ptail len pgNum : ℕ} {frames : List Placed}
    (h : Layout st.fragLen aggNum ptail frames len pgNum) {p : Placed} (hp : p ∈ frames)
    (hone : OneFragment p.frame.attrib st.fragLen p.frame.payload) :
    p.txlen = 32 + wlanPktSize p.frame.xmitFrame ∧
      ∀ g ∈ p.frags, p.fragEnd g = p.bufAddr + p.txlen := by
  obtain ⟨t, ht, hpt⟩ := Layout.placed h p hp
  have hplace := place_one st.fragLen_low st.fragLen_high ht hone
  rw [← hpt] at hplace
  exact ⟨congrArg (32 + ·) hplace.1, hplace.2⟩

theorem le_rnd8 (n : ℕ) : n ≤ rnd8 n := by
  simp only [rnd8]
  omega

/-- The end of the buffer is all that an overlong last frame shows up in. -/
theorem Open.closed (h : Open st.fragLen s b) : ∀ c ∈ closed s b, Judged st.fragLen c := by
  intro c hc
  simp only [TxAggregate.closed] at hc
  split_ifs at hc
  · obtain rfl := List.mem_singleton.mp hc
    have hround := le_rnd8 b.len
    constructor
    · intro hw p hp
      have hinside : ∀ p ∈ s.frames, ∀ g ∈ p.frags, p.fragEnd g ≤ rnd8 b.len := by
        intro p hp g hg
        exact (hw.inside p hp g hg).trans (Int.ofNat_le.mpr hround)
      have hone := (Layout.laid h).mp ⟨hinside, hw.disjoint⟩ p hp
      have hsize := (Layout.exact h hp hone).1
      have hle := (Layout.txlen_le h p hp).trans hw.len_le
      exact ⟨hone, by omega⟩
    · intro hfits
      have hone := fun p hp => (hfits p hp).1
      have hlaid := (Layout.laid h).mpr hone
      have hpages := Layout.pages h
      have hbound := Layout.bound h hfits
      have hagg := Layout.aggNum_le h
      refine ⟨?_, ?_, ?_, hlaid.2, ?_⟩
      · change b.len ≤ 20480
        omega
      · rw [Layout.count h, UInt8.toNat_ofNat', Nat.mod_eq_of_lt (by omega)]
      · intro p hp g hg
        rw [(Layout.exact h hp (hone p hp)).2 g hg]
        exact_mod_cast Layout.txlen_le h p hp
      · rw [UInt8.toNat_ofNat', Nat.mod_eq_of_lt (by omega)]
        exact hround.trans hpages
  · exact absurd hc List.not_mem_nil

theorem ready_empty (hframes : s.frames = []) (htail : s.ptail = 0) (hagg : s.ctx.aggNum = 0) :
    Ready st.fragLen s {} f := by
  constructor
  · constructor
    · rw [hframes, hagg]
      rfl
    · omega
    · exact htail
    · exact fun _ => ⟨rfl, rfl⟩
    · simp [hframes]
    · simp [hframes]
    · simp [hframes]
    · exact Nat.le_refl 0
    · exact fun _ => Nat.zero_le 160
  · exact fun h => absurd hframes h
  · omega

theorem openXmitbuf_ready {env : XmitEnv} {ctx : XmitCtx} {pending : List PendingBuf} :
    let r := openXmitbuf env ctx f.xmitFrame
    (r.2 = none → r.1.pxmitbuf = none) ∧
      ∀ b, r.2 = some b → Ready st.fragLen ⟨r.1, 0, [], pending⟩ b f := by
  cases halloc : env.allocXmitbuf f.xmitFrame with
  | false =>
    simp only [openXmitbuf, halloc]
    exact ⟨fun _ => rfl, by rintro _ ⟨⟩⟩
  | true =>
    simp only [openXmitbuf, halloc, if_true]
    refine ⟨by rintro ⟨⟩, ?_⟩
    intro b hb
    obtain rfl := Option.some.inj hb
    exact ready_empty rfl rfl rfl

theorem bufUnfit_false {ac : Fin 4} {ctx : XmitCtx}
    (h : bufUnfit st.xmitEnv ac ctx b f.xmitFrame = false) :
    b.pgNum + pageNum (32 + wlanPktSize f.xmitFrame) 128 ≤ 160 ∧ ctx.aggNum < 254 := by
  have hmax := maxPages_le st ac
  have hoqt := st.txOqtMaxFreeSpace.toNat_lt
  simp only [bufUnfit, Bool.or_eq_false_iff, decide_eq_false_iff_not, not_lt, not_le] at h
  obtain ⟨⟨hroom, hagg⟩, -⟩ := h
  have hpages : b.pgNum + pageNum (32 + wlanPktSize f.xmitFrame) 128 ≤
      pageNum (st.xmitEnv.maxXmitLen ac) 128 := hroom
  have hspace : (ctx.aggNum : ℤ) < max 8 (st.txOqtMaxFreeSpace.toNat : ℤ) - 1 := hagg
  omega

theorem prepare_ready (ac : Fin 4) (single : Bool) (f : DataFrame)
    (hopen : ∀ b, s.ctx.pxmitbuf = some b → Open st.fragLen s b)
    (hpend : ∀ c ∈ s.pending, Judged st.fragLen c) :
    let r := prepare st.xmitEnv ac single s f
    (∀ c ∈ r.1.pending, Judged st.fragLen c) ∧ (r.2 = none → r.1.ctx.pxmitbuf = none) ∧
      ∀ b, r.2 = some b → Ready st.fragLen r.1 b f := by
  cases hb : s.ctx.pxmitbuf with
  | none =>
    simp only [prepare, prepareXmitbuf, hb]
    exact ⟨hpend, openXmitbuf_ready⟩
  | some b =>
    have hb' := hopen b hb
    simp only [prepare, prepareXmitbuf, hb]
    cases hunfit : bufUnfit st.xmitEnv ac s.ctx b f.xmitFrame with
    | false =>
      obtain ⟨hroom, hagg⟩ := bufUnfit_false hunfit
      refine ⟨hpend, by rintro ⟨⟩, ?_⟩
      intro b' hb''
      obtain rfl := Option.some.inj hb''
      exact ⟨hb', fun _ => hroom, hagg⟩
    | true =>
      have hall : ∀ c ∈ s.pending ++ closed s b, Judged st.fragLen c := by
        intro c hc
        rcases List.mem_append.mp hc with hc | hc
        · exact hpend c hc
        · exact hb'.closed c hc
      simp only [if_true]
      refine ⟨hall, ?_⟩
      split_ifs
      · exact ⟨fun _ => rfl, by rintro _ ⟨⟩⟩
      · exact openXmitbuf_ready

theorem rnd8_add (m n : ℕ) : rnd8 (rnd8 m + n) = rnd8 m + rnd8 n := by
  simp only [rnd8]
  omega

theorem Layout.append {aggNum ptail len pgNum : ℕ} {frames : List Placed}
    (h : Layout st.fragLen aggNum ptail frames len pgNum) {t : TxLayout}
    (ht : f.coalesce st.fragLen ptail = some t)
    (hroom : frames ≠ [] → pgNum + pageNum (32 + wlanPktSize f.xmitFrame) 128 ≤ 160)
    (hagg : aggNum < 254) :
    let p := place f ptail t
    Layout st.fragLen (aggNum + 1) (ptail + rnd8 p.txlen) (frames ++ [p]) (rnd8 len + p.txlen)
      (pgNum + (p.txlen + 127) / 128) := by
  intro p
  have hround := le_rnd8 len
  have hround' := le_rnd8 p.txlen
  have haddr : p.bufAddr = rnd8 len := Layout.tail h
  have hend : rnd8 (rnd8 len + p.txlen) = rnd8 len + rnd8 p.txlen := rnd8_add len p.txlen
  have hpages := Layout.pages h
  refine ⟨?_, ?_, ?_, ?_, ?_, ?_, ?_, ?_, ?_⟩
  · rw [List.length_append, Layout.count h]
    rfl
  · omega
  · rw [hend, Layout.tail h]
  · exact fun hnil => absurd hnil (List.append_ne_nil_of_right_ne_nil _ (List.cons_ne_nil _ _))
  · intro q hq
    rcases List.mem_append.mp hq with hq | hq
    · exact Layout.placed h q hq
    · obtain rfl := List.mem_singleton.mp hq
      exact ⟨t, ht, rfl⟩
  · intro q hq
    rcases List.mem_append.mp hq with hq | hq
    · have hle := Layout.txlen_le h q hq
      omega
    · obtain rfl := List.mem_singleton.mp hq
      omega
  · rw [hend]
    constructor
    · rintro ⟨hin, hpair⟩ q hq
      obtain ⟨hold, -, hcross⟩ := List.pairwise_append.mp hpair
      rcases List.mem_append.mp hq with hq | hq
      · refine (Layout.laid h).mp ⟨?_, hold⟩ q hq
        intro q hq g hg
        rw [← haddr]
        exact hcross q hq p (List.mem_singleton_self p) g hg
      · obtain rfl := List.mem_singleton.mp hq
        by_contra hmany
        obtain ⟨g, hg, hlate⟩ : ∃ g ∈ p.frags, ptail + p.txlen + 8 ≤ p.fragEnd g :=
          place_many st.fragLen_low st.fragLen_high ht hmany
        have hle := hin p (List.mem_append_right _ hq) g hg
        have hup : rnd8 p.txlen ≤ p.txlen + 7 := by
          simp only [rnd8]
          omega
        have hptail : (ptail : ℤ) = rnd8 len := congrArg Nat.cast (Layout.tail h)
        omega
    · intro hone
      obtain ⟨hin, hold⟩ := (Layout.laid h).mpr fun q hq => hone q (List.mem_append_left _ hq)
      have hp : ∀ g ∈ p.frags, p.fragEnd g = ptail + p.txlen :=
        (place_one st.fragLen_low st.fragLen_high ht
          (hone p (List.mem_append_right _ (List.mem_singleton_self p)))).2
      refine ⟨?_, List.pairwise_append.mpr ⟨hold, List.pairwise_singleton _ _, ?_⟩⟩
      · intro q hq g hg
        rcases List.mem_append.mp hq with hq | hq
        · have hle := hin q hq g hg
          omega
        · obtain rfl := List.mem_singleton.mp hq
          have hge := hp g hg
          have hptail : (ptail : ℤ) = rnd8 len := congrArg Nat.cast (Layout.tail h)
          omega
      · intro q hq p' hp' g hg
        obtain rfl := List.mem_singleton.mp hp'
        rw [haddr]
        exact hin q hq g hg
  · rw [hend]
    simp only [rnd8] at hpages hround' ⊢
    omega
  · intro hfits
    have hp := hfits p (List.mem_append_right _ (List.mem_singleton_self p))
    have hsize := (place_one st.fragLen_low st.fragLen_high ht hp.1).1
    have htxlen : p.txlen = 32 + wlanPktSize f.xmitFrame := congrArg (32 + ·) hsize
    have hfit : 32 + wlanPktSize f.xmitFrame ≤ 20480 := hp.2
    rw [htxlen, ← pageNum_eq]
    by_cases hnil : frames = []
    · rw [(Layout.empty h hnil).2, pageNum_eq]
      omega
    · exact hroom hnil

theorem xmitOne_refused {env : XmitEnv} (ctx : XmitCtx) (b : XmitBuf) {x : XmitFrame}
    (h : env.coalesce x = none) :
    (xmitOne env ctx b x).aggNum = ctx.aggNum ∧
      ∃ b', (xmitOne env ctx b x).pxmitbuf = some b' ∧ b'.len = b.len ∧ b'.pgNum = b.pgNum := by
  simp only [xmitOne, h]
  split_ifs <;> simp

theorem xmitOne_taken {env : XmitEnv} (ctx : XmitCtx) (b : XmitBuf) {x : XmitFrame} {n : ℕ}
    (h : env.coalesce x = some n) :
    (xmitOne env ctx b x).aggNum = ctx.aggNum + 1 ∧
      ∃ b', (xmitOne env ctx b x).pxmitbuf = some b' ∧ b'.len = rnd8 b.len + (32 + n) ∧
        b'.pgNum = b.pgNum + (32 + n + 127) / 128 := by
  simp only [xmitOne, h]
  split_ifs <;> simp

theorem xmit_open (env : XmitEnv) (h : Ready st.fragLen s b f) :
    let s' := xmit env st.fragLen s b f
    s'.pending = s.pending ∧ ∃ b', s'.ctx.pxmitbuf = some b' ∧ Open st.fragLen s' b' := by
  cases ht : f.coalesce st.fragLen s.ptail with
  | none =>
    simp only [xmit, ht, Option.map_none]
    have hnone := xmitOne_refused s.ctx b (x := f.xmitFrame)
      (show { env with coalesce := fun _ => none }.coalesce f.xmitFrame = none from rfl)
    obtain ⟨hagg, b', hb', hlen, hpg⟩ := hnone
    refine ⟨trivial, b', hb', ?_⟩
    simp only [Open, hagg, hlen, hpg]
    exact h.buf
  | some t =>
    simp only [xmit, ht, Option.map_some]
    have hsome := xmitOne_taken s.ctx b (x := f.xmitFrame)
      (show { env with coalesce := fun _ => some t.lastTxcmdsz.toNat }.coalesce f.xmitFrame =
        some t.lastTxcmdsz.toNat from rfl)
    obtain ⟨hagg, b', hb', hlen, hpg⟩ := hsome
    refine ⟨trivial, b', hb', ?_⟩
    simp only [Open, hagg, hlen, hpg]
    exact Layout.append h.buf ht h.room h.aggNum_lt

structure Good (fragLen : ℤ) (s : XmitState) : Prop where
  buf : ∀ b, s.ctx.pxmitbuf = some b → Open fragLen s b
  pending : ∀ c ∈ s.pending, Judged fragLen c

theorem good_idle {t : XmitState} (hbuf : t.ctx.pxmitbuf = none)
    (hpend : ∀ c ∈ t.pending, Judged st.fragLen c) : Good st.fragLen t := by
  refine ⟨?_, hpend⟩
  intro b hb
  rw [hbuf] at hb
  cases hb

theorem frames_good (ac : Fin 4) (single : Bool) {q : List DataFrame} (h : Good st.fragLen s) :
    Good st.fragLen (frames st.xmitEnv st.fragLen ac single s q).1 := by
  induction q generalizing s with
  | nil => exact h
  | cons f l ih =>
    obtain ⟨hpend, hnone, hready⟩ := prepare_ready ac single f h.buf h.pending
    simp only [frames]
    generalize prepare st.xmitEnv ac single s f = r at hpend hnone hready
    obtain ⟨s', ob⟩ := r
    cases ob with
    | none => exact good_idle (hnone rfl) hpend
    | some b =>
      obtain ⟨hkept, b', hb', hopen⟩ := xmit_open st.xmitEnv (hready b rfl)
      apply ih
      refine ⟨?_, ?_⟩
      · intro c hc
        rw [hb'] at hc
        obtain rfl := Option.some.inj hc
        exact hopen
      · rw [hkept]
        exact hpend

theorem stations_good (ac : Fin 4) (single : Bool) {qs : List (List DataFrame)}
    (h : Good st.fragLen s) :
    Good st.fragLen (stations st.xmitEnv st.fragLen ac single s qs).1 := by
  induction qs generalizing s with
  | nil => exact h
  | cons q qs ih =>
    have hq := frames_good ac single (q := q) h
    simp only [stations]
    split_ifs
    · exact hq
    · exact ih hq
    · exact hq
    · exact hq
    · exact ih hq

theorem dump_good (h : Good st.fragLen s) : Good st.fragLen (dump s) := by
  cases hb : s.ctx.pxmitbuf with
  | none =>
    simp only [dump, hb]
    exact h
  | some b =>
    simp only [dump, hb]
    apply good_idle
    · simp only [dumpXmitbuf, hb]
    · intro c hc
      rcases List.mem_append.mp hc with hc | hc
      · exact h.pending c hc
      · exact (h.buf b hb).closed c hc

theorem Good.of_ctx {t : XmitState} (h : Good st.fragLen s)
    (hbuf : t.ctx.pxmitbuf = s.ctx.pxmitbuf) (hagg : t.ctx.aggNum = s.ctx.aggNum)
    (hptail : t.ptail = s.ptail) (hframes : t.frames = s.frames)
    (hpend : t.pending = s.pending) : Good st.fragLen t := by
  refine ⟨?_, hpend ▸ h.pending⟩
  intro b hb
  rw [Open, hagg, hptail, hframes]
  exact h.buf b (hbuf ▸ hb)

theorem categories_good {is : List (Fin 4)} {hw : Fin 4 → HwQueue} (h : Good st.fragLen s) :
    Good st.fragLen (categories st.xmitEnv st.fragLen is hw s).2 := by
  induction is generalizing hw s with
  | nil => exact h
  | cons i is ih =>
    simp only [categories]
    split_ifs
    · exact h.of_ctx rfl rfl rfl rfl rfl
    · exact dump_good (stations_good i _ (h.of_ctx rfl rfl rfl rfl rfl))
    · exact ih (dump_good (stations_good i _ (h.of_ctx rfl rfl rfl rfl rfl)))

/-- A buffer that goes out is laid out and described well exactly when each of its
frames is one fragment that fits. -/
theorem xmitXmitframes_judged (st : TxSetup) (hw : Fin 4 → HwQueue) (pool : FramePool) :
    ∀ c ∈ (st.xmitXmitframes hw pool).2.pending, Judged st.fragLen c := by
  have hgood : Good st.fragLen { ctx := { pool := pool } } := good_idle rfl nofun
  exact (categories_good hgood).pending

end Buffer

/-! ## The same run without the places

What happens to the frames themselves is what `XmitPool` says, as long as its
answer of `rtw_xmitframe_coalesce` is the length that is written here. -/

theorem coalesceLoop_lastTxcmdsz (a : PktAttrib) (fragLen : ℤ) (fuel frgInx : ℕ) (m m' : ℤ)
    (hdr hdr' : WlanHdr) (pkt : List UInt8) :
    (coalesceLoop a fragLen fuel frgInx m hdr pkt).lastTxcmdsz =
      (coalesceLoop a fragLen fuel frgInx m' hdr' pkt).lastTxcmdsz := by
  induction fuel generalizing frgInx m m' hdr hdr' pkt with
  | zero => rfl
  | succ fuel ih =>
    simp only [coalesceLoop]
    split_ifs <;> first | rfl | exact ih ..

def DataFrame.outcome (fragLen : ℤ) (f : DataFrame) (bufAddr : ℕ) : Option ℕ :=
  (f.coalesce fragLen bufAddr).map fun t => t.lastTxcmdsz.toNat

theorem outcome_eq (fragLen : ℤ) (f : DataFrame) (bufAddr : ℕ) :
    f.outcome fragLen bufAddr = f.outcome fragLen 0 := by
  have hlast := coalesceLoop_lastTxcmdsz f.attrib fragLen (f.payload.length + 1) 0
    (bufAddr + 32) ((0 : ℕ) + 32) {} {} f.payload
  simp only [DataFrame.outcome, DataFrame.coalesce, rtwXmitframeCoalesce]
  split_ifs <;> simp only [Option.map_none, Option.map_some, hlast]

def Agrees (env : XmitEnv) (fragLen : ℤ) (f : DataFrame) : Prop :=
  env.coalesce f.xmitFrame = f.outcome fragLen 0

theorem prepare_ctx (env : XmitEnv) (ac : Fin 4) (single : Bool) (s : XmitState) (f : DataFrame) :
    ((prepare env ac single s f).1.ctx, (prepare env ac single s f).2) =
      prepareXmitbuf env ac single s.ctx f.xmitFrame := by
  cases hb : s.ctx.pxmitbuf with
  | none => simp only [prepare, hb]
  | some b =>
    simp only [prepare, hb]
    split_ifs <;> rfl

theorem xmit_ctx {env : XmitEnv} {fragLen : ℤ} {f : DataFrame} (h : Agrees env fragLen f)
    (s : XmitState) (b : XmitBuf) :
    (xmit env fragLen s b f).ctx = xmitOne env s.ctx b f.xmitFrame := by
  have hout : env.coalesce f.xmitFrame = f.outcome fragLen s.ptail := by
    rw [outcome_eq]
    exact h
  rw [DataFrame.outcome] at hout
  cases ht : f.coalesce fragLen s.ptail with
  | none =>
    rw [ht, Option.map_none] at hout
    simp only [xmit, ht, Option.map_none, xmitOne, hout]
  | some t =>
    rw [ht, Option.map_some] at hout
    simp only [xmit, ht, Option.map_some, xmitOne, hout]

def erase (q : List DataFrame) : List XmitFrame := q.map DataFrame.xmitFrame

theorem frames_ctx {env : XmitEnv} {fragLen : ℤ} (ac : Fin 4) (single : Bool) (s : XmitState)
    {q : List DataFrame} (h : ∀ f ∈ q, Agrees env fragLen f) :
    let r := frames env fragLen ac single s q
    (r.1.ctx, erase r.2) = frameLoop env ac single s.ctx (erase q) := by
  induction q generalizing s with
  | nil => rfl
  | cons f l ih =>
    have hprep := prepare_ctx env ac single s f
    simp only [erase, List.map_cons, frames, frameLoop]
    rw [← hprep]
    obtain ⟨s', ob⟩ := prepare env ac single s f
    cases ob with
    | none => rfl
    | some b =>
      simp only
      rw [← xmit_ctx (h f List.mem_cons_self)]
      exact ih _ fun g hg => h g (List.mem_cons_of_mem f hg)

theorem stations_ctx {env : XmitEnv} {fragLen : ℤ} (ac : Fin 4) (single : Bool) (s : XmitState)
    {qs : List (List DataFrame)} (h : ∀ q ∈ qs, ∀ f ∈ q, Agrees env fragLen f) :
    let r := stations env fragLen ac single s qs
    (r.1.ctx, r.2.map erase) = staLoop env ac single s.ctx (qs.map erase) := by
  induction qs generalizing s with
  | nil => rfl
  | cons q qs ih =>
    have hq := frames_ctx ac single s (h q List.mem_cons_self)
    have hqs := fun s => ih s fun q' hq' => h q' (List.mem_cons_of_mem q hq')
    simp only [stations, List.map_cons, staLoop]
    rw [← hq]
    obtain ⟨s', l⟩ := frames env fragLen ac single s q
    cases l with
    | nil =>
      simp only [erase, List.map_nil, List.isEmpty_nil, if_true]
      split_ifs
      · rfl
      · exact hqs s'
    | cons f l =>
      simp only [erase, List.map_cons, List.isEmpty_cons, Bool.false_eq_true, if_false,
        reduceCtorEq]
      split_ifs
      · simp only [List.map_append, List.map_cons, List.map_nil, erase]
      · rfl
      · rw [← hqs s']
        rfl

theorem dump_ctx (s : XmitState) : (dump s).ctx = dumpXmitbuf s.ctx := by
  cases hb : s.ctx.pxmitbuf with
  | none => simp only [dump, dumpXmitbuf, hb]
  | some b => simp only [dump, hb]

theorem frames_mem (env : XmitEnv) (fragLen : ℤ) (ac : Fin 4) (single : Bool) (s : XmitState)
    {q : List DataFrame} {f : DataFrame} (h : f ∈ (frames env fragLen ac single s q).2) :
    f ∈ q := by
  induction q generalizing s with
  | nil => exact h
  | cons g l ih =>
    simp only [frames] at h
    generalize prepare env ac single s g = r at h
    obtain ⟨s', ob⟩ := r
    cases ob with
    | none => exact h
    | some b => exact List.mem_cons_of_mem g (ih _ h)

theorem stations_mem (env : XmitEnv) (fragLen : ℤ) (ac : Fin 4) (single : Bool) (s : XmitState)
    (qs : List (List DataFrame)) {q : List DataFrame} {f : DataFrame}
    (hq : q ∈ (stations env fragLen ac single s qs).2) (hf : f ∈ q) :
    ∃ q' ∈ qs, f ∈ q' := by
  induction qs generalizing s with
  | nil => exact absurd hq List.not_mem_nil
  | cons q' qs ih =>
    have hleft := fun g => frames_mem env fragLen ac single s (q := q') (f := g)
    have hold : q ∈ qs → ∃ r ∈ q' :: qs, f ∈ r := fun h => ⟨q, List.mem_cons_of_mem q' h, hf⟩
    have hhead : q = (frames env fragLen ac single s q').2 → ∃ r ∈ q' :: qs, f ∈ r := by
      rintro rfl
      exact ⟨q', List.mem_cons_self, hleft f hf⟩
    have htail : ∀ t, q ∈ (stations env fragLen ac single t qs).2 → ∃ r ∈ q' :: qs, f ∈ r := by
      intro t ht
      obtain ⟨r, hr, hfr⟩ := ih t ht
      exact ⟨r, List.mem_cons_of_mem q' hr, hfr⟩
    simp only [stations] at hq
    split_ifs at hq
    · exact hold hq
    · exact htail _ hq
    · rcases List.mem_append.mp hq with hq | hq
      · exact hold hq
      · exact hhead (List.mem_singleton.mp hq)
    · rcases List.mem_cons.mp hq with hq | hq
      · exact hhead hq
      · exact hold hq
    · rcases List.mem_cons.mp hq with hq | hq
      · exact hhead hq
      · exact htail _ hq

def HwQueue.erase (q : HwQueue) : HwXmit := ⟨q.accnt, q.staQueue.map TxAggregate.erase⟩

theorem erase_update (hw : Fin 4 → HwQueue) (i : Fin 4) (q : HwQueue) :
    (fun j => (Function.update hw i q j).erase) =
      Function.update (fun j => (hw j).erase) i q.erase := by
  funext j
  by_cases hj : j = i
  · subst hj
    simp only [Function.update_self]
  · simp only [Function.update_of_ne hj]

theorem categories_ctx {env : XmitEnv} {fragLen : ℤ} (is : List (Fin 4)) (hw : Fin 4 → HwQueue)
    (s : XmitState) (h : ∀ i, ∀ q ∈ (hw i).staQueue, ∀ f ∈ q, Agrees env fragLen f) :
    let r := categories env fragLen is hw s
    ((fun i => (r.1 i).erase), r.2.ctx) = acLoop env is (fun i => (hw i).erase) s.ctx := by
  induction is generalizing hw s with
  | nil => rfl
  | cons i is ih =>
    have hmem := fun q f => stations_mem env fragLen i ((hw i).staQueue.length ≤ 1)
      { s with ctx := { s.ctx with accnt := (hw i).accnt } } (hw i).staQueue (q := q) (f := f)
    have hsta := stations_ctx i ((hw i).staQueue.length ≤ 1)
      { s with ctx := { s.ctx with accnt := (hw i).accnt } } (h i)
    have hlen : (hw i).erase.staQueue.length = (hw i).staQueue.length := List.length_map ..
    have haccnt : (hw i).erase.accnt = (hw i).accnt := rfl
    simp only [categories, acLoop, hlen, haccnt]
    generalize stations env fragLen i ((hw i).staQueue.length ≤ 1)
      { s with ctx := { s.ctx with accnt := (hw i).accnt } } (hw i).staQueue = r at hmem hsta ⊢
    have hsta' : staLoop env i ((hw i).staQueue.length ≤ 1)
        { s.ctx with accnt := (hw i).accnt } (hw i).erase.staQueue =
          (r.1.ctx, r.2.map erase) := hsta.symm
    rw [hsta', ← dump_ctx]
    have hupd := erase_update hw i ⟨r.1.ctx.accnt, r.2⟩
    have hleft : ∀ j, ∀ q ∈ (Function.update hw i ⟨r.1.ctx.accnt, r.2⟩ j).staQueue, ∀ f ∈ q,
        Agrees env fragLen f := by
      intro j q hq f hf
      by_cases hj : j = i
      · subst hj
        rw [Function.update_self] at hq
        obtain ⟨q', hq', hf'⟩ := hmem q f hq hf
        exact h j q' hq' f hf'
      · rw [Function.update_of_ne hj] at hq
        exact h j q hq f hf
    split_ifs
    · rfl
    · exact congrArg (·, (dump r.1).ctx) hupd
    · have hnext := ih (Function.update hw i ⟨r.1.ctx.accnt, r.2⟩) (dump r.1) hleft
      rw [hupd] at hnext
      exact hnext

/-- The frames go the way that `XmitPool` describes. -/
theorem xmitXmitframes_ctx (st : TxSetup) (hw : Fin 4 → HwQueue) (pool : FramePool)
    (h : ∀ i, ∀ q ∈ (hw i).staQueue, ∀ f ∈ q, Agrees st.xmitEnv st.fragLen f) :
    let r := st.xmitXmitframes hw pool
    ((fun i => (r.1 i).erase), r.2.ctx) =
      XmitPool.xmitXmitframes st.xmitEnv (fun i => (hw i).erase) pool :=
  categories_ctx _ hw _ h

end Rtl8189.TxAggregate
