import Mathlib.Algebra.BigOperators.Group.Finset.Basic
import Mathlib.Data.Fintype.BigOperators
import Mathlib.Data.Multiset.OrderedMonoid
import Rtl8189.FreeList
import Rtl8189.RecvFrame

/-!
# Transmit frames in the SDIO transmit thread

`xmit_xmitframes` takes frames from the station queues of the access categories
and copies them into transmit buffers. The first frame of a buffer is held until
the buffer is closed, every other frame is freed at once. A frame that
`rtw_xmitframe_coalesce` refuses as the second of a buffer is neither held nor
freed.
-/
namespace Rtl8189.XmitPool

structure XmitFrame where
  id : ℕ
  extTag : Bool := false
  /-- Allocated by `rtw_alloc_xmitframe_once`. -/
  allocAddr : Bool := false
  qsel : ℕ := 0
  hdrlen : ℕ := 24
  ivLen : ℕ := 0
  icvLen : ℕ := 0
  pktlen : ℕ := 0
  encrypt : Encrypt := .noPrivacy
  bswenc : Bool := false
  deriving DecidableEq

/-- The places a frame is given back to; memory of its own is just released. -/
structure FramePool where
  freeXmitQueue : FreeList ℕ := {}
  freeXframeExtQueue : FreeList ℕ := {}
  released : List ℕ := []

def rtwFreeXmitframe (p : FramePool) (f : XmitFrame) : FramePool :=
  if f.allocAddr then { p with released := p.released ++ [f.id] }
  else if f.extTag then { p with freeXframeExtQueue := p.freeXframeExtQueue.free f.id }
  else { p with freeXmitQueue := p.freeXmitQueue.free f.id }

inductive XmitErr where
  | none
  | xbufUnavail
  | txBalance
  | txWaitMoreFrame
  deriving DecidableEq

structure XmitBuf where
  len : ℕ := 0
  pgNum : ℕ := 0
  privData : Option XmitFrame := .none

structure XmitCtx where
  err : XmitErr := .none
  aggNum : ℕ := 0
  preQsel : ℕ := 0xFF
  pxmitbuf : Option XmitBuf := .none
  accnt : ℤ := 0
  pool : FramePool

structure HwXmit where
  accnt : ℤ := 0
  staQueue : List (List XmitFrame) := []

/-- What the call meets. A frame comes up once at most, so that the outcome of an
allocation or of `rtw_xmitframe_coalesce` (the length written) may be taken as a
function of the frame. -/
structure XmitEnv where
  wifiSpec : Bool := false
  wmmParaSeq : Fin 4 → Fin 4 := id
  pageSize : ℕ := 128
  maxXmitLen : Fin 4 → ℕ := fun _ => 20480
  txOqtMaxFreeSpace : ℕ := 8
  isAp : Bool := false
  waitMore : Fin 4 → Bool := fun _ => false
  allocXmitbuf : XmitFrame → Bool := fun _ => true
  coalesce : XmitFrame → Option ℕ := fun f => some (f.hdrlen + f.pktlen)

def wlanPktSize (f : XmitFrame) : ℕ :=
  f.hdrlen + f.ivLen + (6 + 2) + f.pktlen + (if f.encrypt = .tkip then 8 else 0) +
    if f.bswenc then f.icvLen else 0

def pageNum (len size : ℕ) : ℕ := len / size + if len &&& (size - 1) ≠ 0 then 1 else 0

/-- `rtw_hal_busagg_qsel_check`. -/
def busaggQselCheck (env : XmitEnv) (preQsel nextQsel : ℕ) : Bool :=
  !env.isAp || !((preQsel = 0x11 || nextQsel = 0x11) && preQsel ≠ nextQsel)

/-- The open buffer does not take the frame. -/
def bufUnfit (env : XmitEnv) (ac : Fin 4) (ctx : XmitCtx) (b : XmitBuf) (f : XmitFrame) : Bool :=
  pageNum (env.maxXmitLen ac) env.pageSize <
      b.pgNum + pageNum (32 + wlanPktSize f) env.pageSize ||
    (max 8 env.txOqtMaxFreeSpace : ℤ) - 1 ≤ ctx.aggNum ||
    ctx.aggNum ≠ 0 && !busaggQselCheck env ctx.preQsel f.qsel

def closeXmitbuf (p : FramePool) (b : XmitBuf) : FramePool :=
  match b.privData with
  | some pframe => if 0 < b.len then rtwFreeXmitframe p pframe else p
  | .none => p

/-- A new buffer, or `RTW_XBUF_UNAVAIL`. -/
def openXmitbuf (env : XmitEnv) (ctx : XmitCtx) (f : XmitFrame) : XmitCtx × Option XmitBuf :=
  if env.allocXmitbuf f then ({ ctx with aggNum := 0 }, some {})
  else ({ ctx with pxmitbuf := .none, err := .xbufUnavail }, .none)

/-- The buffer for the next frame; none when the loop over the frames breaks. -/
def prepareXmitbuf (env : XmitEnv) (ac : Fin 4) (singleStaInQueue : Bool) (ctx : XmitCtx)
    (f : XmitFrame) : XmitCtx × Option XmitBuf :=
  match ctx.pxmitbuf with
  | .none => openXmitbuf env ctx f
  | some b =>
    if bufUnfit env ac ctx b f then
      let ctx := { ctx with pool := closeXmitbuf ctx.pool b }
      if 0 < b.len ∧ b.privData.isSome ∧ singleStaInQueue = false then
        ({ ctx with pxmitbuf := .none, err := .txBalance }, .none)
      else openXmitbuf env ctx f
    else (ctx, some b)

def rnd8 (n : ℕ) : ℕ := (n + 7) / 8 * 8

def xmitOne (env : XmitEnv) (ctx : XmitCtx) (b : XmitBuf) (f : XmitFrame) : XmitCtx :=
  let b := if ctx.aggNum = 0 then { b with privData := some f } else b
  let ctx := { ctx with accnt := ctx.accnt - 1 }
  let ctx : XmitCtx := match env.coalesce f with
    | .none => { ctx with pxmitbuf := some b }
    | some lastTxcmdsz =>
      let txlen := 32 + lastTxcmdsz
      { ctx with aggNum := ctx.aggNum + 1
                 preQsel := f.qsel
                 pxmitbuf := some { b with pgNum := b.pgNum + (txlen + 127) / 128
                                           len := rnd8 b.len + txlen } }
  if ctx.aggNum ≠ 1 then { ctx with pool := rtwFreeXmitframe ctx.pool f } else ctx

def frameLoop (env : XmitEnv) (ac : Fin 4) (singleStaInQueue : Bool) :
    XmitCtx → List XmitFrame → XmitCtx × List XmitFrame
  | ctx, [] => (ctx, [])
  | ctx, f :: l =>
    match prepareXmitbuf env ac singleStaInQueue ctx f with
    | (ctx, .none) => (ctx, f :: l)
    | (ctx, some b) => frameLoop env ac singleStaInQueue (xmitOne env ctx b f) l

def staLoop (env : XmitEnv) (ac : Fin 4) (singleStaInQueue : Bool) :
    XmitCtx → List (List XmitFrame) → XmitCtx × List (List XmitFrame)
  | ctx, [] => (ctx, [])
  | ctx, q :: qs =>
    let r := frameLoop env ac singleStaInQueue ctx q
    if r.2 = [] then
      if r.1.err ≠ .none then (r.1, qs) else staLoop env ac singleStaInQueue r.1 qs
    else if r.1.err = .txBalance then (r.1, qs ++ [r.2])
    else if r.1.err ≠ .none then (r.1, r.2 :: qs)
    else
      let t := staLoop env ac singleStaInQueue r.1 qs
      (t.1, r.2 :: t.2)

def dumpXmitbuf (ctx : XmitCtx) : XmitCtx :=
  match ctx.pxmitbuf with
  | .none => ctx
  | some b => { ctx with pxmitbuf := .none, pool := closeXmitbuf ctx.pool b }

def acLoop (env : XmitEnv) :
    List (Fin 4) → (Fin 4 → HwXmit) → XmitCtx → (Fin 4 → HwXmit) × XmitCtx
  | [], hw, ctx => (hw, ctx)
  | i :: is, hw, ctx =>
    if env.waitMore i && 0 < (hw i).accnt && (hw i).accnt < 5 then
      (hw, { ctx with err := .txWaitMoreFrame })
    else
      let r := staLoop env i ((hw i).staQueue.length ≤ 1) { ctx with accnt := (hw i).accnt }
        (hw i).staQueue
      let hw := Function.update hw i ⟨r.1.accnt, r.2⟩
      let ctx := dumpXmitbuf r.1
      if ctx.err = .xbufUnavail then (hw, ctx) else acLoop env is hw ctx

def xmitXmitframes (env : XmitEnv) (hw : Fin 4 → HwXmit) (pool : FramePool) :
    (Fin 4 → HwXmit) × XmitCtx :=
  acLoop env ((List.finRange 4).map (if env.wifiSpec then env.wmmParaSeq else id)) hw
    { pool := pool }

def idsOf (q : List XmitFrame) : Multiset ℕ := (q.map XmitFrame.id : List ℕ)

def pooled (p : FramePool) : Multiset ℕ :=
  (p.freeXmitQueue.cells : Multiset ℕ) + (p.freeXframeExtQueue.cells : Multiset ℕ) +
    (p.released : Multiset ℕ)

def Counted (p : FramePool) : Prop := p.freeXmitQueue.Counted ∧ p.freeXframeExtQueue.Counted

def heldBy (b : Option XmitBuf) : Multiset ℕ :=
  match b with
  | .none => 0
  | some b => if 0 < b.len then (b.privData.toList.map XmitFrame.id : List ℕ) else 0

/-- A buffer holds a frame exactly when something was written to it. -/
def BufOk (aggNum : ℕ) (b : XmitBuf) : Prop :=
  (0 < b.len ↔ 0 < aggNum) ∧ (0 < b.len → b.privData.isSome)

def owned (ctx : XmitCtx) : Multiset ℕ := heldBy ctx.pxmitbuf + pooled ctx.pool

structure Sound (ctx : XmitCtx) (rest : Multiset ℕ) : Prop where
  nodup : (rest + owned ctx).Nodup
  buf : ∀ b, ctx.pxmitbuf = some b → BufOk ctx.aggNum b
  counted : Counted ctx.pool

theorem rtwFreeXmitframe_spec {p : FramePool} {f : XmitFrame} (hp : Counted p)
    (hf : f.id ∉ pooled p) :
    pooled (rtwFreeXmitframe p f) = f.id ::ₘ pooled p ∧ Counted (rtwFreeXmitframe p f) := by
  simp only [pooled, Multiset.mem_add, Multiset.mem_coe, not_or] at hf
  simp only [rtwFreeXmitframe]
  split_ifs
  · refine ⟨?_, hp⟩
    simp only [pooled, ← Multiset.coe_add, Multiset.coe_singleton]
    rw [add_comm (p.released : Multiset ℕ), Multiset.singleton_add, Multiset.add_cons]
  · refine ⟨?_, hp.1, FreeList.free_counted hp.2 hf.1.2⟩
    simp only [pooled, FreeList.free_cells hf.1.2, Multiset.cons_add, Multiset.add_cons]
  · refine ⟨?_, FreeList.free_counted hp.1 hf.1.1, hp.2⟩
    simp only [pooled, FreeList.free_cells hf.1.1, Multiset.cons_add]

theorem heldBy_empty : heldBy (some {}) = 0 := rfl

theorem heldBy_of_zero {b : XmitBuf} (h : ¬ 0 < b.len) : heldBy (some b) = 0 := by
  simp only [heldBy, if_neg h]

theorem heldBy_of_pos {b : XmitBuf} (h : 0 < b.len) :
    heldBy (some b) = (b.privData.toList.map XmitFrame.id : List ℕ) := by
  simp only [heldBy, if_pos h]

theorem openXmitbuf_sound {env : XmitEnv} {ctx : XmitCtx} {f : XmitFrame} {rest : Multiset ℕ}
    (hnodup : (rest + pooled ctx.pool).Nodup) (hc : Counted ctx.pool) :
    let r := openXmitbuf env ctx f
    Sound { r.1 with pxmitbuf := r.2 } rest ∧
      owned { r.1 with pxmitbuf := r.2 } = pooled ctx.pool ∧ (r.2 = .none → r.1.pxmitbuf = .none) := by
  simp only [openXmitbuf]
  split_ifs
  · refine ⟨⟨?_, ?_, hc⟩, ?_, by simp⟩
    · simpa only [owned, heldBy_empty, zero_add] using hnodup
    · intro b hb
      obtain rfl := Option.some.inj hb
      simp [BufOk]
    · simp only [owned, heldBy_empty, zero_add]
  · refine ⟨⟨?_, by simp, hc⟩, ?_, by simp⟩
    · simpa only [owned, heldBy, zero_add] using hnodup
    · simp only [owned, heldBy, zero_add]

theorem closeXmitbuf_spec {p : FramePool} {b : XmitBuf} {rest : Multiset ℕ}
    (hnodup : (rest + (heldBy (some b) + pooled p)).Nodup) (hp : Counted p) :
    pooled (closeXmitbuf p b) = heldBy (some b) + pooled p ∧ Counted (closeXmitbuf p b) := by
  simp only [closeXmitbuf]
  cases hpriv : b.privData with
  | none => simp [heldBy, hpriv, hp]
  | some pframe =>
    by_cases hlen : 0 < b.len
    · have hheld : heldBy (some b) = {pframe.id} := by simp [heldBy, hlen, hpriv]
      rw [hheld, Multiset.singleton_add, Multiset.add_cons] at hnodup
      have hfresh : pframe.id ∉ pooled p := fun h =>
        (Multiset.nodup_cons.mp hnodup).1 (Multiset.mem_add.mpr (Or.inr h))
      rw [hheld, Multiset.singleton_add]
      simp only [hlen, if_true]
      exact rtwFreeXmitframe_spec hp hfresh
    · simp [heldBy, hlen, hp]

theorem prepareXmitbuf_sound (env : XmitEnv) (ac : Fin 4) (single : Bool) {ctx : XmitCtx}
    (f : XmitFrame) {rest : Multiset ℕ} (hs : Sound ctx rest) :
    let r := prepareXmitbuf env ac single ctx f
    Sound { r.1 with pxmitbuf := r.2 } rest ∧
      owned { r.1 with pxmitbuf := r.2 } = owned ctx ∧ (r.2 = .none → r.1.pxmitbuf = .none) := by
  have hnodup := hs.nodup
  simp only [prepareXmitbuf]
  cases hb : ctx.pxmitbuf with
  | none =>
    simp only [owned, hb, heldBy, zero_add] at hnodup ⊢
    exact openXmitbuf_sound hnodup hs.counted
  | some b =>
    simp only [owned, hb] at hnodup
    obtain ⟨hpool, hcounted⟩ := closeXmitbuf_spec hnodup hs.counted
    rw [← hpool] at hnodup
    have howned : owned ctx = pooled (closeXmitbuf ctx.pool b) := by
      rw [hpool, owned, hb]
    simp only
    rw [howned]
    split_ifs with hunfit hsingle
    · refine ⟨⟨?_, by simp, hcounted⟩, ?_, by simp⟩
      · simpa only [owned, heldBy, zero_add] using hnodup
      · simp only [owned, heldBy, zero_add]
    · exact openXmitbuf_sound hnodup hcounted
    · refine ⟨⟨?_, ?_, hs.counted⟩, ?_, by simp⟩
      · rw [hpool] at hnodup
        exact hnodup
      · intro b' hb'
        obtain rfl := Option.some.inj hb'
        exact hs.buf b hb
      · rw [hpool]
        rfl

/-- The frame coalesces, or is not the second of its buffer. -/
def coalesceOk (env : XmitEnv) (ctx : XmitCtx) (f : XmitFrame) : Bool :=
  (env.coalesce f).isSome || ctx.aggNum ≠ 1

theorem rnd8_add_pos (n sz : ℕ) : 0 < rnd8 n + (32 + sz) := by omega

theorem xmitOne_sound (env : XmitEnv) {ctx : XmitCtx} {b : XmitBuf} {f : XmitFrame}
    {rest : Multiset ℕ} (hs : Sound { ctx with pxmitbuf := some b } (f.id ::ₘ rest)) :
    ∃ lost, Sound (xmitOne env ctx b f) rest ∧
      owned (xmitOne env ctx b f) + lost = f.id ::ₘ owned { ctx with pxmitbuf := some b } ∧
      (lost = 0 ↔ coalesceOk env ctx f = true) := by
  have hlen : 0 < b.len ↔ 0 < ctx.aggNum := (hs.buf b rfl).1
  have hpriv : 0 < b.len → b.privData.isSome := (hs.buf b rfl).2
  have hcounted : Counted ctx.pool := hs.counted
  have hnodup := hs.nodup
  simp only [owned, Multiset.cons_add] at hnodup
  obtain ⟨hf, hrest⟩ := Multiset.nodup_cons.mp hnodup
  have hfresh : f.id ∉ pooled ctx.pool := fun h =>
    hf (Multiset.mem_add.mpr (Or.inr (Multiset.mem_add.mpr (Or.inr h))))
  obtain ⟨hpool, hpoolc⟩ := rtwFreeXmitframe_spec hcounted hfresh
  have hmoved : (rest + (heldBy (some b) + f.id ::ₘ pooled ctx.pool)).Nodup := by
    simpa only [Multiset.add_cons] using hnodup
  cases hco : env.coalesce f with
  | none =>
    by_cases hone : ctx.aggNum = 1
    · -- the frame that is neither held nor freed
      have hout : xmitOne env ctx b f =
          { ctx with accnt := ctx.accnt - 1, pxmitbuf := some b } := by
        simp [xmitOne, hco, hone]
      rw [hout]
      refine ⟨{f.id}, ⟨hrest, ?_, hcounted⟩, ?_, ?_⟩
      · intro b' hb'
        obtain rfl := Option.some.inj hb'
        exact ⟨hlen, hpriv⟩
      · rw [add_comm, Multiset.singleton_add]
        rfl
      · simp [coalesceOk, hco, hone]
    · have hout : xmitOne env ctx b f =
          { ctx with accnt := ctx.accnt - 1
                     pxmitbuf := some
                       (if ctx.aggNum = 0 then { b with privData := some f } else b)
                     pool := rtwFreeXmitframe ctx.pool f } := by
        simp [xmitOne, hco, hone]
      have hheld : heldBy (some (if ctx.aggNum = 0 then { b with privData := some f } else b)) =
          heldBy (some b) := by
        split_ifs with hzero
        · have hempty : ¬ 0 < b.len := by omega
          rw [heldBy_of_zero hempty]
          exact heldBy_of_zero hempty
        · rfl
      rw [hout]
      refine ⟨0, ⟨?_, ?_, hpoolc⟩, ?_, by simp [coalesceOk, hone]⟩
      · simpa only [owned, hheld, hpool] using hmoved
      · intro b' hb'
        obtain rfl := Option.some.inj hb'
        split_ifs with hzero
        · exact ⟨hlen, fun _ => rfl⟩
        · exact ⟨hlen, hpriv⟩
      · simp only [owned, hheld, hpool, add_zero, Multiset.add_cons]
  | some sz =>
    by_cases hzero : ctx.aggNum = 0
    · have hout : xmitOne env ctx b f =
          { ctx with accnt := ctx.accnt - 1
                     aggNum := 1
                     preQsel := f.qsel
                     pxmitbuf := some
                       { len := rnd8 b.len + (32 + sz)
                         pgNum := b.pgNum + (32 + sz + 127) / 128
                         privData := some f } } := by
        simp [xmitOne, hco, hzero]
      have hheld : heldBy (some b) = 0 := heldBy_of_zero (by omega)
      have hnew := heldBy_of_pos (b := { len := rnd8 b.len + (32 + sz)
                                         pgNum := b.pgNum + (32 + sz + 127) / 128
                                         privData := some f }) (rnd8_add_pos b.len sz)
      have hid : (((some f).toList.map XmitFrame.id : List ℕ) : Multiset ℕ) = {f.id} := rfl
      rw [hout]
      refine ⟨0, ⟨?_, ?_, hcounted⟩, ?_, by simp [coalesceOk, hco]⟩
      · simp only [owned, hnew, hid, Multiset.singleton_add]
        simpa only [hheld, zero_add] using hmoved
      · intro b' hb'
        obtain rfl := Option.some.inj hb'
        exact ⟨iff_of_true (rnd8_add_pos b.len sz) Nat.one_pos, fun _ => rfl⟩
      · simp only [owned, hnew, hid, Multiset.singleton_add, hheld, zero_add, add_zero]
    · have hout : xmitOne env ctx b f =
          { ctx with accnt := ctx.accnt - 1
                     aggNum := ctx.aggNum + 1
                     preQsel := f.qsel
                     pxmitbuf := some
                       { b with len := rnd8 b.len + (32 + sz)
                                pgNum := b.pgNum + (32 + sz + 127) / 128 }
                     pool := rtwFreeXmitframe ctx.pool f } := by
        simp [xmitOne, hco, hzero]
      have hpos : 0 < b.len := by omega
      have hheld : heldBy (some { b with len := rnd8 b.len + (32 + sz)
                                         pgNum := b.pgNum + (32 + sz + 127) / 128 }) =
          heldBy (some b) := by
        rw [heldBy_of_pos hpos]
        exact heldBy_of_pos (rnd8_add_pos b.len sz)
      rw [hout]
      refine ⟨0, ⟨?_, ?_, hpoolc⟩, ?_, by simp [coalesceOk, hco]⟩
      · simpa only [owned, hheld, hpool] using hmoved
      · intro b' hb'
        obtain rfl := Option.some.inj hb'
        exact ⟨iff_of_true (rnd8_add_pos b.len sz) (Nat.succ_pos _), fun _ => hpriv hpos⟩
      · simp only [owned, hheld, hpool, add_zero, Multiset.add_cons]

def frameLoopOk (env : XmitEnv) (ac : Fin 4) (single : Bool) : XmitCtx → List XmitFrame → Bool
  | _, [] => true
  | ctx, f :: l =>
    match prepareXmitbuf env ac single ctx f with
    | (_, .none) => true
    | (ctx, some b) => coalesceOk env ctx f && frameLoopOk env ac single (xmitOne env ctx b f) l

def staLoopOk (env : XmitEnv) (ac : Fin 4) (single : Bool) :
    XmitCtx → List (List XmitFrame) → Bool
  | _, [] => true
  | ctx, q :: qs =>
    let r := frameLoop env ac single ctx q
    frameLoopOk env ac single ctx q &&
      (if r.1.err = .none then staLoopOk env ac single r.1 qs else true)

def acLoopOk (env : XmitEnv) : List (Fin 4) → (Fin 4 → HwXmit) → XmitCtx → Bool
  | [], _, _ => true
  | i :: is, hw, ctx =>
    if env.waitMore i && 0 < (hw i).accnt && (hw i).accnt < 5 then true
    else
      let single := decide ((hw i).staQueue.length ≤ 1)
      let ctx := { ctx with accnt := (hw i).accnt }
      let r := staLoop env i single ctx (hw i).staQueue
      let hw' := Function.update hw i ⟨r.1.accnt, r.2⟩
      staLoopOk env i single ctx (hw i).staQueue &&
        (if (dumpXmitbuf r.1).err = .xbufUnavail then true
          else acLoopOk env is hw' (dumpXmitbuf r.1))

theorem idsOf_cons (f : XmitFrame) (q : List XmitFrame) : idsOf (f :: q) = f.id ::ₘ idsOf q := rfl

theorem idsOf_append (q q' : List XmitFrame) : idsOf (q ++ q') = idsOf q + idsOf q' := by
  simp only [idsOf, List.map_append, Multiset.coe_add]

theorem set_pxmitbuf_eq {ctx : XmitCtx} {b : Option XmitBuf} (h : ctx.pxmitbuf = b) :
    { ctx with pxmitbuf := b } = ctx := by
  subst h
  rfl

theorem frameLoop_sound (env : XmitEnv) (ac : Fin 4) (single : Bool) {rest : Multiset ℕ}
    {ctx : XmitCtx} {q : List XmitFrame} (hs : Sound ctx (rest + idsOf q)) :
    let r := frameLoop env ac single ctx q
    ∃ lost, Sound r.1 (rest + idsOf r.2) ∧
      idsOf r.2 + owned r.1 + lost = idsOf q + owned ctx ∧
      (lost = 0 ↔ frameLoopOk env ac single ctx q = true) := by
  induction q generalizing ctx with
  | nil => exact ⟨0, hs, add_zero _, by simp [frameLoopOk]⟩
  | cons f l ih =>
    obtain ⟨hprep, howned, hnone⟩ := prepareXmitbuf_sound env ac single f hs
    simp only [frameLoop, frameLoopOk]
    generalize prepareXmitbuf env ac single ctx f = r at hprep howned hnone
    obtain ⟨c, ob⟩ := r
    cases ob with
    | none =>
      rw [set_pxmitbuf_eq (hnone rfl)] at hprep howned
      exact ⟨0, hprep, by rw [howned, add_zero], by simp⟩
    | some b =>
      rw [idsOf_cons, Multiset.add_cons] at hprep
      obtain ⟨lost, hone, hmove, hlost⟩ := xmitOne_sound env hprep
      obtain ⟨lost', hall, hmove', hlost'⟩ := ih hone
      refine ⟨lost' + lost, hall, ?_, ?_⟩
      · rw [← add_assoc, hmove', add_assoc, hmove, howned, idsOf_cons, Multiset.add_cons,
          Multiset.cons_add]
      · rw [add_eq_zero, hlost, hlost', Bool.and_eq_true, and_comm]

theorem staLoop_sound (env : XmitEnv) (ac : Fin 4) (single : Bool) {rest : Multiset ℕ}
    {ctx : XmitCtx} {qs : List (List XmitFrame)} (hs : Sound ctx (rest + idsOf qs.flatten)) :
    let r := staLoop env ac single ctx qs
    ∃ lost, Sound r.1 (rest + idsOf r.2.flatten) ∧
      idsOf r.2.flatten + owned r.1 + lost = idsOf qs.flatten + owned ctx ∧
      (lost = 0 ↔ staLoopOk env ac single ctx qs = true) := by
  induction qs generalizing ctx rest with
  | nil => exact ⟨0, hs, add_zero _, by simp [staLoopOk]⟩
  | cons q qs ih =>
    rw [List.flatten_cons, idsOf_append] at hs ⊢
    have hq : Sound ctx (rest + idsOf qs.flatten + idsOf q) := by
      rwa [add_assoc, add_comm (idsOf qs.flatten)]
    obtain ⟨lost, hone, hmove, hlost⟩ := frameLoop_sound env ac single hq
    simp only [staLoop, staLoopOk]
    generalize frameLoop env ac single ctx q = r at hone hmove
    obtain ⟨c, l⟩ := r
    have hkept : idsOf l + idsOf qs.flatten + owned c + lost =
        idsOf q + idsOf qs.flatten + owned ctx := by
      rw [add_right_comm (idsOf l), add_right_comm _ (idsOf qs.flatten), hmove, add_right_comm]
    have hwait : Sound c (rest + (idsOf l + idsOf qs.flatten)) := by
      rwa [add_comm (idsOf l), ← add_assoc]
    by_cases herr : c.err = .none
    · have hnot : c.err ≠ .txBalance := by simp [herr]
      have hon : Sound c (rest + idsOf l + idsOf qs.flatten) := by rwa [add_assoc]
      obtain ⟨lost', hall, hmove', hlost'⟩ := ih hon
      have hloss : lost' + lost = 0 ↔
          (frameLoopOk env ac single ctx q && staLoopOk env ac single c qs) = true := by
        rw [add_eq_zero, hlost, hlost', Bool.and_eq_true, and_comm]
      have hsum : idsOf l + idsOf (staLoop env ac single c qs).2.flatten +
          owned (staLoop env ac single c qs).1 + (lost' + lost) =
          idsOf q + idsOf qs.flatten + owned ctx := by
        rw [← hkept, add_assoc (idsOf l), ← add_assoc _ lost', add_assoc (idsOf l), hmove',
          ← add_assoc (idsOf l)]
      simp only [herr, ne_eq, not_true_eq_false, if_false, if_true, reduceCtorEq]
      refine ⟨lost' + lost, ?_, ?_, hloss⟩
      · split_ifs with hl
        · have hempty : idsOf l = 0 := by rw [hl]; rfl
          rwa [hempty, add_zero] at hall
        · rw [List.flatten_cons, idsOf_append, ← add_assoc]
          exact hall
      · split_ifs with hl
        · have hempty : idsOf l = 0 := by rw [hl]; rfl
          rwa [hempty, zero_add] at hsum
        · rw [List.flatten_cons, idsOf_append]
          exact hsum
    · simp only [herr, ne_eq, not_false_eq_true, if_true, if_false, Bool.and_true]
      refine ⟨lost, ?_, ?_, hlost⟩
      · split_ifs with hl hbal
        · have hempty : idsOf l = 0 := by rw [hl]; rfl
          rwa [hempty, zero_add] at hwait
        · rw [List.flatten_append, List.flatten_singleton, idsOf_append, add_comm (idsOf _)]
          exact hwait
        · rw [List.flatten_cons, idsOf_append]
          exact hwait
      · split_ifs with hl hbal
        · have hempty : idsOf l = 0 := by rw [hl]; rfl
          rwa [hempty, zero_add] at hkept
        · rw [List.flatten_append, List.flatten_singleton, idsOf_append,
            add_comm (idsOf qs.flatten)]
          exact hkept
        · rw [List.flatten_cons, idsOf_append]
          exact hkept

def queued (hw : Fin 4 → HwXmit) : Multiset ℕ := ∑ i, idsOf (hw i).staQueue.flatten

def others (hw : Fin 4 → HwXmit) (i : Fin 4) : Multiset ℕ :=
  ∑ j ∈ Finset.univ.erase i, idsOf (hw j).staQueue.flatten

theorem queued_eq (hw : Fin 4 → HwXmit) (i : Fin 4) :
    queued hw = others hw i + idsOf (hw i).staQueue.flatten :=
  (Finset.sum_erase_add Finset.univ _ (Finset.mem_univ i)).symm

theorem others_update (hw : Fin 4 → HwXmit) (i : Fin 4) (x : HwXmit) :
    others (Function.update hw i x) i = others hw i := by
  apply Finset.sum_congr rfl
  intro j hj
  rw [Function.update_of_ne (Finset.ne_of_mem_erase hj)]

theorem dumpXmitbuf_sound {ctx : XmitCtx} {rest : Multiset ℕ} (hs : Sound ctx rest) :
    Sound (dumpXmitbuf ctx) rest ∧ owned (dumpXmitbuf ctx) = owned ctx ∧
      (dumpXmitbuf ctx).pxmitbuf = .none := by
  have hnodup := hs.nodup
  simp only [dumpXmitbuf]
  cases hb : ctx.pxmitbuf with
  | none => exact ⟨hs, rfl, hb⟩
  | some b =>
    simp only [owned, hb] at hnodup
    obtain ⟨hpool, hcounted⟩ := closeXmitbuf_spec hnodup hs.counted
    refine ⟨⟨?_, by simp, hcounted⟩, ?_, rfl⟩
    · simpa only [owned, heldBy, zero_add, hpool] using hnodup
    · simp only [owned, heldBy, zero_add, hpool, hb]

theorem acLoop_sound (env : XmitEnv) (is : List (Fin 4)) {hw : Fin 4 → HwXmit} {ctx : XmitCtx}
    (hs : Sound ctx (queued hw)) (hclosed : ctx.pxmitbuf = .none) :
    let r := acLoop env is hw ctx
    ∃ lost, Sound r.2 (queued r.1) ∧ r.2.pxmitbuf = .none ∧
      queued r.1 + owned r.2 + lost = queued hw + owned ctx ∧
      (lost = 0 ↔ acLoopOk env is hw ctx = true) := by
  induction is generalizing hw ctx with
  | nil => exact ⟨0, hs, hclosed, add_zero _, by simp [acLoopOk]⟩
  | cons i is ih =>
    simp only [acLoop, acLoopOk]
    split_ifs with hwait hfull
    · exact ⟨0, ⟨hs.nodup, hs.buf, hs.counted⟩, hclosed, add_zero _, by simp⟩
    all_goals
      have hin : Sound { ctx with accnt := (hw i).accnt }
          (others hw i + idsOf (hw i).staQueue.flatten) := by
        rw [← queued_eq]
        exact ⟨hs.nodup, hs.buf, hs.counted⟩
      obtain ⟨lost, hsta, hmove, hlost⟩ := staLoop_sound env i
        (decide ((hw i).staQueue.length ≤ 1)) hin
      generalize staLoop env i (decide ((hw i).staQueue.length ≤ 1))
        { ctx with accnt := (hw i).accnt } (hw i).staQueue = r at *
      have hnew : queued (Function.update hw i ⟨r.1.accnt, r.2⟩) =
          others hw i + idsOf r.2.flatten := by
        rw [queued_eq _ i, others_update, Function.update_self]
      obtain ⟨hdump, howned, hnone⟩ := dumpXmitbuf_sound hsta
      rw [← hnew] at hdump
      have hsum : queued (Function.update hw i ⟨r.1.accnt, r.2⟩) + owned (dumpXmitbuf r.1) + lost =
          queued hw + owned ctx := by
        rw [hnew, howned, queued_eq hw i, add_assoc, add_assoc, ← add_assoc (idsOf _), hmove,
          add_assoc]
        rfl
    · refine ⟨lost, hdump, hnone, hsum, ?_⟩
      rw [Bool.and_true]
      exact hlost
    · obtain ⟨lost', hall, hend, hmove', hlost'⟩ := ih hdump hnone
      refine ⟨lost' + lost, hall, hend, ?_, ?_⟩
      · rw [← add_assoc, hmove', hsum]
      · rw [add_eq_zero, hlost, hlost', Bool.and_eq_true, and_comm]

def xmitXmitframesOk (env : XmitEnv) (hw : Fin 4 → HwXmit) (pool : FramePool) : Bool :=
  acLoopOk env ((List.finRange 4).map (if env.wifiSpec then env.wmmParaSeq else id)) hw
    { pool := pool }

theorem idsOf_le {q q' : List XmitFrame} (h : q.Sublist q') : idsOf q ≤ idsOf q' :=
  Multiset.coe_le.mpr (h.map XmitFrame.id).subperm

theorem frameLoop_sublist (env : XmitEnv) (ac : Fin 4) (single : Bool) (ctx : XmitCtx)
    (q : List XmitFrame) : (frameLoop env ac single ctx q).2.Sublist q := by
  induction q generalizing ctx with
  | nil => exact List.Sublist.refl []
  | cons f l ih =>
    simp only [frameLoop]
    split
    · exact List.Sublist.refl _
    · exact (ih _).cons f

theorem staLoop_le (env : XmitEnv) (ac : Fin 4) (single : Bool) (ctx : XmitCtx)
    (qs : List (List XmitFrame)) :
    idsOf (staLoop env ac single ctx qs).2.flatten ≤ idsOf qs.flatten := by
  induction qs generalizing ctx with
  | nil => exact le_refl _
  | cons q qs ih =>
    have hq := idsOf_le (frameLoop_sublist env ac single ctx q)
    rw [List.flatten_cons, idsOf_append]
    simp only [staLoop]
    split_ifs
    · exact Multiset.le_add_left _ _
    · exact (ih _).trans (Multiset.le_add_left _ _)
    · rw [List.flatten_append, List.flatten_singleton, idsOf_append, add_comm]
      exact add_le_add_left hq _
    · rw [List.flatten_cons, idsOf_append]
      exact add_le_add_left hq _
    · rw [List.flatten_cons, idsOf_append]
      exact add_le_add hq (ih _)

theorem acLoop_le (env : XmitEnv) (is : List (Fin 4)) (hw : Fin 4 → HwXmit) (ctx : XmitCtx) :
    queued (acLoop env is hw ctx).1 ≤ queued hw := by
  induction is generalizing hw ctx with
  | nil => exact le_refl _
  | cons i is ih =>
    have hstep : ∀ (c : XmitCtx) (n : ℤ) (single : Bool),
        queued (Function.update hw i ⟨n, (staLoop env i single c (hw i).staQueue).2⟩) ≤
          queued hw := by
      intro c n single
      rw [queued_eq _ i, others_update, Function.update_self, queued_eq hw i]
      exact add_le_add_right (staLoop_le env i single c (hw i).staQueue) _
    simp only [acLoop]
    split_ifs
    · exact le_refl _
    · exact hstep _ _ _
    · exact (ih _ _).trans (hstep _ _ _)

/-- The frames taken from the queues are back in the pool, each once, and the
counts are right. -/
def Conserved (hw hw' : Fin 4 → HwXmit) (pool pool' : FramePool) : Prop :=
  pooled pool' = pooled pool + (queued hw - queued hw') ∧ Counted pool'

/-- One call gives every frame it takes from the queues back once, unless a frame
fails to coalesce as the second of its buffer; and then it loses that frame. -/
theorem xmitXmitframes_conserved (env : XmitEnv) (hw : Fin 4 → HwXmit) (pool : FramePool)
    (hnodup : (queued hw + pooled pool).Nodup) (hcounted : Counted pool) :
    let r := xmitXmitframes env hw pool
    Conserved hw r.1 pool r.2.pool ↔ xmitXmitframesOk env hw pool = true := by
  have hstart : Sound { pool := pool } (queued hw) := by
    refine ⟨?_, by simp, hcounted⟩
    simpa only [owned, heldBy, zero_add] using hnodup
  obtain ⟨lost, hs, hend, hmove, hlost⟩ := acLoop_sound env
    ((List.finRange 4).map (if env.wifiSpec then env.wmmParaSeq else id)) hstart rfl
  have hle := acLoop_le env ((List.finRange 4).map (if env.wifiSpec then env.wmmParaSeq else id)) hw
    { pool := pool }
  simp only [owned, hend, heldBy, zero_add] at hmove
  obtain ⟨taken, htaken⟩ := Multiset.le_iff_exists_add.mp hle
  rw [htaken, add_assoc, add_assoc, add_right_inj, add_comm taken] at hmove
  simp only [Conserved, xmitXmitframes, xmitXmitframesOk, ← hlost]
  rw [and_iff_left hs.counted, htaken, add_tsub_cancel_left, ← hmove, left_eq_add]

def twoFrames : Fin 4 → HwXmit :=
  fun i => if i = 2 then { accnt := 2, staQueue := [[{ id := 1 }, { id := 2 }]] } else {}

def oneFree : FramePool where
  freeXmitQueue := { cells := [0], cnt := 1 }

theorem xmitXmitframes_conserved_two :
    let r := xmitXmitframes {} twoFrames oneFree
    r.2.pool.freeXmitQueue.cells = [0, 2, 1] ∧ Conserved twoFrames r.1 oneFree r.2.pool :=
  ⟨by decide, (xmitXmitframes_conserved {} twoFrames oneFree (by decide) ⟨rfl, rfl⟩).mpr
    (by decide)⟩

/-- The second frame of the buffer fails to coalesce: it is in no queue and in no
pool afterwards. -/
theorem second_frame_lost :
    let env : XmitEnv := { coalesce := fun f => if f.id = 2 then none else some 100 }
    let r := xmitXmitframes env twoFrames oneFree
    r.2.pool.freeXmitQueue.cells = [0, 1] ∧ queued r.1 = 0 ∧
      ¬ Conserved twoFrames r.1 oneFree r.2.pool := by
  refine ⟨by decide, by decide, fun h => ?_⟩
  have hcard := congrArg Multiset.card h.1
  revert hcard
  decide

end Rtl8189.XmitPool
