import Rtl8189.EventRun
import Rtl8189.TxAggregate

/-!
# Free pages of the transmit FIFO

`_dequeue_writeport` writes a pending buffer when the pages it needs are free in
the queue or in the public pool, and when the output queue has room for its
frames. The counters are read from the hardware and counted down with what is
written. A step of a run is a dequeue or a poll of the output queue.
-/
namespace Rtl8189.TxPages

open EventRun TxAggregate XmitPool

/-- A pending buffer, with the queue that its address belongs to. -/
structure XmitBuf where
  pageIdx : TxPipe
  pgNum : UInt8
  aggNum : UInt8

/-- The free pages as one read of `SDIO_REG_FREE_TXPG` gives them. -/
structure FreePage where
  dedicated : TxPipe → UInt8
  pub : UInt8

/-- The counters and the buffer that waits for the output queue; also what the
hardware reported last, and what was granted since. -/
structure TxFifo where
  freePage : FreePage := ⟨fun _ => 0, 0⟩
  txOqtFreeSpace : UInt8 := 0
  waiting : Option XmitBuf := none
  reported : FreePage := ⟨fun _ => 0, 0⟩
  reportedOqt : UInt8 := 0
  granted : TxPipe → ℕ := fun _ => 0
  grantedOqt : ℕ := 0

def queryTxFreepage (p : FreePage) (pageIdx : TxPipe) (requiredPageNum : UInt8) : Bool :=
  requiredPageNum.toNat ≤ (p.dedicated pageIdx).toNat + p.pub.toNat

def updateTxFreepage (p : FreePage) (pageIdx : TxPipe) (requiredPageNum : UInt8) : FreePage :=
  let dedicatedPgNum := p.dedicated pageIdx
  if requiredPageNum ≤ dedicatedPgNum then
    { p with dedicated := Function.update p.dedicated pageIdx (dedicatedPgNum - requiredPageNum) }
  else
    { dedicated := Function.update p.dedicated pageIdx 0
      pub := p.pub - (requiredPageNum - dedicatedPgNum) }

/-- `HalQueryTxBufferStatus8189ESdio` -/
def TxFifo.queryTxBufferStatus (s : TxFifo) (numOfFreePage : FreePage) : TxFifo :=
  { s with freePage := numOfFreePage, reported := numOfFreePage, granted := fun _ => 0 }

/-- `HalQueryTxOQTBufferStatus8189ESdio` -/
def TxFifo.queryTxOqtBufferStatus (s : TxFifo) (oqtFreePg : UInt8) : TxFifo :=
  { s with txOqtFreeSpace := oqtFreePg, reportedOqt := oqtFreePg, grantedOqt := 0 }

/-- `_dequeue_writeport` up to the output queue. A buffer that finds no pages is
dropped with a stopped driver, else the counters are read once and it is tried
again or put back. -/
def TxFifo.dequeueWriteport (s : TxFifo) (b : XmitBuf) (cannotRun : Bool)
    (numOfFreePage : FreePage) : TxFifo :=
  if queryTxFreepage s.freePage b.pageIdx b.pgNum then { s with waiting := some b }
  else if cannotRun then s
  else
    let s := s.queryTxBufferStatus numOfFreePage
    if queryTxFreepage s.freePage b.pageIdx b.pgNum then { s with waiting := some b } else s

/-- One round of `rtw_sdio_wait_enough_TxOQT_space`, and the write when there is
space. -/
def TxFifo.waitEnoughTxOqtSpace (s : TxFifo) (b : XmitBuf) (cannotRun : Bool)
    (oqtFreePg : UInt8) : TxFifo :=
  if s.txOqtFreeSpace < b.aggNum then
    if cannotRun then { s with waiting := none } else s.queryTxOqtBufferStatus oqtFreePg
  else
    { s with
      freePage := updateTxFreepage s.freePage b.pageIdx b.pgNum
      txOqtFreeSpace := s.txOqtFreeSpace - b.aggNum
      waiting := none
      granted := Function.update s.granted b.pageIdx (s.granted b.pageIdx + b.pgNum.toNat)
      grantedOqt := s.grantedOqt + b.aggNum.toNat }

inductive TxEvent where
  /-- The end of `rtl8188es_hal_init`. -/
  | halInit (numOfFreePage : FreePage) (oqtFreePg : UInt8)
  | dequeue (pxmitbuf : XmitBuf) (cannotRun : Bool) (numOfFreePage : FreePage)
  | poll (cannotRun : Bool) (oqtFreePg : UInt8)

/-- One thread writes: a second buffer is dequeued when the first is done. -/
def txStep (s : TxFifo) : TxEvent → TxFifo
  | .halInit numOfFreePage oqtFreePg =>
    match s.waiting with
    | none => (s.queryTxBufferStatus numOfFreePage).queryTxOqtBufferStatus oqtFreePg
    | some _ => s
  | .dequeue b cannotRun numOfFreePage =>
    match s.waiting with
    | none => s.dequeueWriteport b cannotRun numOfFreePage
    | some _ => s
  | .poll cannotRun oqtFreePg =>
    match s.waiting with
    | none => s
    | some b => s.waitEnoughTxOqtSpace b cannotRun oqtFreePg

def total (n : TxPipe → ℕ) : ℕ := n .high + n .mid + n .low

/-- What is free and what was granted make up what the hardware reported. -/
structure WithinReport (s : TxFifo) : Prop where
  pages : total (fun q => (s.freePage.dedicated q).toNat) + s.freePage.pub.toNat +
    total s.granted = total (fun q => (s.reported.dedicated q).toNat) + s.reported.pub.toNat
  queue : ∀ q, s.granted q ≤ (s.reported.dedicated q).toNat + s.reported.pub.toNat
  oqt : s.txOqtFreeSpace.toNat + s.grantedOqt = s.reportedOqt.toNat

/-- A queue takes its own pages first, and the rest from the public ones. -/
structure Accounted (s : TxFifo) : Prop where
  dedicated : ∀ q, (s.freePage.dedicated q).toNat = (s.reported.dedicated q).toNat - s.granted q
  pub : s.freePage.pub.toNat +
    total (fun q => s.granted q - (s.reported.dedicated q).toNat) = s.reported.pub.toNat
  oqt : s.txOqtFreeSpace.toNat + s.grantedOqt = s.reportedOqt.toNat
  waiting : ∀ b, s.waiting = some b → queryTxFreepage s.freePage b.pageIdx b.pgNum = true

theorem Accounted.withinReport {s : TxFifo} (h : Accounted s) : WithinReport s := by
  have hpub := h.pub
  have hhigh := h.dedicated .high
  have hmid := h.dedicated .mid
  have hlow := h.dedicated .low
  simp only [total] at hpub
  refine ⟨?_, ?_, h.oqt⟩
  · simp only [total]
    omega
  · intro q
    cases q <;> omega

theorem queryTxBufferStatus_accounted {s : TxFifo} (h : Accounted s) (hw : s.waiting = none)
    (p : FreePage) : Accounted (s.queryTxBufferStatus p) := by
  refine ⟨fun q => rfl, ?_, h.oqt, ?_⟩
  · simp [TxFifo.queryTxBufferStatus, total]
  · intro b hb
    exact absurd (hw.symm.trans hb) nofun

theorem queryTxOqtBufferStatus_accounted {s : TxFifo} (h : Accounted s) (n : UInt8) :
    Accounted (s.queryTxOqtBufferStatus n) :=
  ⟨h.dedicated, h.pub, rfl, h.waiting⟩

theorem dequeueWriteport_accounted {s : TxFifo} (h : Accounted s) (hw : s.waiting = none)
    (b : XmitBuf) (cannotRun : Bool) (p : FreePage) :
    Accounted (s.dequeueWriteport b cannotRun p) := by
  have hread := queryTxBufferStatus_accounted h hw p
  simp only [TxFifo.dequeueWriteport]
  split_ifs with hfree hrun hagain
  · refine ⟨h.dedicated, h.pub, h.oqt, ?_⟩
    intro c hc
    obtain rfl := Option.some.inj hc
    exact hfree
  · exact h
  · refine ⟨hread.dedicated, hread.pub, hread.oqt, ?_⟩
    intro c hc
    obtain rfl := Option.some.inj hc
    exact hagain
  · exact hread

theorem total_update (n : TxPipe → ℕ) (q : TxPipe) (k : ℕ) :
    total (Function.update n q k) + n q = total n + k := by
  cases q <;> simp [total, Function.update] <;> omega

theorem updateTxFreepage_spec {p : FreePage} {q : TxPipe} {n : UInt8}
    (h : queryTxFreepage p q n = true) :
    let p' := updateTxFreepage p q n
    (∀ r, r ≠ q → p'.dedicated r = p.dedicated r) ∧
      (p'.dedicated q).toNat = (p.dedicated q).toNat - n.toNat ∧
      p'.pub.toNat + (n.toNat - (p.dedicated q).toNat) = p.pub.toNat := by
  have hfit : n.toNat ≤ (p.dedicated q).toNat + p.pub.toNat := of_decide_eq_true h
  by_cases hown : n ≤ p.dedicated q
  · have hle : n.toNat ≤ (p.dedicated q).toNat := UInt8.le_iff_toNat_le.mp hown
    simp only [updateTxFreepage, if_pos hown, Function.update_self, UInt8.toNat_sub_of_le _ _ hown]
    refine ⟨fun r hr => Function.update_of_ne hr .., trivial, ?_⟩
    omega
  · have hlt : (p.dedicated q).toNat < n.toNat := by
      rw [UInt8.le_iff_toNat_le] at hown
      omega
    have hrest : (n - p.dedicated q).toNat = n.toNat - (p.dedicated q).toNat :=
      UInt8.toNat_sub_of_le _ _ (UInt8.le_iff_toNat_le.mpr hlt.le)
    have hpub : (p.pub - (n - p.dedicated q)).toNat =
        p.pub.toNat - (n.toNat - (p.dedicated q).toNat) := by
      rw [UInt8.toNat_sub_of_le _ _ (UInt8.le_iff_toNat_le.mpr (by omega)), hrest]
    simp only [updateTxFreepage, if_neg hown, Function.update_self, hpub, UInt8.toNat_zero]
    refine ⟨fun r hr => Function.update_of_ne hr .., ?_, ?_⟩ <;> omega

theorem waitEnoughTxOqtSpace_accounted {s : TxFifo} (h : Accounted s) {b : XmitBuf}
    (hb : s.waiting = some b) (cannotRun : Bool) (n : UInt8) :
    Accounted (s.waitEnoughTxOqtSpace b cannotRun n) := by
  simp only [TxFifo.waitEnoughTxOqtSpace]
  split_ifs with hspace hrun
  · exact ⟨h.dedicated, h.pub, h.oqt, nofun⟩
  · exact queryTxOqtBufferStatus_accounted h n
  · obtain ⟨hother, hown, hpub⟩ := updateTxFreepage_spec (h.waiting b hb)
    have hded := h.dedicated b.pageIdx
    have hsum := h.pub
    have hoqt := h.oqt
    refine ⟨?_, ?_, ?_, nofun⟩
    · intro q
      by_cases hq : q = b.pageIdx
      · subst hq
        simp only [hown, hded, Function.update_self]
        omega
      · simp only [hother q hq, Function.update_of_ne hq]
        exact h.dedicated q
    · have hover : (fun q => Function.update s.granted b.pageIdx
          (s.granted b.pageIdx + b.pgNum.toNat) q - (s.reported.dedicated q).toNat) =
          Function.update (fun q => s.granted q - (s.reported.dedicated q).toNat) b.pageIdx
            (s.granted b.pageIdx + b.pgNum.toNat - (s.reported.dedicated b.pageIdx).toNat) := by
        funext q
        by_cases hq : q = b.pageIdx
        · subst hq
          simp only [Function.update_self]
        · simp only [Function.update_of_ne hq]
      have htotal := total_update (fun q => s.granted q - (s.reported.dedicated q).toNat) b.pageIdx
        (s.granted b.pageIdx + b.pgNum.toNat - (s.reported.dedicated b.pageIdx).toNat)
      simp only [hover]
      omega
    · have hle : b.aggNum ≤ s.txOqtFreeSpace := UInt8.not_lt.mp hspace
      have hnat : b.aggNum.toNat ≤ s.txOqtFreeSpace.toNat := UInt8.le_iff_toNat_le.mp hle
      simp only [UInt8.toNat_sub_of_le _ _ hle]
      omega

theorem txStep_accounted (s : TxFifo) (e : TxEvent) (h : Accounted s) : Accounted (txStep s e) := by
  cases e with
  | halInit p n =>
    simp only [txStep]
    split
    · next hw => exact queryTxOqtBufferStatus_accounted (queryTxBufferStatus_accounted h hw p) n
    · exact h
  | dequeue b cannotRun p =>
    simp only [txStep]
    split
    · next hw => exact dequeueWriteport_accounted h hw b cannotRun p
    · exact h
  | poll cannotRun n =>
    simp only [txStep]
    split
    · exact h
    · next b hb => exact waitEnoughTxOqtSpace_accounted h hb cannotRun n

theorem run_within (es : List TxEvent) : Accounted (run txStep {} es) := by
  have hinit : Accounted {} := ⟨fun _ => rfl, rfl, rfl, nofun⟩
  exact run_invariant Accounted txStep_accounted hinit es

/-- The counters keep within what the hardware reports whatever is written; what
is written fits its buffer and its pages exactly when no frame in it needs a
second fragment or is longer than a buffer. -/
theorem tx_bounds (st : TxSetup) (hw : Fin 4 → HwQueue) (pool : FramePool)
    (es : List TxEvent) :
    (∀ c ∈ (st.xmitXmitframes hw pool).2.pending,
      WellLaid c ↔ ∀ p ∈ c.frames, p.frame.Fits st.fragLen) ∧
    WithinReport (run txStep {} es) :=
  ⟨xmitXmitframes_judged st hw pool, (run_within es).withinReport⟩

def fragmenting : TxSetup where
  numQ := fun _ => 20
  numPubQ := 100
  queue2Pipe := fun _ => .low
  txOqtMaxFreeSpace := 32
  fragLen := 256

def twoPackets (i : Fin 4) : HwQueue :=
  if i = 2 then
    ⟨2, [[{ payload := List.replicate 400 0 }, { id := 1, payload := List.replicate 400 0 }]]⟩
  else {}

instance (c : PendingBuf) : Decidable (WellLaid c) :=
  decidable_of_iff
    (c.len ≤ maxXmitbufSz ∧ c.frames.length = c.aggNum.toNat ∧
      (∀ p ∈ c.frames, ∀ g ∈ p.frags, p.fragEnd g ≤ c.len) ∧
      (c.frames.Pairwise fun p q => ∀ g ∈ p.frags, p.fragEnd g ≤ q.bufAddr) ∧
      c.len ≤ 128 * c.pgNum.toNat)
    ⟨fun ⟨h₁, h₂, h₃, h₄, h₅⟩ => ⟨h₁, h₂, h₃, h₄, h₅⟩,
      fun h => ⟨h.len_le, h.aggNum, h.inside, h.disjoint, h.pages⟩⟩

theorem fragments_overwritten :
    ¬∀ c ∈ (fragmenting.xmitXmitframes twoPackets {}).2.pending, WellLaid c := by
  decide +kernel

end Rtl8189.TxPages
