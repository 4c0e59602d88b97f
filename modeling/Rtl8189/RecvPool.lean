import Mathlib.Algebra.BigOperators.Group.Finset.Basic
import Mathlib.Data.Fintype.Basic
import Mathlib.Tactic.Abel
import Rtl8189.FreeList
import Rtl8189.PacketNumber
import Rtl8189.PortControl
import Rtl8189.RecvReorder

/-!
# The pool of receive frames

Every way of a receive frame through `recv_func`: who frees it, on which queue
it waits, and what happens when a check fails. Frames are named by their `id`;
stations by the slot of their `sta_info`. What the checks decide is left to the
caller of the model, so that every outcome is covered for every frame.
-/
namespace Rtl8189.RecvPool

open Defrag EventRun PacketNumber PortControl RecvReorder

/-- `freedTwice` records whether a frame was freed while on the free queue. -/
structure RecvPriv where
  freeRecvQueue : FreeList ℕ
  freedTwice : Bool := false
  ucSwdecPendingQueue : List RecvFrame := []
  /-- `hdr.preorder_ctrl` of a frame: the slot and TID it points to. -/
  preorderCtrl : ℕ → Option (ℕ × Fin 16) := fun _ => none
  staHash : List ℕ := []
  macAddr : ℕ → MacAddr := fun _ => Vector.replicate 6 0
  defragQ : ℕ → List RecvFrame := fun _ => []
  recvreorderCtrl : ℕ → Fin 16 → RecvReorderCtrl := fun _ _ => {}

structure RxCtx where
  monitorState : Bool := false
  radiotapFits : Bool := true
  cannotRun : Bool := false
  mpMode : Bool := false
  linked : Bool := false
  rxBindicatePkt : Bool := false
  /-- The address checks and `MPwlanhdr_to_ethhdr` succeed. -/
  mpToEthhdr : RecvFrame → Bool := fun _ => false
  stationState : Bool := false
  busetkipkey : Bool := false
  swDecrypt : Bool := false
  authModeWpaPsk : Bool := false
  myAddr : List UInt8 := List.replicate 6 0
  bipKeyInstalled : Bool := false
  staMfp : ℕ → Bool := fun _ => false
  staKeyInstalled : ℕ → Bool := fun _ => false
  bipVerify : RecvFrame → Bool := fun _ => true
  /-- Address filters, duplicate and packet number checks of a data frame. -/
  validateData : RecvFrame → RecvRet := fun _ => .success
  sec : SecurityPriv
  micOk : RecvFrame → Bool := fun _ => true
  rxEnv : RxEnv := {}

def nrRecvframe : ℕ := 256

def rtwGetStainfo (s : RecvPriv) (hwaddr : MacAddr) : Option ℕ :=
  let addr := if isMcast hwaddr then Vector.replicate 6 0xff else hwaddr
  s.staHash.find? fun k => s.macAddr k = addr

def setDefragQ (s : RecvPriv) (k : ℕ) (q : List RecvFrame) : RecvPriv :=
  { s with defragQ := Function.update s.defragQ k q }

def setReorderCtrl (s : RecvPriv) (k : ℕ) (tid : Fin 16) (c : RecvReorderCtrl) : RecvPriv :=
  { s with
    recvreorderCtrl :=
      Function.update s.recvreorderCtrl k (Function.update (s.recvreorderCtrl k) tid c) }

def setStaHash (s : RecvPriv) (h : List ℕ) : RecvPriv := { s with staHash := h }

/-! ## Freeing -/

def without (i : ℕ) (q : List RecvFrame) : List RecvFrame := q.filter fun f => f.id ≠ i

/-- `rtw_list_delete`, whatever queue the frame is on. -/
def unlink (s : RecvPriv) (i : ℕ) : RecvPriv :=
  { s with
    ucSwdecPendingQueue := without i s.ucSwdecPendingQueue
    defragQ := fun k => without i (s.defragQ k)
    recvreorderCtrl := fun k tid =>
      { s.recvreorderCtrl k tid with pending := without i (s.recvreorderCtrl k tid).pending } }

def rtwFreeRecvframe (s : RecvPriv) (i : ℕ) : RecvPriv :=
  { unlink s i with
    freeRecvQueue := s.freeRecvQueue.free i
    freedTwice := s.freedTwice || i ∈ s.freeRecvQueue.cells }

def rtwFreeRecvframeQueue (s : RecvPriv) (q : List RecvFrame) : RecvPriv :=
  q.foldl (fun s f => rtwFreeRecvframe s f.id) s

def recvProcessMpduFree (s : RecvPriv) (f : RecvFrame) : RecvPriv := rtwFreeRecvframe s f.id

/-! ## Checking a frame -/

/-- The station whose defrag queue `recvframe_chk_defrag` uses. -/
def defragSta (s : RecvPriv) (f : RecvFrame) : Option ℕ :=
  match rtwGetStainfo s f.attrib.ta with
  | some k => some k
  | none =>
    if f.getFrameType ≠ .data then rtwGetStainfo s (Vector.replicate 6 0xff) else none

def chkDefrag (micOk : RecvFrame → Bool) (s : RecvPriv) (f : RecvFrame) :
    RecvPriv × Option RecvFrame :=
  match defragSta s f with
  | none =>
    let d := recvframeChkDefrag micOk none f
    (rtwFreeRecvframeQueue s d.freed, d.frame)
  | some k =>
    let d := recvframeChkDefrag micOk (some (s.defragQ k)) f
    (rtwFreeRecvframeQueue (setDefragQ s k d.queue) d.freed, d.frame)

inductive MgmtProtect where
  | fail
  | decryptFail
  | pass (f : RecvFrame)
  deriving DecidableEq

def wifiDisassoc : ℕ := 0xa0

def wifiDeauth : ℕ := 0xc0

def wifiAction : ℕ := 0xd0

def wifiBar : ℕ := 0x84

def categoryIsGroupPrivacy (category : ℕ) : Bool := category = 13 ∨ category = 14

def categoryIsRobust (category : ℕ) : Bool := category ∉ [4, 7, 11, 15, 21, 0x7f]

def decrypted (f : RecvFrame) : RecvFrame :=
  { f with attrib := { f.attrib with bdecrypted := true } }

def mgmtToDecrypt (f : RecvFrame) : RecvFrame :=
  { f with
    attrib := { f.attrib with
      bdecrypted := false
      encrypt := .aes
      hdrlen := 24
      ivLen := 8
      icvLen := 8
      ra := Vector.ofFn fun i : Fin 6 => f.view.getD (4 + i) 0
      ta := f.addr2 } }

def validateMgmtProtect (ctx : RxCtx) (psta : Option ℕ) (f : RecvFrame) : MgmtProtect :=
  let subtype := f.getFrameSubType
  let isBmc := byteAt f.view 4 % 2 = 1
  let category := byteAt f.view 24
  if ctx.bipKeyInstalled = false then .pass f
  else if f.attrib.privacy then
    if decryptor ctx.sec (mgmtToDecrypt f) then .pass (decrypted (mgmtToDecrypt f))
    else .decryptFail
  else match psta with
  | none => .pass f
  | some k =>
    if ctx.staMfp k = false then .pass f
    else if isBmc then
      if subtype = wifiAction ∧ categoryIsGroupPrivacy category then .fail
      else if (subtype = wifiAction ∧ categoryIsRobust category) ∨ subtype = wifiDeauth
          ∨ subtype = wifiDisassoc then
        if ctx.bipVerify f then .pass f else .fail
      else .pass f
    else if subtype = wifiDeauth ∨ subtype = wifiDisassoc then .fail
    else if subtype = wifiAction ∧ categoryIsRobust category ∧ ctx.staKeyInstalled k then .fail
    else .pass f

/-- What the dispatcher makes of the frame handed to it changes no queue; the
stations it frees are events of their own. -/
def validateRecvMgntFrame (ctx : RxCtx) (s : RecvPriv) (f : RecvFrame) : RecvPriv :=
  match validateMgmtProtect ctx (rtwGetStainfo s f.addr2) f with
  | .fail => s
  | .decryptFail => rtwFreeRecvframe s f.id
  | .pass f => (chkDefrag ctx.micOk s f).1

/-- A BlockAckReq moves the window. -/
def validateRecvCtrlFrame (ctx : RxCtx) (s : RecvPriv) (f : RecvFrame) : RecvPriv :=
  if (f.view.drop 4).take 6 ≠ ctx.myAddr then s
  else match rtwGetStainfo s f.addr2 with
  | none => s
  | some k =>
    if f.getFrameSubType = wifiBar then
      let tid : Fin 16 := Fin.ofNat 16 (le16 f.view 16 / 2 ^ 12)
      setReorderCtrl s k tid
        { s.recvreorderCtrl k tid with indicateSeq := le16 f.view 18 / 2 ^ 4 }
    else s

def validateRecvDataFrame (ctx : RxCtx) (s : RecvPriv) (f : RecvFrame) : RecvPriv × RecvRet :=
  match rtwGetStainfo s f.attrib.ta with
  | none => (s, .fail)
  | some k =>
    let ctrl :=
      if f.attrib.qos ∧ isMcast f.attrib.ra = false then
        some (k, Fin.ofNat 16 f.attrib.priority)
      else none
    ({ s with preorderCtrl := Function.update s.preorderCtrl f.id ctrl }, ctx.validateData f)

def validateRecvFrame (ctx : RxCtx) (s : RecvPriv) (f : RecvFrame) : RecvPriv × RecvRet :=
  if byteAt f.rxData 0 % 4 ≠ 0 then (s, .fail)
  else match f.getFrameType with
  | .mgt => (validateRecvMgntFrame ctx s f, .fail)
  | .ctrl => (validateRecvCtrlFrame ctx s f, .fail)
  | .data => validateRecvDataFrame ctx s f
  | .reserved => (s, .fail)

/-! ## `recv_func` -/

/-- A frame without its indication is freed at `exit` only. -/
def mpRecvFrame (ctx : RxCtx) (s : RecvPriv) (f : RecvFrame) : RecvPriv :=
  let s :=
    if ctx.linked then
      if ctx.rxBindicatePkt = false then rtwFreeRecvframe s f.id
      else if f.getFrameType = .data ∧ ctx.mpToEthhdr f ∧ ctx.cannotRun = false then
        rtwFreeRecvframe s f.id
      else s
    else s
  rtwFreeRecvframe s f.id

def recvFuncPrehandle (ctx : RxCtx) (s : RecvPriv) (f : RecvFrame) : RecvPriv × RecvRet :=
  if ctx.mpMode then (mpRecvFrame ctx s f, .fail)
  else
    let r := validateRecvFrame ctx s f
    if r.2 ≠ .success then (rtwFreeRecvframe r.1 f.id, r.2) else r

/-- `recv_indicatepkt_reorder` with the frames it passes to `recv_process_mpdu`. -/
def indicateReorder (s : RecvPriv) (f : RecvFrame) : RecvPriv × RecvRet :=
  match s.preorderCtrl f.id with
  | none => (s, .success)
  | some (k, tid) =>
    let o := recvIndicatepktReorder (s.recvreorderCtrl k tid) f
    (o.2.1.foldl recvProcessMpduFree (setReorderCtrl s k tid o.1), o.2.2)

/-- `recv_set_iseq_before_mpdu_process` and `recv_set_iseq_after_mpdu_process`. -/
def setIseq (s : RecvPriv) (f : RecvFrame) (seqNum : ℕ) : RecvPriv :=
  match s.preorderCtrl f.id with
  | none => s
  | some (k, tid) =>
    setReorderCtrl s k tid { s.recvreorderCtrl k tid with indicateSeq := (seqNum + 1) % 4096 }

def recvFuncPosthandle (ctx : RxCtx) (s : RecvPriv) (f : RecvFrame) : RecvPriv :=
  if decryptor ctx.sec f = false then rtwFreeRecvframe s f.id
  else
    let d := chkDefrag ctx.micOk s (decrypted f)
    match d.2 with
    | none => d.1
    | some prframe =>
      match portctrl ctx.rxEnv prframe with
      | none => rtwFreeRecvframe d.1 prframe.id
      | some prframe =>
        let r := indicateReorder d.1 prframe
        match r.2 with
        -- the frame freed here is the one received, not the one reassembled
        | .fail => rtwFreeRecvframe r.1 f.id
        | .handled => r.1
        | .success => recvProcessMpduFree (setIseq r.1 prframe f.attrib.seqNum) prframe

def dequeueSwdec (ctx : RxCtx) (s : RecvPriv) : RecvPriv :=
  match s.ucSwdecPendingQueue with
  | [] => s
  | f :: q => recvFuncPosthandle ctx { s with ucSwdecPendingQueue := q } f

def dequeueLoop (ctx : RxCtx) : ℕ → RecvPriv → RecvPriv
  | 0, s => s
  | n + 1, s => dequeueLoop ctx n (dequeueSwdec ctx s)

/-- Once the keys are there, what waited for them is handled first. -/
def dequeueAll (ctx : RxCtx) (s : RecvPriv) : RecvPriv :=
  if ctx.stationState && ctx.busetkipkey then dequeueLoop ctx s.ucSwdecPendingQueue.length s
  else s

def toSwdecQueue (ctx : RxCtx) (f : RecvFrame) : Bool :=
  ctx.stationState && !isMcast f.attrib.ra && f.attrib.encrypt ≠ .noPrivacy
    && (!f.attrib.bdecrypted || ctx.swDecrypt) && ctx.authModeWpaPsk && !ctx.busetkipkey

def recvFrameMonitor (ctx : RxCtx) (s : RecvPriv) (f : RecvFrame) : RecvPriv :=
  if ctx.radiotapFits = false then rtwFreeRecvframe s f.id
  else if ctx.cannotRun = false then
    -- `rtw_recv_monitor`
    rtwFreeRecvframe s f.id
  else rtwFreeRecvframe s f.id

def afterPrehandle (ctx : RxCtx) (s : RecvPriv) (f : RecvFrame) : RecvPriv :=
  if toSwdecQueue ctx f then
    let s := { s with ucSwdecPendingQueue := s.ucSwdecPendingQueue ++ [f] }
    if s.freeRecvQueue.cnt < ((nrRecvframe / 4 : ℕ) : ℤ) then dequeueSwdec ctx s else s
  else recvFuncPosthandle ctx s f

def recvFunc (ctx : RxCtx) (s : RecvPriv) (f : RecvFrame) : RecvPriv :=
  if ctx.monitorState then recvFrameMonitor ctx s f
  else
    let r := recvFuncPrehandle ctx (dequeueAll ctx s) f
    if r.2 = .success then afterPrehandle ctx r.1 f else r.1

/-! ## Stations and timers -/

def drainReorder (s : RecvPriv) (k : ℕ) (tid : Fin 16) : RecvPriv :=
  let c := s.recvreorderCtrl k tid
  rtwFreeRecvframeQueue
    (setReorderCtrl s k tid { c with pending := [], timerSet := false, recAbbaRspAck := false })
    c.pending

def drainAll (s : RecvPriv) (k : ℕ) (tids : List (Fin 16)) : RecvPriv :=
  tids.foldl (fun s tid => drainReorder s k tid) s

/-- The defrag queue is not looked at. -/
def rtwFreeStainfo (s : RecvPriv) (k : ℕ) : RecvPriv :=
  if k ∈ s.staHash then
    drainAll (setStaHash s (s.staHash.filter (· ≠ k))) k (List.finRange 16)
  else s

/-- A slot from `free_sta_queue`, with its queues initialised. -/
def rtwAllocStainfo (s : RecvPriv) (k : ℕ) (hwaddr : MacAddr) : RecvPriv :=
  if k ∈ s.staHash then s
  else
    { s with
      staHash := s.staHash ++ [k]
      macAddr := Function.update s.macAddr k hwaddr
      defragQ := Function.update s.defragQ k []
      recvreorderCtrl := Function.update s.recvreorderCtrl k fun _ => { indicateSeq := 0xFFFF } }

/-- A timer that is not set does not fire. -/
def reorderTimeout (s : RecvPriv) (k : ℕ) (tid : Fin 16) (cannotRun : Bool) : RecvPriv :=
  if (s.recvreorderCtrl k tid).timerSet then
    let o := rtwReorderingCtrlTimeoutHandler cannotRun (s.recvreorderCtrl k tid)
    o.2.foldl recvProcessMpduFree (setReorderCtrl s k tid o.1)
  else s

def setSession (s : RecvPriv) (hwaddr : MacAddr) (tid : Fin 16) (c : RecvReorderCtrl) : RecvPriv :=
  match rtwGetStainfo s hwaddr with
  | none => s
  | some k =>
    let old := s.recvreorderCtrl k tid
    setReorderCtrl s k tid { c with
      pending := old.pending
      timerSet := old.timerSet
      bReorderWaiting := old.bReorderWaiting }

def rtwFreeUcSwdecPendingQueue (s : RecvPriv) : RecvPriv :=
  rtwFreeRecvframeQueue { s with ucSwdecPendingQueue := [] } s.ucSwdecPendingQueue

inductive RxEvent where
  | frame (ctx : RxCtx) (f : RecvFrame)
  | timeout (k : ℕ) (tid : Fin 16) (cannotRun : Bool)
  | freeStainfo (k : ℕ)
  | allocStainfo (k : ℕ) (hwaddr : MacAddr)
  | session (hwaddr : MacAddr) (tid : Fin 16) (c : RecvReorderCtrl)
  | freeUcSwdec

/-- A frame from the bus takes the first free one; it waits when there is none. -/
def rxStep (s : RecvPriv) : RxEvent → RecvPriv
  | .frame ctx f =>
    match s.freeRecvQueue.alloc with
    | none => s
    | some (i, q) => recvFunc ctx { s with freeRecvQueue := q } { f with id := i }
  | .timeout k tid cannotRun => reorderTimeout s k tid cannotRun
  | .freeStainfo k => rtwFreeStainfo s k
  | .allocStainfo k hwaddr => rtwAllocStainfo s k hwaddr
  | .session hwaddr tid c => setSession s hwaddr tid c
  | .freeUcSwdec => rtwFreeUcSwdecPendingQueue s

/-- After `_rtw_init_recv_priv`. -/
def initRecvPriv : RecvPriv where
  freeRecvQueue := { cells := List.range nrRecvframe, cnt := nrRecvframe }

/-! ## The places of a frame -/

def idsOf (q : List RecvFrame) : Multiset ℕ := (q.map RecvFrame.id : List ℕ)

def heldBySta (s : RecvPriv) (k : ℕ) : Multiset ℕ :=
  idsOf (s.defragQ k) + ∑ tid, idsOf (s.recvreorderCtrl k tid).pending

def queued (s : RecvPriv) : Multiset ℕ :=
  idsOf s.ucSwdecPendingQueue + ∑ k ∈ s.staHash.toFinset, heldBySta s k

def places (s : RecvPriv) : Multiset ℕ := (s.freeRecvQueue.cells : Multiset ℕ) + queued s

@[simp] theorem idsOf_nil : idsOf [] = 0 := rfl

@[simp] theorem idsOf_cons (f : RecvFrame) (q : List RecvFrame) :
    idsOf (f :: q) = f.id ::ₘ idsOf q := rfl

@[simp] theorem idsOf_append (q r : List RecvFrame) : idsOf (q ++ r) = idsOf q + idsOf r := by
  simp only [idsOf, List.map_append, Multiset.coe_add]

theorem idsOf_without (i : ℕ) (q : List RecvFrame) :
    idsOf (without i q) = (idsOf q).filter (· ≠ i) := by
  simp only [idsOf, without, Multiset.filter_coe, List.filter_map]
  rfl

theorem filter_sum {ι : Type*} (p : ℕ → Prop) [DecidablePred p] (t : Finset ι)
    (m : ι → Multiset ℕ) : (∑ k ∈ t, m k).filter p = ∑ k ∈ t, (m k).filter p :=
  map_sum (AddMonoidHom.mk ⟨Multiset.filter p, Multiset.filter_zero p⟩
    fun a b => Multiset.filter_add p a b) m t

theorem queued_unlink (s : RecvPriv) (i : ℕ) :
    queued (unlink s i) = (queued s).filter (· ≠ i) := by
  simp only [queued, heldBySta, unlink, idsOf_without, Multiset.filter_add, filter_sum]

theorem mem_queued {s : RecvPriv} {k i : ℕ} (hk : k ∈ s.staHash) (hi : i ∈ heldBySta s k) :
    i ∈ queued s := by
  refine Multiset.mem_add.mpr (.inr ?_)
  rw [← Finset.add_sum_erase _ _ (List.mem_toFinset.mpr hk)]
  exact Multiset.mem_add.mpr (.inl hi)

theorem sum_exchange {ι : Type*} [DecidableEq ι] {t : Finset ι} {i : ι} (hi : i ∈ t)
    {m m' : ι → Multiset ℕ} (hrest : ∀ j, j ≠ i → m' j = m j) :
    ∑ j ∈ t, m' j + m i = ∑ j ∈ t, m j + m' i := by
  have heq : ∑ j ∈ t.erase i, m' j = ∑ j ∈ t.erase i, m j := by
    refine Finset.sum_congr rfl ?_
    intro j hj
    exact hrest j (Finset.ne_of_mem_erase hj)
  rw [← Finset.add_sum_erase t m hi, ← Finset.add_sum_erase t m' hi, heq]
  abel

theorem queued_exchange {s s' : RecvPriv} {k : ℕ} (hk : k ∈ s.staHash)
    (hswdec : s'.ucSwdecPendingQueue = s.ucSwdecPendingQueue) (hhash : s'.staHash = s.staHash)
    (hrest : ∀ j, j ≠ k → heldBySta s' j = heldBySta s j) :
    queued s' + heldBySta s k = queued s + heldBySta s' k := by
  have hsum := sum_exchange (List.mem_toFinset.mpr hk) hrest
  simp only [queued, hswdec, hhash, add_assoc, hsum]

theorem queued_setDefragQ {s : RecvPriv} {k : ℕ} (hk : k ∈ s.staHash) (q : List RecvFrame) :
    queued (setDefragQ s k q) + idsOf (s.defragQ k) = queued s + idsOf q := by
  have hq : queued (setDefragQ s k q) + heldBySta s k =
      queued s + heldBySta (setDefragQ s k q) k := by
    refine queued_exchange hk rfl rfl ?_
    intro j hj
    simp only [heldBySta, setDefragQ, Function.update_of_ne hj]
  simp only [heldBySta, setDefragQ, Function.update_self, ← add_assoc] at hq
  exact add_right_cancel hq

theorem queued_setReorderCtrl {s : RecvPriv} {k : ℕ} (hk : k ∈ s.staHash) (tid : Fin 16)
    (c : RecvReorderCtrl) :
    queued (setReorderCtrl s k tid c) + idsOf (s.recvreorderCtrl k tid).pending =
      queued s + idsOf c.pending := by
  have hq : queued (setReorderCtrl s k tid c) + heldBySta s k =
      queued s + heldBySta (setReorderCtrl s k tid c) k := by
    refine queued_exchange hk rfl rfl ?_
    intro j hj
    simp only [heldBySta, setReorderCtrl, Function.update_of_ne hj]
  have hrest : ∀ t, t ≠ tid → idsOf ((setReorderCtrl s k tid c).recvreorderCtrl k t).pending =
      idsOf (s.recvreorderCtrl k t).pending := by
    intro t ht
    simp only [setReorderCtrl, Function.update_self, Function.update_of_ne ht]
  have htid := sum_exchange (Finset.mem_univ tid) hrest
  have hold : heldBySta (setReorderCtrl s k tid c) k + idsOf (s.recvreorderCtrl k tid).pending =
      heldBySta s k + idsOf c.pending := by
    simp only [heldBySta, add_assoc, htid]
    simp only [setReorderCtrl, Function.update_self]
  ext i
  have h₁ := congrArg (Multiset.count i) hq
  have h₂ := congrArg (Multiset.count i) hold
  simp only [Multiset.count_add] at h₁ h₂ ⊢
  omega

/-! ## Soundness of the bookkeeping -/

/-- All frames are on the queues or held by the call in progress, which has those
in `held`. -/
structure Sound (all : Multiset ℕ) (s : RecvPriv) (held : Multiset ℕ) : Prop where
  total : places s + held = all
  counted : s.freeRecvQueue.Counted
  once : s.freedTwice = false
  drained : ∀ k ∉ s.staHash, ∀ tid, (s.recvreorderCtrl k tid).pending = []

section

variable {all held held' : Multiset ℕ} {s : RecvPriv}

theorem Sound.notMem_cells (hall : all.Nodup) (hs : Sound all s held) {i : ℕ}
    (hi : i ∈ queued s + held) : i ∉ s.freeRecvQueue.cells := by
  have htotal := hs.total
  rw [places, add_assoc] at htotal
  rw [← htotal] at hall
  intro hcell
  exact Multiset.disjoint_left.mp (Multiset.nodup_add.mp hall).2.2 (Multiset.mem_coe.mpr hcell) hi

theorem Sound.notMem_queued (hall : all.Nodup) (hs : Sound all s held) {i : ℕ} (hi : i ∈ held) :
    i ∉ queued s := by
  have htotal := hs.total
  rw [places] at htotal
  rw [← htotal] at hall
  intro hq
  exact Multiset.disjoint_left.mp (Multiset.nodup_add.mp hall).2.2
    (Multiset.mem_add.mpr (.inr hq)) hi

theorem Sound.free (hall : all.Nodup) (hs : Sound all s held) {i : ℕ}
    (hi : i ∈ queued s + held) : Sound all (rtwFreeRecvframe s i) (held.filter (· ≠ i)) := by
  have hcell := hs.notMem_cells hall hi
  have htotal := hs.total
  rw [places, add_assoc] at htotal
  have hmem : i ∈ all := htotal ▸ Multiset.mem_add.mpr (.inr hi)
  have hcells : ((s.freeRecvQueue.cells : Multiset ℕ)).filter (· ≠ i) =
      (s.freeRecvQueue.cells : Multiset ℕ) := by
    refine Multiset.filter_eq_self.mpr ?_
    intro j hj
    exact ne_of_mem_of_not_mem (Multiset.mem_coe.mp hj) hcell
  refine ⟨?_, FreeList.free_counted hs.counted hcell, ?_, ?_⟩
  · have hplaces : places (rtwFreeRecvframe s i) = i ::ₘ (places s).filter (· ≠ i) := by
      have hqueued : queued (rtwFreeRecvframe s i) = (queued s).filter (· ≠ i) := queued_unlink s i
      rw [places, hqueued, places, Multiset.filter_add, hcells, ← Multiset.cons_add]
      exact congrArg (· + _) (FreeList.free_cells hcell)
    rw [hplaces, Multiset.cons_add, ← Multiset.filter_add, hs.total,
      ← hall.erase_eq_filter, Multiset.cons_erase hmem]
  · simp only [rtwFreeRecvframe, hs.once, hcell, decide_false, Bool.or_false]
  · intro k hk tid
    simp only [rtwFreeRecvframe, unlink, hs.drained k hk tid]
    rfl

theorem Sound.nodup_held (hall : all.Nodup) (hs : Sound all s held) : held.Nodup :=
  (Multiset.nodup_add.mp (hs.total ▸ hall)).2.1

theorem filter_cons_ne {i : ℕ} {m : Multiset ℕ} (h : (i ::ₘ m).Nodup) :
    (i ::ₘ m).filter (· ≠ i) = m := by
  rw [← h.erase_eq_filter, Multiset.erase_cons_head]

theorem Sound.free_held {i : ℕ} (hall : all.Nodup) (hs : Sound all s (i ::ₘ held)) :
    Sound all (rtwFreeRecvframe s i) held := by
  have hfree := hs.free hall (Multiset.mem_add.mpr (.inr (Multiset.mem_cons_self i held)))
  rwa [filter_cons_ne (hs.nodup_held hall)] at hfree

theorem Sound.freeQueue {q : List RecvFrame} (hall : all.Nodup)
    (hs : Sound all s (idsOf q + held)) : Sound all (rtwFreeRecvframeQueue s q) held := by
  induction q generalizing s with
  | nil =>
    rw [idsOf_nil, zero_add] at hs
    exact hs
  | cons f q ih =>
    rw [idsOf_cons, Multiset.cons_add] at hs
    exact ih (hs.free_held hall)

theorem without_of_notMem {i : ℕ} {q : List RecvFrame} (hi : i ∉ idsOf q) : without i q = q := by
  refine List.filter_eq_self.mpr ?_
  intro f hf
  refine decide_eq_true ?_
  rintro rfl
  exact hi (Multiset.mem_coe.mpr (List.mem_map_of_mem hf))

/-- What is pending is not touched when a frame in the hands of the caller is
freed. -/
theorem Sound.free_recvreorderCtrl {i : ℕ} (hall : all.Nodup) (hs : Sound all s (i ::ₘ held))
    (k : ℕ) (tid : Fin 16) :
    (rtwFreeRecvframe s i).recvreorderCtrl k tid = s.recvreorderCtrl k tid := by
  have hi : i ∉ idsOf (s.recvreorderCtrl k tid).pending := by
    by_cases hk : k ∈ s.staHash
    · intro hmem
      refine hs.notMem_queued hall (Multiset.mem_cons_self i held) (mem_queued hk ?_)
      refine Multiset.mem_add.mpr (.inr ?_)
      rw [← Finset.add_sum_erase _ _ (Finset.mem_univ tid)]
      exact Multiset.mem_add.mpr (.inl hmem)
    · rw [hs.drained k hk tid]
      exact Multiset.notMem_zero i
  simp only [rtwFreeRecvframe, unlink, without_of_notMem hi]

theorem Sound.freeQueue_recvreorderCtrl {q : List RecvFrame} (hall : all.Nodup)
    (hs : Sound all s (idsOf q + held)) (k : ℕ) (tid : Fin 16) :
    (rtwFreeRecvframeQueue s q).recvreorderCtrl k tid = s.recvreorderCtrl k tid := by
  induction q generalizing s with
  | nil => rfl
  | cons f q ih =>
    rw [idsOf_cons, Multiset.cons_add] at hs
    exact (ih (hs.free_held hall)).trans (hs.free_recvreorderCtrl hall k tid)

theorem Sound.of_queued {s' : RecvPriv} (hs : Sound all s held)
    (hq : queued s' + held' = queued s + held) (hfree : s'.freeRecvQueue = s.freeRecvQueue)
    (honce : s'.freedTwice = s.freedTwice)
    (hdrained : ∀ k ∉ s'.staHash, ∀ tid, (s'.recvreorderCtrl k tid).pending = []) :
    Sound all s' held' := by
  refine ⟨?_, hfree ▸ hs.counted, honce ▸ hs.once, hdrained⟩
  rw [places, hfree, add_assoc, hq, ← add_assoc]
  exact hs.total

theorem Sound.setDefragQ {k : ℕ} {q : List RecvFrame} (hs : Sound all s held)
    (hk : k ∈ s.staHash) (hq : idsOf q + held' = idsOf (s.defragQ k) + held) :
    Sound all (setDefragQ s k q) held' := by
  refine hs.of_queued ?_ rfl rfl hs.drained
  refine add_right_cancel (b := idsOf (s.defragQ k)) ?_
  rw [add_right_comm, queued_setDefragQ hk, add_assoc, hq]
  abel

theorem Sound.setReorderCtrl {k : ℕ} {tid : Fin 16} {c : RecvReorderCtrl} (hs : Sound all s held)
    (hk : k ∈ s.staHash ∨ c.pending = [])
    (hc : idsOf c.pending + held' = idsOf (s.recvreorderCtrl k tid).pending + held) :
    Sound all (setReorderCtrl s k tid c) held' := by
  refine hs.of_queued ?_ rfl rfl ?_
  · by_cases hlive : k ∈ s.staHash
    · refine add_right_cancel (b := idsOf (s.recvreorderCtrl k tid).pending) ?_
      rw [add_right_comm, queued_setReorderCtrl hlive, add_assoc, hc]
      abel
    · have hpend := hk.resolve_left hlive
      rw [hpend, hs.drained k hlive tid, idsOf_nil, zero_add, zero_add] at hc
      rw [hc]
      refine congrArg (· + held) (congrArg (_ + ·) (Finset.sum_congr rfl ?_))
      intro j hj
      have hne : j ≠ k := ne_of_mem_of_not_mem (List.mem_toFinset.mp hj) hlive
      simp only [heldBySta, RecvPool.setReorderCtrl, Function.update_of_ne hne]
  · intro j hj t
    by_cases hjk : j = k
    · subst hjk
      have hpend := hk.resolve_left hj
      by_cases ht : t = tid
      · subst ht
        simpa only [RecvPool.setReorderCtrl, Function.update_self] using hpend
      · simpa only [RecvPool.setReorderCtrl, Function.update_self, Function.update_of_ne ht] using
          hs.drained j hj t
    · simpa only [RecvPool.setReorderCtrl, Function.update_of_ne hjk] using hs.drained j hj t

theorem Sound.sameReorder {k : ℕ} {tid : Fin 16} {c : RecvReorderCtrl} (hs : Sound all s held)
    (hc : c.pending = (s.recvreorderCtrl k tid).pending) :
    Sound all (RecvPool.setReorderCtrl s k tid c) held := by
  refine hs.setReorderCtrl ?_ (by rw [hc])
  by_cases hk : k ∈ s.staHash
  · exact .inl hk
  · exact .inr (hc.trans (hs.drained k hk tid))

end

end Rtl8189.RecvPool
