import Mathlib.Algebra.BigOperators.Group.Finset.Basic
import Mathlib.Data.Fintype.OfMap
import Rtl8189.EventRun
import Rtl8189.StaInfo

/-!
# Transmit queues and power save buffers of an access point

Frames wait in one queue for each station and access category, or, while a
station sleeps, in the sleep queue of the station; group frames wait in the
broadcast entry. All functions are those of an access point: the checks of
`MLME_IS_AP` and of `_HW_STATE_AP_` hold.
-/
namespace Rtl8189.ApXmit

open EventRun

inductive Ac where
  | vo
  | vi
  | be
  | bk
  deriving DecidableEq, Repr

instance : Fintype Ac := Fintype.ofList [.vo, .vi, .be, .bk] (fun ac => by cases ac <;> simp)

def acOf : ℕ → Ac
  | 1 | 2 => .bk
  | 4 | 5 => .vi
  | 6 | 7 => .vo
  | _ => .be

structure XmitFrame where
  id : ℕ
  ra : MacAddr
  psta : Option ℕ
  priority : ℕ := 0
  triggered : Bool := false
  mdata : Bool := false
  eosp : Bool := false
  deriving DecidableEq, Repr

def maxAid : ℕ := 32

instance (priority := 2000) neZeroMaxAid : @NeZero ℕ Zero.ofOfNat0 (maxAid + 1) := ⟨by decide⟩

def aidBmpLen : ℕ := (maxAid + 1) / 8 + if (maxAid + 1) % 8 ≠ 0 then 1 else 0

/-- `wrapped` records that a counter went below zero. -/
structure Sta where
  macAddr : MacAddr := Vector.replicate 6 0
  linked : Bool := false
  sleepState : Bool := false
  aid : Fin (maxAid + 1) := 0
  qosOption : Bool := false
  qosInfo : ℕ := 0
  uapsd : Ac → ℕ := fun _ => 0
  hasLegacyAc : Bool := false
  sleepQ : List XmitFrame := []
  sleepqLen : ℕ := 0
  sleepqAcLen : ℕ := 0
  wrapped : Bool := false

def Sta.setSleep (p : Sta) (b : Bool) : Sta := { p with sleepState := b }

def Sta.setLinked (p : Sta) (b : Bool) : Sta := { p with linked := b }

structure TxServq where
  staPending : List XmitFrame := []
  qcnt : ℤ := 0

/-- `staQueue ac` are the stations whose `tx_pending` of the category is linked. -/
structure XmitPriv where
  staHash : List ℕ := []
  sta : ℕ → Sta := fun _ => {}
  freeStaQueue : List ℕ := []
  servq : ℕ → Ac → TxServq := fun _ _ => {}
  staQueue : Ac → List ℕ := fun _ => []
  accnt : Ac → ℤ := fun _ => 0
  timBitmap : ℕ → Bool := fun _ => false
  staDzBitmap : ℕ → Bool := fun _ => false

def XmitPriv.setSta (s : XmitPriv) (k : ℕ) (p : Sta) : XmitPriv :=
  { s with sta := Function.update s.sta k p }

def XmitPriv.setServq (s : XmitPriv) (k : ℕ) (ac : Ac) (q : TxServq) : XmitPriv :=
  { s with servq := Function.update s.servq k (Function.update (s.servq k) ac q) }

def XmitPriv.addAccnt (s : XmitPriv) (ac : Ac) (n : ℤ) : XmitPriv :=
  { s with accnt := Function.update s.accnt ac (s.accnt ac + n) }

def XmitPriv.unlinkServq (s : XmitPriv) (k : ℕ) (ac : Ac) : XmitPriv :=
  { s with staQueue := Function.update s.staQueue ac ((s.staQueue ac).erase k) }

/-! ## Bitmaps over AIDs -/

def rtwTimMapIsSet (map : ℕ → Bool) (id : ℕ) : Bool :=
  if aidBmpLen ≤ id / 8 then false else map id

def rtwTimMapSet (map : ℕ → Bool) (id : ℕ) : ℕ → Bool :=
  if id / 8 < aidBmpLen then Function.update map id true else map

def rtwTimMapClear (map : ℕ → Bool) (id : ℕ) : ℕ → Bool :=
  if id / 8 < aidBmpLen then Function.update map id false else map

def rtwTimMapAnyoneBeSet (map : ℕ → Bool) : Bool := (List.range (8 * aidBmpLen)).any map

def rtwTimMapAnyoneBeSetExcludeAid0 (map : ℕ → Bool) : Bool :=
  (List.range (8 * aidBmpLen)).any fun id => id ≠ 0 && map id

theorem lt_of_div_lt {id : ℕ} (h : id / 8 < aidBmpLen) : id < 8 * aidBmpLen := by omega

theorem aid_div_lt (aid : Fin (maxAid + 1)) : (aid : ℕ) / 8 < aidBmpLen := by
  have h : aidBmpLen = 5 := rfl
  have haid : (aid : ℕ) < 33 := aid.isLt
  omega

theorem rtwTimMapIsSet_aid (map : ℕ → Bool) (aid : Fin (maxAid + 1)) :
    rtwTimMapIsSet map aid = map aid := by
  simp only [rtwTimMapIsSet, if_neg (Nat.not_le.mpr (aid_div_lt aid))]

theorem rtwTimMapSet_aid (map : ℕ → Bool) (aid : Fin (maxAid + 1)) :
    rtwTimMapSet map aid = Function.update map aid true := by
  simp only [rtwTimMapSet, if_pos (aid_div_lt aid)]

theorem rtwTimMapClear_aid (map : ℕ → Bool) (aid : Fin (maxAid + 1)) :
    rtwTimMapClear map aid = Function.update map aid false := by
  simp only [rtwTimMapClear, if_pos (aid_div_lt aid)]

theorem rtwTimMapSet_zero (map : ℕ → Bool) : rtwTimMapSet map 0 = Function.update map 0 true :=
  rtwTimMapSet_aid map 0

theorem rtwTimMapClear_zero (map : ℕ → Bool) :
    rtwTimMapClear map 0 = Function.update map 0 false :=
  rtwTimMapClear_aid map 0

theorem rtwTimMapAnyoneBeSet_of_aid {map : ℕ → Bool} {aid : Fin (maxAid + 1)}
    (h : map aid = true) : rtwTimMapAnyoneBeSet map = true :=
  List.any_eq_true.mpr ⟨aid, List.mem_range.mpr (lt_of_div_lt (aid_div_lt aid)), h⟩

theorem rtwTimMapAnyoneBeSet_mono {map map' : ℕ → Bool} (h : ∀ id, map id = true → map' id = true)
    (hmap : rtwTimMapAnyoneBeSet map = true) : rtwTimMapAnyoneBeSet map' = true := by
  obtain ⟨id, hid, hset⟩ := List.any_eq_true.mp hmap
  exact List.any_eq_true.mpr ⟨id, hid, h id hset⟩

def XmitPriv.setTim (s : XmitPriv) (id : ℕ) : XmitPriv :=
  { s with timBitmap := rtwTimMapSet s.timBitmap id }

def XmitPriv.clearTim (s : XmitPriv) (id : ℕ) : XmitPriv :=
  { s with timBitmap := rtwTimMapClear s.timBitmap id }

def XmitPriv.setDz (s : XmitPriv) (id : ℕ) : XmitPriv :=
  { s with staDzBitmap := rtwTimMapSet s.staDzBitmap id }

def XmitPriv.clearDz (s : XmitPriv) (id : ℕ) : XmitPriv :=
  { s with staDzBitmap := rtwTimMapClear s.staDzBitmap id }

/-! ## Stations -/

def bcAddr : MacAddr := Vector.replicate 6 0xff

theorem isMcast_bcAddr : isMcast bcAddr = true := by decide

def rtwGetStainfo (s : XmitPriv) (hwaddr : MacAddr) : Option ℕ :=
  let addr := if isMcast hwaddr then bcAddr else hwaddr
  s.staHash.find? fun k => (s.sta k).macAddr = addr

def rtwGetBcmcStainfo (s : XmitPriv) : Option ℕ := rtwGetStainfo s bcAddr

structure SameTable (s t : XmitPriv) : Prop where
  staHash : t.staHash = s.staHash
  freeStaQueue : t.freeStaQueue = s.freeStaQueue
  macAddr : ∀ k, (t.sta k).macAddr = (s.sta k).macAddr

theorem SameTable.refl (s : XmitPriv) : SameTable s s := ⟨rfl, rfl, fun _ => rfl⟩

theorem SameTable.trans {s t u : XmitPriv} (h : SameTable s t) (h' : SameTable t u) :
    SameTable s u :=
  ⟨h'.staHash.trans h.staHash, h'.freeStaQueue.trans h.freeStaQueue,
    fun k => (h'.macAddr k).trans (h.macAddr k)⟩

theorem XmitPriv.setSta_self (s : XmitPriv) (k : ℕ) (p : Sta) : (s.setSta k p).sta k = p := by
  simp only [setSta, Function.update_self]

theorem XmitPriv.setSta_of_ne (s : XmitPriv) {j k : ℕ} (h : j ≠ k) (p : Sta) :
    (s.setSta k p).sta j = s.sta j := by
  simp only [setSta, Function.update_of_ne h]

theorem SameTable.setSta (s : XmitPriv) {k : ℕ} {p : Sta} (hp : p.macAddr = (s.sta k).macAddr) :
    SameTable s (s.setSta k p) := by
  refine ⟨rfl, rfl, ?_⟩
  intro j
  by_cases hj : j = k
  · subst hj
    simp only [XmitPriv.setSta, Function.update_self, hp]
  · simp only [XmitPriv.setSta, Function.update_of_ne hj]

theorem rtwGetStainfo_congr {s t : XmitPriv} (h : SameTable s t) (hwaddr : MacAddr) :
    rtwGetStainfo t hwaddr = rtwGetStainfo s hwaddr := by
  simp only [rtwGetStainfo, h.staHash, h.macAddr]

theorem rtwGetStainfo_mem {s : XmitPriv} {hwaddr : MacAddr} {k : ℕ}
    (h : rtwGetStainfo s hwaddr = some k) : k ∈ s.staHash := List.mem_of_find?_eq_some h

theorem rtwGetStainfo_macAddr {s : XmitPriv} {hwaddr : MacAddr} {k : ℕ}
    (h : rtwGetStainfo s hwaddr = some k) :
    (s.sta k).macAddr = if isMcast hwaddr then bcAddr else hwaddr := by
  simpa using List.find?_some h

/-- The callers found no station of the address. -/
def rtwAllocStainfo (s : XmitPriv) (hwaddr : MacAddr) : XmitPriv :=
  match s.freeStaQueue with
  | [] => s
  | k :: free =>
    { s with
      freeStaQueue := free
      staHash := s.staHash ++ [k]
      sta := Function.update s.sta k { macAddr := hwaddr }
      servq := Function.update s.servq k fun _ => {} }

def flushServq (s : XmitPriv) (k : ℕ) (ac : Ac) : XmitPriv :=
  let s := s.addAccnt ac (-(s.servq k ac).qcnt)
  (s.setServq k ac {}).unlinkServq k ac

def flushServqs (s : XmitPriv) (k : ℕ) : XmitPriv :=
  flushServq (flushServq (flushServq (flushServq s k .vo) k .vi) k .be) k .bk

theorem flushServq_sta (s : XmitPriv) (k : ℕ) (ac : Ac) : (flushServq s k ac).sta = s.sta := rfl

theorem flushServqs_sta (s : XmitPriv) (k : ℕ) : (flushServqs s k).sta = s.sta := by
  simp only [flushServqs, flushServq_sta]

/-- The AID stays where `sta_aid` does not name the station. -/
def Sta.freed (p : Sta) (ownsAid : Bool) : Sta :=
  { p with
    linked := false
    sleepQ := []
    sleepqLen := 0
    sleepqAcLen := 0
    qosInfo := 0
    uapsd := fun _ => 0
    hasLegacyAc := false
    aid := if ownsAid then 0 else p.aid }

def rtwFreeStainfo (s : XmitPriv) (k : ℕ) (ownsAid : Bool) : XmitPriv :=
  let p := s.sta k
  let s := ((flushServqs s k).clearDz p.aid).clearTim p.aid
  { s.setSta k (p.freed ownsAid) with
    staHash := s.staHash.erase k
    freeStaQueue := s.freeStaQueue ++ [k] }

/-- What the WMM element of an association request sets, if there is one. -/
def rtwApParseStaWmmIe (p : Sta) : Option ℕ → Sta
  | none => { p with qosOption := false, qosInfo := 0, hasLegacyAc := true, uapsd := fun _ => 0 }
  | some qosInfo =>
    { p with
      qosOption := true
      qosInfo
      hasLegacyAc := qosInfo % 16 ≠ 15
      uapsd := fun
        | .vo => StaInfo.uapsd qosInfo 0
        | .vi => StaInfo.uapsd qosInfo 1
        | .bk => StaInfo.uapsd qosInfo 2
        | .be => StaInfo.uapsd qosInfo 3 }

/-! ## Sending -/

def enqueueServq (s : XmitPriv) (k : ℕ) (f : XmitFrame) : XmitPriv :=
  let ac := acOf f.priority
  let q := s.servq k ac
  let s :=
    if k ∈ s.staQueue ac then s
    else { s with staQueue := Function.update s.staQueue ac (s.staQueue ac ++ [k]) }
  (s.setServq k ac ⟨q.staPending ++ [f], q.qcnt + 1⟩).addAccnt ac 1

def rtwXmitClassifier (s : XmitPriv) (f : XmitFrame) : XmitPriv × Bool :=
  match rtwGetStainfo s f.ra with
  | none => (s, false)
  | some k =>
    if f.psta ≠ some k then (s, false)
    else if (s.sta k).linked = false then (s, false)
    else (enqueueServq s k f, true)

def rtwHalXmitframeEnqueue (s : XmitPriv) (f : XmitFrame) : XmitPriv := (rtwXmitClassifier s f).1

def dequeueFrom (s : XmitPriv) (ac : Ac) : List ℕ → Option (XmitFrame × XmitPriv)
  | [] => none
  | k :: stas =>
    match (s.servq k ac).staPending with
    | [] => dequeueFrom s ac stas
    | f :: rest =>
      let s := (s.setServq k ac ⟨rest, (s.servq k ac).qcnt - 1⟩).addAccnt ac (-1)
      some (f, if rest = [] then s.unlinkServq k ac else s)

def rtwDequeueXframe (s : XmitPriv) : List Ac → Option (XmitFrame × XmitPriv)
  | [] => none
  | ac :: inx =>
    match dequeueFrom s ac (s.staQueue ac) with
    | some r => some r
    | none => rtwDequeueXframe s inx

/-! ## Power save -/

def Sta.deliveryEnabled (p : Sta) (f : XmitFrame) : Bool := (p.uapsd (acOf f.priority)).testBit 0

def Sta.triggerEnabled (p : Sta) (f : XmitFrame) : Bool := (p.uapsd (acOf f.priority)).testBit 1

/-- Decrement of an unsigned counter. -/
def dec32 : ℕ → ℕ
  | 0 => 2 ^ 32 - 1
  | n + 1 => n

def Sta.setSleepQ (p : Sta) (q : List XmitFrame) : Sta := { p with sleepQ := q }

def Sta.decLen (p : Sta) : Sta :=
  { p with sleepqLen := dec32 p.sleepqLen, wrapped := p.wrapped || p.sleepqLen = 0 }

def Sta.decAcLen (p : Sta) : Sta :=
  { p with sleepqAcLen := dec32 p.sleepqAcLen, wrapped := p.wrapped || p.sleepqAcLen = 0 }

def Sta.bufferGroup (p : Sta) (f : XmitFrame) : Sta :=
  { p with sleepQ := p.sleepQ ++ [f], sleepqLen := p.sleepqLen + 1 }

def Sta.buffer (p : Sta) (f : XmitFrame) : Sta :=
  { p with
    sleepQ := p.sleepQ ++ [f]
    sleepqLen := p.sleepqLen + 1
    sleepqAcLen := if p.deliveryEnabled f then p.sleepqAcLen + 1 else p.sleepqAcLen }

def Sta.announced (p : Sta) (f : XmitFrame) : Bool := p.hasLegacyAc != p.deliveryEnabled f

def xmitframeEnqueueForSleepingSta (s : XmitPriv) (f : XmitFrame) : XmitPriv × Bool :=
  match rtwGetStainfo s f.ra with
  | none => (s, false)
  | some k =>
    let p := s.sta k
    if f.psta ≠ some k then (s, false)
    else if p.linked = false then (s, false)
    else if f.triggered then (s, false)
    else if isMcast f.ra then
      if rtwTimMapAnyoneBeSet s.staDzBitmap then
        (((s.setSta k (p.bufferGroup f)).setTim 0).setDz 0, true)
      else (s, false)
    else if p.sleepState ∧ rtwTimMapIsSet s.staDzBitmap p.aid then
      let s := s.setSta k (p.buffer f)
      (if p.announced f then s.setTim p.aid else s, true)
    else (s, false)

/-- The frames that stay in the queue, each of them seen once. -/
def framesToSleepingQueue (s : XmitPriv) (k : ℕ) : List XmitFrame → XmitPriv × List XmitFrame
  | [] => (s, [])
  | f :: q =>
    let f := { f with triggered := false }
    let (s', buffered) := xmitframeEnqueueForSleepingSta s f
    if buffered then
      let ac := acOf f.priority
      let sq := s'.servq k ac
      framesToSleepingQueue
        ((s'.setServq k ac { sq with qcnt := sq.qcnt - 1 }).addAccnt ac (-1)) k q
    else
      let (s'', kept) := framesToSleepingQueue s' k q
      (s'', f :: kept)

def dequeueXmitframesToSleepingQueue (s : XmitPriv) (k : ℕ) (ac : Ac) : XmitPriv :=
  let (s, kept) := framesToSleepingQueue s k (s.servq k ac).staPending
  s.setServq k ac ⟨kept, (s.servq k ac).qcnt⟩

def stopServq (s : XmitPriv) (k : ℕ) (ac : Ac) : XmitPriv :=
  (dequeueXmitframesToSleepingQueue s k ac).unlinkServq k ac

def stopServqs (s : XmitPriv) (k : ℕ) : XmitPriv :=
  stopServq (stopServq (stopServq (stopServq s k .vo) k .vi) k .be) k .bk

/-- There is a broadcast entry: the source goes through its queues unchecked. -/
def stopStaXmit (s : XmitPriv) (k bmc : ℕ) : XmitPriv :=
  let s := s.setSta k ((s.sta k).setSleep true)
  let s := s.setDz (s.sta k).aid
  stopServqs (stopServqs s k) bmc

def wakeFrame (p : Sta) (f : XmitFrame) : Sta × XmitFrame :=
  let p := p.decLen
  let f := { f with mdata := 0 < p.sleepqLen }
  if p.triggerEnabled f then
    let p := p.decAcLen
    (p, { f with
      mdata := 0 < p.sleepqAcLen, eosp := ¬ 0 < p.sleepqAcLen, triggered := true })
  else (p, { f with triggered := true })

theorem wakeFrame_sta (p : Sta) (f : XmitFrame) :
    (wakeFrame p f).1 = if p.triggerEnabled f then p.decLen.decAcLen else p.decLen := by
  have h : p.decLen.triggerEnabled { f with mdata := 0 < p.decLen.sleepqLen } =
      p.triggerEnabled f := by
    simp only [Sta.triggerEnabled, Sta.decLen]
  simp only [wakeFrame, h]
  split_ifs
  · rfl
  · rfl

def releaseAll (s : XmitPriv) (k : ℕ) : List XmitFrame → XmitPriv
  | [] => s
  | f :: q =>
    let (p, f) := wakeFrame ((s.sta k).setSleepQ q) f
    releaseAll (rtwHalXmitframeEnqueue (s.setSta k p) f) k q

theorem releaseAll_cons (s : XmitPriv) (k : ℕ) (f : XmitFrame) (q : List XmitFrame) :
    releaseAll s k (f :: q) =
      releaseAll (rtwHalXmitframeEnqueue
        (s.setSta k (wakeFrame ((s.sta k).setSleepQ q) f).1)
        (wakeFrame ((s.sta k).setSleepQ q) f).2) k q := rfl

def plainFrame (p : Sta) (f : XmitFrame) : Sta × XmitFrame :=
  let p := p.decLen
  (p, { f with mdata := 0 < p.sleepqLen, triggered := true })

def releaseGroup (s : XmitPriv) (bmc : ℕ) : List XmitFrame → XmitPriv
  | [] => s
  | f :: q =>
    let (p, f) := plainFrame ((s.sta bmc).setSleepQ q) f
    releaseGroup (rtwHalXmitframeEnqueue (s.setSta bmc p) f) bmc q

theorem releaseGroup_cons (s : XmitPriv) (bmc : ℕ) (f : XmitFrame) (q : List XmitFrame) :
    releaseGroup s bmc (f :: q) =
      releaseGroup (rtwHalXmitframeEnqueue (s.setSta bmc ((s.sta bmc).setSleepQ q).decLen)
        (plainFrame ((s.sta bmc).setSleepQ q) f).2) bmc q := rfl

def awaken (s : XmitPriv) (k : ℕ) : XmitPriv :=
  let p := s.sta k
  if p.sleepqLen = 0 then
    ((s.clearTim p.aid).setSta k (p.setSleep false)).clearDz p.aid
  else s

def wakeupStaToXmit (s : XmitPriv) (k : ℕ) : XmitPriv :=
  let s := awaken (releaseAll s k (s.sta k).sleepQ) k
  match rtwGetBcmcStainfo s with
  | none => s
  | some bmc =>
    if rtwTimMapAnyoneBeSetExcludeAid0 s.staDzBitmap then s
    else
      let s := releaseGroup s bmc (s.sta bmc).sleepQ
      if (s.sta bmc).sleepqLen = 0 then (s.clearTim 0).clearDz 0 else s

def deliveredFrame (p : Sta) (f : XmitFrame) : Sta × XmitFrame :=
  let p := p.decLen.decAcLen
  (p, { f with mdata := 0 < p.sleepqAcLen, eosp := ¬ 0 < p.sleepqAcLen, triggered := true })

/-- One frame leaves; the last one clears the TIM bit if no category is left out. -/
def deliverFrame (s : XmitPriv) (k : ℕ) (rest : List XmitFrame) (f : XmitFrame) :
    XmitPriv × XmitFrame :=
  let (p, f) := deliveredFrame ((s.sta k).setSleepQ rest) f
  let s := rtwHalXmitframeEnqueue (s.setSta k p) f
  (if p.sleepqAcLen = 0 ∧ p.hasLegacyAc = false then s.clearTim p.aid else s, f)

/-- The frames of a service period, in the order in which they are sent. -/
def deliverFrames (s : XmitPriv) (k : ℕ) :
    List XmitFrame → List XmitFrame → XmitPriv × List XmitFrame
  | _, [] => (s, [])
  | kept, f :: q =>
    if (s.sta k).triggerEnabled f then
      let (s, f) := deliverFrame s k (kept ++ q) f
      let (s, sent) := deliverFrames s k kept q
      (s, f :: sent)
    else deliverFrames s k (kept ++ [f]) q

def xmitDeliveryEnabledFrames (s : XmitPriv) (k : ℕ) : XmitPriv × List XmitFrame :=
  deliverFrames s k [] (s.sta k).sleepQ

/-- Without a delivery enabled frame one QoS null frame is sent, which is not
queued. -/
def processWmmpsData (s : XmitPriv) (k priority : ℕ) : XmitPriv × List XmitFrame :=
  let p := s.sta k
  if p.qosOption = false then (s, [])
  else if p.qosInfo % 16 = 0 then (s, [])
  else if p.sleepState ∧ (p.uapsd (acOf priority)).testBit 1 ∧ 0 < p.sleepqAcLen then
    xmitDeliveryEnabledFrames s k
  else (s, [])

/-- The poll names the AID of a sleeping station and no delivery enabled category. -/
def psPollServed (s : XmitPriv) (k aid priority : ℕ) : Bool :=
  let p := s.sta k
  (p.aid : ℕ) = aid ∧ (p.uapsd (acOf priority)).testBit 0 = false ∧ p.sleepState ∧
    rtwTimMapIsSet s.staDzBitmap p.aid

def pollOne (s : XmitPriv) (k : ℕ) (rest : List XmitFrame) (f : XmitFrame) : XmitPriv :=
  let (p, f) := plainFrame ((s.sta k).setSleepQ rest) f
  let s := rtwHalXmitframeEnqueue (s.setSta k p) f
  if p.sleepqLen = 0 then s.clearTim p.aid else s

/-- Nothing is buffered, whatever TIM and counter say. -/
def pollNone (s : XmitPriv) (k : ℕ) : XmitPriv :=
  let p := s.sta k
  if rtwTimMapIsSet s.timBitmap p.aid then
    (s.setSta k { p with sleepqLen := 0 }).clearTim p.aid
  else s

/-- The PS-Poll part of `validate_recv_ctrl_frame`. -/
def psPoll (s : XmitPriv) (k aid priority : ℕ) : XmitPriv :=
  if psPollServed s k aid priority then
    match (s.sta k).sleepQ with
    | f :: q => pollOne s k q f
    | [] => pollNone s k
  else s

/-! ## Runs -/

inductive Event where
  | enqueue (f : XmitFrame)
  | classify (f : XmitFrame)
  | dequeue (inx : List Ac)
  | sleep (k : ℕ)
  | wakeUp (k : ℕ)
  | psPoll (ta : MacAddr) (aid priority : ℕ)
  | trigger (ta : MacAddr) (priority : ℕ)
  | alloc (hwaddr : MacAddr)
  | assoc (k : ℕ) (aid : Fin (maxAid + 1)) (wmm : Option ℕ)
  | updateBmcSta
  | apFreeSta (k : ℕ)
  | free (k : ℕ) (ownsAid : Bool)

def aidFor (p : Sta) (aid : Fin (maxAid + 1)) : Fin (maxAid + 1) := if p.aid = 0 then aid else p.aid

def joinBss (p : Sta) (aid : Fin (maxAid + 1)) (wmm : Option ℕ) : Sta :=
  { rtwApParseStaWmmIe p wmm with aid := aidFor p aid, linked := true }

/-- An AID in use is not given to a second station, nor one to the broadcast entry. -/
def assocSta (s : XmitPriv) (k : ℕ) (aid : Fin (maxAid + 1)) (wmm : Option ℕ) : XmitPriv :=
  let p := s.sta k
  if p.macAddr = bcAddr ∨ aidFor p aid = 0 ∨
      ∃ j ∈ s.staHash, j ≠ k ∧ (s.sta j).aid = aidFor p aid then s
  else s.setSta k (joinBss p aid wmm)

def onSta (s : XmitPriv) (k : ℕ) (act : XmitPriv → XmitPriv) : XmitPriv :=
  if k ∈ s.staHash then act s else s

def Event.apply (s : XmitPriv) : Event → XmitPriv
  | .enqueue f => (xmitframeEnqueueForSleepingSta s f).1
  | .classify f => (rtwXmitClassifier s f).1
  | .dequeue inx => ((rtwDequeueXframe s inx).map Prod.snd).getD s
  | .sleep k => onSta s k fun s => ((rtwGetBcmcStainfo s).map (stopStaXmit s k)).getD s
  | .wakeUp k => onSta s k fun s => wakeupStaToXmit s k
  | .psPoll ta aid priority =>
    ((rtwGetStainfo s ta).map fun k => ApXmit.psPoll s k aid priority).getD s
  | .trigger ta priority =>
    ((rtwGetStainfo s ta).map fun k => (processWmmpsData s k priority).1).getD s
  | .alloc hwaddr => if rtwGetStainfo s hwaddr = none then rtwAllocStainfo s hwaddr else s
  | .assoc k aid wmm => onSta s k fun s => assocSta s k aid wmm
  | .updateBmcSta =>
    ((rtwGetBcmcStainfo s).map fun k => s.setSta k ((s.sta k).setLinked true)).getD s
  | .apFreeSta k => onSta s k fun s => s.setSta k ((s.sta k).setLinked false)
  | .free k ownsAid => onSta s k fun s => rtwFreeStainfo s k ownsAid

def run (s : XmitPriv) (es : List Event) : XmitPriv := EventRun.run Event.apply s es

def initXmitPriv (numSta : ℕ) : XmitPriv := { freeStaQueue := List.range numSta }

def firstAddr : MacAddr := macOf 0x02 0 0 0 0 0x01

def frameTo (k : ℕ) (ra : MacAddr) (priority : ℕ) : XmitFrame where
  id := 0
  ra
  psta := some k
  priority

def oneAssociated : List Event :=
  [.alloc bcAddr, .updateBmcSta, .alloc firstAddr, .assoc 1 1 none]

end Rtl8189.ApXmit
