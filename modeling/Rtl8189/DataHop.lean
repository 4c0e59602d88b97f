import Rtl8189.Coalesce
import Rtl8189.Decache
import Rtl8189.MsduDelivery
import Rtl8189.StaTable
import Rtl8189.TkipRoundTrip

/-!
# Data frames from host to host

`update_attrib` and `rtw_make_wlanhdr` put an Ethernet frame behind an 802.11 header, and
`validate_recv_frame` and `wlanhdr_to_ethhdr` make an Ethernet frame of it again. The network
has no encryption, and the frame fits into one fragment and is not an A-MSDU. Test modes,
ad-hoc and mesh networks and direct links are left out.
-/
namespace Rtl8189.DataHop

open Decache MsduDelivery PacketNumber StaTable TkipRoundTrip

structure StaInfo where
  /-- `_FW_LINKED` -/
  linked : Bool := true
  qosOption : Bool := false
  txseqTid : ℕ → Fin 4096 := fun _ => 0
  rxcache : RxCache := rtwAllocStainfo

structure Host where
  ap : Bool
  macAddr : MacAddr
  bssid : MacAddr
  /-- The answer of `rtw_linked_check`. -/
  linked : Bool := true
  qosOption : Bool := false
  acmMask : ℕ := 0
  staHash : MacAddr → Option StaInfo

namespace Host

def rtwGetStainfo (h : Host) (hwaddr : MacAddr) : Option StaInfo := h.staHash (searchAddr hwaddr)

def put (h : Host) (hwaddr : MacAddr) (psta : StaInfo) : Host :=
  { h with staHash := Function.update h.staHash (searchAddr hwaddr) (some psta) }

end Host

def macAt (b : List UInt8) (k : ℕ) : MacAddr := Vector.ofFn fun i : Fin 6 => b.getD (k + i) 0

def hDest (pkt : List UInt8) : MacAddr := macAt pkt 0

def hSource (pkt : List UInt8) : MacAddr := macAt pkt 6

/-! ## Sending -/

def tosToUp (tos : ℕ) : ℕ := tos / 32

def setQos (pkt : List UInt8) : ℕ := if be16 pkt 12 = 0x0800 then tosToUp (byteAt pkt 15) else 0

def qosAcm (acmMask priority : ℕ) : ℕ :=
  match priority with
  | 0 | 3 => if acmMask.testBit 1 then 1 else priority
  | 4 | 5 => if acmMask.testBit 2 then 0 else priority
  | 6 | 7 => if acmMask.testBit 3 then 5 else priority
  | _ => priority

structure TxAttrib where
  ra : MacAddr
  ta : MacAddr
  dst : MacAddr
  src : MacAddr
  etherType : ℕ
  /-- The subtype is `WIFI_QOS_DATA_TYPE`. -/
  qos : Bool
  priority : ℕ
  psta : StaInfo

def txAttrib (h : Host) (pkt : List UInt8) (psta : StaInfo) : TxAttrib :=
  let qos := if h.ap then psta.qosOption else h.qosOption
  { ra := if h.ap then hDest pkt else h.bssid
    ta := if h.ap then h.bssid else h.macAddr
    dst := hDest pkt
    src := hSource pkt
    etherType := be16 pkt 12
    qos
    priority :=
      if qos = false then 0
      else if h.ap = false ∧ h.acmMask ≠ 0 then qosAcm h.acmMask (setQos pkt)
      else setQos pkt
    psta }

def updateAttrib (h : Host) (pkt : List UInt8) : Option TxAttrib :=
  match h.rtwGetStainfo (if h.ap then hDest pkt else h.bssid) with
  | none => none
  | some psta => if psta.linked = false then none else some (txAttrib h pkt psta)

def rtwMakeWlanhdr (h : Host) (a : TxAttrib) (seqnum : Fin 4096) : List UInt8 :=
  [if a.qos then 0x88 else 0x08, if h.ap then 0x02 else 0x01, 0, 0] ++
    (if h.ap then a.dst else h.bssid).toList ++
    (if h.ap then h.bssid else a.ta).toList ++
    (if h.ap then a.src else a.dst).toList ++
    [UInt8.ofNat (seqnum % 16 * 16), UInt8.ofNat (seqnum / 16)] ++
    if a.qos then [UInt8.ofNat (a.priority % 16), 0] else []

def sent (h : Host) (a : TxAttrib) (seqnum : Fin 4096) (pkt : List UInt8) : List UInt8 :=
  rtwMakeWlanhdr h a seqnum ++ (Coalesce.rtwPutSnap a.etherType ++ pkt.drop 14)

def StaInfo.counted (psta : StaInfo) (priority : ℕ) : StaInfo :=
  { psta with
    txseqTid := Function.update psta.txseqTid priority (psta.txseqTid priority + 1) }

def rtwXmit (h : Host) (pkt : List UInt8) : Option (List UInt8 × Host) :=
  if h.linked = false then none
  else
    (updateAttrib h pkt).map fun a =>
      (sent h a (a.psta.txseqTid a.priority + 1) pkt, h.put a.ra (a.psta.counted a.priority))

section Xmit

variable {h : Host} {pkt : List UInt8} {psta : StaInfo}

theorem setQos_lt (pkt : List UInt8) : setQos pkt < 8 := by
  have hlt := byteAt_lt pkt 15
  rw [setQos, tosToUp]
  split_ifs <;> omega

theorem qosAcm_lt (acmMask : ℕ) {priority : ℕ} (h : priority < 8) :
    qosAcm acmMask priority < 8 := by
  unfold qosAcm
  split <;> (try split_ifs) <;> omega

theorem priority_lt : (txAttrib h pkt psta).priority < 8 := by
  have hqos := setQos_lt pkt
  simp only [txAttrib]
  split_ifs
  · omega
  · exact qosAcm_lt _ hqos
  · exact hqos
  · omega
  · exact qosAcm_lt _ hqos
  · exact hqos

theorem priority_noqos (hq : (txAttrib h pkt psta).qos = false) :
    (txAttrib h pkt psta).priority = 0 :=
  if_pos hq

variable (pkt) in
theorem rtwXmit_linked (hl : h.linked = true)
    (hget : h.rtwGetStainfo (if h.ap then hDest pkt else h.bssid) = some psta)
    (hp : psta.linked = true) :
    rtwXmit h pkt = some
      (sent h (txAttrib h pkt psta) (psta.txseqTid (txAttrib h pkt psta).priority + 1) pkt,
        h.put (if h.ap then hDest pkt else h.bssid)
          (psta.counted (txAttrib h pkt psta).priority)) := by
  rw [rtwXmit, if_neg (by rw [hl]; decide), updateAttrib, hget]
  simp only [hp, Bool.true_eq_false, if_false, Option.map_some]
  rfl

theorem rtwXmit_unknown (hget : h.rtwGetStainfo (if h.ap then hDest pkt else h.bssid) = none) :
    rtwXmit h pkt = none := by
  rw [rtwXmit, updateAttrib, hget]
  split_ifs <;> rfl

end Xmit

/-! ## Receiving -/

structure Addrs where
  dst : MacAddr
  src : MacAddr
  bssid : MacAddr

def addrsOf (b : List UInt8) : Addrs :=
  if toDs b then ⟨macAt b 16, addr2 b, addr1 b⟩
  else if frDs b then ⟨addr1 b, macAt b 16, addr2 b⟩
  else ⟨addr1 b, addr2 b, macAt b 16⟩

/-- A subtype without data. -/
def noData (b : List UInt8) : Bool := byteAt b 0 / 64 % 2 = 1

def nullAddr : MacAddr := Vector.replicate 6 0

namespace Host

variable (h : Host) (b : List UInt8)

def sta2staDataFrame : Bool :=
  let a := addrsOf b
  if h.ap then if isMcast a.dst then isMcast a.bssid else a.bssid = a.dst else a.bssid = a.src

def ap2staDataFrame : Bool :=
  let a := addrsOf b
  h.ap = false ∧ h.linked = true ∧ h.macAddr ≠ a.src ∧ (h.macAddr = a.dst ∨ isMcast a.dst) ∧
    a.bssid ≠ nullAddr ∧ h.bssid ≠ nullAddr ∧ a.bssid = h.bssid ∧ noData b = false

def sta2apDataFrame : Bool := h.ap = true ∧ (addrsOf b).bssid = h.bssid ∧ noData b = false

def passes : Bool :=
  byteAt b 0 % 4 = 0 ∧ byteAt b 0 / 4 % 4 = 2 ∧
    if toDs b then frDs b = false ∧ h.sta2apDataFrame b
    else if frDs b then h.ap2staDataFrame b else h.sta2staDataFrame b

def validateRecvDataFrame : Option StaInfo :=
  if h.passes b then h.rtwGetStainfo (addr2 b) else none

end Host

theorem le16_lt (b : List UInt8) (i : ℕ) : le16 b i < 65536 := by
  have h0 := byteAt_lt b i
  have h1 := byteAt_lt b (i + 1)
  rw [le16]
  omega

theorem sequence_lt (b : List UInt8) : le16 b 22 / 16 < 4096 :=
  Nat.div_lt_of_lt_mul (le16_lt b 22)

theorem fragNum_lt (b : List UInt8) : le16 b 22 % 16 < 16 := Nat.mod_lt _ (Nat.zero_lt_succ 15)

def parsed (b : List UInt8) : RecvFrame where
  rxData := b
  attrib :=
    { hdrlen := hdrlen b
      toFrDs := 2 * (toDs b).toNat + (frDs b).toNat
      qos := qos b
      priority := getPriority b
      seqNum := ⟨le16 b 22 / 16, sequence_lt b⟩
      fragNum := ⟨le16 b 22 % 16, fragNum_lt b⟩
      dst := (addrsOf b).dst
      src := (addrsOf b).src
      ra := addr1 b
      ta := addr2 b }

def Host.recv (h : Host) (b : List UInt8) : Option (List UInt8) × Host :=
  match h.validateRecvDataFrame b with
  | none => (none, h)
  | some psta =>
    match recvDecache psta.rxcache (parsed b) with
    | none => (none, h)
    | some cache => (ethFrame (parsed b), h.put (addr2 b) { psta with rxcache := cache })

/-- The same frame so many times in a row, as a sender repeats it that gets no answer. -/
def Host.recvAgain (h : Host) (b : List UInt8) : ℕ → List (List UInt8) × Host
  | 0 => ([], h)
  | n + 1 =>
    let r := h.recv b
    let t := r.2.recvAgain b n
    (r.1.toList ++ t.1, t.2)

/-! ## What the receiver reads from a header that was made -/

section Header

variable {h : Host} {a : TxAttrib} {seqnum : Fin 4096} {rest : List UInt8}

theorem macAt_append (p : List UInt8) (a : MacAddr) (q : List UInt8) {k : ℕ}
    (hk : p.length = k) : macAt (p ++ (a.toList ++ q)) k = a := by
  apply Vector.ext
  intro i hi
  subst hk
  have hlen : a.toList.length = 6 := by simp
  rw [macAt, Vector.getElem_ofFn, List.getD_eq_getElem?_getD,
    List.getElem?_append_right (Nat.le_add_right _ _), Nat.add_sub_cancel_left,
    List.getElem?_append_left (by omega), List.getElem?_eq_getElem (by omega), Option.getD_some,
    Vector.getElem_toList]

def firstAddrs (h : Host) (a : TxAttrib) : List UInt8 :=
  (if h.ap then a.dst else h.bssid).toList ++ ((if h.ap then h.bssid else a.ta).toList ++
    (if h.ap then a.src else a.dst).toList)

theorem rtwMakeWlanhdr_append : rtwMakeWlanhdr h a seqnum ++ rest =
    [if a.qos then 0x88 else 0x08, if h.ap then 0x02 else 0x01, 0, 0] ++ (firstAddrs h a ++
      ([UInt8.ofNat (seqnum % 16 * 16), UInt8.ofNat (seqnum / 16)] ++
        ((if a.qos then [UInt8.ofNat (a.priority % 16), 0] else []) ++ rest))) := by
  simp only [rtwMakeWlanhdr, firstAddrs, List.append_assoc]

theorem firstAddrs_length : (firstAddrs h a).length = 18 := by
  simp [firstAddrs]

theorem addr1_made : addr1 (rtwMakeWlanhdr h a seqnum ++ rest) =
    if h.ap then a.dst else h.bssid := by
  rw [rtwMakeWlanhdr_append, firstAddrs, List.append_assoc]
  exact macAt_append _ _ _ rfl

theorem addr2_made : addr2 (rtwMakeWlanhdr h a seqnum ++ rest) =
    if h.ap then h.bssid else a.ta := by
  rw [rtwMakeWlanhdr_append, firstAddrs, List.append_assoc, List.append_assoc, ← List.append_assoc]
  exact macAt_append _ _ _ (by simp)

theorem addr3_made : macAt (rtwMakeWlanhdr h a seqnum ++ rest) 16 =
    if h.ap then a.src else a.dst := by
  rw [rtwMakeWlanhdr_append, firstAddrs, List.append_assoc, List.append_assoc, ← List.append_assoc,
    ← List.append_assoc]
  exact macAt_append _ _ _ (by simp)

theorem control_made : byteAt (rtwMakeWlanhdr h a seqnum ++ rest) 0 =
      (if a.qos then 0x88 else 0x08) ∧
    byteAt (rtwMakeWlanhdr h a seqnum ++ rest) 1 = if h.ap then 2 else 1 := by
  rw [rtwMakeWlanhdr_append]
  constructor
  · cases a.qos <;> rfl
  · cases h.ap <;> rfl

theorem tail_made (i : ℕ) : byteAt (rtwMakeWlanhdr h a seqnum ++ rest) (22 + i) =
    byteAt ([UInt8.ofNat (seqnum % 16 * 16), UInt8.ofNat (seqnum / 16)] ++
      ((if a.qos then [UInt8.ofNat (a.priority % 16), 0] else []) ++ rest)) i := by
  have hlen : ([if a.qos then 0x88 else 0x08, if h.ap then 0x02 else 0x01, 0, 0] ++
      firstAddrs h a).length = 22 := by
    rw [List.length_append, firstAddrs_length]
    rfl
  rw [rtwMakeWlanhdr_append, ← List.append_assoc, ← hlen]
  exact byteAt_append_right _ _ i

theorem le16_made : le16 (rtwMakeWlanhdr h a seqnum ++ rest) 22 = 16 * seqnum := by
  have hlt := seqnum.isLt
  rw [le16, tail_made 0, tail_made 1, byteAt, byteAt]
  simp only [List.cons_append, List.getD_cons_zero, List.getD_cons_succ, UInt8.toNat_ofNat']
  omega

theorem qos_made : qos (rtwMakeWlanhdr h a seqnum ++ rest) = a.qos := by
  rw [qos, control_made.1]
  cases a.qos <;> rfl

theorem toDs_made : toDs (rtwMakeWlanhdr h a seqnum ++ rest) = !h.ap := by
  rw [toDs, control_made.2]
  cases h.ap <;> rfl

theorem frDs_made : frDs (rtwMakeWlanhdr h a seqnum ++ rest) = h.ap := by
  rw [frDs, control_made.2]
  cases h.ap <;> rfl

theorem a4Shift_made : a4Shift (rtwMakeWlanhdr h a seqnum ++ rest) = 0 := by
  rw [a4Shift, toDs_made, frDs_made]
  cases h.ap <;> rfl

variable (h a seqnum rest) in
theorem hdrlen_made : hdrlen (rtwMakeWlanhdr h a seqnum ++ rest) =
    (rtwMakeWlanhdr h a seqnum).length := by
  have horder : order (rtwMakeWlanhdr h a seqnum ++ rest) = false := by
    rw [order, control_made.2]
    cases h.ap <;> rfl
  rw [TkipRoundTrip.hdrlen, qos_made, a4Shift_made, horder, rtwMakeWlanhdr]
  cases a.qos <;> simp

theorem getPriority_made : getPriority (rtwMakeWlanhdr h a seqnum ++ rest) =
    if a.qos then a.priority % 16 else 0 := by
  rw [getPriority, qos_made, a4Shift_made]
  split_ifs with hq
  · rw [tail_made 2, if_pos hq, byteAt]
    simp only [List.nil_append, List.cons_append, List.getD_cons_zero, List.getD_cons_succ,
      UInt8.toNat_ofNat']
    omega
  · rfl

variable (h a seqnum rest) in
theorem addrsOf_made : addrsOf (rtwMakeWlanhdr h a seqnum ++ rest) =
    ⟨a.dst, if h.ap then a.src else a.ta, h.bssid⟩ := by
  rw [addrsOf, toDs_made, frDs_made, addr1_made, addr2_made, addr3_made]
  cases h.ap <;> rfl

variable (h a seqnum rest) in
theorem data_made : byteAt (rtwMakeWlanhdr h a seqnum ++ rest) 0 % 4 = 0 ∧
    byteAt (rtwMakeWlanhdr h a seqnum ++ rest) 0 / 4 % 4 = 2 ∧
      noData (rtwMakeWlanhdr h a seqnum ++ rest) = false := by
  rw [noData, control_made.1]
  cases a.qos <;> exact ⟨rfl, rfl, rfl⟩

end Header

/-! ## The Ethernet frame that comes out -/

def relabelled (pkt : List UInt8) (src : MacAddr) : List UInt8 :=
  pkt.take 6 ++ src.toList ++ pkt.drop 12

section Ethernet

variable {pkt : List UInt8}

theorem hDest_toList (h : 6 ≤ pkt.length) : (hDest pkt).toList = pkt.take 6 := by
  apply List.ext_getElem
  · rw [Vector.length_toList, List.length_take]
    omega
  · intro i hi _
    rw [Vector.length_toList] at hi
    have hi' : i < pkt.length := by omega
    simp only [hDest, macAt, Vector.getElem_toList, Vector.getElem_ofFn, List.getElem_take,
      List.getD_eq_getElem?_getD, Nat.zero_add, List.getElem?_eq_getElem hi', Option.getD_some]

theorem be16Bytes_append (h : 14 ≤ pkt.length) :
    be16Bytes (be16 pkt 12) ++ pkt.drop 14 = pkt.drop 12 := by
  have hget : ∀ i (hi : i < pkt.length), byteAt pkt i = (pkt[i]).toNat := by
    intro i hi
    rw [byteAt, List.getD_eq_getElem?_getD, List.getElem?_eq_getElem hi, Option.getD_some]
  rw [List.drop_eq_getElem_cons (show 12 < pkt.length by omega),
    List.drop_eq_getElem_cons (show 13 < pkt.length by omega), be16, hget 12 (by omega),
    hget 13 (by omega), be16Bytes]
  have h13 := (pkt[13]).toNat_lt
  have hdiv : (256 * (pkt[12]).toNat + (pkt[13]).toNat) / 256 = (pkt[12]).toNat := by omega
  have hmod : UInt8.ofNat (256 * (pkt[12]).toNat + (pkt[13]).toNat) = pkt[13] := by
    apply UInt8.toNat_inj.1
    rw [UInt8.toNat_ofNat']
    omega
  rw [hdiv, UInt8.ofNat_toNat, hmod]
  rfl

theorem rtwPutSnap_snap {n : ℕ} (h : n < 65536) (rest : List UInt8) :
    PortControl.bsnaphdr (Coalesce.rtwPutSnap n ++ rest) = true := by
  rw [Coalesce.rtwPutSnap, PortControl.bsnaphdr]
  split_ifs with hipx
  · exact decide_eq_true (.inr rfl)
  · have htype : be16 ([0xaa, 0xaa, 0x03] ++ [0x00, 0x00, 0x00] ++ be16Bytes n ++ rest) 6 = n :=
      PortControl.be16_be16Bytes h
    refine decide_eq_true (.inl ⟨rfl, ?_⟩)
    rw [htype]
    exact not_or.1 hipx

variable {h : Host} {a : TxAttrib} {seqnum : Fin 4096}

/-- A frame that is sent arrives with the sender of the 802.11 frame as its source. -/
theorem ethFrame_sent (hlen : 14 ≤ pkt.length) (hdst : a.dst = hDest pkt)
    (htype : a.etherType = be16 pkt 12) :
    ethFrame (parsed (sent h a seqnum pkt)) =
      some (relabelled pkt (if h.ap then a.src else a.ta)) := by
  have hoff : (parsed (sent h a seqnum pkt)).attrib.hdrlen =
      (rtwMakeWlanhdr h a seqnum).length := hdrlen_made _ _ _ _
  have hlong : 24 ≤ (rtwMakeWlanhdr h a seqnum).length := by
    rw [← hdrlen_made h a seqnum []]
    exact hdrlen_ge _
  let c : Carrier :=
    { f := parsed (sent h a seqnum pkt)
      header := rtwMakeWlanhdr h a seqnum
      msdu := Coalesce.rtwPutSnap a.etherType ++ pkt.drop 14
      carries := rfl
      offset := hoff.symm
      header_le := hlong }
  have hsnap : PortControl.bsnaphdr c.body = true := by
    obtain ⟨rest, hbody⟩ := c.body_eq
    rw [hbody, List.append_assoc, htype]
    exact rtwPutSnap_snap (be16_lt pkt 12) _
  obtain ⟨frame, hframe, -, heq⟩ := ethFrame_snap c hsnap
  have hsix : 6 ≤ c.msdu.length := by
    rw [List.length_append, Coalesce.rtwPutSnap_length]
    omega
  have hdrop : c.msdu.drop 6 = be16Bytes (be16 pkt 12) ++ pkt.drop 14 := by
    change (Coalesce.rtwPutSnap a.etherType ++ pkt.drop 14).drop 6 = _
    rw [Coalesce.rtwPutSnap, htype]
    split_ifs <;> rfl
  rw [hframe, heq hsix, hdrop, be16Bytes_append hlen, relabelled, ← hDest_toList (by omega)]
  have haddrs := addrsOf_made h a seqnum (Coalesce.rtwPutSnap a.etherType ++ pkt.drop 14)
  have hd : (parsed (sent h a seqnum pkt)).attrib.dst = hDest pkt :=
    (congrArg Addrs.dst haddrs).trans hdst
  have hs : (parsed (sent h a seqnum pkt)).attrib.src = if h.ap then a.src else a.ta :=
    congrArg Addrs.src haddrs
  rw [← hd, ← hs]

end Ethernet

/-! ## Repeated frames -/

section Repeated

variable {g : Host} {b : List UInt8} {psta : StaInfo}

theorem rtwGetStainfo_put (g : Host) (hwaddr : MacAddr) (psta : StaInfo) :
    (g.put hwaddr psta).rtwGetStainfo hwaddr = some psta :=
  Function.update_self _ _ _

theorem validate_put (h : g.validateRecvDataFrame b = some psta) (psta' : StaInfo) :
    (g.put (addr2 b) psta').validateRecvDataFrame b = some psta' := by
  rw [Host.validateRecvDataFrame] at h ⊢
  have hpass : g.passes b = true := by
    by_contra hno
    rw [if_neg hno] at h
    cases h
  have hput : (g.put (addr2 b) psta').passes b = true := hpass
  rw [if_pos hput]
  exact rtwGetStainfo_put g (addr2 b) psta'

theorem getPriority_lt (b : List UInt8) : getPriority b < 16 := by
  rw [getPriority]
  split_ifs <;> omega

def frameOf (b : List UInt8) : DataFrame := ⟨parsed b, getPriority_lt b⟩

theorem recv_of_cached (h : g.validateRecvDataFrame b = some psta)
    (hc : cell psta.rxcache (frameOf b).class = seqCtrl (parsed b)) : g.recv b = (none, g) := by
  have hnone : recvDecache psta.rxcache (parsed b) = none :=
    (recvDecache_none ⟨psta.rxcache, []⟩ (frameOf b)).2 hc
  rw [Host.recv, h]
  simp only [hnone]

theorem recv_of_new (h : g.validateRecvDataFrame b = some psta)
    (hc : cell psta.rxcache (frameOf b).class ≠ seqCtrl (parsed b)) :
    g.recv b = (ethFrame (parsed b), g.put (addr2 b)
      { psta with rxcache := setPrxseq psta.rxcache (parsed b) }) := by
  have htid : ¬ 15 < (parsed b).attrib.priority :=
    Nat.not_lt.2 (Nat.le_of_lt_succ (getPriority_lt b))
  have hsome : recvDecache psta.rxcache (parsed b) = some (setPrxseq psta.rxcache (parsed b)) := by
    rw [recvDecache, if_neg htid, if_neg]
    intro heq
    exact hc ((cell_class psta.rxcache (frameOf b)).trans heq.symm)
  rw [Host.recv, h]
  simp only [hsome]

theorem recvAgain_refused (h : g.validateRecvDataFrame b = none) (n : ℕ) :
    g.recvAgain b n = ([], g) := by
  have hone : g.recv b = (none, g) := by
    rw [Host.recv, h]
  induction n with
  | zero => rfl
  | succ n ih =>
    rw [Host.recvAgain, hone, ih]
    rfl

theorem recvAgain_cached (h : g.validateRecvDataFrame b = some psta)
    (hc : cell psta.rxcache (frameOf b).class = seqCtrl (parsed b)) (n : ℕ) :
    g.recvAgain b n = ([], g) := by
  induction n with
  | zero => rfl
  | succ n ih =>
    rw [Host.recvAgain, recv_of_cached h hc, ih]
    rfl

theorem recvAgain_new (h : g.validateRecvDataFrame b = some psta)
    (hc : cell psta.rxcache (frameOf b).class ≠ seqCtrl (parsed b)) (n : ℕ) :
    g.recvAgain b (n + 1) = ((ethFrame (parsed b)).toList, g.put (addr2 b)
      { psta with rxcache := setPrxseq psta.rxcache (parsed b) }) := by
  have hcell : cell (setPrxseq psta.rxcache (parsed b)) (frameOf b).class = seqCtrl (parsed b) := by
    have hset := cell_setPrxseq psta.rxcache (frameOf b)
    exact (congrFun hset _).trans (Function.update_self _ _ _)
  have hrest := recvAgain_cached (validate_put h
    { psta with rxcache := setPrxseq psta.rxcache (parsed b) }) hcell n
  rw [Host.recvAgain, recv_of_new h hc, hrest, List.append_nil]

end Repeated

/-! ## Which hosts take a frame -/

section Sent

variable {h g : Host} {a : TxAttrib} {seqnum : Fin 4096} {pkt : List UInt8}

theorem seqCtrl_sent : seqCtrl (parsed (sent h a seqnum pkt)) = 16 * seqnum := by
  have hle : le16 (sent h a seqnum pkt) 22 = 16 * seqnum := le16_made
  have hseq : seqCtrl (parsed (sent h a seqnum pkt)) =
      le16 (sent h a seqnum pkt) 22 / 16 * 16 + le16 (sent h a seqnum pkt) 22 % 16 := rfl
  rw [hseq, Nat.div_add_mod', hle]

theorem class_sent : (frameOf (sent h a seqnum pkt)).class =
    (if a.qos then some (a.priority % 16) else none,
      isMcast (if h.ap then a.dst else h.bssid)) := by
  have hqos : (parsed (sent h a seqnum pkt)).attrib.qos = a.qos := qos_made
  have hprio : (parsed (sent h a seqnum pkt)).attrib.priority =
    if a.qos then a.priority % 16 else 0 := getPriority_made
  have hra : (parsed (sent h a seqnum pkt)).attrib.ra = if h.ap then a.dst else h.bssid :=
    addr1_made
  rw [DataFrame.class]
  change (if (parsed (sent h a seqnum pkt)).attrib.qos then
    some (parsed (sent h a seqnum pkt)).attrib.priority else none,
      isMcast (parsed (sent h a seqnum pkt)).attrib.ra) = _
  rw [hqos, hprio, hra]
  cases a.qos <;> rfl

theorem addr2_sent : addr2 (sent h a seqnum pkt) = if h.ap then h.bssid else a.ta := addr2_made

theorem passes_up (hap : h.ap = false) (hbss : h.bssid = g.bssid) :
    g.passes (sent h a seqnum pkt) = g.ap := by
  obtain ⟨hver, htype, hdata⟩ := data_made h a seqnum
    (Coalesce.rtwPutSnap a.etherType ++ pkt.drop 14)
  rw [sent, Host.passes, toDs_made, frDs_made, Host.sta2apDataFrame, addrsOf_made, hap, hbss]
  simp [hver, htype, hdata]

theorem passes_down (hap : h.ap = true) (hbss : g.bssid = h.bssid) (hnull : h.bssid ≠ nullAddr)
    (hg : g.ap = false) (hlinked : g.linked = true) :
    g.passes (sent h a seqnum pkt) =
      decide (g.macAddr ≠ a.src ∧ (g.macAddr = a.dst ∨ isMcast a.dst = true)) := by
  obtain ⟨hver, htype, hdata⟩ := data_made h a seqnum
    (Coalesce.rtwPutSnap a.etherType ++ pkt.drop 14)
  rw [sent, Host.passes, toDs_made, frDs_made, Host.ap2staDataFrame, addrsOf_made, hap, hbss]
  simp [hver, htype, hdata, hg, hlinked, hnull]

end Sent

end Rtl8189.DataHop
