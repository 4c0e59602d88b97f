import Rtl8189.ElemList

/-!
# Classifying packets

`update_attrib` opens a packet step by step. A frame that leaves in a station is marked as ICMP or
DHCP from what it reads of the IPv4 header and the UDP header behind.
-/
namespace Rtl8189.PacketClass

open ElemList (usub)

def ethHlen : ℕ := 14

def ethPIp : ℕ := 0x0800

/-- `struct pkt_file`, by how much of the packet is read. -/
structure PktFile where
  pkt : List UInt8
  read : ℕ

def PktFile.pktLen (f : PktFile) : ℕ := f.pkt.length - f.read

/-- `_rtw_pktfile_read`: the file behind it, and the memory that is read to. -/
def rtwPktfileRead (f : PktFile) (rmem : List UInt8) (rlen : ℕ) : PktFile × List UInt8 :=
  let len := if f.pktLen < rlen then f.pktLen else rlen
  ({ f with read := f.read + len }, putBytes rmem 0 ((f.pkt.drop f.read).take len))

def getIpv4Ihl (ip : List UInt8) : ℕ := byteAt ip 0 % 16

def getIpv4Protocol (ip : List UInt8) : ℕ := byteAt ip 9

def getUdpSrc (udp : List UInt8) : ℕ := be16 udp 0

def getUdpDst (udp : List UInt8) : ℕ := be16 udp 2

def getUdpSig1 (udp : List UInt8) : ℕ := byteAt udp 8

def getUdpSig2 (udp : List UInt8) : ℕ := byteAt udp 23

/-- What `update_attrib` fills in up to the security attributes. -/
structure PktAttrib where
  etherType : ℕ
  dst : List UInt8
  src : List UInt8
  ra : List UInt8
  ta : List UInt8
  pktlen : ℕ
  icmpPkt : Bool
  dhcpPkt : Bool
  hipriorityPkt : Bool

/-- The bytes that the local arrays hold before they are read to. -/
structure Stack where
  etherhdr : List UInt8
  ip : List UInt8
  udp : List UInt8
  etherhdr_length : etherhdr.length = ethHlen
  ip_length : ip.length = 20
  udp_length : udp.length = 24

/-- The state of the adapter as far as a packet is dropped by it; the stations with whether they
are linked, and whether the security attributes are found. -/
structure Adapter where
  adhoc : Bool
  station : Bool
  ap : Bool
  macAddr : List UInt8
  bssid : List UInt8
  bcmcStainfo : Option Bool
  stainfo : List UInt8 → Option Bool
  secInfo : PktAttrib → Bool

def isMcast (ra : List UInt8) : Bool := (byteAt ra 0).testBit 0

def Adapter.address (a : Adapter) (p : PktAttrib) : PktAttrib :=
  if a.adhoc then { p with ra := p.dst, ta := a.macAddr }
  else if a.station then { p with ra := a.bssid, ta := a.macAddr }
  else if a.ap then { p with ra := p.dst, ta := a.bssid }
  else p

def Adapter.staLinked (a : Adapter) (ra : List UInt8) : Bool :=
  (if isMcast ra then a.bcmcStainfo else a.stainfo ra).getD false

def classifyUdp (udp : List UInt8) (p : PktAttrib) : PktAttrib :=
  let p :=
    if getUdpSrc udp = 68 ∧ getUdpDst udp = 67 ∨ getUdpSrc udp = 67 ∧ getUdpDst udp = 68 then
      if 282 < p.pktlen then { p with dhcpPkt := true } else p
    else p
  if (getUdpSig1 udp = 0xcc ∨ getUdpSig1 udp = 0xdd) ∧ getUdpSig2 udp = 0xe2 then
    { p with hipriorityPkt := true }
  else p

def classifyIp (stack : Stack) (f : PktFile) (p : PktAttrib) : PktAttrib :=
  let r := rtwPktfileRead f stack.ip 20
  let ip := r.2
  -- the options are counted in the words of the header length, and the 20 in bytes
  let f :=
    if 20 < getIpv4Ihl ip * 4 then (rtwPktfileRead r.1 [] (usub (getIpv4Ihl ip) 20)).1 else r.1
  let p := { p with icmpPkt := false, dhcpPkt := false, hipriorityPkt := false }
  if getIpv4Protocol ip = 0x01 then { p with icmpPkt := true }
  else if getIpv4Protocol ip = 0x11 then classifyUdp (rtwPktfileRead f stack.udp 24).2 p
  else p

def openPacket (a : Adapter) (stack : Stack) (pkt : List UInt8) (p : PktAttrib) :
    PktFile × PktAttrib :=
  let r := rtwPktfileRead { pkt, read := 0 } stack.etherhdr ethHlen
  let etherhdr := r.2
  (r.1, a.address
    { p with
      etherType := be16 etherhdr 12
      dst := etherhdr.take 6
      src := (etherhdr.drop 6).take 6 })

/-- `update_attrib`: the attributes, and `_SUCCESS` or `_FAIL`. -/
def updateAttrib (a : Adapter) (stack : Stack) (pkt : List UInt8) (p : PktAttrib) :
    PktAttrib × Bool :=
  let r := openPacket a stack pkt p
  let p := r.2
  if a.staLinked p.ra then
    let p := { p with pktlen := r.1.pktLen }
    let p := if ethPIp = p.etherType then classifyIp stack r.1 p else p
    (p, a.secInfo p)
  else (p, false)

/-! ## The packet itself -/

def ihl (pkt : List UInt8) : ℕ := byteAt pkt 14 % 16

def protocol (pkt : List UInt8) : ℕ := byteAt pkt 23

structure Ipv4Packet (pkt : List UInt8) : Prop where
  etherType : be16 pkt 12 = ethPIp
  version : byteAt pkt 14 / 16 = 4
  ihl : 5 ≤ ihl pkt
  header : 14 + 4 * PacketClass.ihl pkt ≤ pkt.length

theorem Ipv4Packet.header_le {pkt : List UInt8} (h : Ipv4Packet pkt) : 34 ≤ pkt.length := by
  have hihl := h.ihl
  have hheader := h.header
  omega

instance (pkt : List UInt8) : Decidable (Ipv4Packet pkt) :=
  decidable_of_iff
    (be16 pkt 12 = ethPIp ∧ byteAt pkt 14 / 16 = 4 ∧ 5 ≤ ihl pkt ∧ 14 + 4 * ihl pkt ≤ pkt.length)
    ⟨fun ⟨h, hv, hi, hl⟩ => ⟨h, hv, hi, hl⟩, fun h => ⟨h.1, h.2, h.3, h.4⟩⟩

def DhcpPorts (udp : List UInt8) : Prop :=
  be16 udp 0 = 68 ∧ be16 udp 2 = 67 ∨ be16 udp 0 = 67 ∧ be16 udp 2 = 68

instance (udp : List UInt8) : Decidable (DhcpPorts udp) := inferInstanceAs (Decidable (_ ∨ _))

/-- What stands behind the IPv4 header, whatever its length. -/
def ipPayload (pkt : List UInt8) : List UInt8 := pkt.drop (14 + 4 * ihl pkt)

/-! ## Reading step by step -/

theorem rtwPktfileRead_full {f : PktFile} {rmem : List UInt8} {n : ℕ} (hmem : rmem.length = n)
    (hn : n ≤ f.pktLen) :
    rtwPktfileRead f rmem n = ({ f with read := f.read + n }, (f.pkt.drop f.read).take n) := by
  have htake : ((f.pkt.drop f.read).take n).length = n := by
    rw [List.length_take, List.length_drop]
    exact Nat.min_eq_left hn
  rw [rtwPktfileRead, if_neg (Nat.not_lt.mpr hn), putBytes, htake, Nat.zero_add,
    List.drop_eq_nil_of_le hmem.le, List.take_zero, List.nil_append, List.append_nil]

theorem byteAt_read (pkt : List UInt8) {n i : ℕ} (m : ℕ) (hi : i < n) :
    byteAt ((pkt.drop m).take n) i = byteAt pkt (m + i) := by
  rw [← byteAt_drop]
  simp only [byteAt, List.getD_eq_getElem?_getD, List.getElem?_take, if_pos hi]

theorem be16_read (pkt : List UInt8) {n i : ℕ} (m : ℕ) (hi : i + 1 < n) :
    be16 ((pkt.drop m).take n) i = be16 pkt (m + i) := by
  rw [be16, be16, byteAt_read pkt m (by omega), byteAt_read pkt m hi, Nat.add_assoc]

section Classify

variable (a : Adapter) (stack : Stack) {pkt : List UInt8} (p : PktAttrib)

theorem address_etherType : (a.address p).etherType = p.etherType := by
  unfold Adapter.address
  split_ifs <;> rfl

theorem read_etherhdr (h : ethHlen ≤ pkt.length) :
    rtwPktfileRead { pkt, read := 0 } stack.etherhdr ethHlen =
      ({ pkt, read := ethHlen }, pkt.take ethHlen) := by
  have hlen : ethHlen ≤ PktFile.pktLen { pkt, read := 0 } := h
  rw [rtwPktfileRead_full stack.etherhdr_length hlen]
  rfl

theorem openPacket_file (h : ethHlen ≤ pkt.length) :
    (openPacket a stack pkt p).1 = { pkt, read := ethHlen } := by
  rw [openPacket, read_etherhdr stack h]

theorem openPacket_etherType (h : ethHlen ≤ pkt.length) :
    (openPacket a stack pkt p).2.etherType = be16 pkt 12 := by
  rw [openPacket, read_etherhdr stack h, address_etherType]
  exact be16_read pkt 0 (by decide)

theorem classifyUdp_icmp (udp : List UInt8) : (classifyUdp udp p).icmpPkt = p.icmpPkt := by
  unfold classifyUdp
  split_ifs <;> rfl

theorem classifyUdp_dhcp (udp : List UInt8) (hp : p.dhcpPkt = false) :
    (classifyUdp udp p).dhcpPkt = true ↔ DhcpPorts udp ∧ 282 < p.pktlen := by
  change _ ↔ (getUdpSrc udp = 68 ∧ getUdpDst udp = 67 ∨ getUdpSrc udp = 67 ∧ getUdpDst udp = 68) ∧ _
  by_cases hports :
      getUdpSrc udp = 68 ∧ getUdpDst udp = 67 ∨ getUdpSrc udp = 67 ∧ getUdpDst udp = 68
  · by_cases hlen : 282 < p.pktlen
    · simp only [classifyUdp, if_pos hports, if_pos hlen]
      split_ifs <;> exact iff_of_true rfl ⟨hports, hlen⟩
    · simp only [classifyUdp, if_pos hports, if_neg hlen]
      split_ifs <;> simp only [hp, hlen, and_false, Bool.false_eq_true]
  · simp only [classifyUdp, if_neg hports]
    split_ifs <;> simp only [hp, hports, false_and, Bool.false_eq_true]

def udpRead (stack : Stack) (pkt : List UInt8) : List UInt8 :=
  let f : PktFile := { pkt, read := 34 }
  let f := if 20 < ihl pkt * 4 then (rtwPktfileRead f [] (usub (ihl pkt) 20)).1 else f
  (rtwPktfileRead f stack.udp 24).2

theorem classifyIp_eq (h : 34 ≤ pkt.length) :
    classifyIp stack { pkt, read := ethHlen } p =
      let p := { p with icmpPkt := false, dhcpPkt := false, hipriorityPkt := false }
      if protocol pkt = 0x01 then { p with icmpPkt := true }
      else if protocol pkt = 0x11 then classifyUdp (udpRead stack pkt) p
      else p := by
  have hlen : 20 ≤ PktFile.pktLen { pkt, read := ethHlen } := Nat.le_sub_of_add_le h
  have hip := rtwPktfileRead_full stack.ip_length hlen
  have hihl : getIpv4Ihl ((pkt.drop ethHlen).take 20) = ihl pkt :=
    congrArg (· % 16) (byteAt_read pkt 14 (by decide))
  have hproto : getIpv4Protocol ((pkt.drop ethHlen).take 20) = protocol pkt :=
    byteAt_read pkt 14 (by decide)
  simp only [classifyIp, hip, hihl, hproto]
  rfl

theorem classifyIp_icmp (h : 34 ≤ pkt.length) :
    (classifyIp stack { pkt, read := ethHlen } p).icmpPkt = true ↔ protocol pkt = 1 := by
  rw [classifyIp_eq stack p h]
  by_cases hicmp : protocol pkt = 1
  · simp only [if_pos hicmp]
    exact iff_of_true trivial hicmp
  · simp only [if_neg hicmp]
    refine iff_of_false (fun hmark => ?_) hicmp
    split_ifs at hmark
    rw [classifyUdp_icmp] at hmark
    exact Bool.false_ne_true hmark

theorem classifyIp_dhcp (h : 34 ≤ pkt.length) :
    (classifyIp stack { pkt, read := ethHlen } p).dhcpPkt = true ↔
      protocol pkt = 17 ∧ DhcpPorts (udpRead stack pkt) ∧ 282 < p.pktlen := by
  rw [classifyIp_eq stack p h]
  by_cases hicmp : protocol pkt = 1
  · simp only [if_pos hicmp]
    exact iff_of_false Bool.false_ne_true fun hudp => absurd (hicmp.symm.trans hudp.1) (by decide)
  · by_cases hudp : protocol pkt = 17
    · simp only [if_neg hicmp, if_pos hudp]
      exact (classifyUdp_dhcp _ (udpRead stack pkt) rfl).trans (and_iff_right hudp).symm
    · simp only [if_neg hicmp, if_neg hudp]
      exact iff_of_false Bool.false_ne_true fun h => hudp h.1

theorem udpRead_bare (hihl : ihl pkt = 5) (h : 58 ≤ pkt.length) :
    udpRead stack pkt = (ipPayload pkt).take 24 := by
  have hlen : 24 ≤ PktFile.pktLen { pkt, read := 34 } := Nat.le_sub_of_add_le h
  simp only [udpRead, ipPayload, hihl]
  rw [if_neg (by decide), rtwPktfileRead_full stack.udp_length hlen]

theorem updateAttrib_classified (h : ethHlen ≤ pkt.length) (htype : be16 pkt 12 = ethPIp)
    (hsta : a.staLinked (openPacket a stack pkt p).2.ra = true) :
    (updateAttrib a stack pkt p).1 =
      classifyIp stack { pkt, read := ethHlen }
        { (openPacket a stack pkt p).2 with pktlen := pkt.length - ethHlen } := by
  simp only [updateAttrib, if_pos hsta, openPacket_etherType a stack p h, htype, if_true,
    openPacket_file a stack p h]
  rfl

theorem dhcpPorts_take (udp : List UInt8) : DhcpPorts (udp.take 24) ↔ DhcpPorts udp := by
  have hports (i : ℕ) (hi : i + 1 < 24) : be16 (udp.take 24) i = be16 udp i := by
    have hread := be16_read udp 0 hi
    rwa [List.drop_zero, Nat.zero_add] at hread
  rw [DhcpPorts, DhcpPorts, hports 0 (by decide), hports 2 (by decide)]

theorem updateAttrib_dhcp (hip : Ipv4Packet pkt)
    (hsta : a.staLinked (openPacket a stack pkt p).2.ra = true) :
    (updateAttrib a stack pkt p).1.dhcpPkt = true ↔
      protocol pkt = 17 ∧ DhcpPorts (udpRead stack pkt) ∧ 282 < pkt.length - ethHlen := by
  have hlen := hip.header_le
  rw [updateAttrib_classified a stack p (Nat.le_trans (by decide) hlen) hip.etherType hsta]
  exact classifyIp_dhcp stack _ hlen

/-- ICMP goes by the protocol alone. A DHCP packet is UDP and longer than the least one, and
without options the ports make the difference. -/
theorem packets_marked (hip : Ipv4Packet pkt)
    (hsta : a.staLinked (openPacket a stack pkt p).2.ra = true) :
    let q := (updateAttrib a stack pkt p).1
    (q.icmpPkt = true ↔ protocol pkt = 1) ∧
      (q.dhcpPkt = true → protocol pkt = 17 ∧ 282 < pkt.length - ethHlen) ∧
      (ihl pkt = 5 →
        (q.dhcpPkt = true ↔
          protocol pkt = 17 ∧ DhcpPorts (ipPayload pkt) ∧ 282 < pkt.length - ethHlen)) := by
  intro q
  have hlen := hip.header_le
  have hdhcp := updateAttrib_dhcp a stack p hip hsta
  refine ⟨?_, fun hmark => ?_, fun hbare => hdhcp.trans ?_⟩
  · change (updateAttrib a stack pkt p).1.icmpPkt = true ↔ _
    rw [updateAttrib_classified a stack p (Nat.le_trans (by decide) hlen) hip.etherType hsta]
    exact classifyIp_icmp stack _ hlen
  · obtain ⟨hudp, -, hlong⟩ := hdhcp.mp hmark
    exact ⟨hudp, hlong⟩
  · refine and_congr_right fun _ => and_congr_left fun hlong => ?_
    have hfull : 58 ≤ pkt.length := by
      rw [ethHlen] at hlong
      omega
    rw [udpRead_bare stack hbare hfull]
    exact dhcpPorts_take _

end Classify

/-! ## DHCP packets on the air -/

def dhcpPacket (ihl : UInt8) (n : ℕ) : List UInt8 :=
  List.replicate 12 0 ++ [8, 0, 0x40 + ihl] ++ List.replicate 8 0 ++ [17] ++
    List.replicate (4 * ihl.toNat - 10) 0 ++ [0, 68, 0, 67] ++ List.replicate n 0

def associated : Adapter where
  adhoc := false
  station := true
  ap := false
  macAddr := [2, 0, 0, 0, 0, 1]
  bssid := [2, 0, 0, 0, 0, 2]
  bcmcStainfo := none
  stainfo := fun _ => some true
  secInfo := fun _ => true

def zeroStack : Stack where
  etherhdr := List.replicate 14 0
  ip := List.replicate 20 0
  udp := List.replicate 24 0
  etherhdr_length := rfl
  ip_length := rfl
  udp_length := rfl

def zeroAttrib : PktAttrib where
  etherType := 0
  dst := []
  src := []
  ra := []
  ta := []
  pktlen := 0
  icmpPkt := false
  dhcpPkt := false
  hipriorityPkt := false

theorem packets_marked_dhcp :
    (updateAttrib associated zeroStack (dhcpPacket 5 259) zeroAttrib).1.dhcpPkt = true := by
  have hip : Ipv4Packet (dhcpPacket 5 259) := by decide +kernel
  have hmarked := packets_marked associated zeroStack zeroAttrib hip (by decide +kernel)
  exact (hmarked.2.2 (by decide +kernel)).mpr (by decide +kernel)

/-- A packet is left for its length, and one for an option. -/
theorem dhcp_not_marked :
    (Ipv4Packet (dhcpPacket 5 258) ∧ protocol (dhcpPacket 5 258) = 17 ∧
        DhcpPorts (ipPayload (dhcpPacket 5 258)) ∧
        (updateAttrib associated zeroStack (dhcpPacket 5 258) zeroAttrib).2 = true ∧
        (updateAttrib associated zeroStack (dhcpPacket 5 258) zeroAttrib).1.dhcpPkt = false) ∧
      Ipv4Packet (dhcpPacket 6 300) ∧ protocol (dhcpPacket 6 300) = 17 ∧
        DhcpPorts (ipPayload (dhcpPacket 6 300)) ∧
        (updateAttrib associated zeroStack (dhcpPacket 6 300) zeroAttrib).2 = true ∧
        (updateAttrib associated zeroStack (dhcpPacket 6 300) zeroAttrib).1.dhcpPkt = false := by
  decide +kernel

end Rtl8189.PacketClass
