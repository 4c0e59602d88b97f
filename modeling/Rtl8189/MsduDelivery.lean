import Rtl8189.AccessTrace
import Rtl8189.PortControl

/-!
# From MSDU to Ethernet frame

A plain data frame is turned into an Ethernet frame in place. The subframes of an A-MSDU
are cut out one after the other, each with a header of its own and padding behind it, and
each becomes an Ethernet frame in a packet of its own.
-/
namespace Rtl8189.MsduDelivery

open AccessTrace PortControl

/-! ## Plain frames and subframes -/

/-- The Ethernet frame that `rtw_os_alloc_msdu_pkt` leaves in the packet. -/
def msduPktBytes (s : Subframe) : List UInt8 :=
  if snapMsdu s.msdu then s.da ++ s.sa ++ s.msdu.drop 6
  else s.da ++ s.sa ++ be16Bytes s.msdu.length ++ s.msdu

/-- The Ethernet frame that `wlanhdr_to_ethhdr` leaves in the frame. -/
def ethFrame (f : RecvFrame) : Option (List UInt8) := (wlanhdrToEthhdr f).map (·.rxData)

/-- A data frame that carries an MSDU: behind the header and before the ICV. -/
structure Carrier where
  f : RecvFrame
  header : List UInt8
  msdu : List UInt8
  carries : (trimIcv f).rxData = header ++ msdu
  offset : header.length = bodyOffset f
  header_le : 24 ≤ header.length

def Carrier.subframe (c : Carrier) : Subframe where
  da := c.f.attrib.dst.toList
  sa := c.f.attrib.src.toList
  msdu := c.msdu

def Carrier.body (c : Carrier) : List UInt8 := c.f.view.drop (bodyOffset c.f)

theorem Carrier.body_eq (c : Carrier) : ∃ rest, c.body = c.msdu ++ rest := by
  refine ⟨(trimIcv c.f).slack, ?_⟩
  rw [Carrier.body, ← trimIcv_view, RecvFrame.view, c.carries, ← c.offset, List.append_assoc,
    List.drop_left]

theorem bsnaphdr_append {p : List UInt8} (h : 8 ≤ p.length) (rest : List UInt8) :
    bsnaphdr (p ++ rest) = bsnaphdr p := by
  have htake : (p ++ rest).take 6 = p.take 6 := List.take_append_of_le_length (by omega)
  have htype : be16 (p ++ rest) 6 = be16 p 6 := by
    rw [be16, be16, byteAt_append_left (by omega), byteAt_append_left (by omega)]
  rw [bsnaphdr, bsnaphdr, htake, htype]

theorem overwrite_rxData {f : RecvFrame} {bytes : List UInt8} (h : bytes.length ≤ f.len) :
    (f.overwrite bytes).rxData = bytes ++ f.rxData.drop bytes.length := by
  have hview : f.view.drop bytes.length = f.rxData.drop bytes.length ++ f.slack :=
    List.drop_append_of_le_length h
  have hlen : f.len = (bytes ++ f.rxData.drop bytes.length).length := by
    rw [List.length_append, List.length_drop]
    exact (Nat.add_sub_of_le h).symm
  change (bytes ++ f.view.drop bytes.length).take f.len = _
  rw [hview, ← List.append_assoc, hlen, List.take_left]

theorem Carrier.pull (c : Carrier) {k : ℕ} (hk : k ≤ c.header.length) :
    ∃ g, (trimIcv c.f).recvframePull k = some g ∧ g.rxData = c.header.drop k ++ c.msdu := by
  have hlen : k ≤ (trimIcv c.f).len := by
    rw [RecvFrame.len, c.carries, List.length_append]
    omega
  refine ⟨_, by rw [RecvFrame.recvframePull, if_pos hlen], ?_⟩
  change (trimIcv c.f).rxData.drop k = _
  rw [c.carries, List.drop_append_of_le_length hk]

theorem Carrier.bodyLen16 (c : Carrier) : bodyLen16 c.f = c.msdu.length % 65536 := by
  rw [PortControl.bodyLen16, RecvFrame.len, c.carries, List.length_append, ← c.offset]
  omega

/-- The frame that `wlanhdr_to_ethhdr` makes of a body that keeps its header. -/
theorem ethFrame_plain (c : Carrier) (h : bsnaphdr c.body = false) :
    ethFrame c.f = some (c.f.attrib.dst.toList ++ c.f.attrib.src.toList ++
      be16Bytes c.msdu.length ++ c.msdu) := by
  have hle := c.header_le
  have hpull := c.pull (k := c.header.length - 14) (Nat.sub_le _ _)
  obtain ⟨g, hg, hdata⟩ := hpull
  rw [Carrier.body, ← trimIcv_view] at h
  rw [ethFrame, wlanhdrToEthhdr, h, c.bodyLen16, be16Bytes_mod]
  simp only [Bool.false_eq_true, if_false, Nat.add_zero, ← c.offset, hg, Option.map_some]
  refine congrArg some ?_
  have hbytes : (c.f.attrib.dst.toList ++ c.f.attrib.src.toList ++
      be16Bytes c.msdu.length).length = 14 := by
    rw [List.length_append, addrs_length]
    rfl
  have hlong : 14 ≤ g.len := by
    rw [RecvFrame.len, hdata, List.length_append, List.length_drop]
    omega
  rw [overwrite_rxData (hbytes ▸ hlong), hbytes, hdata]
  congr 1
  rw [List.drop_append_of_le_length (by rw [List.length_drop]; omega), List.drop_drop]
  have hall : c.header.length - 14 + 14 = c.header.length := by omega
  rw [hall, List.drop_length, List.nil_append]

theorem ethFrame_snap (c : Carrier) (h : bsnaphdr c.body = true) :
    ∃ frame, ethFrame c.f = some frame ∧ frame.length = c.msdu.length + 6 ∧
      (6 ≤ c.msdu.length → frame = c.f.attrib.dst.toList ++ c.f.attrib.src.toList ++
        c.msdu.drop 6) := by
  have hle := c.header_le
  have hpull := c.pull (k := c.header.length - 6) (Nat.sub_le _ _)
  obtain ⟨g, hg, hdata⟩ := hpull
  have hk : c.header.length + 6 - 14 + 2 = c.header.length - 6 := by omega
  rw [Carrier.body, ← trimIcv_view] at h
  rw [ethFrame, wlanhdrToEthhdr, h]
  simp only [if_true, ← c.offset, hk, hg, Option.map_some, List.append_nil]
  have hlen : g.len = c.msdu.length + 6 := by
    rw [RecvFrame.len, hdata, List.length_append, List.length_drop]
    omega
  refine ⟨_, rfl, (RecvFrame.overwrite_len g _).trans hlen, fun hsix => ?_⟩
  rw [overwrite_rxData (by rw [addrs_length]; omega), addrs_length, hdata, List.drop_append,
    List.drop_eq_nil_of_le (by rw [List.length_drop]; omega), List.nil_append, List.length_drop]
  congr 2
  omega

/-- Both ways give the same frame, unless the MSDU is shorter than the header that is looked
for, and what lies behind it makes up for that. -/
theorem deliveries_agree (c : Carrier) :
    ethFrame c.f = some (msduPktBytes c.subframe) ↔
      8 ≤ c.msdu.length ∨ bsnaphdr c.body = false := by
  obtain ⟨rest, hbody⟩ := c.body_eq
  cases hsnap : bsnaphdr c.body with
  | false =>
    refine iff_of_true ?_ (.inr rfl)
    have hno : ¬ snapMsdu c.subframe.msdu = true := by
      intro hs
      obtain ⟨hlong, hs⟩ : 8 ≤ c.msdu.length ∧ bsnaphdr c.msdu = true := of_decide_eq_true hs
      rw [hbody, bsnaphdr_append hlong, hs] at hsnap
      exact nomatch hsnap
    rw [ethFrame_plain c hsnap, msduPktBytes, if_neg hno]
    rfl
  | true =>
    obtain ⟨frame, hframe, hlen, hlong⟩ := ethFrame_snap c hsnap
    rw [hframe, Option.some.injEq]
    by_cases h8 : 8 ≤ c.msdu.length
    · refine iff_of_true ?_ (.inl h8)
      rw [hbody, bsnaphdr_append h8] at hsnap
      have hs : snapMsdu c.subframe.msdu = true := decide_eq_true ⟨h8, hsnap⟩
      rw [hlong (by omega), msduPktBytes, if_pos hs]
      rfl
    · refine iff_of_false (fun heq => ?_) (fun h => h.elim h8 nofun)
      have hno : ¬ snapMsdu c.subframe.msdu = true := fun hs => h8 (of_decide_eq_true hs).1
      have hother : (msduPktBytes c.subframe).length = c.msdu.length + 14 := by
        rw [msduPktBytes, if_neg hno, List.length_append, List.length_append]
        change (c.f.attrib.dst.toList ++ c.f.attrib.src.toList).length + 2 + c.msdu.length = _
        rw [addrs_length]
        omega
      rw [← heq, hlen] at hother
      omega

def bareSnap : Carrier where
  f := { rxData := List.replicate 24 0 ++ rfc1042Header }
  header := List.replicate 24 0
  msdu := rfc1042Header
  carries := rfl
  offset := by decide
  header_le := Nat.le_refl 24

theorem deliveries_differ :
    ethFrame bareSnap.f = some (List.replicate 12 0) ∧
      msduPktBytes bareSnap.subframe = List.replicate 12 0 ++ [0, 6] ++ rfc1042Header ∧
      ethFrame bareSnap.f ≠ some (msduPktBytes bareSnap.subframe) := by
  decide +kernel

/-! ## Aggregates -/

/-- How `rtw_os_alloc_msdu_pkt` gets its packet: with a copy of the MSDU, or as a clone that
shares the buffer of the frame. -/
inductive Pkt where
  | copy
  | clone
  | fail
  deriving DecidableEq

/-- A pass of the loop of `amsdu_to_msdu`: where it starts, the length it finds, and the
packet, if it comes to that. -/
structure Pass where
  off : ℕ
  n : ℕ
  pkt : Option Pkt

/-- The loop with `left` of the 64 subframes still allowed, from `off` in the body on. -/
def passes (alloc : ℕ → Pkt) : ℕ → ℕ → List UInt8 → List Pass
  | 0, _, _ => []
  | left + 1, off, pdata =>
    let n := be16 pdata 12
    if pdata.length ≤ 14 then []
    else if pdata.length < 14 + n then [⟨off, n, none⟩]
    else if alloc left = .fail then [⟨off, n, some .fail⟩]
    else
      let rest := pdata.drop (14 + n)
      let paddingLen := (4 - (n + 14) % 4) % 4
      ⟨off, n, some (alloc left)⟩ ::
        if rest.length < paddingLen then []
        else passes alloc left (off + 14 + n + paddingLen) (rest.drop paddingLen)

/-- What is read of the body. The type field of a clone is read before its length is looked
at. -/
def Pass.ops (p : Pass) : List Op :=
  .bytes p.off 14 ::
    match p.pkt with
    | none | some .fail => []
    | some .copy => [.bytes (p.off + 14 : ℕ) p.n]
    | some .clone =>
      .bytes (p.off + 20 : ℕ) 2 :: if 8 ≤ p.n then [.bytes (p.off + 14 : ℕ) 6] else []

/-- The EtherType that an MSDU denotes: AppleTalk ARP and IPX only behind the bridge tunnel
header. What denotes none is delivered with its length. -/
def ethernetOf (s : Subframe) : Msdu :=
  let typed : Msdu := ⟨s.da, s.sa, be16 s.msdu 6, s.msdu.drop 8⟩
  let raw : Msdu := ⟨s.da, s.sa, s.msdu.length, s.msdu⟩
  if s.msdu.length < 8 then raw
  else if s.msdu.take 6 = bridgeTunnelHeader then typed
  else if s.msdu.take 6 = rfc1042Header ∧ be16 s.msdu 6 ∉ [0x8137, 0x80f3] then typed
  else raw

def subframeBytes (s : Subframe) : List UInt8 :=
  s.da ++ s.sa ++ be16Bytes s.msdu.length ++ s.msdu

/-- All subframes but the last are padded to a multiple of four. -/
inductive Encodes : List Subframe → List UInt8 → Prop
  | nil : Encodes [] []
  | last (s : Subframe) : Encodes [s] (subframeBytes s)
  | cons (s : Subframe) {l : List Subframe} {b : List UInt8} (pad : List UInt8) : l ≠ [] →
      pad.length = (4 - (s.msdu.length + 14) % 4) % 4 → Encodes l b →
      Encodes (s :: l) (subframeBytes s ++ (pad ++ b))

structure Subframe.WellFormed (s : Subframe) : Prop where
  da : s.da.length = 6
  sa : s.sa.length = 6
  msdu : s.msdu.length < 65536

structure Amsdu where
  subs : List Subframe
  body : List UInt8
  encodes : Encodes subs body
  wellFormed : ∀ s ∈ subs, Subframe.WellFormed s
  count : subs.length ≤ 64

def handedUp (body : List UInt8) : List Msdu :=
  (subframes (fun _ => true) 64 body).map rtwOsAllocMsduPkt

theorem rtwOsAllocMsduPkt_eq {s : Subframe} (h : s.msdu.length < 65536) :
    rtwOsAllocMsduPkt s = ethernetOf s := by
  have hlen : s.msdu.length % 65536 = s.msdu.length := Nat.mod_eq_of_lt h
  have hsnap : snapMsdu s.msdu = true ↔ ¬ s.msdu.length < 8 ∧
      (s.msdu.take 6 = bridgeTunnelHeader ∨
        s.msdu.take 6 = rfc1042Header ∧ be16 s.msdu 6 ∉ [0x8137, 0x80f3]) := by
    rw [snapMsdu, decide_eq_true_iff, bsnaphdr, decide_eq_true_iff]
    simp only [List.mem_cons, List.not_mem_nil, or_false, not_or, Nat.not_lt]
    exact and_congr_right fun _ => or_comm
  unfold rtwOsAllocMsduPkt ethernetOf
  rw [hlen]
  by_cases h8 : s.msdu.length < 8
  · rw [if_neg (fun hs => (hsnap.1 hs).1 h8), if_pos h8]
  · rw [if_neg h8]
    by_cases hb : s.msdu.take 6 = bridgeTunnelHeader
    · rw [if_pos (hsnap.2 ⟨h8, .inl hb⟩), if_pos hb]
    · rw [if_neg hb]
      by_cases hr : s.msdu.take 6 = rfc1042Header ∧ be16 s.msdu 6 ∉ [0x8137, 0x80f3]
      · rw [if_pos (hsnap.2 ⟨h8, .inr hr⟩), if_pos hr]
      · rw [if_neg (fun hs => (hsnap.1 hs).2.elim hb hr), if_neg hr]

theorem Subframe.WellFormed.bytes_length {s : Subframe} (h : Subframe.WellFormed s) :
    (subframeBytes s).length = 14 + s.msdu.length := by
  simp only [subframeBytes, List.length_append, h.da, h.sa]
  rfl

theorem subframes_cons {s : Subframe} (h : Subframe.WellFormed s) (left : ℕ) (rest : List UInt8)
    (hne : 0 < s.msdu.length + rest.length) :
    subframes (fun _ => true) (left + 1) (subframeBytes s ++ rest) =
      s :: if rest.length < (4 - (s.msdu.length + 14) % 4) % 4 then []
        else subframes (fun _ => true) left (rest.drop ((4 - (s.msdu.length + 14) % 4) % 4)) := by
  have hlen := h.bytes_length
  have h12 : (s.da ++ s.sa).length = 12 := by rw [List.length_append, h.da, h.sa]
  have hsplit : subframeBytes s ++ rest =
      (s.da ++ s.sa) ++ (be16Bytes s.msdu.length ++ (s.msdu ++ rest)) := by
    simp only [subframeBytes, List.append_assoc]
  have hn : be16 (subframeBytes s ++ rest) 12 = s.msdu.length := by
    have hmove := be16_append_right (s.da ++ s.sa)
      (be16Bytes s.msdu.length ++ (s.msdu ++ rest)) 0
    rw [h12] at hmove
    have hzero : 0 < (be16Bytes s.msdu.length).length := Nat.zero_lt_two
    have hone : 0 + 1 < (be16Bytes s.msdu.length).length := Nat.one_lt_two
    rw [hsplit, hmove, be16, byteAt_append_left hzero, byteAt_append_left hone]
    exact be16_be16Bytes h.msdu
  have hda : (subframeBytes s ++ rest).take 6 = s.da := by
    rw [hsplit, List.append_assoc, List.take_append_of_le_length (Nat.le_of_eq h.da.symm), ← h.da,
      List.take_length]
  have hsa : ((subframeBytes s ++ rest).drop 6).take 6 = s.sa := by
    rw [hsplit, List.append_assoc, ← h.da, List.drop_left, h.da, ← h.sa, List.take_left]
  have hmsdu : ((subframeBytes s ++ rest).drop 14).take s.msdu.length = s.msdu := by
    have h14 : 14 = (s.da ++ s.sa ++ be16Bytes s.msdu.length).length := by
      rw [List.length_append, h12]
      rfl
    rw [subframeBytes, List.append_assoc, h14, List.drop_left, List.take_left]
  have hrest : (subframeBytes s ++ rest).drop (14 + s.msdu.length) = rest := by
    rw [← hlen, List.drop_left]
  have hsize : (subframeBytes s ++ rest).length = 14 + s.msdu.length + rest.length := by
    rw [List.length_append, hlen]
  rw [subframes]
  simp only [hn, hda, hsa, hmsdu, hrest, hsize]
  rw [if_neg (by omega), if_neg (by omega), if_neg (by decide)]

theorem subframes_short {b : List UInt8} (h : b.length ≤ 14) (alloc : ℕ → Bool) (left : ℕ) :
    subframes alloc left b = [] := by
  cases left with
  | zero => rfl
  | succ left =>
    rw [subframes]
    exact if_pos h

theorem Encodes.length_ge {l : List Subframe} {b : List UInt8} (h : Encodes l b)
    (hwf : ∀ s ∈ l, Subframe.WellFormed s) (hne : l ≠ []) : 14 ≤ b.length := by
  cases h with
  | nil => exact absurd rfl hne
  | last s =>
    rw [(hwf s List.mem_cons_self).bytes_length]
    omega
  | cons s pad =>
    rw [List.length_append, (hwf s List.mem_cons_self).bytes_length]
    omega

theorem subframes_encodes {l : List Subframe} {b : List UInt8} (h : Encodes l b)
    (hwf : ∀ s ∈ l, Subframe.WellFormed s) {left : ℕ} (hleft : l.length ≤ left) :
    subframes (fun _ => true) left b =
      if ∀ s ∈ l.getLast?, s.msdu ≠ [] then l else l.dropLast := by
  induction h generalizing left with
  | nil =>
    rw [subframes_short (b := []) (Nat.zero_le 14)]
    rfl
  | last s =>
    have hs := hwf s List.mem_cons_self
    obtain ⟨left, rfl⟩ : ∃ k, left = k + 1 := ⟨left - 1, by rw [List.length_cons] at hleft; omega⟩
    have hlast : (∀ x ∈ [s].getLast?, x.msdu ≠ []) ↔ s.msdu ≠ [] := by
      rw [List.getLast?_singleton]
      simp only [Option.mem_some_iff, forall_eq']
    simp only [hlast]
    by_cases hempty : s.msdu = []
    · rw [if_neg (not_not.mpr hempty), subframes_short]
      · rfl
      · rw [hs.bytes_length, hempty]
        exact Nat.le_refl 14
    · have hpos : 0 < s.msdu.length := List.length_pos_iff.mpr hempty
      have hcons := subframes_cons hs left [] (by omega)
      rw [List.append_nil] at hcons
      rw [if_pos hempty, hcons, List.drop_nil, subframes_short (b := []) (Nat.zero_le 14), ite_self]
  | @cons s l b pad hne hpad h ih =>
    have hs := hwf s List.mem_cons_self
    obtain ⟨left, rfl⟩ : ∃ k, left = k + 1 := ⟨left - 1, by rw [List.length_cons] at hleft; omega⟩
    have hlen := h.length_ge (fun s hs => hwf s (List.mem_cons_of_mem _ hs)) hne
    have hrest := ih (fun s hs => hwf s (List.mem_cons_of_mem _ hs))
      (by rw [List.length_cons] at hleft; omega : l.length ≤ left)
    rw [subframes_cons hs left (pad ++ b) (by rw [List.length_append]; omega), ← hpad,
      if_neg (by rw [List.length_append]; omega), List.drop_left, hrest]
    have hlast : (s :: l).getLast? = l.getLast? := by
      cases l with
      | nil => exact absurd rfl hne
      | cons t l => exact List.getLast?_cons_cons
    rw [hlast, List.dropLast_cons_of_ne_nil hne]
    split <;> rfl

theorem handedUp_encodes (a : Amsdu) :
    handedUp a.body = a.subs.map ethernetOf ↔ ∀ s ∈ a.subs.getLast?, s.msdu ≠ [] := by
  have hsame : a.subs.map rtwOsAllocMsduPkt = a.subs.map ethernetOf :=
    List.map_congr_left fun s hs => rtwOsAllocMsduPkt_eq (a.wellFormed s hs).msdu
  rw [handedUp, subframes_encodes a.encodes a.wellFormed a.count]
  by_cases hlast : ∀ s ∈ a.subs.getLast?, s.msdu ≠ []
  · rw [if_pos hlast]
    exact iff_of_true hsame hlast
  · rw [if_neg hlast]
    refine iff_of_false (fun heq => hlast ?_) hlast
    have hlen := congrArg List.length heq
    rw [List.length_map, List.length_map, List.length_dropLast] at hlen
    have hnil : a.subs = [] := List.eq_nil_of_length_eq_zero (by omega)
    rw [hnil]
    exact nofun

/-! ## Every body -/

theorem passes_length (alloc : ℕ → Pkt) (left off : ℕ) (pdata : List UInt8) :
    (passes alloc left off pdata).length ≤ left := by
  induction left generalizing off pdata with
  | zero => exact Nat.le_refl 0
  | succ left ih =>
    rw [passes]
    dsimp only
    split
    · exact Nat.zero_le _
    · split
      · exact Nat.succ_le_succ (Nat.zero_le _)
      · split
        · exact Nat.succ_le_succ (Nat.zero_le _)
        · rw [List.length_cons]
          split
          · exact Nat.succ_le_succ (Nat.zero_le _)
          · exact Nat.succ_le_succ (ih _ _)

theorem passes_within (alloc : ℕ → Pkt) (left : ℕ) {off len : ℕ} {pdata : List UInt8}
    (hlen : off + pdata.length = len) :
    ∀ p ∈ passes alloc left off pdata,
      Within len p.ops ↔ (p.pkt = some .clone → p.off + 22 ≤ len) := by
  induction left generalizing off pdata with
  | zero => exact nofun
  | succ left ih =>
    rw [passes]
    dsimp only
    split
    · exact nofun
    · have hhead : (Op.bytes off 14).Within len := bytes_within off (by omega)
      split
      · intro p hp
        rw [List.mem_singleton.mp hp]
        exact iff_of_true ((within_cons _ _).mpr ⟨hhead, within_nil⟩) nofun
      · split
        · intro p hp
          rw [List.mem_singleton.mp hp]
          exact iff_of_true ((within_cons _ _).mpr ⟨hhead, within_nil⟩) nofun
        · next hfit hfail =>
          intro p hp
          obtain rfl | hp := List.mem_cons.mp hp
          · dsimp only [Pass.ops]
            cases halloc : alloc left with
            | copy =>
              refine iff_of_true ?_ nofun
              rw [within_cons, within_cons]
              exact ⟨hhead, bytes_within _ (by omega), within_nil⟩
            | clone =>
              have htype : (Op.bytes (off + 20 : ℕ) 2).Within len ↔ off + 20 + 2 ≤ len :=
                bytes_within_iff _ (by decide)
              dsimp only
              rw [within_cons, within_cons, htype]
              constructor
              · rintro ⟨-, htype, -⟩ -
                omega
              · intro h
                have hend := h rfl
                refine ⟨hhead, by omega, ?_⟩
                split
                · rw [within_cons]
                  exact ⟨bytes_within _ (by omega), within_nil⟩
                · exact within_nil
            | fail => exact absurd halloc hfail
          · split at hp
            · exact nomatch hp
            · next hpad =>
              rw [List.length_drop] at hpad
              refine ih ?_ p hp
              rw [List.length_drop, List.length_drop]
              omega

/-- The subframes that are handed up are those of the passes that get a packet. -/
theorem passes_subframes (alloc : ℕ → Pkt) (left off : ℕ) (body : List UInt8) :
    subframes (fun k => alloc k ≠ .fail) left (body.drop off) =
      ((passes alloc left off (body.drop off)).filter fun p =>
        p.pkt = some .copy ∨ p.pkt = some .clone).map fun p =>
          ⟨(body.drop p.off).take 6, (body.drop (p.off + 6)).take 6,
            (body.drop (p.off + 14)).take p.n⟩ := by
  induction left generalizing off with
  | zero => rfl
  | succ left ih =>
    rw [passes, subframes]
    dsimp only
    generalize be16 (body.drop off) 12 = n
    split
    · rfl
    · split
      · rfl
      · by_cases hfail : alloc left = .fail
        · rw [if_pos (by rw [hfail]; decide), if_pos hfail]
          rfl
        · have hkeep : some (alloc left) = some Pkt.copy ∨ some (alloc left) = some Pkt.clone := by
            cases halloc : alloc left with
            | copy => decide
            | clone => decide
            | fail => exact absurd halloc hfail
          rw [if_neg (by simpa using hfail), if_neg hfail, List.filter_cons,
            if_pos (decide_eq_true hkeep), List.map_cons]
          simp only [List.drop_drop]
          congr 1
          split
          · rfl
          · have hoff : off + (14 + n) + (4 - (n + 14) % 4) % 4 =
                off + 14 + n + (4 - (n + 14) % 4) % 4 := by omega
            rw [hoff]
            exact ih _

/-- The loop reads inside the body when no clone ends before its type field, and an aggregate
comes out as it went in when its last subframe is not empty. -/
theorem amsdu_deaggregated (alloc : ℕ → Pkt) (body : List UInt8) (a : Amsdu) :
    (passes alloc 64 0 body).length ≤ 64 ∧
      ((∀ p ∈ passes alloc 64 0 body, Within body.length p.ops) ↔
        ∀ p ∈ passes alloc 64 0 body, p.pkt = some .clone → p.off + 22 ≤ body.length) ∧
      (handedUp a.body = a.subs.map ethernetOf ↔ ∀ s ∈ a.subs.getLast?, s.msdu ≠ []) := by
  refine ⟨passes_length alloc 64 0 body, ?_, handedUp_encodes a⟩
  exact forall₂_congr (passes_within alloc 64 (Nat.zero_add _))

def shortSubframe : Subframe := ⟨List.replicate 6 1, List.replicate 6 2, [7, 8]⟩

def emptySubframe : Subframe := ⟨List.replicate 6 1, List.replicate 6 2, []⟩

def emptyLast : Amsdu where
  subs := [shortSubframe, emptySubframe]
  body := subframeBytes shortSubframe ++ ([] ++ subframeBytes emptySubframe)
  encodes := .cons _ [] (List.cons_ne_nil _ _) rfl (.last _)
  wellFormed := by
    intro s hs
    obtain rfl | hs := List.mem_cons.mp hs
    · exact ⟨rfl, rfl, by decide⟩
    · rw [List.mem_singleton.mp hs]
      exact ⟨rfl, rfl, by decide⟩
  count := by decide

/-- The empty subframe is lost, and the type field of a cloned short one is read from behind
the body. -/
theorem amsdu_loses :
    handedUp emptyLast.body = [ethernetOf shortSubframe] ∧
      handedUp emptyLast.body ≠ emptyLast.subs.map ethernetOf ∧
      ¬ ∀ p ∈ passes (fun _ => .clone) 64 0 (subframeBytes shortSubframe),
        Within (subframeBytes shortSubframe).length p.ops := by
  decide +kernel

end Rtl8189.MsduDelivery
