import Rtl8189.DataHop
import Rtl8189.EventRun

/-!
# An infrastructure network as an Ethernet segment

What a station sends goes to the access point, and from there to the station that it is
meant for, or to all of them. The radio may repeat each frame. Nobody sleeps, no multicast is
turned into unicasts, and each frame has gone out before the next one is handed over.
-/
namespace Rtl8189.EtherSegment

open DataHop Decache EventRun PacketNumber StaTable

open TkipRoundTrip (addr2)

/-- The addresses of a network, and what was negotiated. -/
structure Bss (n : ℕ) where
  apMac : MacAddr
  staMac : Fin n → MacAddr
  /-- `qos_option` of the station, and of its entry at the access point. -/
  qosOption : Fin n → Bool
  staQos : Fin n → Bool
  acmMask : Fin n → ℕ
  apMac_ucast : isMcast apMac = false
  apMac_ne : apMac ≠ nullAddr
  staMac_ucast : ∀ j, isMcast (staMac j) = false
  staMac_ne : ∀ j, staMac j ≠ apMac
  staMac_inj : Function.Injective staMac

variable {n : ℕ}

structure Net (n : ℕ) where
  ap : Host
  stas : Fin n → Host

def Bss.start (b : Bss n) : Net n where
  ap :=
    { ap := true
      macAddr := b.apMac
      bssid := b.apMac
      staHash := fun a =>
        if a = bcAddr then some {}
        else ((List.finRange n).find? fun j => b.staMac j = a).map fun j =>
          { qosOption := b.staQos j } }
  stas := fun j =>
    { ap := false
      macAddr := b.staMac j
      bssid := b.apMac
      qosOption := b.qosOption j
      acmMask := b.acmMask j
      staHash := fun a => if a = b.apMac then some {} else none }

/-- An Ethernet frame that a host sends, the access point's own where `sender` is `none`, and
how often the radio repeats the frame for each receiver. -/
structure Send (n : ℕ) where
  sender : Option (Fin n)
  pkt : List UInt8
  apTimes : ℕ
  staTimes : Fin n → ℕ

/-- The network afterwards, and the Ethernet frames that the hosts get. -/
structure Outcome (n : ℕ) where
  net : Net n
  toAp : List (List UInt8) := []
  toStas : Fin n → List (List UInt8) := fun _ => []

def Outcome.followedBy (o : Outcome n) (f : Net n → Outcome n) : Outcome n :=
  ⟨(f o.net).net, o.toAp ++ (f o.net).toAp, fun j => o.toStas j ++ (f o.net).toStas j⟩

namespace Net

def fromAp (net : Net n) (times : Fin n → ℕ) (pkt : List UInt8) : Outcome n :=
  match rtwXmit net.ap pkt with
  | none => { net }
  | some (frame, ap) =>
    { net := ⟨ap, fun j => ((net.stas j).recvAgain frame (times j + 1)).2⟩
      toStas := fun j => ((net.stas j).recvAgain frame (times j + 1)).1 }

/-- `rtw_os_recv_indicate_pkt` of the access point, which gets a clone of the packet when it
asks for one. -/
def indicate (net : Net n) (times : Fin n → ℕ) (pkt : List UInt8) : Outcome n :=
  if hDest pkt = net.ap.macAddr then { net, toAp := [pkt] }
  else
    match net.ap.rtwGetStainfo (hDest pkt) with
    | none => { net, toAp := [pkt] }
    | some _ =>
      let o := net.fromAp times pkt
      if isMcast (hDest pkt) then { o with toAp := [pkt] } else o

def fromSta (net : Net n) (apTimes : ℕ) (times : Fin n → ℕ) (i : Fin n) (pkt : List UInt8) :
    Outcome n :=
  match rtwXmit (net.stas i) pkt with
  | none => { net }
  | some (frame, sta) =>
    let r := net.ap.recvAgain frame (apTimes + 1)
    let heard : Outcome n :=
      { net := ⟨r.2, fun j => if j = i then sta else
          ((net.stas j).recvAgain frame (times j + 1)).2⟩
        toStas := fun j => if j = i then [] else
          ((net.stas j).recvAgain frame (times j + 1)).1 }
    r.1.foldl (fun o pkt => o.followedBy fun net => net.indicate times pkt) heard

def transmit (net : Net n) (e : Send n) : Outcome n :=
  match e.sender with
  | none => net.fromAp e.staTimes e.pkt
  | some i => net.fromSta e.apTimes e.staTimes i e.pkt

end Net

/-! ## The Ethernet segment -/

/-- The address that the others see as the source. Only the access point passes on frames of
other hosts. -/
def Bss.label (b : Bss n) (e : Send n) : MacAddr :=
  match e.sender with
  | none => hSource e.pkt
  | some i => b.staMac i

def Bss.forAp (b : Bss n) (e : Send n) : Bool :=
  e.sender.isSome ∧ (isMcast (hDest e.pkt) ∨ ∀ j, b.staMac j ≠ hDest e.pkt)

def Bss.forSta (b : Bss n) (e : Send n) (j : Fin n) : Bool :=
  b.staMac j ≠ b.label e ∧ (b.staMac j = hDest e.pkt ∨ isMcast (hDest e.pkt))

/-- Everybody whom the frame is for gets it, and gets it once. -/
def Bss.Delivered (b : Bss n) (e : Send n) (o : Outcome n) : Prop :=
  let pkt := relabelled e.pkt (b.label e)
  o.toAp = (if b.forAp e then [pkt] else []) ∧
    ∀ j, o.toStas j = if b.forSta e j then [pkt] else []

/-- A frame with a whole header that is not sent to its own source. -/
def Bss.Proper (b : Bss n) (e : Send n) : Prop :=
  14 ≤ e.pkt.length ∧ hDest e.pkt ≠ b.label e

instance (b : Bss n) (e : Send n) : Decidable (b.Proper e) :=
  inferInstanceAs (Decidable (_ ∧ _))

/-- The network, and how many multicasts of the access point each station has not got since
the last one that it got. -/
structure Sys (n : ℕ) where
  net : Net n
  unheard : Fin n → ℕ

def step (s : Sys n) (e : Send n) : Sys n where
  net := (s.net.transmit e).net
  unheard := fun j =>
    if isMcast (hDest e.pkt) then
      if (s.net.transmit e).toStas j = [] then s.unheard j + 1 else 0
    else s.unheard j

def Bss.begin (b : Bss n) : Sys n := ⟨b.start, fun _ => 0⟩

/-! ## Sequence numbers -/

def frameClass (qos : Bool) (p : ℕ) (mcast : Bool) : Decache.Class :=
  (if qos then some p else none, mcast)

def OnLink (qos : Bool) (p : ℕ) : Prop := p < 8 ∧ (qos = false → p = 0)

/-- The receiver has cached the last number that was sent, or none. -/
def InSync (qos : Bool) (tx : ℕ → Fin 4096) (rx : RxCache) : Prop :=
  ∀ p, OnLink qos p →
    cell rx (frameClass qos p false) = 16 * tx p ∨ cell rx (frameClass qos p false) = 0xffff

section Numbers

variable {qos : Bool} {tx : ℕ → Fin 4096} {rx rx' : RxCache} {p : ℕ}

theorem val_add_one (x : Fin 4096) : (x + 1).val = (x.val + 1) % 4096 := Fin.val_add x 1

theorem InSync.new (h : InSync qos tx rx) (hp : OnLink qos p) :
    cell rx (frameClass qos p false) ≠ 16 * (tx p + 1 : Fin 4096) := by
  have hlt := (tx p).isLt
  rw [val_add_one]
  obtain hlast | hnone := h p hp
  · omega
  · omega

theorem InSync.sent (h : InSync qos tx rx) (hp : OnLink qos p)
    (hrx : cell rx' =
      Function.update (cell rx) (frameClass qos p false) (16 * (tx p + 1 : Fin 4096))) :
    InSync qos (Function.update tx p (tx p + 1)) rx' := by
  intro q hq
  rw [hrx]
  by_cases heq : q = p
  · subst heq
    rw [Function.update_self, Function.update_self]
    exact .inl rfl
  · have hclass : frameClass qos q false ≠ frameClass qos p false := by
      intro hc
      cases qos with
      | false => exact heq ((hq.2 rfl).trans (hp.2 rfl).symm)
      | true => exact heq (Option.some.inj (congrArg Prod.fst hc))
    rw [Function.update_of_ne hclass, Function.update_of_ne heq]
    exact h q hq

theorem InSync.mcast (h : InSync qos tx rx) {v : ℕ}
    (hrx : cell rx' = Function.update (cell rx) (none, true) v) : InSync qos tx rx' := by
  intro q hq
  have hclass : frameClass qos q false ≠ (none, true) := fun hc =>
    Bool.false_ne_true (congrArg Prod.snd hc)
  rw [hrx, Function.update_of_ne hclass]
  exact h q hq

end Numbers

/-! ## What is known of the tables of stations -/

abbrev StaHash := MacAddr → Option StaInfo

def Bss.apHost (b : Bss n) (t : StaHash) : Host := { b.start.ap with staHash := t }

def Bss.staHost (b : Bss n) (j : Fin n) (t : StaHash) : Host :=
  { b.start.stas j with staHash := t }

def Bss.net (b : Bss n) (t : StaHash) (ts : Fin n → StaHash) : Net n where
  ap := b.apHost t
  stas := fun j => b.staHost j (ts j)

/-- The entry of a station at the access point, and that of the access point at the station. -/
structure Linked (b : Bss n) (t : StaHash) (ts : Fin n → StaHash) (j : Fin n)
    (entry peer : StaInfo) : Prop where
  known : t (b.staMac j) = some entry
  joined : ts j b.apMac = some peer
  entryLinked : entry.linked = true
  peerLinked : peer.linked = true
  down : InSync entry.qosOption entry.txseqTid peer.rxcache
  up : InSync (b.qosOption j) peer.txseqTid entry.rxcache

/-- Of so many multicasts since this one, none was got. -/
def Behind (tx : Fin 4096) (rx : RxCache) (u : ℕ) : Prop :=
  ∃ k < 4096, cell rx (none, true) = 16 * k ∧ (k + u) % 4096 = tx

structure Tables (b : Bss n) (t : StaHash) (ts : Fin n → StaHash) (u : Fin n → ℕ) : Prop where
  linked : ∀ j, ∃ entry peer, Linked b t ts j entry peer
  group : ∃ bc, t bcAddr = some bc ∧ bc.linked = true ∧ bc.qosOption = false ∧
    ∀ j peer, ts j b.apMac = some peer → Behind (bc.txseqTid 0) peer.rxcache (u j)
  unknown : ∀ a, a ≠ bcAddr → (∀ j, b.staMac j ≠ a) → t a = none

section Numbers

variable {tx : Fin 4096} {rx rx' : RxCache} {u : ℕ}

theorem Behind.repeats (h : Behind tx rx u) :
    cell rx (none, true) = 16 * (tx + 1 : Fin 4096) ↔ (u + 1) % 4096 = 0 := by
  obtain ⟨k, hk, hcell, hnum⟩ := h
  rw [hcell, val_add_one]
  omega

theorem Behind.missed (h : Behind tx rx u) : Behind (tx + 1) rx (u + 1) := by
  obtain ⟨k, hk, hcell, hnum⟩ := h
  refine ⟨k, hk, hcell, ?_⟩
  rw [val_add_one]
  omega

theorem behind_got (hrx : cell rx' (none, true) = 16 * (tx + 1 : Fin 4096)) :
    Behind (tx + 1) rx' 0 :=
  ⟨_, (tx + 1).isLt, hrx, Nat.mod_eq_of_lt (tx + 1).isLt⟩

end Numbers

section Segment

variable {b : Bss n} {t : StaHash} {ts : Fin n → StaHash} {u : Fin n → ℕ} {pkt : List UInt8}

theorem searchAddr_ucast {a : MacAddr} (h : isMcast a = false) : searchAddr a = a :=
  if_neg (by rw [h]; decide)

theorem searchAddr_mcast {a : MacAddr} (h : isMcast a = true) : searchAddr a = bcAddr := if_pos h

theorem ucast_ne_bcAddr {a : MacAddr} (h : isMcast a = false) : a ≠ bcAddr := by
  rintro rfl
  exact absurd h (by decide)

/-- The entries of one station and of the access point at it are exchanged. -/
theorem Tables.relink (h : Tables b t ts u) {j : Fin n} {entry peer entry' peer' : StaInfo}
    (hlink : Linked b t ts j entry peer) (hentry : entry'.linked = true)
    (hpeer : peer'.linked = true)
    (hdown : InSync entry'.qosOption entry'.txseqTid peer'.rxcache)
    (hup : InSync (b.qosOption j) peer'.txseqTid entry'.rxcache)
    (hgroup : cell peer'.rxcache (none, true) = cell peer.rxcache (none, true)) :
    Tables b (Function.update t (b.staMac j) (some entry'))
      (Function.update ts j (Function.update (ts j) b.apMac (some peer'))) u := by
  refine ⟨fun i => ?_, ?_, fun a hbc hno => ?_⟩
  · by_cases hi : i = j
    · subst hi
      refine ⟨entry', peer', Function.update_self _ _ _, ?_, hentry, hpeer, hdown, hup⟩
      rw [Function.update_self, Function.update_self]
    · obtain ⟨e, p, hl⟩ := h.linked i
      refine ⟨e, p, ?_, ?_, hl.entryLinked, hl.peerLinked, hl.down, hl.up⟩
      · rw [Function.update_of_ne fun heq => hi (b.staMac_inj heq)]
        exact hl.known
      · rw [Function.update_of_ne hi]
        exact hl.joined
  · obtain ⟨bc, hbc, hlinked, hqos, hbehind⟩ := h.group
    refine ⟨bc, ?_, hlinked, hqos, fun i p hp => ?_⟩
    · rw [Function.update_of_ne (ucast_ne_bcAddr (b.staMac_ucast j)).symm]
      exact hbc
    · by_cases hi : i = j
      · subst hi
        rw [Function.update_self, Function.update_self] at hp
        obtain rfl := Option.some.inj hp
        rw [Behind, hgroup]
        exact hbehind i peer hlink.joined
      · rw [Function.update_of_ne hi] at hp
        exact hbehind i p hp
  · rw [Function.update_of_ne (hno j).symm]
    exact h.unknown a hbc hno

theorem fromAp_unknown (h : Tables b t ts u) (hu : isMcast (hDest pkt) = false)
    (hno : ∀ j, b.staMac j ≠ hDest pkt) (times : Fin n → ℕ) :
    (b.net t ts).fromAp times pkt = { net := b.net t ts } := by
  have hget : (b.net t ts).ap.rtwGetStainfo (hDest pkt) = none := by
    rw [Host.rtwGetStainfo, searchAddr_ucast hu]
    exact h.unknown _ (ucast_ne_bcAddr hu) hno
  rw [Net.fromAp, rtwXmit_unknown hget]

/-- A frame of the access point for the entry `psta`. -/
def Bss.downFrame (b : Bss n) (psta : StaInfo) (seqnum : Fin 4096) (pkt : List UInt8) :
    List UInt8 :=
  sent b.start.ap (txAttrib b.start.ap pkt psta) seqnum pkt

def Bss.upFrame (b : Bss n) (i : Fin n) (peer : StaInfo) (seqnum : Fin 4096) (pkt : List UInt8) :
    List UInt8 :=
  sent (b.start.stas i) (txAttrib (b.start.stas i) pkt peer) seqnum pkt

variable (b pkt) in
theorem class_down (psta : StaInfo) (seqnum : Fin 4096) :
    (frameOf (b.downFrame psta seqnum pkt)).class =
      frameClass psta.qosOption (txAttrib b.start.ap pkt psta).priority (isMcast (hDest pkt)) := by
  have hprio := Nat.mod_eq_of_lt
    (show (txAttrib b.start.ap pkt psta).priority < 16 from priority_lt.trans (by decide))
  rw [Bss.downFrame, class_sent, hprio]
  rfl

theorem validate_down (psta : StaInfo) (seqnum : Fin 4096) (j : Fin n) :
    (b.staHost j (ts j)).validateRecvDataFrame (b.downFrame psta seqnum pkt) =
      if b.staMac j ≠ hSource pkt ∧ (b.staMac j = hDest pkt ∨ isMcast (hDest pkt) = true) then
        ts j b.apMac
      else none := by
  have hpass : (b.staHost j (ts j)).passes (b.downFrame psta seqnum pkt) =
      decide (b.staMac j ≠ hSource pkt ∧ (b.staMac j = hDest pkt ∨ isMcast (hDest pkt) = true)) :=
    passes_down rfl rfl b.apMac_ne rfl rfl
  have hta : addr2 (b.downFrame psta seqnum pkt) = b.apMac := addr2_sent
  have hget : (b.staHost j (ts j)).rtwGetStainfo b.apMac = ts j b.apMac := by
    rw [Host.rtwGetStainfo, searchAddr_ucast b.apMac_ucast]
    rfl
  rw [Host.validateRecvDataFrame, hpass, hta, hget]
  simp only [decide_eq_true_eq]

/-- A station takes a frame of the access point, or has taken it before. -/
theorem recv_down (psta : StaInfo) (seqnum : Fin 4096) {peer : StaInfo} {j : Fin n}
    (hlen : 14 ≤ pkt.length) (hpeer : ts j b.apMac = some peer)
    (hfor : b.staMac j ≠ hSource pkt ∧ (b.staMac j = hDest pkt ∨ isMcast (hDest pkt) = true))
    (m : ℕ) :
    ∃ rx, cell rx = Function.update (cell peer.rxcache)
        (frameClass psta.qosOption (txAttrib b.start.ap pkt psta).priority
          (isMcast (hDest pkt))) (16 * seqnum) ∧
      (b.staHost j (ts j)).recvAgain (b.downFrame psta seqnum pkt) (m + 1) =
        if cell peer.rxcache (frameClass psta.qosOption
            (txAttrib b.start.ap pkt psta).priority (isMcast (hDest pkt))) = 16 * seqnum then
          ([], b.staHost j (ts j))
        else ([relabelled pkt (hSource pkt)], b.staHost j
          (Function.update (ts j) b.apMac (some { peer with rxcache := rx }))) := by
  have hval : (b.staHost j (ts j)).validateRecvDataFrame (b.downFrame psta seqnum pkt) =
      some peer := by
    rw [validate_down, if_pos hfor, hpeer]
  have hseq : seqCtrl (parsed (b.downFrame psta seqnum pkt)) = 16 * seqnum := seqCtrl_sent
  have hclass := class_down b pkt psta seqnum
  have hcell := cell_setPrxseq peer.rxcache (frameOf (b.downFrame psta seqnum pkt))
  refine ⟨setPrxseq peer.rxcache (parsed (b.downFrame psta seqnum pkt)), ?_, ?_⟩
  · rw [← hclass, ← hseq]
    exact hcell
  · rw [← hclass, ← hseq]
    split_ifs with hdup
    · exact recvAgain_cached hval hdup _
    · have heth : MsduDelivery.ethFrame (parsed (b.downFrame psta seqnum pkt)) =
          some (relabelled pkt (hSource pkt)) := ethFrame_sent hlen rfl rfl
      have hta : addr2 (b.downFrame psta seqnum pkt) = b.apMac := addr2_sent
      rw [recvAgain_new hval hdup, heth, hta, Host.put, searchAddr_ucast b.apMac_ucast]
      rfl

theorem recv_down_refused {psta : StaInfo} {seqnum : Fin 4096} {j : Fin n}
    (hnot : ¬ (b.staMac j ≠ hSource pkt ∧ (b.staMac j = hDest pkt ∨ isMcast (hDest pkt) = true)))
    (m : ℕ) :
    (b.staHost j (ts j)).recvAgain (b.downFrame psta seqnum pkt) m =
      ([], b.staHost j (ts j)) :=
  recvAgain_refused (by rw [validate_down, if_neg hnot]) m

theorem rtwXmit_ap {psta : StaInfo} (hget : t (searchAddr (hDest pkt)) = some psta)
    (hp : psta.linked = true) :
    rtwXmit (b.apHost t) pkt = some
      (b.downFrame psta (psta.txseqTid (txAttrib b.start.ap pkt psta).priority + 1) pkt,
        b.apHost (Function.update t (searchAddr (hDest pkt))
          (some (psta.counted (txAttrib b.start.ap pkt psta).priority)))) :=
  rtwXmit_linked pkt (h := b.apHost t) rfl hget hp

theorem fromAp_ucast (h : Tables b t ts u) {j : Fin n} (hj : b.staMac j = hDest pkt)
    (hne : hDest pkt ≠ hSource pkt) (hlen : 14 ≤ pkt.length) (times : Fin n → ℕ) :
    ∃ t' ts', Tables b t' ts' u ∧ (b.net t ts).fromAp times pkt =
      { net := b.net t' ts'
        toStas := fun i =>
          if b.staMac i = hDest pkt then [relabelled pkt (hSource pkt)] else [] } := by
  obtain ⟨entry, peer, hlink⟩ := h.linked j
  have hu : isMcast (hDest pkt) = false := hj ▸ b.staMac_ucast j
  have hsearch : searchAddr (hDest pkt) = b.staMac j := by rw [searchAddr_ucast hu, hj]
  have hget : t (searchAddr (hDest pkt)) = some entry := by rw [hsearch, hlink.known]
  have hx := rtwXmit_ap (b := b) hget hlink.entryLinked
  generalize hp : (txAttrib b.start.ap pkt entry).priority = p at hx
  have hon : OnLink entry.qosOption p := by
    rw [← hp]
    exact ⟨priority_lt, fun hq => priority_noqos hq⟩
  obtain ⟨rx, hrx, hrecv⟩ := recv_down entry (entry.txseqTid p + 1) hlen hlink.joined
    ⟨hj ▸ hne, .inl hj⟩ (times j)
  rw [hp, hu] at hrx hrecv
  rw [if_neg (hlink.down.new hon)] at hrecv
  have hall : ∀ i, (b.staHost i (ts i)).recvAgain
      (b.downFrame entry (entry.txseqTid p + 1) pkt) (times i + 1) =
        (if b.staMac i = hDest pkt then [relabelled pkt (hSource pkt)] else [],
          b.staHost i (Function.update ts j
            (Function.update (ts j) b.apMac (some { peer with rxcache := rx })) i)) := by
    intro i
    by_cases hi : i = j
    · subst hi
      rw [if_pos hj, Function.update_self]
      exact hrecv
    · have hmac : b.staMac i ≠ hDest pkt := fun hd => hi (b.staMac_inj (hd.trans hj.symm))
      rw [if_neg hmac, Function.update_of_ne hi]
      refine recv_down_refused ?_ _
      rintro ⟨-, hd | hm⟩
      · exact hmac hd
      · exact Bool.false_ne_true (hu.symm.trans hm)
  have hcell : cell rx (none, true) = cell peer.rxcache (none, true) := by
    rw [hrx, Function.update_of_ne]
    exact fun hc => Bool.false_ne_true (congrArg Prod.snd hc).symm
  have hnew : Tables b (Function.update t (b.staMac j) (some (entry.counted p)))
      (Function.update ts j (Function.update (ts j) b.apMac (some { peer with rxcache := rx })))
      u :=
    h.relink hlink hlink.entryLinked hlink.peerLinked (hlink.down.sent hon hrx) hlink.up hcell
  refine ⟨_, _, hnew, ?_⟩
  have hap : (b.net t ts).ap = b.apHost t := rfl
  have hsta : ∀ i, (b.net t ts).stas i = b.staHost i (ts i) := fun _ => rfl
  rw [Net.fromAp, hap, hx]
  simp only [hsta, hall, hsearch]
  rfl

/-- The station gets the next multicast: it is not its own, and its number is not that of the
last one it got. -/
def Bss.Gets (b : Bss n) (u : Fin n → ℕ) (src : MacAddr) (j : Fin n) : Prop :=
  b.staMac j ≠ src ∧ (u j + 1) % 4096 ≠ 0

instance (b : Bss n) (u : Fin n → ℕ) (src : MacAddr) (j : Fin n) : Decidable (b.Gets u src j) :=
  inferInstanceAs (Decidable (_ ∧ _))

theorem fromAp_mcast (h : Tables b t ts u) (hm : isMcast (hDest pkt) = true)
    (hlen : 14 ≤ pkt.length) (times : Fin n → ℕ) :
    ∃ t' ts', Tables b t' ts' (fun j => if b.Gets u (hSource pkt) j then 0 else u j + 1) ∧
      (b.net t ts).fromAp times pkt =
        { net := b.net t' ts'
          toStas := fun j =>
            if b.Gets u (hSource pkt) j then [relabelled pkt (hSource pkt)] else [] } := by
  obtain ⟨bc, hbc, hbclinked, hbcqos, hbehind⟩ := h.group
  choose entry peer hlink using h.linked
  have hsearch : searchAddr (hDest pkt) = bcAddr := searchAddr_mcast hm
  have hx := rtwXmit_ap (b := b) (hsearch ▸ hbc) hbclinked
  have hp : (txAttrib b.start.ap pkt bc).priority = 0 := priority_noqos hbcqos
  have hclass : frameClass bc.qosOption 0 true = (none, true) := by
    rw [hbcqos]
    rfl
  rw [hp] at hx
  have hone : ∀ j, ∃ rx, (b.Gets u (hSource pkt) j → cell rx = Function.update
        (cell (peer j).rxcache) (none, true) (16 * (bc.txseqTid 0 + 1 : Fin 4096))) ∧
      (b.staHost j (ts j)).recvAgain (b.downFrame bc (bc.txseqTid 0 + 1) pkt) (times j + 1) =
        (if b.Gets u (hSource pkt) j then [relabelled pkt (hSource pkt)] else [],
          b.staHost j (if b.Gets u (hSource pkt) j then
            Function.update (ts j) b.apMac (some { peer j with rxcache := rx }) else ts j)) := by
    intro j
    have hrepeats := (hbehind j (peer j) (hlink j).joined).repeats
    by_cases hsrc : b.staMac j = hSource pkt
    · have hnot : ¬ b.Gets u (hSource pkt) j := fun hg => hg.1 hsrc
      refine ⟨rtwAllocStainfo, fun hg => absurd hg hnot, ?_⟩
      rw [if_neg hnot, if_neg hnot]
      exact recv_down_refused (fun hf => hf.1 hsrc) _
    · obtain ⟨rx, hrx, hrecv⟩ := recv_down bc (bc.txseqTid 0 + 1) hlen (hlink j).joined
        ⟨hsrc, .inr hm⟩ (times j)
      rw [hp, hm, hclass] at hrx hrecv
      refine ⟨rx, fun _ => hrx, ?_⟩
      rw [hrecv]
      by_cases hround : (u j + 1) % 4096 = 0
      · have hnot : ¬ b.Gets u (hSource pkt) j := fun hg => hg.2 hround
        rw [if_pos (hrepeats.2 hround), if_neg hnot, if_neg hnot]
      · have hgets : b.Gets u (hSource pkt) j := ⟨hsrc, hround⟩
        rw [if_neg fun hc => hround (hrepeats.1 hc), if_pos hgets, if_pos hgets]
  choose rx hrx hrecv using hone
  refine ⟨Function.update t bcAddr (some (bc.counted 0)), fun j => if b.Gets u (hSource pkt) j then
    Function.update (ts j) b.apMac (some { peer j with rxcache := rx j }) else ts j, ?_, ?_⟩
  · refine ⟨fun j => ?_, ?_, fun a hne hno => ?_⟩
    · have hl := hlink j
      have hknown : Function.update t bcAddr (some (bc.counted 0)) (b.staMac j) =
          some (entry j) := by
        rw [Function.update_of_ne (ucast_ne_bcAddr (b.staMac_ucast j))]
        exact hl.known
      by_cases hg : b.Gets u (hSource pkt) j
      · refine ⟨entry j, { peer j with rxcache := rx j }, hknown, ?_, hl.entryLinked,
          hl.peerLinked, hl.down.mcast (hrx j hg), hl.up⟩
        rw [if_pos hg, Function.update_self]
      · refine ⟨entry j, peer j, hknown, ?_, hl.entryLinked, hl.peerLinked, hl.down, hl.up⟩
        rw [if_neg hg]
        exact hl.joined
    · have hcount : (bc.counted 0).txseqTid 0 = bc.txseqTid 0 + 1 :=
        Function.update_self (f := bc.txseqTid) 0 _
      refine ⟨bc.counted 0, Function.update_self _ _ _, hbclinked, hbcqos, fun j p hjp => ?_⟩
      rw [hcount]
      by_cases hg : b.Gets u (hSource pkt) j
      · rw [if_pos hg, Function.update_self] at hjp
        obtain rfl := Option.some.inj hjp
        rw [if_pos hg]
        exact behind_got ((congrFun (hrx j hg) _).trans (Function.update_self _ _ _))
      · rw [if_neg hg] at hjp ⊢
        exact (hbehind j p hjp).missed
    · rw [Function.update_of_ne hne]
      exact h.unknown a hne hno
  · have hap : (b.net t ts).ap = b.apHost t := rfl
    have hsta : ∀ i, (b.net t ts).stas i = b.staHost i (ts i) := fun _ => rfl
    rw [Net.fromAp, hap, hx]
    simp only [hsta, hrecv, hsearch]
    rfl

def Bss.Got (b : Bss n) (u : Fin n → ℕ) (dst src : MacAddr) (j : Fin n) : Prop :=
  b.staMac j ≠ src ∧ if isMcast dst then (u j + 1) % 4096 ≠ 0 else b.staMac j = dst

instance (b : Bss n) (u : Fin n → ℕ) (dst src : MacAddr) (j : Fin n) :
    Decidable (b.Got u dst src j) := by
  unfold Bss.Got
  infer_instance

def Bss.left (b : Bss n) (u : Fin n → ℕ) (dst src : MacAddr) (j : Fin n) : ℕ :=
  if isMcast dst then if b.Got u dst src j then 0 else u j + 1 else u j

theorem fromAp_spec (h : Tables b t ts u) (hne : hDest pkt ≠ hSource pkt) (hlen : 14 ≤ pkt.length)
    (times : Fin n → ℕ) :
    ∃ t' ts', Tables b t' ts' (b.left u (hDest pkt) (hSource pkt)) ∧
      (b.net t ts).fromAp times pkt =
        { net := b.net t' ts'
          toStas := fun j => if b.Got u (hDest pkt) (hSource pkt) j then
            [relabelled pkt (hSource pkt)] else [] } := by
  by_cases hm : isMcast (hDest pkt) = true
  · obtain ⟨t', ts', htab, hfrom⟩ := fromAp_mcast h hm hlen times
    have hgot : ∀ j, b.Got u (hDest pkt) (hSource pkt) j ↔ b.Gets u (hSource pkt) j := by
      intro j
      rw [Bss.Got, if_pos hm, Bss.Gets]
    refine ⟨t', ts', ?_, ?_⟩
    · have hleft : b.left u (hDest pkt) (hSource pkt) =
          fun j => if b.Gets u (hSource pkt) j then 0 else u j + 1 := by
        funext j
        simp only [Bss.left, hm, hgot, if_true]
      rw [hleft]
      exact htab
    · simp only [hfrom, hgot]
  · have hu : isMcast (hDest pkt) = false := Bool.eq_false_iff.2 hm
    have hleft : b.left u (hDest pkt) (hSource pkt) = u := by
      funext j
      rw [Bss.left, if_neg hm]
    have hgot : ∀ j, b.Got u (hDest pkt) (hSource pkt) j ↔ b.staMac j = hDest pkt := by
      intro j
      rw [Bss.Got, if_neg hm]
      exact ⟨And.right, fun hj => ⟨hj ▸ hne, hj⟩⟩
    rw [hleft]
    simp only [hgot]
    by_cases hj : ∃ j, b.staMac j = hDest pkt
    · obtain ⟨j, hj⟩ := hj
      exact fromAp_ucast h hj hne hlen times
    · have hno : ∀ j, b.staMac j ≠ hDest pkt := fun j heq => hj ⟨j, heq⟩
      refine ⟨t, ts, h, ?_⟩
      rw [fromAp_unknown h hu hno]
      simp only [hno, if_false]

theorem validate_up (peer : StaInfo) (seqnum : Fin 4096) (i : Fin n) (g : Host)
    (hg : g.bssid = b.apMac) :
    g.validateRecvDataFrame (b.upFrame i peer seqnum pkt) =
      if g.ap then g.rtwGetStainfo (b.staMac i) else none := by
  have hpass : g.passes (b.upFrame i peer seqnum pkt) = g.ap := passes_up rfl hg.symm
  have hta : addr2 (b.upFrame i peer seqnum pkt) = b.staMac i := addr2_sent
  rw [Host.validateRecvDataFrame, hpass, hta]

theorem class_up (peer : StaInfo) (seqnum : Fin 4096) (i : Fin n) :
    (frameOf (b.upFrame i peer seqnum pkt)).class =
      frameClass (b.qosOption i) (txAttrib (b.start.stas i) pkt peer).priority false := by
  have hprio := Nat.mod_eq_of_lt
    (show (txAttrib (b.start.stas i) pkt peer).priority < 16 from priority_lt.trans (by decide))
  rw [Bss.upFrame, class_sent, hprio]
  exact congrArg (Prod.mk _) b.apMac_ucast

theorem up_spec (h : Tables b t ts u) (hlen : 14 ≤ pkt.length) (i : Fin n) :
    ∃ frame t' ts', Tables b t' ts' u ∧
      rtwXmit (b.staHost i (ts i)) pkt = some (frame, b.staHost i (ts' i)) ∧
      (∀ m, (b.apHost t).recvAgain frame (m + 1) =
        ([relabelled pkt (b.staMac i)], b.apHost t')) ∧
      ∀ j, j ≠ i → ts' j = ts j ∧
        ∀ m, (b.staHost j (ts j)).recvAgain frame m = ([], b.staHost j (ts j)) := by
  obtain ⟨entry, peer, hlink⟩ := h.linked i
  have hget : (b.staHost i (ts i)).rtwGetStainfo b.apMac = some peer := by
    rw [Host.rtwGetStainfo, searchAddr_ucast b.apMac_ucast]
    exact hlink.joined
  have hx := rtwXmit_linked pkt (h := b.staHost i (ts i)) rfl hget hlink.peerLinked
  generalize hp : (txAttrib (b.staHost i (ts i)) pkt peer).priority = p at hx
  have hon : OnLink (b.qosOption i) p := by
    rw [← hp]
    exact ⟨priority_lt, fun hq => priority_noqos hq⟩
  have hval : (b.apHost t).validateRecvDataFrame
      (b.upFrame i peer (peer.txseqTid p + 1) pkt) = some entry := by
    rw [validate_up _ _ _ _ rfl]
    exact (congrArg t (searchAddr_ucast (b.staMac_ucast i))).trans hlink.known
  have hseq : seqCtrl (parsed (b.upFrame i peer (peer.txseqTid p + 1) pkt)) =
      16 * (peer.txseqTid p + 1 : Fin 4096) := seqCtrl_sent
  have hclass : (frameOf (b.upFrame i peer (peer.txseqTid p + 1) pkt)).class =
      frameClass (b.qosOption i) p false := by
    rw [class_up]
    exact congrArg (frameClass _ · _) hp
  have hcell := cell_setPrxseq entry.rxcache
    (frameOf (b.upFrame i peer (peer.txseqTid p + 1) pkt))
  have hnew := hlink.up.new hon
  rw [← hclass, ← hseq] at hnew
  have hrx : cell (setPrxseq entry.rxcache (parsed (b.upFrame i peer (peer.txseqTid p + 1) pkt))) =
      Function.update (cell entry.rxcache) (frameClass (b.qosOption i) p false)
        (16 * (peer.txseqTid p + 1 : Fin 4096)) := by
    rw [← hclass, ← hseq]
    exact hcell
  generalize hframe : b.upFrame i peer (peer.txseqTid p + 1) pkt = frame at *
  have heth : MsduDelivery.ethFrame (parsed frame) = some (relabelled pkt (b.staMac i)) := by
    rw [← hframe]
    exact ethFrame_sent hlen rfl rfl
  have hta : addr2 frame = b.staMac i := by
    rw [← hframe]
    exact addr2_sent
  have htab : Tables b
      (Function.update t (b.staMac i)
        (some { entry with rxcache := setPrxseq entry.rxcache (parsed frame) }))
      (Function.update ts i (Function.update (ts i) b.apMac (some (peer.counted p)))) u :=
    h.relink hlink hlink.entryLinked hlink.peerLinked hlink.down (hlink.up.sent hon hrx) rfl
  refine ⟨frame, _, _, htab, ?_, fun m => ?_, fun j hj => ⟨Function.update_of_ne hj _ _, ?_⟩⟩
  · have hput : (b.staHost i (ts i)).put b.apMac (peer.counted p) =
        b.staHost i (Function.update (ts i) b.apMac (some (peer.counted p))) := by
      rw [Host.put, searchAddr_ucast b.apMac_ucast]
      rfl
    rw [hx, ← hframe, Function.update_self, ← hput]
    rfl
  · rw [recvAgain_new hval hnew, heth, hta, Host.put, searchAddr_ucast (b.staMac_ucast i)]
    rfl
  · refine recvAgain_refused ?_
    rw [← hframe]
    exact validate_up _ _ _ _ rfl

theorem relabelled_length (hlen : 14 ≤ pkt.length) (src : MacAddr) :
    (relabelled pkt src).length = pkt.length := by
  simp only [relabelled, List.length_append, List.length_take, List.length_drop,
    Vector.length_toList]
  omega

theorem hDest_relabelled (hlen : 14 ≤ pkt.length) (src : MacAddr) :
    hDest (relabelled pkt src) = hDest pkt := by
  have h6 : 6 ≤ pkt.length := by omega
  have hmac := macAt_append [] (hDest pkt) (src.toList ++ pkt.drop 12) rfl
  rw [hDest, relabelled, List.append_assoc, ← hDest_toList h6]
  exact hmac

theorem hSource_relabelled (hlen : 14 ≤ pkt.length) (src : MacAddr) :
    hSource (relabelled pkt src) = src := by
  rw [relabelled, List.append_assoc]
  refine macAt_append _ _ _ ?_
  rw [List.length_take]
  omega

theorem relabelled_twice (hlen : 14 ≤ pkt.length) (src src' : MacAddr) :
    relabelled (relabelled pkt src) src' = relabelled pkt src' := by
  have h6 : (pkt.take 6).length = 6 := by
    rw [List.length_take]
    omega
  have h12 : (pkt.take 6 ++ src.toList).length = 12 := by
    rw [List.length_append, h6, Vector.length_toList]
  have htake : (pkt.take 6 ++ src.toList ++ pkt.drop 12).take 6 = pkt.take 6 := by
    rw [List.append_assoc, List.take_left' h6]
  rw [relabelled, relabelled, relabelled, htake, List.drop_left' h12]

/-- What the access point has taken from a station goes on to where it is meant for. -/
theorem indicate_spec (h : Tables b t ts u) (hne : hDest pkt ≠ hSource pkt)
    (hlen : 14 ≤ pkt.length) (times : Fin n → ℕ) :
    ∃ t' ts', Tables b t' ts' (b.left u (hDest pkt) (hSource pkt)) ∧
      (b.net t ts).indicate times pkt =
        { net := b.net t' ts'
          toAp := if isMcast (hDest pkt) = true ∨ ∀ j, b.staMac j ≠ hDest pkt then [pkt] else []
          toStas := fun j => if b.Got u (hDest pkt) (hSource pkt) j then
            [relabelled pkt (hSource pkt)] else [] } := by
  obtain ⟨t', ts', htab, hfrom⟩ := fromAp_spec h hne hlen times
  have hmac : (b.net t ts).ap.macAddr = b.apMac := rfl
  have hget : (b.net t ts).ap.rtwGetStainfo (hDest pkt) = t (searchAddr (hDest pkt)) := rfl
  rw [Net.indicate, hmac, hget]
  by_cases hm : isMcast (hDest pkt) = true
  · obtain ⟨bc, hbc, -⟩ := h.group
    have hap : hDest pkt ≠ b.apMac := by
      intro heq
      rw [heq] at hm
      exact Bool.false_ne_true (b.apMac_ucast.symm.trans hm)
    refine ⟨t', ts', htab, ?_⟩
    rw [if_neg hap, searchAddr_mcast hm, hbc]
    simp only [hfrom, hm, if_true, true_or]
  · have hu : isMcast (hDest pkt) = false := Bool.eq_false_iff.2 hm
    have hleft : b.left u (hDest pkt) (hSource pkt) = u := by
      funext j
      rw [Bss.left, if_neg hm]
    by_cases hj : ∃ j, b.staMac j = hDest pkt
    · obtain ⟨j, hj⟩ := hj
      obtain ⟨entry, peer, hlink⟩ := h.linked j
      have hap : hDest pkt ≠ b.apMac := hj ▸ b.staMac_ne j
      have hnot : ¬ (isMcast (hDest pkt) = true ∨ ∀ j, b.staMac j ≠ hDest pkt) := by
        rintro (hm' | hno)
        · exact hm hm'
        · exact hno j hj
      refine ⟨t', ts', htab, ?_⟩
      rw [if_neg hap, if_neg hnot, searchAddr_ucast hu, ← hj, hlink.known, hj]
      simp only [hfrom, hu, Bool.false_eq_true, if_false]
    · have hno : ∀ j, b.staMac j ≠ hDest pkt := fun j heq => hj ⟨j, heq⟩
      have hgot : ∀ j, ¬ b.Got u (hDest pkt) (hSource pkt) j := by
        intro j hg
        rw [Bss.Got, if_neg hm] at hg
        exact hno j hg.2
      have hany : isMcast (hDest pkt) = true ∨ ∀ j, b.staMac j ≠ hDest pkt := .inr hno
      refine ⟨t, ts, by rw [hleft]; exact h, ?_⟩
      simp only [if_pos hany, if_neg (hgot _)]
      split_ifs with hap
      · rfl
      · rw [searchAddr_ucast hu, h.unknown _ (ucast_ne_bcAddr hu) hno]

/-- Everybody whom a frame is for gets it once, except that a station takes a multicast for the
last one it got when it is the 4096th after that. -/
theorem transmit_spec (h : Tables b t ts u) {e : Send n} (he : b.Proper e) :
    ∃ t' ts', Tables b t' ts' (b.left u (hDest e.pkt) (b.label e)) ∧
      (b.net t ts).transmit e =
        { net := b.net t' ts'
          toAp := if b.forAp e then [relabelled e.pkt (b.label e)] else []
          toStas := fun j => if b.Got u (hDest e.pkt) (b.label e) j then
            [relabelled e.pkt (b.label e)] else [] } := by
  obtain ⟨sender, pkt, apTimes, times⟩ := e
  obtain ⟨hlen, hne⟩ := he
  cases sender with
  | none =>
    obtain ⟨t', ts', htab, hfrom⟩ := fromAp_spec h hne hlen times
    exact ⟨t', ts', htab, hfrom⟩
  | some i =>
    obtain ⟨frame, t₁, ts₁, htab₁, hxmit, hrecv, hothers⟩ := up_spec h hlen i
    have hdst := hDest_relabelled hlen (b.staMac i)
    have hsrc := hSource_relabelled hlen (b.staMac i)
    have hne' : hDest (relabelled pkt (b.staMac i)) ≠ hSource (relabelled pkt (b.staMac i)) := by
      rw [hdst, hsrc]
      exact hne
    obtain ⟨t₂, ts₂, htab₂, hind⟩ := indicate_spec htab₁ hne'
      (by rw [relabelled_length hlen]; exact hlen) times
    rw [hdst, hsrc, relabelled_twice hlen] at hind
    rw [hdst, hsrc] at htab₂
    refine ⟨t₂, ts₂, htab₂, ?_⟩
    have hsta : ∀ j, (b.net t ts).stas j = b.staHost j (ts j) := fun _ => rfl
    have hap : (b.net t ts).ap = b.apHost t := rfl
    have hnet : (⟨b.apHost t₁, fun j => if j = i then b.staHost i (ts₁ i) else
        ((b.staHost j (ts j)).recvAgain frame (times j + 1)).2⟩ : Net n) = b.net t₁ ts₁ := by
      rw [Bss.net]
      congr 1
      funext j
      split_ifs with hj
      · rw [hj]
      · rw [(hothers j hj).2, (hothers j hj).1]
    have hnone : (fun j => if j = i then [] else
        ((b.staHost j (ts j)).recvAgain frame (times j + 1)).1) = fun _ => [] := by
      funext j
      split_ifs with hj
      · rfl
      · rw [(hothers j hj).2]
    have hfor : b.forAp ⟨some i, pkt, apTimes, times⟩ =
        decide (isMcast (hDest pkt) = true ∨ ∀ j, b.staMac j ≠ hDest pkt) := by
      simp only [Bss.forAp, Option.isSome_some, true_and]
    rw [Net.transmit]
    simp only [Net.fromSta, hsta, hxmit, hap, hrecv, hnet, hnone, List.foldl_cons, List.foldl_nil,
      Outcome.followedBy, hind, List.nil_append, hfor, decide_eq_true_eq]
    rfl

theorem inSync_start (qos : Bool) : InSync qos (fun _ => 0) rtwAllocStainfo := by
  intro p _
  cases qos with
  | false => exact .inl rfl
  | true => exact .inr rfl

theorem start_tables (b : Bss n) :
    Tables b b.start.ap.staHash (fun j => (b.start.stas j).staHash) fun _ => 0 := by
  refine ⟨fun j => ?_, ?_, fun a hbc hno => ?_⟩
  · refine ⟨{ qosOption := b.staQos j }, {}, ?_, if_pos rfl, rfl, rfl, inSync_start _,
      inSync_start _⟩
    change (if b.staMac j = bcAddr then _ else _) = _
    rw [if_neg (ucast_ne_bcAddr (b.staMac_ucast j))]
    cases hfind : (List.finRange n).find? fun i => b.staMac i = b.staMac j with
    | none =>
      have hnone := List.find?_eq_none.1 hfind j (List.mem_finRange j)
      exact absurd (decide_eq_true rfl) hnone
    | some i =>
      have hi : b.staMac i = b.staMac j :=
        of_decide_eq_true (List.find?_some (p := fun i => b.staMac i = b.staMac j) hfind)
      rw [b.staMac_inj hi]
      rfl
  · have hgroup : b.start.ap.staHash bcAddr = some {} := by
      simp only [Bss.start, if_true]
    refine ⟨{}, hgroup, rfl, rfl, fun j peer hpeer => ?_⟩
    have hjoined : (b.start.stas j).staHash b.apMac = some {} := if_pos rfl
    obtain rfl := Option.some.inj (hjoined.symm.trans hpeer)
    exact ⟨0, by decide, rfl, rfl⟩
  · change (if a = bcAddr then _ else _) = _
    rw [if_neg hbc, List.find?_eq_none.2 fun j _ => ?_]
    · rfl
    · rw [decide_eq_true_eq]
      exact hno j

def Bss.Reached (b : Bss n) (s : Sys n) : Prop :=
  ∃ t ts, s.net = b.net t ts ∧ Tables b t ts s.unheard

theorem Bss.Reached.step {s : Sys n} (h : b.Reached s) {e : Send n} (he : b.Proper e) :
    b.Reached (EtherSegment.step s e) := by
  obtain ⟨t, ts, hnet, htab⟩ := h
  obtain ⟨t', ts', htab', hout⟩ := transmit_spec htab he
  refine ⟨t', ts', ?_, ?_⟩
  · rw [EtherSegment.step, hnet, hout]
  · have hleft : (EtherSegment.step s e).unheard = b.left s.unheard (hDest e.pkt) (b.label e) := by
      funext j
      simp only [EtherSegment.step, hnet, hout, Bss.left]
      by_cases hgot : b.Got s.unheard (hDest e.pkt) (b.label e) j
      · simp only [if_pos hgot, if_neg (List.cons_ne_nil _ _)]
      · simp only [if_neg hgot, if_true]
    rw [hleft]
    exact htab'

theorem Bss.Reached.run {s : Sys n} (h : b.Reached s) {es : List (Send n)}
    (hes : ∀ e ∈ es, b.Proper e) : b.Reached (run EtherSegment.step s es) := by
  induction es generalizing s with
  | nil => exact h
  | cons e es ih =>
    refine ih (h.step (hes e List.mem_cons_self)) fun e' he' => ?_
    exact hes e' (List.mem_cons_of_mem e he')

theorem got_iff (e : Send n) (j : Fin n) :
    b.Got u (hDest e.pkt) (b.label e) j ↔
      b.forSta e j = true ∧ (isMcast (hDest e.pkt) = true → (u j + 1) % 4096 ≠ 0) := by
  rw [Bss.Got, Bss.forSta, decide_eq_true_eq]
  by_cases hm : isMcast (hDest e.pkt) = true
  · simp only [hm, if_true, or_true, and_true, true_implies]
  · simp only [hm, if_false, or_false, false_implies, and_true, Bool.false_eq_true]

end Segment

def homeAp : MacAddr := macOf 2 0 0 0 0 0

def homeMac (j : Fin 2) : MacAddr := macOf 2 0 0 0 0 (UInt8.ofNat (j.val + 1))

theorem homeAp_ucast : isMcast homeAp = false := by decide

theorem homeAp_ne : homeAp ≠ nullAddr := by decide

theorem homeMac_ucast : ∀ j, isMcast (homeMac j) = false := by decide

theorem homeMac_ne : ∀ j, homeMac j ≠ homeAp := by decide

theorem homeMac_inj : Function.Injective homeMac := by
  intro i j
  revert i j
  decide

def home : Bss 2 where
  apMac := homeAp
  staMac := homeMac
  qosOption := fun j => j.val = 1
  staQos := fun j => j.val = 1
  acmMask := fun _ => 0
  apMac_ucast := homeAp_ucast
  apMac_ne := homeAp_ne
  staMac_ucast := homeMac_ucast
  staMac_ne := homeMac_ne
  staMac_inj := homeMac_inj

def ipTo (sender : Option (Fin 2)) (dst : MacAddr) : Send 2 where
  sender := sender
  pkt := dst.toList ++ homeAp.toList ++ [8, 0, 0x45, 0xc0]
  apTimes := 1
  staTimes := fun _ => 2

def firstSta : Fin 2 := ⟨0, Nat.two_pos⟩

def secondSta : Fin 2 := ⟨1, Nat.one_lt_two⟩

def talk : List (Send 2) :=
  [ipTo (some firstSta) bcAddr, ipTo (some secondSta) (homeMac firstSta),
    ipTo none (homeMac secondSta)]

end Rtl8189.EtherSegment
