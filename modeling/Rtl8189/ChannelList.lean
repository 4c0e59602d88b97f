import Rtl8189.AccessProg
import Rtl8189.GoNego
import Rtl8189.P2pAttrs

/-!
# Channel lists of a group owner negotiation

The request of a peer brings a channel list attribute: a country, and operating classes with their
channels. `rtw_p2p_get_peer_ch_list` copies the channels together, `rtw_p2p_ch_inclusion` picks
those of the device's channel set, and a group owner takes an operating channel of them.
-/
namespace Rtl8189.ChannelList

open AccessProg GoNego P2pAttrs

inductive Region where
  | content
  | peer
  deriving DecidableEq

section Walk

variable (src : List UInt8)

def copyEntries : ℕ → ℕ → UInt8 → List UInt8 → Prog Region (UInt8 × List UInt8)
  | 0, _, j, peer => pure (j, peer)
  | n + 1, pos, j, peer => do
    .touch .content pos 1
    .touch .peer j.toNat 1
    copyEntries n (pos + 1) (j + 1) (peer.set j.toNat (src.getD pos 0))

structure PeerWalk where
  pos : ℕ
  chCnt : UInt8
  j : UInt8
  chNo : UInt8
  peer : List UInt8

def PeerWalk.next (w : PeerWalk) (temp : UInt8) (copied : UInt8 × List UInt8) : PeerWalk where
  pos := w.pos + 2 + temp.toNat
  chCnt := w.chCnt - 1 - (temp + 1)
  j := copied.1
  chNo := w.chNo + temp
  peer := copied.2

/-- The rounds of `rtw_p2p_get_peer_ch_list`, one for a class. -/
def walkClasses : ℕ → PeerWalk → Prog Region (UInt8 × List UInt8)
  | 0, _ => .giveUp
  | n + 1, w =>
    if w.chCnt = 0 then pure (w.chNo, w.peer)
    else do
      .touch .content (w.pos + 1) 1
      let copied ← copyEntries src (src.getD (w.pos + 1) 0).toNat (w.pos + 2) w.j w.peer
      walkClasses n (w.next (src.getD (w.pos + 1) 0) copied)

def rtwP2pGetPeerChList (chCnt : UInt8) (n : ℕ) : Prog Region (UInt8 × List UInt8) :=
  walkClasses src n
    { pos := 3, chCnt := chCnt - 3, j := 0, chNo := 0, peer := List.replicate 100 0 }

end Walk

/-! ## The request -/

inductive NegoState where
  | gonegoIng
  | gonegoFail
  | txInforNoready
  deriving DecidableEq

inductive NegoStatus where
  | success
  | failInfoUnavailable
  | failIncompatibleParam
  | failNoCommonCh
  | failBothGointent15
  deriving DecidableEq

structure Device where
  state : NegoState
  role : Role
  intent : UInt8
  peerIntent : UInt8
  operatingChannel : ℕ
  /-- `nego_req_info.peer_ch` -/
  peerCh : UInt8
  p2pPeerInterfaceAddr : List UInt8
  /-- `ui_got_wps_info` is not `P2P_NO_WPSINFO` -/
  uiGotWpsInfo : Bool
  channelSet : List ℕ

def content (ie : List Attr) (id : UInt8) : Option (List UInt8) :=
  (ie.find? (·.id = id)).map Attr.data

def attrGoIntent : UInt8 := 4

def attrListenCh : UInt8 := 6

def attrIntendedIfAddr : UInt8 := 9

def attrChList : UInt8 := 11

def attrOperatingCh : UInt8 := 17

def BothGointent15 (intent peerIntent : UInt8) : Prop :=
  intent.toNat = peerIntent.toNat / 2 ∧ intent.toNat = p2pMaxIntent

instance (intent peerIntent : UInt8) : Decidable (BothGointent15 intent peerIntent) :=
  inferInstanceAs (Decidable (_ ∧ _))

def decideRole (intent peerIntent : UInt8) : Role :=
  if BothGointent15 intent peerIntent then .device else WifidirectInfo.roleOf intent.toNat peerIntent.toNat

namespace Device

def readIntent (w : Device) (result : NegoStatus) : Option (List UInt8) → Device × NegoStatus
  | none => (w, result)
  | some attrContent =>
    ({ w with
        peerIntent := attrContent.getD 0 0
        role := decideRole w.intent (attrContent.getD 0 0) },
      if BothGointent15 w.intent (attrContent.getD 0 0) then .failBothGointent15 else result)

def readListenCh (w : Device) : Option (List UInt8) → Device
  | none => w
  | some attrContent =>
    if attrContent.length = 5 then { w with peerCh := attrContent.getD 4 0 } else w

def readIfAddr (w : Device) : Option (List UInt8) → Device
  | none => w
  | some attrContent =>
    { w with
      p2pPeerInterfaceAddr :=
        if attrContent.length = 6 then attrContent else List.replicate 6 0 }

def readAttrs (w : Device) (result : NegoStatus) (ie : List Attr) : Device × NegoStatus :=
  let r := ({ w with state := .gonegoIng }).readIntent result (content ie attrGoIntent)
  ((r.1.readListenCh (content ie attrListenCh)).readIfAddr (content ie attrIntendedIfAddr), r.2)

def peerOperatingCh (ie : List Attr) : ℕ :=
  (((content ie attrOperatingCh).getD []).getD 4 0).toNat

/-- A group owner whose operating channel is not of the list takes the peer's, or the first. -/
def takeChannel (w : Device) (incl : List ℕ) (peerOperatingCh : ℕ) : Device :=
  if w.role = .go ∧ w.operatingChannel ∉ incl then
    { w with
      operatingChannel := if peerOperatingCh ∈ incl then peerOperatingCh else incl.headD 0 }
  else w

/-- `rtw_p2p_ch_inclusion` of the first entries of `peer_ch_list` -/
def chInclusion (w : Device) (peerChNum : UInt8) (peerChList : List UInt8) : List ℕ :=
  rtwP2pChInclusion w.channelSet ((peerChList.take peerChNum.toNat).map UInt8.toNat) 0

/-- The loop of `process_p2p_group_negotation_req` over the P2P elements, which a channel list
without a common channel ends. `n` is for the rounds over the classes. -/
def readIes (n : ℕ) : Device → NegoStatus → List (List Attr) → Option (Device × NegoStatus)
  | w, result, [] => some (w, result)
  | w, result, ie :: ies =>
    match content ie attrChList with
    | none => readIes n (w.readAttrs result ie).1 (w.readAttrs result ie).2 ies
    | some chContent =>
      (rtwP2pGetPeerChList (chContent ++ List.replicate (100 - chContent.length) 0)
          (UInt8.ofNat chContent.length) n).ret.bind fun peer =>
        if w.chInclusion peer.1 peer.2 = [] then
          some ({ (w.readAttrs result ie).1 with state := .gonegoFail }, .failNoCommonCh)
        else
          readIes n
            ((w.readAttrs result ie).1.takeChannel (w.chInclusion peer.1 peer.2)
              (peerOperatingCh ie))
            (w.readAttrs result ie).2 ies

/-- `process_p2p_group_negotation_req`, of whether there is a WPS element and of the P2P
elements. -/
def processReq (n : ℕ) (w : Device) (wpsIe : Bool) (ies : List (List Attr)) :
    Option (Device × NegoStatus) :=
  if wpsIe = false then some ({ w with state := .gonegoFail }, .failIncompatibleParam)
  else
    (if ies = [] then some ({ w with state := .gonegoFail }, .failIncompatibleParam)
      else readIes n w .success ies).map fun r =>
      if r.1.uiGotWpsInfo = false then ({ r.1 with state := .txInforNoready }, .failInfoUnavailable)
      else r

end Device

/-! ## What a list says -/

structure OperatingClass where
  regClass : UInt8
  channels : List UInt8

namespace OperatingClass

def bytes (k : OperatingClass) : List UInt8 :=
  k.regClass :: UInt8.ofNat k.channels.length :: k.channels

theorem bytes_length (k : OperatingClass) : k.bytes.length = k.channels.length + 2 := rfl

end OperatingClass

structure ChList where
  country : List UInt8
  classes : List OperatingClass
  country_length : country.length = 3
  fits : country.length + (classes.flatMap OperatingClass.bytes).length ≤ 100

namespace ChList

variable (l : ChList)

def bytes : List UInt8 := l.country ++ l.classes.flatMap OperatingClass.bytes

def channels : List UInt8 := l.classes.flatMap OperatingClass.channels

def common (channelSet : List ℕ) : List ℕ :=
  (l.channels.map UInt8.toNat).filter (· ∈ channelSet)

end ChList

/-- The channels come in the order of the set: they can be found going forward only. -/
def InOrder (channelSet channels : List ℕ) : Prop :=
  ∃ is : List ℕ, is.Pairwise (· ≤ ·) ∧ is.map (channelSet[·]?) = channels.map some

section Read

theorem getD_append_length (pre rest : List UInt8) (b : UInt8) :
    (pre ++ b :: rest).getD pre.length 0 = b := by
  rw [List.getD_eq_getElem?_getD, List.getElem?_append_right le_rfl, Nat.sub_self]
  rfl

theorem set_append_length (out tail : List UInt8) (old new : UInt8) :
    (out ++ old :: tail).set out.length new = out ++ new :: tail := by
  rw [List.set_append_right out.length new le_rfl, Nat.sub_self, List.set_cons_zero]

theorem copyEntries_ret {src pre cs rest out tail : List UInt8} {pos : ℕ} {j : UInt8}
    (hsrc : src = pre ++ (cs ++ rest)) (hpos : pos = pre.length) (hj : j = UInt8.ofNat out.length)
    (hout : out.length + cs.length < 256) (htail : cs.length ≤ tail.length) :
    (copyEntries src cs.length pos j (out ++ tail)).ret =
      some (UInt8.ofNat (out.length + cs.length), (out ++ cs) ++ tail.drop cs.length) := by
  induction cs generalizing pre out tail pos j with
  | nil => rw [List.append_nil, hj]; rfl
  | cons c cs ih =>
    rw [List.length_cons] at hout htail
    cases tail with
    | nil => exact absurd htail (Nat.not_succ_le_zero _)
    | cons old tail =>
      have hget : src.getD pos 0 = c := by
        rw [hsrc, hpos, List.cons_append]
        exact getD_append_length pre (cs ++ rest) c
      have hjnat : j.toNat = out.length := by
        rw [hj, UInt8.toNat_ofNat']
        exact Nat.mod_eq_of_lt (by omega)
      have hnext : j + 1 = UInt8.ofNat (out ++ [c]).length := by
        rw [hj, List.length_append, List.length_singleton, UInt8.ofNat_add]
        rfl
      have hset : (out ++ old :: tail).set j.toNat c = (out ++ [c]) ++ tail := by
        rw [hjnat, set_append_length, List.append_assoc, List.singleton_append]
      have hrest := @ih (pre ++ [c]) (out ++ [c]) tail (pos + 1) (j + 1)
        (by rw [hsrc, List.append_assoc]; rfl) (by rw [hpos, List.length_append]; rfl) hnext
        (by rw [List.length_append, List.length_singleton]; omega) (by
          rw [List.length_cons] at htail
          omega)
      rw [List.length_cons, copyEntries]
      simp only [Prog.ret_bind, Prog.ret_touch, Option.bind_some]
      rw [hget, hset, hrest, List.drop_succ_cons, List.length_append, List.length_singleton,
        Nat.add_assoc, Nat.add_comm 1, List.append_assoc out, List.singleton_append]

theorem cnt_next (m l : ℕ) :
    UInt8.ofNat (m + 2 + l) - 1 - (UInt8.ofNat m + 1) = UInt8.ofNat l := by
  rw [UInt8.ofNat_add, UInt8.ofNat_add]
  grind

theorem walkClasses_ret {src pre rest tail : List UInt8} {classes : List OperatingClass}
    {w : PeerWalk} {n : ℕ} {out : List UInt8}
    (hsrc : src = pre ++ (classes.flatMap OperatingClass.bytes ++ rest))
    (hpos : w.pos = pre.length)
    (hcnt : w.chCnt = UInt8.ofNat (classes.flatMap OperatingClass.bytes).length)
    (hj : w.j = UInt8.ofNat out.length) (hno : w.chNo = UInt8.ofNat out.length)
    (hpeer : w.peer = out ++ tail)
    (hroom : out.length + (classes.flatMap OperatingClass.bytes).length < 256)
    (htail : (classes.flatMap OperatingClass.bytes).length ≤ tail.length)
    (hn : classes.length < n) :
    ∃ left, (walkClasses src n w).ret =
      some (UInt8.ofNat (out ++ classes.flatMap OperatingClass.channels).length,
        (out ++ classes.flatMap OperatingClass.channels) ++ left) := by
  induction classes generalizing pre out tail w n with
  | nil =>
    obtain ⟨n, rfl⟩ := Nat.exists_eq_succ_of_ne_zero (Nat.ne_zero_of_lt hn)
    refine ⟨tail, ?_⟩
    have hzero : w.chCnt = 0 := hcnt
    rw [walkClasses, if_pos hzero, hno, hpeer, List.flatMap_nil, List.append_nil]
    rfl
  | cons k classes ih =>
    obtain ⟨n, rfl⟩ := Nat.exists_eq_succ_of_ne_zero (Nat.ne_zero_of_lt hn)
    rw [List.flatMap_cons, List.length_append, k.bytes_length] at hcnt hroom htail
    rw [List.flatMap_cons, List.append_assoc] at hsrc
    have hsize : (UInt8.ofNat k.channels.length).toNat = k.channels.length := by
      rw [UInt8.toNat_ofNat']
      exact Nat.mod_eq_of_lt (by omega)
    have hget : src.getD (w.pos + 1) 0 = UInt8.ofNat k.channels.length := by
      have hlen : w.pos + 1 = (pre ++ [k.regClass]).length := by
        rw [hpos, List.length_append, List.length_singleton]
      have hsplit : src = (pre ++ [k.regClass]) ++ UInt8.ofNat k.channels.length ::
          (k.channels ++ (classes.flatMap OperatingClass.bytes ++ rest)) := by
        rw [hsrc, List.append_assoc]
        rfl
      rw [hsplit, hlen]
      exact getD_append_length _ _ _
    have hne : w.chCnt ≠ 0 := by
      intro hzero
      have hnat := congrArg UInt8.toNat (hcnt.symm.trans hzero)
      rw [UInt8.toNat_ofNat', Nat.mod_eq_of_lt (by omega)] at hnat
      exact absurd hnat (by rw [UInt8.toNat_zero]; omega)
    have hcopy := @copyEntries_ret src (pre ++ [k.regClass, UInt8.ofNat k.channels.length])
      k.channels (classes.flatMap OperatingClass.bytes ++ rest) out tail (w.pos + 2) w.j
      (by rw [hsrc, List.append_assoc]; rfl) (by rw [hpos, List.length_append]; rfl) hj
      (by omega) (by omega)
    obtain ⟨left, hrest⟩ := @ih (pre ++ k.bytes) (tail.drop k.channels.length)
      (w.next (UInt8.ofNat k.channels.length)
        (UInt8.ofNat (out.length + k.channels.length),
          (out ++ k.channels) ++ tail.drop k.channels.length)) n (out ++ k.channels)
      (by rw [hsrc, List.append_assoc]) (by
        rw [PeerWalk.next, List.length_append, k.bytes_length, hsize, hpos]
        dsimp only
        omega)
      (by rw [PeerWalk.next, hcnt]; exact cnt_next _ _) (by rw [List.length_append]; rfl)
      (by rw [PeerWalk.next, hno, List.length_append, UInt8.ofNat_add]) rfl
      (by rw [List.length_append]; omega) (by rw [List.length_drop]; omega)
      (Nat.lt_of_succ_lt_succ hn)
    refine ⟨left, ?_⟩
    rw [walkClasses, if_neg hne, hget, hsize, hpeer]
    simp only [Prog.ret_bind, Prog.ret_touch, Option.bind_some, hcopy]
    rw [hrest, List.flatMap_cons, List.append_assoc out]

theorem classes_le (classes : List OperatingClass) :
    classes.length ≤ (classes.flatMap OperatingClass.bytes).length ∧
      (classes.flatMap OperatingClass.channels).length ≤
        (classes.flatMap OperatingClass.bytes).length := by
  induction classes with
  | nil => exact ⟨le_rfl, le_rfl⟩
  | cons k classes ih =>
    rw [List.flatMap_cons, List.flatMap_cons, List.length_append, List.length_append,
      k.bytes_length, List.length_cons]
    omega

theorem peer_ch_list (l : ChList) {n : ℕ} (hn : 100 ≤ n) :
    ∃ peer, (rtwP2pGetPeerChList (l.bytes ++ List.replicate (100 - l.bytes.length) 0)
        (UInt8.ofNat l.bytes.length) n).ret = some peer ∧
      peer.2.take peer.1.toNat = l.channels := by
  have hfits := l.fits
  have hcountry := l.country_length
  obtain ⟨hclasses, hchannels⟩ := classes_le l.classes
  obtain ⟨left, hret⟩ := @walkClasses_ret (l.bytes ++ List.replicate (100 - l.bytes.length) 0)
    l.country (List.replicate (100 - l.bytes.length) 0) (List.replicate 100 0) l.classes
    { pos := 3, chCnt := UInt8.ofNat l.bytes.length - 3, j := 0, chNo := 0,
      peer := List.replicate 100 0 } n [] (List.append_assoc _ _ _) hcountry.symm
    (by
      rw [ChList.bytes, List.length_append, hcountry, UInt8.ofNat_add]
      grind)
    rfl rfl rfl (by rw [List.length_nil]; omega) (by rw [List.length_replicate]; omega) (by omega)
  refine ⟨_, hret, ?_⟩
  rw [List.nil_append, UInt8.toNat_ofNat', Nat.mod_eq_of_lt (by omega)]
  exact List.take_left

end Read

/-! ## The channels in common -/

section Inclusion

variable {channelSet : List ℕ}

theorem filter_mem {c : ℕ} (h : c ∈ channelSet) (peer : List ℕ) :
    (c :: peer).filter (· ∈ channelSet) = c :: peer.filter (· ∈ channelSet) :=
  List.filter_cons_of_pos (by rwa [decide_eq_true_iff])

theorem filter_not_mem {c : ℕ} (h : c ∉ channelSet) (peer : List ℕ) :
    (c :: peer).filter (· ∈ channelSet) = peer.filter (· ∈ channelSet) :=
  List.filter_cons_of_neg (by rwa [decide_eq_true_iff])

theorem find_first {c temp j : ℕ} (h : (channelSet.drop temp).findIdx? (· = c) = some j) :
    channelSet[temp + j]? = some c ∧ ∀ i, temp ≤ i → channelSet[i]? = some c → temp + j ≤ i := by
  obtain ⟨hj, hc, hfirst⟩ := List.findIdx?_eq_some_iff_getElem.mp h
  refine ⟨?_, fun i hi hat => ?_⟩
  · rw [← List.getElem?_drop, List.getElem?_eq_getElem hj]
    exact congrArg some (of_decide_eq_true hc)
  · by_contra hlt
    have hbefore : i - temp < j := by omega
    refine hfirst (i - temp) hbefore (decide_eq_true ?_)
    have hdrop : (channelSet.drop temp)[i - temp]? = some c := by
      rw [List.getElem?_drop, Nat.add_sub_cancel' hi, hat]
    rw [List.getElem?_eq_getElem (hbefore.trans hj)] at hdrop
    exact Option.some.inj hdrop

theorem find_none {c temp i : ℕ} (h : (channelSet.drop temp).findIdx? (· = c) = none)
    (hi : temp ≤ i) : channelSet[i]? ≠ some c := by
  intro hat
  have hdrop : (channelSet.drop temp)[i - temp]? = some c := by
    rw [List.getElem?_drop, Nat.add_sub_cancel' hi, hat]
  have hnone := List.findIdx?_eq_none_iff.mp h c (List.mem_of_getElem? hdrop)
  exact of_decide_eq_false hnone rfl

theorem inclusion_sublist (peer : List ℕ) (temp : ℕ) :
    (rtwP2pChInclusion channelSet peer temp).Sublist (peer.filter (· ∈ channelSet)) := by
  induction peer generalizing temp with
  | nil => exact List.Sublist.refl _
  | cons c peer ih =>
    rw [rtwP2pChInclusion]
    cases hfind : (channelSet.drop temp).findIdx? (· = c) with
    | none => exact (ih temp).trans ((List.sublist_cons_self c peer).filter _)
    | some j =>
      have hc : c ∈ channelSet := List.mem_of_getElem? (find_first hfind).1
      rw [filter_mem hc]
      exact (ih (temp + j)).cons_cons c

theorem inclusion_nil_iff (peer : List ℕ) :
    rtwP2pChInclusion channelSet peer 0 = [] ↔ peer.filter (· ∈ channelSet) = [] := by
  induction peer with
  | nil => exact Iff.rfl
  | cons c peer ih =>
    rw [rtwP2pChInclusion]
    cases hfind : (channelSet.drop 0).findIdx? (· = c) with
    | none =>
      have hc : c ∉ channelSet := fun hmem => by
        obtain ⟨i, hi⟩ := List.mem_iff_getElem?.mp hmem
        exact find_none hfind i.zero_le hi
      rw [filter_not_mem hc]
      exact ih
    | some j =>
      have hc : c ∈ channelSet := List.mem_of_getElem? (find_first hfind).1
      rw [filter_mem hc]
      exact iff_of_false (List.cons_ne_nil _ _) (List.cons_ne_nil _ _)

theorem inclusion_eq_iff (peer : List ℕ) (temp : ℕ) :
    rtwP2pChInclusion channelSet peer temp = peer.filter (· ∈ channelSet) ↔
      ∃ is : List ℕ, (∀ i ∈ is, temp ≤ i) ∧ is.Pairwise (· ≤ ·) ∧
        is.map (channelSet[·]?) = (peer.filter (· ∈ channelSet)).map some := by
  induction peer generalizing temp with
  | nil => exact iff_of_true rfl ⟨[], nofun, List.Pairwise.nil, rfl⟩
  | cons c peer ih =>
    rw [rtwP2pChInclusion]
    cases hfind : (channelSet.drop temp).findIdx? (· = c) with
    | none =>
      dsimp only
      by_cases hc : c ∈ channelSet
      · rw [filter_mem hc]
        refine iff_of_false (fun heq => ?_) ?_
        · have hlen := (@inclusion_sublist channelSet peer temp).length_le
          rw [heq, List.length_cons] at hlen
          exact Nat.not_succ_le_self _ hlen
        · rintro ⟨is, hle, -, hmap⟩
          cases is with
          | nil => exact nomatch hmap
          | cons i is =>
            exact find_none hfind (hle i List.mem_cons_self) (List.cons.inj hmap).1
      · rw [filter_not_mem hc]
        exact ih temp
    | some j =>
      obtain ⟨hat, hfirst⟩ := find_first hfind
      rw [filter_mem (List.mem_of_getElem? hat), List.cons_inj_right, ih]
      constructor
      · rintro ⟨is, hle, hsorted, hmap⟩
        refine ⟨(temp + j) :: is, ?_, List.pairwise_cons.mpr ⟨hle, hsorted⟩, ?_⟩
        · intro i hi
          rcases List.mem_cons.mp hi with rfl | hi
          · exact Nat.le_add_right temp j
          · exact (Nat.le_add_right temp j).trans (hle i hi)
        · rw [List.map_cons, List.map_cons, hat, hmap]
      · rintro ⟨is, hle, hsorted, hmap⟩
        cases is with
        | nil => exact nomatch hmap
        | cons i is =>
          obtain ⟨hi, hrest⟩ := List.cons.inj hmap
          obtain ⟨hhead, htail⟩ := List.pairwise_cons.mp hsorted
          have hfrom := hfirst i (hle i List.mem_cons_self) hi
          exact ⟨is, fun k hk => hfrom.trans (hhead k hk), htail, hrest⟩

end Inclusion

/-! ## The negotiation -/

/-- A request with one channel list attribute, in one of its P2P elements. -/
structure Request where
  wpsIe : Bool
  before : List (List Attr)
  own : List Attr
  after : List (List Attr)
  list : ChList
  before_none : ∀ ie ∈ before, content ie attrChList = none
  own_some : content own attrChList = some list.bytes
  after_none : ∀ ie ∈ after, content ie attrChList = none

def Request.ies (r : Request) : List (List Attr) := r.before ++ r.own :: r.after

def intents (ies : List (List Attr)) : List UInt8 :=
  ies.filterMap fun ie => (content ie attrGoIntent).map (·.getD 0 0)

def roleAfter (intent : UInt8) (role : Role) (ies : List (List Attr)) : Role :=
  (intents ies).foldl (fun _ x => decideRole intent x) role

def Ties (intent : UInt8) (ies : List (List Attr)) : Prop :=
  ∃ x ∈ intents ies, BothGointent15 intent x

instance (intent : UInt8) (ies : List (List Attr)) : Decidable (Ties intent ies) :=
  inferInstanceAs (Decidable (∃ x ∈ intents ies, BothGointent15 intent x))

/-- What a negotiation with WPS information comes to: without a common channel it fails, and a
group owner is on one. -/
def Negotiated (n : ℕ) (w : Device) (r : Request) : Prop :=
  ∃ w' result, w.processReq n r.wpsIe r.ies = some (w', result) ∧
    (r.wpsIe = true → w.uiGotWpsInfo = true →
      (result = .failNoCommonCh ↔ r.list.common w.channelSet = []) ∧
        (result = .success → w'.role = .go →
          w'.operatingChannel ∈ r.list.common w.channelSet))

/-- The entries are the channels of the list, and those picked are the common ones. -/
def Meets (n : ℕ) (w : Device) (r : Request) : Prop :=
  (∃ peer, (rtwP2pGetPeerChList (r.list.bytes ++ List.replicate (100 - r.list.bytes.length) 0)
      (UInt8.ofNat r.list.bytes.length) n).ret = some peer ∧
    peer.2.take peer.1.toNat = r.list.channels ∧
    w.chInclusion peer.1 peer.2 = r.list.common w.channelSet) ∧
  Negotiated n w r

/-- A device that the intents make the group owner is one at the element of the channel list, or
is on a common channel already. -/
def GoSettled (w : Device) (r : Request) : Prop :=
  r.wpsIe = true → w.uiGotWpsInfo = true → r.list.common w.channelSet ≠ [] →
    ¬ Ties w.intent r.ies → roleAfter w.intent w.role r.ies = .go →
      roleAfter w.intent w.role (r.before ++ [r.own]) = .go ∨
        w.operatingChannel ∈ r.list.common w.channelSet

namespace Device

/-- What elements without a channel list leave of the device. -/
structure Reads (w w' : Device) (ies : List (List Attr)) : Prop where
  role : w'.role = roleAfter w.intent w.role ies
  intent : w'.intent = w.intent
  operatingChannel : w'.operatingChannel = w.operatingChannel
  uiGotWpsInfo : w'.uiGotWpsInfo = w.uiGotWpsInfo
  channelSet : w'.channelSet = w.channelSet

def readPlain (r : Device × NegoStatus) (ies : List (List Attr)) : Device × NegoStatus :=
  ies.foldl (fun r ie => r.1.readAttrs r.2 ie) r

theorem readIes_plain {n : ℕ} {ies : List (List Attr)}
    (h : ∀ ie ∈ ies, content ie attrChList = none) (w : Device) (result : NegoStatus)
    (rest : List (List Attr)) :
    w.readIes n result (ies ++ rest) =
      (readPlain (w, result) ies).1.readIes n (readPlain (w, result) ies).2 rest := by
  induction ies generalizing w result with
  | nil => rfl
  | cons ie ies ih =>
    rw [List.cons_append, readIes, h ie List.mem_cons_self]
    exact ih (fun i hi => h i (List.mem_cons_of_mem ie hi)) _ _

theorem Reads.refl (w : Device) : Reads w w [] := ⟨rfl, rfl, rfl, rfl, rfl⟩

theorem roleAfter_append (intent : UInt8) (role : Role) (ies ies' : List (List Attr)) :
    roleAfter intent role (ies ++ ies') = roleAfter intent (roleAfter intent role ies) ies' := by
  rw [roleAfter, intents, List.filterMap_append, List.foldl_append]
  rfl

theorem ties_append {intent : UInt8} {ies ies' : List (List Attr)} :
    Ties intent (ies ++ ies') ↔ Ties intent ies ∨ Ties intent ies' := by
  rw [Ties, intents, List.filterMap_append]
  simp only [List.mem_append, or_and_right, exists_or]
  exact Iff.rfl

theorem Reads.trans {w w' w'' : Device} {ies ies' : List (List Attr)} (h : Reads w w' ies)
    (h' : Reads w' w'' ies') : Reads w w'' (ies ++ ies') where
  role := by rw [h'.role, h.role, h.intent, roleAfter_append]
  intent := h'.intent.trans h.intent
  operatingChannel := h'.operatingChannel.trans h.operatingChannel
  uiGotWpsInfo := h'.uiGotWpsInfo.trans h.uiGotWpsInfo
  channelSet := h'.channelSet.trans h.channelSet

theorem readListenCh_reads (w : Device) (c : Option (List UInt8)) :
    Reads w (w.readListenCh c) [] := by
  cases c with
  | none => exact .refl w
  | some attrContent =>
    rw [readListenCh]
    split
    · exact ⟨rfl, rfl, rfl, rfl, rfl⟩
    · exact .refl w

theorem readIfAddr_reads (w : Device) (c : Option (List UInt8)) :
    Reads w (w.readIfAddr c) [] := by
  cases c with
  | none => exact .refl w
  | some attrContent => exact ⟨rfl, rfl, rfl, rfl, rfl⟩

theorem readIntent_reads (w : Device) (result : NegoStatus) (ie : List Attr) :
    Reads w (w.readIntent result (content ie attrGoIntent)).1 [ie] ∧
      (w.readIntent result (content ie attrGoIntent)).2 =
        if Ties w.intent [ie] then .failBothGointent15 else result := by
  have hintents : intents [ie] = ((content ie attrGoIntent).map (·.getD 0 0)).toList := by
    rw [intents, List.filterMap_cons]
    cases content ie attrGoIntent <;> rfl
  cases hc : content ie attrGoIntent with
  | none =>
    rw [hc] at hintents
    refine ⟨⟨?_, rfl, rfl, rfl, rfl⟩, (if_neg ?_).symm⟩
    · rw [roleAfter, hintents]
      rfl
    · rw [Ties, hintents]
      exact nofun
  | some attrContent =>
    rw [hc] at hintents
    refine ⟨⟨?_, rfl, rfl, rfl, rfl⟩, ?_⟩
    · rw [roleAfter, hintents]
      rfl
    · have hties : Ties w.intent [ie] ↔ BothGointent15 w.intent (attrContent.getD 0 0) := by
        rw [Ties, hintents]
        simp only [Option.map_some, Option.toList_some, List.mem_singleton, exists_eq_left]
      rw [readIntent]
      exact if_congr hties.symm rfl rfl

theorem readAttrs_reads (w : Device) (result : NegoStatus) (ie : List Attr) :
    Reads w (w.readAttrs result ie).1 [ie] ∧
      (w.readAttrs result ie).2 = if Ties w.intent [ie] then .failBothGointent15 else result := by
  obtain ⟨hreads, hresult⟩ := readIntent_reads { w with state := .gonegoIng } result ie
  have hall := (hreads.trans (readListenCh_reads _ (content ie attrListenCh))).trans
    (readIfAddr_reads _ (content ie attrIntendedIfAddr))
  exact ⟨⟨hall.role, hall.intent, hall.operatingChannel, hall.uiGotWpsInfo, hall.channelSet⟩,
    hresult⟩

theorem readPlain_reads (w : Device) (result : NegoStatus) (ies : List (List Attr)) :
    Reads w (readPlain (w, result) ies).1 ies ∧
      (readPlain (w, result) ies).2 =
        if Ties w.intent ies then .failBothGointent15 else result := by
  induction ies generalizing w result with
  | nil => exact ⟨.refl w, (if_neg nofun).symm⟩
  | cons ie ies ih =>
    obtain ⟨hfirst, hresult⟩ := readAttrs_reads w result ie
    obtain ⟨hrest, hlast⟩ := ih (w.readAttrs result ie).1 (w.readAttrs result ie).2
    refine ⟨hfirst.trans hrest, hlast.trans ?_⟩
    rw [hfirst.intent, hresult, show ie :: ies = [ie] ++ ies from rfl]
    by_cases hhead : Ties w.intent [ie]
    · rw [if_pos hhead, ite_self, if_pos (ties_append.mpr (.inl hhead))]
    · rw [if_neg hhead]
      exact if_congr ((or_iff_right hhead).symm.trans ties_append.symm) rfl rfl

theorem takeChannel_spec (w : Device) {incl : List ℕ} (hincl : incl ≠ []) (peerOperatingCh : ℕ) :
    Reads { w with operatingChannel := (w.takeChannel incl peerOperatingCh).operatingChannel }
        (w.takeChannel incl peerOperatingCh) [] ∧
      (w.role = .go → (w.takeChannel incl peerOperatingCh).operatingChannel ∈ incl) ∧
      (w.role ≠ .go → (w.takeChannel incl peerOperatingCh).operatingChannel =
        w.operatingChannel) := by
  rw [takeChannel]
  by_cases hmove : w.role = .go ∧ w.operatingChannel ∉ incl
  · rw [if_pos hmove]
    refine ⟨⟨rfl, rfl, rfl, rfl, rfl⟩, fun _ => ?_, fun hrole => absurd hmove.1 hrole⟩
    dsimp only
    split
    · assumption
    · cases incl with
      | nil => exact absurd rfl hincl
      | cons c cs => exact List.mem_cons_self
  · rw [if_neg hmove]
    exact ⟨.refl w, fun hrole => by_contra fun hmem => hmove ⟨hrole, hmem⟩, fun _ => rfl⟩

end Device

section Negotiation

variable {n : ℕ} (w : Device) (r : Request)

theorem chInclusion_eq {peer : UInt8 × List UInt8}
    (hpeer : peer.2.take peer.1.toNat = r.list.channels) :
    w.chInclusion peer.1 peer.2 =
      rtwP2pChInclusion w.channelSet (r.list.channels.map UInt8.toNat) 0 := by
  rw [Device.chInclusion, hpeer]

theorem ite_or_ite {α : Type*} (p q : Prop) [Decidable p] [Decidable q] (x y : α) :
    (if p then x else if q then x else y) = if p ∨ q then x else y := by
  by_cases hp : p
  · rw [if_pos hp, if_pos (.inl hp)]
  · rw [if_neg hp]
    exact if_congr (or_iff_right hp).symm rfl rfl

def ownRole : Role := roleAfter w.intent w.role (r.before ++ [r.own])

theorem readIes_uncommon (hn : 100 ≤ n) (hnone : r.list.common w.channelSet = []) :
    ∃ w', w.readIes n .success r.ies = some (w', .failNoCommonCh) ∧
      w'.uiGotWpsInfo = w.uiGotWpsInfo := by
  obtain ⟨peer, hpeer, hchannels⟩ := peer_ch_list r.list hn
  obtain ⟨hb, -⟩ := Device.readPlain_reads w .success r.before
  obtain ⟨ha, -⟩ := Device.readAttrs_reads (Device.readPlain (w, .success) r.before).1
    (Device.readPlain (w, .success) r.before).2 r.own
  have hincl : (Device.readPlain (w, .success) r.before).1.chInclusion peer.1 peer.2 = [] := by
    rw [chInclusion_eq _ r hchannels, hb.channelSet]
    exact (inclusion_nil_iff _).mpr hnone
  rw [Request.ies, Device.readIes_plain r.before_none, Device.readIes, r.own_some]
  dsimp only
  rw [hpeer, Option.bind_some, if_pos hincl]
  exact ⟨_, rfl, ha.uiGotWpsInfo.trans hb.uiGotWpsInfo⟩

theorem readIes_common (hn : 100 ≤ n) (hsome : r.list.common w.channelSet ≠ []) :
    ∃ w', w.readIes n .success r.ies =
        some (w', if Ties w.intent r.ies then .failBothGointent15 else .success) ∧
      w'.uiGotWpsInfo = w.uiGotWpsInfo ∧ w'.role = roleAfter w.intent w.role r.ies ∧
      (ownRole w r = .go → w'.operatingChannel ∈ r.list.common w.channelSet) ∧
      (ownRole w r ≠ .go → w'.operatingChannel = w.operatingChannel) := by
  obtain ⟨peer, hpeer, hchannels⟩ := peer_ch_list r.list hn
  obtain ⟨hb, hbres⟩ := Device.readPlain_reads w .success r.before
  obtain ⟨ha, hares⟩ := Device.readAttrs_reads (Device.readPlain (w, .success) r.before).1
    (Device.readPlain (w, .success) r.before).2 r.own
  have hown := hb.trans ha
  have hinclEq := (chInclusion_eq (Device.readPlain (w, .success) r.before).1 r hchannels).trans
    (by rw [hb.channelSet])
  have hincl : (Device.readPlain (w, .success) r.before).1.chInclusion peer.1 peer.2 ≠ [] := by
    rw [hinclEq]
    exact fun h => hsome ((inclusion_nil_iff _).mp h)
  obtain ⟨htake, hgo, hother⟩ := Device.takeChannel_spec
    ((Device.readPlain (w, .success) r.before).1.readAttrs
      (Device.readPlain (w, .success) r.before).2 r.own).1 hincl (Device.peerOperatingCh r.own)
  obtain ⟨hc, hcres⟩ := Device.readPlain_reads _
    ((Device.readPlain (w, .success) r.before).1.readAttrs
      (Device.readPlain (w, .success) r.before).2 r.own).2 r.after
  have hrole := htake.role.trans hown.role
  have hintent := htake.intent.trans hown.intent
  refine ⟨_, ?_, (hc.uiGotWpsInfo.trans htake.uiGotWpsInfo).trans hown.uiGotWpsInfo, ?_,
    fun h => ?_, fun h => ?_⟩
  · rw [Request.ies, Device.readIes_plain r.before_none, Device.readIes, r.own_some]
    dsimp only
    rw [hpeer, Option.bind_some, if_neg hincl, ← List.append_nil r.after,
      Device.readIes_plain r.after_none, Device.readIes, List.append_nil]
    refine congrArg some (Prod.ext rfl (hcres.trans ?_))
    rw [hintent, hares, hbres, hb.intent, ite_or_ite, ite_or_ite]
    refine if_congr ?_ rfl rfl
    rw [show r.before ++ r.own :: r.after = r.before ++ ([r.own] ++ r.after) from rfl,
      Device.ties_append, Device.ties_append]
    tauto
  · rw [hc.role, hintent, hrole, ← Device.roleAfter_append, List.append_assoc]
    rfl
  · rw [hc.operatingChannel]
    have hsub : (Device.readPlain (w, .success) r.before).1.chInclusion peer.1 peer.2 ⊆
        r.list.common w.channelSet := by
      rw [hinclEq]
      exact (inclusion_sublist _ _).subset
    exact hsub (hgo (hown.role.trans h))
  · rw [hc.operatingChannel, hother (fun hgo' => h (hown.role.symm.trans hgo')),
      hown.operatingChannel]

variable {w r}

theorem processReq_wps (hwps : r.wpsIe = true) {result : Device × NegoStatus}
    (h : w.readIes n .success r.ies = some result)
    (hui : result.1.uiGotWpsInfo = w.uiGotWpsInfo) :
    w.processReq n r.wpsIe r.ies = some (if w.uiGotWpsInfo = false then
      ({ result.1 with state := .txInforNoready }, .failInfoUnavailable) else result) := by
  have hne : r.ies ≠ [] := List.append_ne_nil_of_right_ne_nil _ (List.cons_ne_nil _ _)
  rw [Device.processReq, if_neg (by rw [hwps]; decide), if_neg hne, h, Option.map_some, hui]

end Negotiation

theorem negotiated_iff {n : ℕ} (hn : 100 ≤ n) (w : Device) (r : Request) :
    Negotiated n w r ↔ GoSettled w r := by
  by_cases hwps : r.wpsIe = true
  swap
  · exact iff_of_true ⟨_, _, if_pos (Bool.not_eq_true _ ▸ hwps), fun h => absurd h hwps⟩
      fun h => absurd h hwps
  by_cases hnone : r.list.common w.channelSet = []
  · obtain ⟨w', hread, hui⟩ := readIes_uncommon w r hn hnone
    have hreq := processReq_wps hwps hread hui
    refine iff_of_true ?_ fun _ _ hne => absurd hnone hne
    by_cases hgot : w.uiGotWpsInfo = false
    · exact ⟨_, _, hreq, fun _ h => absurd h (by rw [hgot]; decide)⟩
    · rw [if_neg hgot] at hreq
      exact ⟨_, _, hreq, fun _ _ => ⟨iff_of_true rfl hnone, nofun⟩⟩
  obtain ⟨w', hread, hui, hrole, hgo, hother⟩ := readIes_common w r hn hnone
  have hreq := processReq_wps hwps hread hui
  by_cases hgot : w.uiGotWpsInfo = true
  swap
  · exact iff_of_true ⟨_, _, hreq, fun _ h => absurd h hgot⟩ fun _ h => absurd h hgot
  rw [if_neg (by rw [hgot]; decide)] at hreq
  constructor
  · rintro ⟨w'', result, heq, hmeets⟩ - - - hties hend
    obtain ⟨rfl, rfl⟩ := Prod.mk.inj (Option.some.inj (hreq.symm.trans heq))
    by_cases hrole' : ownRole w r = .go
    · exact .inl hrole'
    · have hop := (hmeets hwps hgot).2 (if_neg hties) (hrole.trans hend)
      rw [hother hrole'] at hop
      exact .inr hop
  · intro hsettled
    refine ⟨_, _, hreq, fun _ _ => ⟨iff_of_false ?_ hnone, fun hsuccess hend => ?_⟩⟩
    · split <;> exact nofun
    · have hties : ¬ Ties w.intent r.ies := fun h => by
        rw [if_pos h] at hsuccess
        exact nomatch hsuccess
      by_cases hrole' : ownRole w r = .go
      · exact hgo hrole'
      · rw [hother hrole']
        exact (hsettled hwps hgot hnone hties (hrole.symm.trans hend)).resolve_left hrole'

/-- The search for the channels goes forward in the device's channel set, so it finds the common
ones when they come in the order of the set. Without a common one the negotiation fails, and no
other; a group owner ends on a common one when it is settled before the list. -/
theorem channel_list_iff {n : ℕ} (hn : 100 ≤ n) (w : Device) (r : Request) :
    Meets n w r ↔ InOrder w.channelSet (r.list.common w.channelSet) ∧ GoSettled w r := by
  obtain ⟨peer, hpeer, hchannels⟩ := peer_ch_list r.list hn
  refine and_congr ?_ (negotiated_iff hn w r)
  have heq : w.chInclusion peer.1 peer.2 = r.list.common w.channelSet ↔
      InOrder w.channelSet (r.list.common w.channelSet) := by
    rw [chInclusion_eq w r hchannels]
    exact (inclusion_eq_iff _ _).trans (exists_congr fun is => and_iff_right fun i _ => i.zero_le)
  rw [← heq]
  refine ⟨?_, fun h => ⟨peer, hpeer, hchannels, h⟩⟩
  rintro ⟨peer', hpeer', -, h⟩
  obtain rfl := Option.some.inj (hpeer.symm.trans hpeer')
  exact h

def device (channelSet : List ℕ) : Device where
  state := .gonegoIng
  role := .device
  intent := 10
  peerIntent := 0
  operatingChannel := 1
  peerCh := 0
  p2pPeerInterfaceAddr := List.replicate 6 0
  uiGotWpsInfo := true
  channelSet := channelSet

def requestOf (a b : UInt8) : Request where
  wpsIe := true
  before := []
  own := [⟨attrGoIntent, [14], by decide⟩,
    ⟨attrChList, [0x58, 0x58, 4, 81, 2, a, b], Nat.le_of_ble_eq_true rfl⟩]
  after := []
  list := ⟨[0x58, 0x58, 4], [⟨81, [a, b]⟩], rfl, Nat.le_of_ble_eq_true rfl⟩
  before_none := nofun
  own_some := rfl
  after_none := nofun

theorem channel_list_in_order : Meets 100 (device (List.range' 1 13)) (requestOf 6 11) :=
  (channel_list_iff (by decide) _ _).mpr
    ⟨⟨[5, 10], by decide, by decide +kernel⟩, fun _ _ _ _ _ => .inl (by decide +kernel)⟩

/-- Channel 1 is behind 6 in the list, and before it in the set. -/
theorem channel_list_lost :
    (device (List.range' 1 13)).chInclusion 2 [6, 1] = [6] ∧
      (requestOf 6 1).list.common (List.range' 1 13) = [6, 1] ∧
      ¬ Meets 100 (device (List.range' 1 13)) (requestOf 6 1) := by
  refine ⟨by decide +kernel, by decide +kernel, ?_⟩
  rintro ⟨⟨peer, -, hchannels, hcommon⟩, -⟩
  rw [Device.chInclusion, hchannels] at hcommon
  exact absurd hcommon (by decide +kernel)

end Rtl8189.ChannelList
