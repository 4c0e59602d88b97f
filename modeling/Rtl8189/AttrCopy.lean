import Rtl8189.ChannelList

/-!
# Copying P2P attributes

The handlers of public action frames copy the content of P2P attributes into locals and fields.
`rtw_get_p2p_attr_content` copies as many bytes as the attribute says it has.
-/
namespace Rtl8189.AttrCopy

open AccessProg ChannelList ElemList GoNego IeLookup
open P2pAttrs (rtwGetP2pAttr rtwGetP2pIe)

/-- What attributes are copied to, and what is copied on from there. -/
inductive Dest where
  | capAttr
  | attrContent
  | listenChAttr
  | p2pPeerInterfaceAddr
  | chContent
  | channelListAttr
  | operatingchInfo
  | groupid
  | groupidInfoSsid
  | invitationFlag
  | groupId
  | noaAttr
  | noaCount
  | noaDuration
  | noaInterval
  | noaStartTime
  /-- the walk over a channel list with so many bytes -/
  | chList (len : ℕ) (region : Region)

def Dest.size : Dest → ℕ
  | capAttr => 2
  | attrContent => 1
  | listenChAttr => 5
  | p2pPeerInterfaceAddr => 6
  | chContent => 100
  | channelListAttr => 100
  | operatingchInfo => 5
  | groupid => 38
  | groupidInfoSsid => 32
  | invitationFlag => 1
  | groupId => 38
  | noaAttr => 256
  | noaCount => 2
  | noaDuration => 8
  | noaInterval => 8
  | noaStartTime => 8
  | chList len .content => len
  | chList _ .peer => 100

/-! ## The attributes of a frame -/

abbrev Attrs := UInt8 → Option (List UInt8)

def bytesFrom (mem : List UInt8) (p n : ℕ) : List UInt8 :=
  (List.range n).map fun i => mem.getD (p + i) 0

def rtwGetP2pAttrContent (mem : List UInt8) (p2pIe p2pIelen : ℕ) : Attrs := fun targetAttrId =>
  (rtwGetP2pAttr mem p2pIe p2pIelen targetAttrId).bind fun attr =>
    if attr.2 = 0 then none else some (bytesFrom mem (attr.1 + 3) (usub attr.2 3))

/-- The P2P elements that a handler goes over: `left` bytes are to be searched from `start` on. -/
def p2pIesFrom (mem : List UInt8) (ies iesLen : ℕ) : ℕ → ℕ → ℕ → List (ℕ × ℕ)
  | 0, _, _ => []
  | n + 1, start, left =>
    match rtwGetP2pIe mem start left with
    | none => []
    | some (p2pIe, p2pIelen) =>
      (p2pIe, p2pIelen) ::
        p2pIesFrom mem ies iesLen n (p2pIe + p2pIelen) (usub iesLen (p2pIe - ies + p2pIelen))

/-- `ies` and `ies_len` behind the fixed fields, and the elements there. -/
def p2pIesOf (mem : List UInt8) (len offset : ℕ) : List (ℕ × ℕ) :=
  p2pIesFrom mem offset (usub len offset) (usub len offset) offset (usub len offset)

/-- The headers in an element claim no more than sixteen bits hold, with a header. -/
def lengthsFit (mem : List UInt8) (p2pIe p2pIelen : ℕ) : ℕ → ℕ → Bool
  | 0, _ => true
  | n + 1, off =>
    if off + 3 ≤ p2pIelen then
      le16 mem (p2pIe + off + 1) + 3 < 65536 &&
        lengthsFit mem p2pIe p2pIelen n (off + (le16 mem (p2pIe + off + 1) + 3))
    else true

/-- A frame body, or the fixed fields and elements of a beacon. No attribute claims a length that no
frame has. -/
structure Body (offset : ℕ) where
  mem : List UInt8
  len : ℕ
  fits : ∀ e ∈ p2pIesOf mem len offset, lengthsFit mem e.1 e.2 e.2 6 = true

namespace Body

variable {offset : ℕ} (f : Body offset)

@[irreducible] def p2pIes : List (ℕ × ℕ) := p2pIesOf f.mem f.len offset

def attrs : List Attrs := f.p2pIes.map fun e => rtwGetP2pAttrContent f.mem e.1 e.2

end Body

def publicActionIeOffset : ℕ := 8

def beaconIeOffset : ℕ := 12

/-! ## Copies -/

def copyTo (dest : Dest) : Option (List UInt8) → Prog Dest Unit
  | none => pure ()
  | some content => .touch dest 0 content.length

/-- A content, where there is one, has at most so many bytes. -/
def AtMost (n : ℕ) (content : Option (List UInt8)) : Prop := ∀ c ∈ content, c.length ≤ n

theorem settles_copyTo_bind {dest : Dest} {content : Option (List UInt8)} {α : Type}
    {f : Unit → Prog Dest α} {a : α} :
    (copyTo dest content >>= f).Settles Dest.size a ↔
      AtMost dest.size content ∧ (f ()).Settles Dest.size a := by
  cases content with
  | none =>
    rw [copyTo, Prog.settles_bind]
    constructor
    · rintro ⟨u, -, h⟩
      exact ⟨nofun, h⟩
    · rintro ⟨-, h⟩
      exact ⟨(), Prog.settles_pure.mpr rfl, h⟩
  | some c =>
    rw [copyTo, Prog.settles_touch_bind]
    refine and_congr ⟨fun h b hb => ?_, fun h => .inr ?_⟩ Iff.rfl
    · obtain rfl := Option.mem_some.mp hb
      omega
    · have hle := h c rfl
      omega

/-! ## The channel list -/

def classChannels : List UInt8 → Option (List UInt8)
  | [] => some []
  | [_] => none
  | _ :: temp :: rest =>
    if temp.toNat ≤ rest.length then
      (classChannels (rest.drop temp.toNat)).map (rest.take temp.toNat ++ ·)
    else none
termination_by l => l.length
decreasing_by
  rw [List.length_drop, List.length_cons, List.length_cons]
  omega

def listChannels (content : List UInt8) : Option (List UInt8) :=
  if content.length < 3 then none else classChannels (content.drop 3)

/-- `rtw_p2p_get_peer_ch_list` of a content, with what stands behind it. -/
def getPeerChList (n : ℕ) (content behind : List UInt8) : Prog Dest (UInt8 × List UInt8) :=
  (rtwP2pGetPeerChList (content ++ behind) (UInt8.ofNat content.length) n).mapRegion
    (Dest.chList content.length)

section Walk

variable {content behind out tail : List UInt8} {w : PeerWalk}

theorem copyEntries_reads {src peer : List UInt8} {n pos : ℕ} {j : UInt8} {size : Region → ℕ}
    {r : UInt8 × List UInt8} (h : (copyEntries src n pos j peer).Settles size r) :
    n = 0 ∨ pos + n ≤ size .content := by
  induction n generalizing pos j peer with
  | zero => exact .inl rfl
  | succ n ih =>
    rw [copyEntries, Prog.settles_touch_bind, Prog.settles_touch_bind] at h
    obtain ⟨hread, -, hrest⟩ := h
    have hnext := ih hrest
    omega

theorem copyEntries_inside {src peer : List UInt8} {n pos k : ℕ} {size : Region → ℕ}
    (hread : pos + n ≤ size .content) (hwrite : k + n ≤ size .peer) (hk : k + n < 256) :
    (copyEntries src n pos (UInt8.ofNat k) peer).Inside size := by
  induction n generalizing pos k peer with
  | zero => exact nofun
  | succ n ih =>
    have hknat : (UInt8.ofNat k).toNat = k := by
      rw [UInt8.toNat_ofNat']
      exact Nat.mod_eq_of_lt (by omega)
    have hnext : UInt8.ofNat k + 1 = UInt8.ofNat (k + 1) := by
      rw [UInt8.ofNat_add]
      rfl
    rw [copyEntries, Prog.inside_touch_bind, Prog.inside_touch_bind, hknat, hnext]
    exact ⟨.inr (by omega), .inr (by omega), ih (by omega) (by omega) (by omega)⟩

structure Walked (content : List UInt8) (w : PeerWalk) (out tail : List UInt8) : Prop where
  pos : w.pos + w.chCnt.toNat = content.length
  j : w.j = UInt8.ofNat out.length
  chNo : w.chNo = UInt8.ofNat out.length
  peer : w.peer = out ++ tail
  room : out.length + w.chCnt.toNat ≤ 100
  tail : w.chCnt.toNat ≤ tail.length

theorem Walked.next (h : Walked content w out tail) {regClass temp : UInt8} {rest : List UInt8}
    (hdrop : content.drop w.pos = regClass :: temp :: rest) (hle : temp.toNat ≤ rest.length) :
    ∃ copied, (copyEntries (content ++ behind) temp.toNat (w.pos + 2) w.j w.peer).Settles
        (fun r => Dest.size (.chList content.length r)) copied ∧
      Walked content (w.next temp copied) (out ++ rest.take temp.toNat)
        (tail.drop temp.toNat) := by
  have hpos := h.pos
  have hroom := h.room
  have htail := h.tail
  have hlen := congrArg List.length hdrop
  rw [List.length_drop, List.length_cons, List.length_cons] at hlen
  have hcs : (rest.take temp.toNat).length = temp.toNat := List.length_take_of_le hle
  have hsplit : content = content.take w.pos ++ regClass :: temp :: rest := by
    rw [← hdrop, List.take_append_drop]
  have hret := @copyEntries_ret (content ++ behind) (content.take w.pos ++ [regClass, temp])
    (rest.take temp.toNat) (rest.drop temp.toNat ++ behind) out tail (w.pos + 2) w.j
    (by
      rw [← List.append_assoc (rest.take _), List.take_append_drop, List.append_assoc]
      conv_lhs => rw [hsplit]
      rw [List.append_assoc]
      rfl)
    (by rw [List.length_append, List.length_take_of_le (by omega)]; rfl) h.j
    (by omega) (by omega)
  rw [hcs] at hret
  have hcnt : (w.chCnt - 1 - (temp + 1)).toNat = w.chCnt.toNat - 2 - temp.toNat := by
    have hwhole : w.chCnt.toNat = temp.toNat + 2 + (w.chCnt.toNat - 2 - temp.toNat) := by omega
    have hnext := cnt_next temp.toNat (w.chCnt.toNat - 2 - temp.toNat)
    rw [← hwhole, UInt8.ofNat_toNat, UInt8.ofNat_toNat] at hnext
    rw [hnext, UInt8.toNat_ofNat']
    exact Nat.mod_eq_of_lt (by omega)
  refine ⟨_, ⟨by rw [h.peer]; exact hret, ?_⟩, ⟨?_, ?_, ?_, rfl, ?_, ?_⟩⟩
  · rw [h.j]
    refine copyEntries_inside ?_ ?_ (by omega)
    · change w.pos + 2 + temp.toNat ≤ content.length
      omega
    · change out.length + temp.toNat ≤ 100
      omega
  · change w.pos + 2 + temp.toNat + (w.chCnt - 1 - (temp + 1)).toNat = content.length
    omega
  · rw [List.length_append, hcs]
    rfl
  · change w.chNo + temp = _
    rw [h.chNo, List.length_append, hcs, UInt8.ofNat_add, UInt8.ofNat_toNat]
  · change (out ++ rest.take temp.toNat).length + (w.chCnt - 1 - (temp + 1)).toNat ≤ 100
    rw [List.length_append, hcs]
    omega
  · change (w.chCnt - 1 - (temp + 1)).toNat ≤ (tail.drop temp.toNat).length
    rw [List.length_drop]
    omega

theorem getD_of_drop {pos : ℕ} {a b : UInt8} {rest : List UInt8}
    (hdrop : content.drop pos = a :: b :: rest) : (content ++ behind).getD (pos + 1) 0 = b := by
  have hb : content[pos + 1]? = some b := by
    rw [← List.getElem?_drop, hdrop]
    rfl
  rw [List.getD_eq_getElem?_getD, List.getElem?_append_left (List.getElem?_eq_some_iff.mp hb).1, hb]
  rfl

theorem drop_next {regClass temp : UInt8} {rest : List UInt8} (copied : UInt8 × List UInt8)
    (hdrop : content.drop w.pos = regClass :: temp :: rest) :
    content.drop (w.next temp copied).pos = rest.drop temp.toNat := by
  change content.drop (w.pos + 2 + temp.toNat) = _
  rw [← List.drop_drop, ← List.drop_drop, hdrop]
  rfl

theorem exists_cons_cons {l : List UInt8} (h : 2 ≤ l.length) : ∃ a b t, l = a :: b :: t := by
  obtain ⟨a, l, rfl⟩ := List.exists_cons_of_length_pos (Nat.lt_of_lt_of_le Nat.zero_lt_two h)
  obtain ⟨b, t, rfl⟩ := List.exists_cons_of_length_pos (Nat.lt_of_succ_lt_succ h)
  exact ⟨a, b, t, rfl⟩

theorem Walked.channels {n : ℕ} {r : UInt8 × List UInt8} (h : Walked content w out tail)
    (hr : (walkClasses (content ++ behind) n w).Settles
      (fun r => Dest.size (.chList content.length r)) r) :
    ∃ chs, classChannels (content.drop w.pos) = some chs ∧ r.2.take r.1.toNat = out ++ chs := by
  induction n generalizing w out tail with
  | zero => exact absurd hr Prog.not_settles_giveUp
  | succ n ih =>
    have hpos := h.pos
    have hroom := h.room
    rw [walkClasses] at hr
    by_cases hzero : w.chCnt = 0
    · rw [if_pos hzero, Prog.settles_pure] at hr
      rw [hzero, UInt8.toNat_zero] at hpos
      rw [List.drop_of_length_le (by omega), hr]
      refine ⟨[], classChannels.eq_1, ?_⟩
      have hno : w.chNo.toNat = out.length := by
        rw [h.chNo, UInt8.toNat_ofNat']
        exact Nat.mod_eq_of_lt (by omega)
      rw [hno, h.peer, List.take_left, List.append_nil]
    · rw [if_neg hzero, Prog.settles_touch_bind, Prog.settles_bind] at hr
      obtain ⟨hread, copied, hcopied, hrest⟩ := hr
      change 1 = 0 ∨ w.pos + 1 + 1 ≤ content.length at hread
      obtain ⟨regClass, temp, rest, hdrop⟩ : ∃ a b rest, content.drop w.pos = a :: b :: rest := by
        have hlen : 2 ≤ (content.drop w.pos).length := by
          rw [List.length_drop]
          omega
        exact exists_cons_cons hlen
      rw [getD_of_drop hdrop] at hcopied hrest
      have hlen := congrArg List.length hdrop
      rw [List.length_drop, List.length_cons, List.length_cons] at hlen
      have hle : temp.toNat ≤ rest.length := by
        have hreads : temp.toNat = 0 ∨ w.pos + 2 + temp.toNat ≤ content.length :=
          copyEntries_reads hcopied
        omega
      obtain ⟨copied', hcopied', hwalked⟩ := h.next hdrop hle
      obtain rfl := Option.some.inj (hcopied'.ret.symm.trans hcopied.ret)
      obtain ⟨chs, hchs, hout⟩ := ih hwalked hrest
      rw [drop_next copied' hdrop] at hchs
      refine ⟨rest.take temp.toNat ++ chs, ?_, by rw [hout, List.append_assoc]⟩
      rw [hdrop, classChannels, if_pos hle, hchs]
      rfl

theorem Walked.settles {n : ℕ} {chs : List UInt8} (h : Walked content w out tail)
    (hchs : classChannels (content.drop w.pos) = some chs) (hn : w.chCnt.toNat < n) :
    ∃ r, (walkClasses (content ++ behind) n w).Settles
      (fun r => Dest.size (.chList content.length r)) r := by
  induction n generalizing w out tail chs with
  | zero => exact absurd hn (Nat.not_lt_zero _)
  | succ n ih =>
    have hpos := h.pos
    rw [walkClasses]
    by_cases hzero : w.chCnt = 0
    · rw [if_pos hzero]
      exact ⟨_, Prog.settles_pure.mpr rfl⟩
    · have hleft : w.chCnt.toNat ≠ 0 := fun hnat => hzero (UInt8.toNat_inj.mp hnat)
      have hlen : (content.drop w.pos).length = w.chCnt.toNat := by
        rw [List.length_drop]
        omega
      rcases hdrop : content.drop w.pos with _ | ⟨regClass, _ | ⟨temp, rest⟩⟩
      · rw [hdrop] at hlen
        exact absurd hlen.symm hleft
      · rw [hdrop, classChannels] at hchs
        cases hchs
      · rw [hdrop, classChannels] at hchs
        rw [hdrop, List.length_cons, List.length_cons] at hlen
        by_cases hle : temp.toNat ≤ rest.length
        · rw [if_pos hle] at hchs
          obtain ⟨chs', hchs', -⟩ := Option.map_eq_some_iff.mp hchs
          obtain ⟨copied, hcopied, hwalked⟩ := h.next hdrop hle
          have hnext := hwalked.pos
          have hposnext : (w.next temp copied).pos = w.pos + 2 + temp.toNat := rfl
          obtain ⟨r, hr⟩ := ih hwalked (by rw [drop_next copied hdrop]; exact hchs') (by omega)
          rw [if_neg hzero, getD_of_drop hdrop]
          refine ⟨r, Prog.settles_touch_bind.mpr ⟨.inr ?_, Prog.settles_bind.mpr ⟨_, hcopied, hr⟩⟩⟩
          change w.pos + 1 + 1 ≤ content.length
          omega
        · rw [if_neg hle] at hchs
          cases hchs

end Walk

theorem walked_start {content : List UInt8} (hlen : content.length ≤ 100)
    (hcountry : 3 ≤ content.length) :
    Walked content
      { pos := 3
        chCnt := UInt8.ofNat content.length - 3
        j := 0
        chNo := 0
        peer := List.replicate 100 0 } [] (List.replicate 100 0) := by
  have hcnt : (UInt8.ofNat content.length - 3).toNat = content.length - 3 := by
    have hle : (3 : UInt8) ≤ UInt8.ofNat content.length := by
      rw [UInt8.le_iff_toNat_le, UInt8.toNat_ofNat', Nat.mod_eq_of_lt (by omega)]
      exact hcountry
    rw [UInt8.toNat_sub_of_le _ _ hle, UInt8.toNat_ofNat', Nat.mod_eq_of_lt (by omega)]
    rfl
  refine ⟨?_, rfl, rfl, rfl, ?_, ?_⟩
  · dsimp only
    omega
  · dsimp only [List.length_nil]
    omega
  · rw [List.length_replicate]
    dsimp only
    omega

section PeerChList

variable {content behind : List UInt8} (hlen : content.length ≤ 100)

include hlen

theorem listChannels_of_settles {n : ℕ} {r : UInt8 × List UInt8}
    (h : (getPeerChList n content behind).Settles Dest.size r) :
    listChannels content = some (r.2.take r.1.toNat) := by
  rw [getPeerChList, Prog.settles_mapRegion, ChannelList.rtwP2pGetPeerChList] at h
  by_cases hcountry : 3 ≤ content.length
  · obtain ⟨chs, hchs, hout⟩ := (walked_start hlen hcountry).channels h
    rw [listChannels, if_neg (by omega), hout]
    exact hchs
  · -- the count of what is left wraps, and the first class is behind the content
    cases n with
    | zero => exact absurd h Prog.not_settles_giveUp
    | succ n =>
      have hcnt : UInt8.ofNat content.length - 3 ≠ 0 := by
        have hcases : content.length = 0 ∨ content.length = 1 ∨ content.length = 2 := by omega
        rcases hcases with h0 | h0 | h0 <;> rw [h0] <;> decide
      rw [walkClasses, if_neg hcnt, Prog.settles_touch_bind] at h
      have hread : 1 = 0 ∨ 3 + 1 + 1 ≤ content.length := h.1
      omega

theorem getPeerChList_settles {chs : List UInt8} (h : listChannels content = some chs) :
    ∃ r, (getPeerChList 100 content behind).Settles Dest.size r ∧ r.2.take r.1.toNat = chs := by
  have hcountry : 3 ≤ content.length := by
    by_contra hshort
    rw [listChannels, if_pos (by omega)] at h
    exact nomatch h
  have hchs := h
  rw [listChannels, if_neg (by omega)] at hchs
  have hwalked := walked_start hlen hcountry
  have hpos := hwalked.pos
  dsimp only at hpos
  obtain ⟨r, hr⟩ := @Walked.settles content behind _ _ _ 100 chs hwalked hchs (by
    dsimp only
    omega)
  have hr' : (getPeerChList 100 content behind).Settles Dest.size r :=
    Prog.settles_mapRegion.mpr hr
  exact ⟨r, hr', Option.some.inj ((listChannels_of_settles hlen hr').symm.trans h)⟩

end PeerChList

/-- `rtw_p2p_ch_inclusion` -/
def inclusion (channelSet : List ℕ) (channels : List UInt8) : List ℕ :=
  rtwP2pChInclusion channelSet (channels.map UInt8.toNat) 0

def commonChannels (n : ℕ) (channelSet : List ℕ) (content behind : List UInt8) :
    Prog Dest (List ℕ) :=
  getPeerChList n content behind >>= fun peer =>
    pure (inclusion channelSet (peer.2.take peer.1.toNat))

def common (channelSet : List ℕ) (content : List UInt8) : Option (List ℕ) :=
  (listChannels content).map (inclusion channelSet)

section Common

variable {channelSet incl : List ℕ} {content behind : List UInt8} (hlen : content.length ≤ 100)

include hlen

theorem common_of_settles {n : ℕ}
    (h : (commonChannels n channelSet content behind).Settles Dest.size incl) :
    common channelSet content = some incl := by
  obtain ⟨peer, hpeer, hincl⟩ := Prog.settles_bind.mp h
  rw [common, listChannels_of_settles hlen hpeer, Prog.settles_pure.mp hincl]
  rfl

theorem commonChannels_settles (h : common channelSet content = some incl) :
    (commonChannels 100 channelSet content behind).Settles Dest.size incl := by
  obtain ⟨chs, hchs, rfl⟩ := Option.map_eq_some_iff.mp h
  obtain ⟨peer, hpeer, htake⟩ := @getPeerChList_settles content behind hlen chs hchs
  exact Prog.settles_bind.mpr ⟨peer, hpeer, Prog.settles_pure.mpr (by rw [htake])⟩

end Common

def attrStatus : UInt8 := 0

def attrCapability : UInt8 := 2

def attrGroupBssid : UInt8 := 7

def attrNoa : UInt8 := 12

def attrGroupId : UInt8 := 15

def attrInvitationFlags : UInt8 := 18

/-! ## What fits in an element -/

section Sizes

variable {mem : List UInt8} {ie ielen off : ℕ} {id : UInt8}

theorem getP2pAttrFrom_fits {n : ℕ} {attr : ℕ × ℕ}
    (h : P2pAttrs.getP2pAttrFrom mem ie ielen id n off = some attr)
    (hfits : lengthsFit mem ie ielen n off = true) : 3 ≤ attr.2 ∧ off + attr.2 ≤ ielen := by
  induction n generalizing off with
  | zero => cases h
  | succ n ih =>
    rw [P2pAttrs.getP2pAttrFrom] at h
    rw [lengthsFit] at hfits
    by_cases hhead : off + 3 ≤ ielen
    · rw [if_pos hhead] at h hfits
      obtain ⟨hlen, hrest⟩ := Bool.and_eq_true_iff.mp hfits
      have hlen := of_decide_eq_true hlen
      have hu16 : P2pAttrs.u16 (le16 mem (ie + off + 1) + 3) = le16 mem (ie + off + 1) + 3 :=
        Nat.mod_eq_of_lt hlen
      dsimp only at h
      rw [hu16] at h
      by_cases hin : ielen < off + (le16 mem (ie + off + 1) + 3)
      · rw [if_pos hin] at h
        cases h
      · rw [if_neg hin] at h
        by_cases hid : byteAt mem (ie + off) = id.toNat
        · rw [if_pos hid] at h
          obtain rfl := Option.some.inj h
          dsimp only
          omega
        · rw [if_neg hid] at h
          have hnext := ih h hrest
          omega
    · rw [if_neg hhead] at h
      cases h

theorem content_le (hfits : lengthsFit mem ie ielen ielen 6 = true) (hlen : ielen ≤ 257) :
    AtMost 248 (rtwGetP2pAttrContent mem ie ielen id) := by
  intro content hcontent
  obtain ⟨attr, hattr, hcontent⟩ := Option.bind_eq_some_iff.mp hcontent
  rw [rtwGetP2pAttr] at hattr
  split at hattr
  · cases hattr
  · obtain ⟨hthree, hin⟩ := getP2pAttrFrom_fits hattr hfits
    rw [if_neg (by omega)] at hcontent
    obtain rfl := Option.some.inj hcontent
    have hsub : usub attr.2 3 = attr.2 - 3 := by
      rw [usub, u32]
      omega
    rw [bytesFrom, List.length_map, List.length_range, hsub]
    omega

theorem getP2pIeFrom_le {inIe inLen n cnt : ℕ} {e : ℕ × ℕ}
    (h : P2pAttrs.getP2pIeFrom mem inIe inLen n cnt = some e) : e.2 ≤ 257 := by
  induction n generalizing cnt with
  | zero => exact nomatch h
  | succ n ih =>
    rw [P2pAttrs.getP2pIeFrom] at h
    have hbyte := byteAt_lt mem (inIe + cnt + 1)
    split_ifs at h
    · obtain rfl := Option.some.inj h
      dsimp only
      omega
    · exact ih h

theorem rtwGetP2pIe_le {inIe inLen : ℕ} {e : ℕ × ℕ} (h : rtwGetP2pIe mem inIe inLen = some e) :
    e.2 ≤ 257 := by
  rw [rtwGetP2pIe] at h
  by_cases hout : inLen = 0 ∨ 2 ^ 31 ≤ inLen
  · rw [if_pos hout] at h
    cases h
  · rw [if_neg hout] at h
    exact getP2pIeFrom_le h

theorem p2pIesFrom_le {ies iesLen n start left : ℕ} {e : ℕ × ℕ}
    (he : e ∈ p2pIesFrom mem ies iesLen n start left) : e.2 ≤ 257 := by
  induction n generalizing start left with
  | zero => exact absurd he List.not_mem_nil
  | succ n ih =>
    rw [p2pIesFrom] at he
    cases hfound : rtwGetP2pIe mem start left with
    | none =>
      rw [hfound] at he
      exact absurd he List.not_mem_nil
    | some found =>
      rw [hfound] at he
      rcases List.mem_cons.mp he with hhead | hrest
      · rw [hhead]
        exact rtwGetP2pIe_le hfound
      · exact ih hrest

theorem attrs_le {offset : ℕ} (f : Body offset) : ∀ ie ∈ f.attrs, ∀ id, AtMost 248 (ie id) := by
  intro ie hie id
  rw [Body.attrs] at hie
  obtain ⟨e, he, rfl⟩ := List.mem_map.mp hie
  rw [Body.p2pIes, p2pIesOf] at he
  exact content_le (f.fits e he) (p2pIesFrom_le he)

end Sizes

end Rtl8189.AttrCopy
