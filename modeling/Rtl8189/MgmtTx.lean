import Rtl8189.WfdRemove

/-!
# Management frames of the host

A frame that the host hands over, by `mgmt_tx` or through the monitor interface, is copied into
a management transmit buffer behind the descriptor. `rtw_xframe_chk_wfd_ie` takes the WFD
elements out of a P2P public action frame and appends its own. Nothing compares the length with
the size of the buffer.
-/
namespace Rtl8189.MgmtTx

open AccessTrace ElemList IeLookup WfdRemove

def maxXmitExtbufSz : ℕ := 1536

def txdescOffset : ℕ := 32

def wlanhdrOffset : ℕ := 64

def hdr3addr : ℕ := 24

def publicActionIeOffset : ℕ := 8

def p2pOui : List UInt8 := [0x50, 0x6f, 0x9a, 0x09]

/-! ## The elements of the driver -/

inductive P2pRole where
  | disable
  | device
  | client
  | go
deriving DecidableEq

structure WifidirectInfo where
  /-- `hal_chk_wl_func(adapter, WL_FUNC_MIRACAST)` -/
  miracast : Bool
  wfdEnable : Bool
  wfdDeviceType : UInt16
  rtspCtrlport : UInt16
  linked : Bool
  assocBssid : MacAddr
  role : P2pRole

def rtwSetIe (index : UInt8) (source : List UInt8) : List UInt8 :=
  index :: UInt8.ofNat source.length :: source

def devinfoSessionAvail : UInt16 := 0x0010

def devinfoWsd : UInt16 := 0x0040

def wfdAttributes (w : WifidirectInfo) : List UInt8 :=
  [0x00] ++ be16Bytes 6 ++
    be16Bytes (w.wfdDeviceType ||| devinfoWsd ||| devinfoSessionAvail).toNat ++
    be16Bytes w.rtspCtrlport.toNat ++ be16Bytes 300 ++
    [0x01] ++ be16Bytes 6 ++
    (if w.linked then w.assocBssid.toList else List.replicate 6 0) ++
    [0x06] ++ be16Bytes 7 ++ List.replicate 7 0

def sessionInfo : List UInt8 := [0x09] ++ be16Bytes 0

def buildWfdIe (session : P2pRole → Bool) (w : WifidirectInfo) : Option (List UInt8) :=
  if w.miracast then
    some (rtwSetIe vendorSpecific
      (wfdOui ++ wfdAttributes w ++ if session w.role then sessionInfo else []))
  else none

def buildNegoReqWfdIe : WifidirectInfo → Option (List UInt8) := buildWfdIe fun _ => false

def buildNegoRespWfdIe : WifidirectInfo → Option (List UInt8) := buildWfdIe fun _ => false

def buildNegoConfirmWfdIe : WifidirectInfo → Option (List UInt8) := buildWfdIe fun _ => false

def buildInvitationReqWfdIe : WifidirectInfo → Option (List UInt8) := buildWfdIe (· = .go)

def buildInvitationRespWfdIe : WifidirectInfo → Option (List UInt8) := buildWfdIe (· = .go)

def buildProvdiscReqWfdIe : WifidirectInfo → Option (List UInt8) := buildWfdIe fun _ => false

def buildProvdiscRespWfdIe : WifidirectInfo → Option (List UInt8) := buildWfdIe fun _ => false

/-! ## The frame in its buffer -/

structure XmitFrame where
  buf : Buf
  pktlen : ℕ

def p2pPublic (mem : List UInt8) (frameBody : ℕ) : Option ℕ :=
  if byteAt mem frameBody = 4 ∧ byteAt mem (frameBody + 1) = 9 ∧
      (mem.drop (frameBody + 2)).take 4 = p2pOui then
    some (byteAt mem (frameBody + 6))
  else none

def wfdIeFor (w : WifidirectInfo) : ℕ → Option (List UInt8)
  | 0 => buildNegoReqWfdIe w
  | 1 => buildNegoRespWfdIe w
  | 2 => buildNegoConfirmWfdIe w
  | 3 => buildInvitationReqWfdIe w
  | 4 => buildInvitationRespWfdIe w
  | 7 => buildProvdiscReqWfdIe w
  | 8 => buildProvdiscRespWfdIe w
  | _ => none

def rtwXframeBuildWfdIe (w : WifidirectInfo) (x : XmitFrame) : XmitFrame :=
  match (p2pPublic x.buf.mem (txdescOffset + hdr3addr)).bind (wfdIeFor w) with
  | none => x
  | some ie =>
    { buf := x.buf.memcpy (txdescOffset + x.pktlen) ie
      pktlen := u32 (x.pktlen + ie.length) }

def carriesWfd (subtype : ℕ) : Prop := subtype ∈ [0, 1, 2, 3, 4, 7, 8]

instance (subtype : ℕ) : Decidable (carriesWfd subtype) := inferInstanceAs (Decidable (_ ∈ _))

def rtwXframeDelWfdIe (x : XmitFrame) : XmitFrame :=
  let frameBody := txdescOffset + hdr3addr
  let ies := frameBody + publicActionIeOffset
  let iesLenOri := usub (txdescOffset + x.pktlen) ies
  if (∃ s ∈ p2pPublic x.buf.mem frameBody, carriesWfd s) ∧ iesLenOri ≠ 0 then
    let left := rtwDelWfdIe ies iesLenOri x.buf
    { buf := left.2, pktlen := usub x.pktlen (usub iesLenOri left.1) }
  else x

def rtwXframeChkWfdIe (w : WifidirectInfo) (x : XmitFrame) : XmitFrame :=
  let x := if !w.miracast || w.wfdEnable then rtwXframeDelWfdIe x else x
  if w.wfdEnable then rtwXframeBuildWfdIe w x else x

def fill (mem frame : List UInt8) : XmitFrame where
  buf := (({ mem } : Buf).memset 0 0 (wlanhdrOffset + txdescOffset)).memcpy txdescOffset frame
  pktlen := u32 frame.length

/-- The value of `rtw_p2p_check_frames`, with `none` for -1. -/
def rtwP2pCheckFrames (mem : List UInt8) : Option ℕ :=
  if byteAt mem hdr3addr = 4 then p2pPublic mem hdr3addr
  else if byteAt mem hdr3addr = 0x7f then some (byteAt mem (hdr3addr + 5))
  else none

/-- What the host hands over, with what stands behind it in memory. -/
inductive Entry where
  | mgmtTx (buf behind : List UInt8) (saeTaken : Bool)
  | monitor (skb behind : List UInt8)

def stype (mem : List UInt8) : ℕ := byteAt mem 0 / 16

def isAction (mem : List UInt8) : Prop := byteAt mem 0 / 4 % 4 = 0 ∧ stype mem = 13

instance (mem : List UInt8) : Decidable (isAction mem) := inferInstanceAs (Decidable (_ ∧ _))

/-- The frame that comes to the transmit path, if one does. The monitor interface wants a
radiotap header of 14 bytes, and action frames only. -/
def Entry.frame : Entry → Option (List UInt8)
  | .mgmtTx buf behind saeTaken =>
    let mem := buf ++ behind
    if stype mem = 5 ∨ stype mem = 11 ∧ saeTaken = false ∨ isAction mem then some buf
    else none
  | .monitor skb behind =>
    if 14 ≤ skb.length ∧ byteAt skb 0 = 0 ∧ le16 skb 2 = 14 ∧ isAction (skb.drop 14 ++ behind) then
      some (skb.drop 14)
    else none

def transmit (w : WifidirectInfo) (mem : List UInt8) (e : Entry) : Option XmitFrame :=
  e.frame.map fun frame =>
    match e with
    | .mgmtTx _ _ _ => rtwXframeChkWfdIe w (fill mem frame)
    | .monitor _ behind =>
      if (rtwP2pCheckFrames (frame ++ behind)).isSome then rtwXframeChkWfdIe w (fill mem frame)
      else fill mem frame

/-! ## What is asked -/

section Asked

variable (w : WifidirectInfo) (frame : List UInt8) (l : List Elem) (r : List UInt8)

/-- The OUI subtype of a frame; what it lacks reads as zero, as the buffer was cleared. -/
def subtypeOf : Option ℕ := p2pPublic (frame ++ List.replicate 31 0) hdr3addr

def Edited : Prop := (!w.miracast || w.wfdEnable) = true ∧ ∃ s ∈ subtypeOf frame, carriesWfd s

instance : Decidable (Edited w frame) := inferInstanceAs (Decidable (_ ∧ _))

def appended : Option (List UInt8) :=
  if w.wfdEnable then (subtypeOf frame).bind (wfdIeFor w) else none

def kept : List UInt8 :=
  if Edited w frame then frame.take 32 ++ (encode (strip l 0) ++ r) else frame

def sent : List UInt8 := kept w frame l r ++ (appended w frame).getD []

def Splits : Prop := frame.drop 32 = encode l ++ r ∧ Cut r

/-- All writes are inside the buffer, and the frame is that of the host but for WFD elements. -/
structure Fits (x : XmitFrame) : Prop where
  inside : Within maxXmitExtbufSz x.buf.ops
  pktlen : x.pktlen = (sent w frame l r).length
  bytes : (x.buf.mem.drop txdescOffset).take x.pktlen = sent w frame l r

/-- The frame fits before and after it is edited, and without the WFD elements that the search
comes to nothing in it looks like one. -/
structure Sound : Prop where
  short : txdescOffset + frame.length ≤ maxXmitExtbufSz
  clean : Edited w frame → search r (strip l 0) 0 = none
  room : txdescOffset + (sent w frame l r).length ≤ maxXmitExtbufSz

end Asked

/-! ## Reading the kind of a frame -/

section Kind

variable {mem mem' : List UInt8} {k p : ℕ}

theorem byteAt_of_take (h : mem.take k = mem'.take k) (hp : p < k) :
    byteAt mem p = byteAt mem' p := by
  have hget := congrArg (fun b : List UInt8 => b[p]?) h
  simp only [List.getElem?_take, if_pos hp] at hget
  simp only [byteAt, List.getD_eq_getElem?_getD, hget]

theorem oui_of_take (h : mem.take k = mem'.take k) (hp : p + 4 ≤ k) :
    (mem.drop p).take 4 = (mem'.drop p).take 4 := by
  have hdrop := congrArg (fun b : List UInt8 => (b.drop p).take 4) h
  simp only [List.drop_take, List.take_take] at hdrop
  rwa [Nat.min_eq_left (by omega)] at hdrop

theorem p2pPublic_congr (h : mem.take 31 = mem'.take 31) :
    p2pPublic mem hdr3addr = p2pPublic mem' hdr3addr := by
  unfold p2pPublic hdr3addr
  rw [byteAt_of_take h (by decide), byteAt_of_take h (by decide), byteAt_of_take h (by decide),
    oui_of_take h (by decide)]

theorem p2pPublic_shift (pre mem : List UInt8) :
    p2pPublic (pre ++ mem) (pre.length + hdr3addr) = p2pPublic mem hdr3addr := by
  unfold p2pPublic
  rw [Nat.add_assoc, Nat.add_assoc, Nat.add_assoc, byteAt_append_right, byteAt_append_right,
    byteAt_append_right, ← List.drop_drop, List.drop_left]

theorem isSome_of_padded {frame : List UInt8} (behind : List UInt8)
    (h : (subtypeOf frame).isSome) : (p2pPublic (frame ++ behind) hdr3addr).isSome := by
  unfold subtypeOf p2pPublic at h
  split_ifs at h with hp2p
  · obtain ⟨hcat, hact, houi⟩ := hp2p
    have hlen : 30 ≤ frame.length := by
      by_contra hshort
      have hlast := congrArg (fun b : List UInt8 => b[3]?) houi
      have hzero : (frame ++ List.replicate 31 (0 : UInt8))[29]? = some 0 := by
        rw [List.getElem?_append_right (by omega), List.getElem?_replicate_of_lt (by omega)]
      simp only [List.getElem?_take, List.getElem?_drop, hdr3addr] at hlast
      rw [if_pos (by decide), hzero] at hlast
      exact absurd hlast (by decide)
    have htake : (frame ++ List.replicate 31 (0 : UInt8)).take 30 = (frame ++ behind).take 30 := by
      rw [List.take_append_of_le_length hlen, List.take_append_of_le_length hlen]
    unfold p2pPublic
    rw [if_pos]
    · rfl
    · unfold hdr3addr at *
      rw [← byteAt_of_take htake (by decide), ← byteAt_of_take htake (by decide),
        ← oui_of_take htake (by decide)]
      exact ⟨hcat, hact, houi⟩
  · cases h

end Kind

/-! ## The copy -/

variable (w : WifidirectInfo) {frame r mem : List UInt8} {l : List Elem} {x : XmitFrame}

def clear : List UInt8 := List.replicate txdescOffset 0

theorem fill_mem (mem frame : List UInt8) : ∃ behind,
    (fill mem frame).buf.mem = clear ++ (frame ++ behind) ∧
      (frame ++ behind).take 31 = (frame ++ List.replicate 31 0).take 31 := by
  have hmem : ({ mem } : Buf).memset 0 0 (wlanhdrOffset + txdescOffset) =
      { mem := clear ++ (List.replicate wlanhdrOffset 0 ++ mem.drop (wlanhdrOffset + txdescOffset))
        ops := [.bytes 0 (wlanhdrOffset + txdescOffset)] } := by
    simp only [Buf.memset, Buf.memcpy, putBytes, List.take_zero, List.nil_append, Nat.zero_add,
      List.length_replicate, clear, ← List.append_assoc, List.replicate_append_replicate]
    rfl
  refine ⟨(List.replicate wlanhdrOffset 0 ++ mem.drop (wlanhdrOffset + txdescOffset)).drop
    frame.length, ?_, ?_⟩
  · rw [fill, hmem]
    exact putBytes_right clear _ frame
  · by_cases hlen : 31 ≤ frame.length
    · rw [List.take_append_of_le_length hlen, List.take_append_of_le_length hlen]
    · have hsplit : (List.replicate wlanhdrOffset (0 : UInt8)).length = 64 := rfl
      rw [List.take_append, List.take_append, List.drop_append_of_le_length (by omega),
        List.drop_replicate, List.take_append_of_le_length, List.take_replicate,
        List.take_replicate]
      · congr 2
        unfold wlanhdrOffset
        omega
      · rw [List.length_replicate]
        unfold wlanhdrOffset
        omega

theorem fill_subtype (mem frame : List UInt8) :
    p2pPublic (fill mem frame).buf.mem (txdescOffset + hdr3addr) = subtypeOf frame := by
  obtain ⟨behind, hmem, htake⟩ := fill_mem mem frame
  rw [hmem, subtypeOf, ← p2pPublic_congr htake]
  exact p2pPublic_shift clear (frame ++ behind)

theorem fill_ops (mem frame : List UInt8) : (fill mem frame).buf.ops =
    [.bytes 0 (wlanhdrOffset + txdescOffset), .bytes txdescOffset frame.length] := by
  simp only [fill, Buf.memset, Buf.memcpy, List.nil_append, List.length_replicate,
    List.singleton_append]
  rfl

/-- The loop with its length kept as a variable, which must not be unfolded. -/
def afterDel (ies n : ℕ) (x : XmitFrame) : XmitFrame where
  buf := (rtwDelWfdIe ies n x.buf).2
  pktlen := usub x.pktlen (usub n (rtwDelWfdIe ies n x.buf).1)

theorem afterDel_ops (ies n : ℕ) (x : XmitFrame) :
    ∀ op ∈ x.buf.ops, op ∈ (afterDel ies n x).buf.ops := rtwDelWfdIe_ops ies n x.buf

theorem rtwXframeDelWfdIe_eq (x : XmitFrame) : rtwXframeDelWfdIe x =
    if (∃ s ∈ p2pPublic x.buf.mem (txdescOffset + hdr3addr), carriesWfd s) ∧
        usub (txdescOffset + x.pktlen) 64 ≠ 0 then
      afterDel 64 (usub (txdescOffset + x.pktlen) 64) x
    else x := rfl

def stripped (w : WifidirectInfo) (x : XmitFrame) : XmitFrame :=
  if !w.miracast || w.wfdEnable then rtwXframeDelWfdIe x else x

theorem stripped_ops (x : XmitFrame) : ∀ op ∈ x.buf.ops, op ∈ (stripped w x).buf.ops := by
  intro op hop
  unfold stripped
  split_ifs
  · rw [rtwXframeDelWfdIe_eq]
    split_ifs
    · exact afterDel_ops _ _ x op hop
    · exact hop
  · exact hop

theorem chk_ops (x : XmitFrame) :
    ∀ op ∈ (stripped w x).buf.ops, op ∈ (rtwXframeChkWfdIe w x).buf.ops := by
  intro op hop
  change op ∈ (if w.wfdEnable then rtwXframeBuildWfdIe w (stripped w x) else stripped w x).buf.ops
  split_ifs
  · unfold rtwXframeBuildWfdIe
    split
    · exact hop
    · exact List.mem_append_left _ hop
  · exact hop

/-! ## Taking elements out -/

/-- The frame stands behind the descriptor and is of the kind, and all was written inside. -/
structure Holds (frame : List UInt8) (kind : Option ℕ) (x : XmitFrame) : Prop where
  mem : ∃ behind, x.buf.mem = clear ++ (frame ++ behind)
  kind : p2pPublic x.buf.mem (txdescOffset + hdr3addr) = kind
  pktlen : x.pktlen = frame.length
  inside : Within maxXmitExtbufSz x.buf.ops

theorem fill_holds (mem : List UInt8) (h : txdescOffset + frame.length ≤ maxXmitExtbufSz) :
    Holds frame (subtypeOf frame) (fill mem frame) := by
  obtain ⟨behind, hmem, -⟩ := fill_mem mem frame
  unfold maxXmitExtbufSz txdescOffset at h
  refine ⟨⟨behind, hmem⟩, fill_subtype mem frame, Nat.mod_eq_of_lt (by omega), ?_⟩
  rw [fill_ops, within_cons, within_cons]
  exact ⟨bytes_within 0 (by decide), bytes_within txdescOffset h, within_nil⟩

theorem kind_of_take {behind : List UInt8} (hlen : 32 < frame.length) :
    p2pPublic (clear ++ (frame.take 32 ++ behind)) (txdescOffset + hdr3addr) =
      subtypeOf frame := by
  refine (p2pPublic_shift clear (frame.take 32 ++ behind)).trans (p2pPublic_congr ?_)
  rw [List.take_append_of_le_length (by rw [List.length_take]; omega), List.take_take,
    List.take_append_of_le_length (by omega)]
  rfl

theorem Holds.stands {kind : Option ℕ} (h : Holds frame kind x) (hs : Splits frame l r)
    (hshort : txdescOffset + frame.length ≤ maxXmitExtbufSz) (hlen : 32 < frame.length) :
    ∃ behind, Stands (clear ++ frame.take 32) r behind l (frame.length - 32) x.buf := by
  obtain ⟨behind, hmem⟩ := h.mem
  have hbody : (encode l ++ r).length = frame.length - 32 := by
    rw [← hs.1, List.length_drop]
  refine ⟨behind, hs.2, ?_, hbody.symm, ?_⟩
  · rw [hmem, List.append_assoc, ← List.append_assoc (encode l), ← hs.1,
      ← List.append_assoc (frame.take 32), List.take_append_drop]
  · unfold maxXmitExtbufSz at hshort
    omega

theorem length_pre (hlen : 32 < frame.length) : (clear ++ frame.take 32).length = 64 := by
  rw [List.length_append, List.length_take, clear, List.length_replicate, txdescOffset]
  omega

theorem usub_ies (hshort : txdescOffset + frame.length ≤ maxXmitExtbufSz)
    (h : 32 < frame.length) : usub (txdescOffset + frame.length) 64 = frame.length - 32 := by
  unfold maxXmitExtbufSz txdescOffset at hshort
  rw [usub, u32, txdescOffset]
  omega

theorem afterDel_short {n : ℕ} (hn : 2 ^ 31 ≤ n) (hpkt : x.pktlen < 2 ^ 32) :
    afterDel 64 n x = x := by
  rw [afterDel, rtwDelWfdIe, delFrom_out hn]
  have hsame : usub x.pktlen (usub n n) = x.pktlen := by
    rw [usub, usub, u32, u32]
    omega
  rw [hsame]

theorem splits_short (hs : Splits frame l r) (hlen : frame.length ≤ 32) : l = [] ∧ r = [] := by
  have hnil := hs.1
  rw [List.drop_of_length_le hlen] at hnil
  obtain ⟨hl, hr⟩ := List.append_eq_nil_iff.1 hnil.symm
  refine ⟨?_, hr⟩
  by_contra hne
  exact absurd (List.length_eq_zero_iff.2 hl) (encode_length_pos hne).ne'

theorem kept_short (hs : Splits frame l r) (hlen : frame.length ≤ 32) :
    kept w frame l r = frame := by
  obtain ⟨rfl, rfl⟩ := splits_short hs hlen
  unfold kept
  split_ifs
  · rw [List.take_of_length_le hlen]
    exact List.append_nil frame
  · rfl

theorem kept_length_le (hs : Splits frame l r) : (kept w frame l r).length ≤ frame.length := by
  unfold kept
  split_ifs
  · have hall := congrArg List.length hs.1
    have hstrip := strip_length_le l 0
    rw [List.length_drop, List.length_append] at hall
    rw [List.length_append, List.length_take, List.length_append]
    by_cases hlen : 32 < frame.length
    · omega
    · obtain ⟨rfl, rfl⟩ := splits_short hs (Nat.not_lt.1 hlen)
      rw [Nat.min_eq_right (Nat.not_lt.1 hlen)]
      exact Nat.le_refl _
  · exact Nat.le_refl _

/-- Without elements, or with a length that is negative as an `int`, nothing happens. -/
theorem del_short (h : Holds frame (subtypeOf frame) x) (hlen : frame.length ≤ 32) :
    rtwXframeDelWfdIe x = x := by
  rw [rtwXframeDelWfdIe_eq, h.pktlen]
  split_ifs with hcond
  · refine afterDel_short ?_ (by rw [h.pktlen]; omega)
    have hne := hcond.2
    rw [usub, u32, txdescOffset] at hne ⊢
    omega
  · rfl

theorem del_long (h : Holds frame (subtypeOf frame) x) (he : Edited w frame)
    (hshort : txdescOffset + frame.length ≤ maxXmitExtbufSz) (hlen : 32 < frame.length) :
    rtwXframeDelWfdIe x = afterDel 64 (frame.length - 32) x := by
  rw [rtwXframeDelWfdIe_eq, h.kind, h.pktlen, usub_ies hshort hlen, if_pos ⟨he.2, by omega⟩]

theorem del_exact (h : Holds frame (subtypeOf frame) x) (hs : Splits frame l r)
    (he : Edited w frame) (hshort : txdescOffset + frame.length ≤ maxXmitExtbufSz)
    (hclean : search r (strip l 0) 0 = none) :
    Holds (kept w frame l r) (subtypeOf frame) (rtwXframeDelWfdIe x) := by
  by_cases hlen : 32 < frame.length
  · obtain ⟨behind, hstands⟩ := h.stands hs hshort hlen
    have hpre := length_pre hlen
    have hcount := length_le_encode l
    have hbody := hstands.len
    rw [List.length_append] at hbody
    obtain ⟨tail', b', hrun, hmem, hin⟩ := delFrom_exact hstands (n := frame.length - 32)
      (by omega) hclean
    rw [hpre] at hrun hin
    rw [List.append_assoc, ← List.append_assoc (encode _)] at hmem
    have hstrip := strip_length_le l 0
    rw [del_long w h he hshort hlen, afterDel, rtwDelWfdIe, hrun, kept, if_pos he]
    refine ⟨⟨tail', by simp only [hmem, List.append_assoc]⟩, ?_, ?_, ?_⟩
    · rw [hmem]
      exact kind_of_take hlen
    · unfold maxXmitExtbufSz txdescOffset at hshort
      simp only [h.pktlen, List.length_append, List.length_take, usub, u32]
      omega
    · unfold maxXmitExtbufSz txdescOffset at *
      exact hin 1536 (by omega) h.inside
  · rw [del_short h (Nat.not_lt.1 hlen), kept_short w hs (Nat.not_lt.1 hlen)]
    exact h

/-- Where something else looks like a WFD element too much is taken out, or too much written. -/
theorem del_less (h : Holds frame (subtypeOf frame) x) (hs : Splits frame l r)
    (he : Edited w frame) (hshort : txdescOffset + frame.length ≤ maxXmitExtbufSz)
    (hclean : search r (strip l 0) 0 ≠ none)
    (hin : Within maxXmitExtbufSz (rtwXframeDelWfdIe x).buf.ops) :
    (rtwXframeDelWfdIe x).pktlen < (kept w frame l r).length ∧
      p2pPublic (rtwXframeDelWfdIe x).buf.mem (txdescOffset + hdr3addr) = subtypeOf frame := by
  by_cases hlen : 32 < frame.length
  · obtain ⟨behind, hstands⟩ := h.stands hs hshort hlen
    have hpre := length_pre hlen
    have hcount := length_le_encode l
    have hbody := hstands.len
    rw [List.length_append] at hbody
    have hstrip := strip_length_le l 0
    rw [del_long w h he hshort hlen] at hin ⊢
    have hfuel : l.length < frame.length - 32 := by omega
    rw [← hpre] at hin
    obtain ⟨⟨rest, hmem⟩, -, hlt⟩ := delFrom_le hstands hfuel (by decide) hin
    rw [hpre] at hmem hlt
    have hless := hlt hclean
    rw [kept, if_pos he, afterDel, rtwDelWfdIe]
    constructor
    · unfold maxXmitExtbufSz txdescOffset at hshort
      rw [List.length_append] at hless
      simp only [h.pktlen, List.length_append, List.length_take, usub, u32]
      omega
    · simp only
      rw [hmem, List.append_assoc]
      exact kind_of_take hlen
  · obtain ⟨rfl, rfl⟩ := splits_short hs (Nat.not_lt.1 hlen)
    exact absurd rfl hclean

/-! ## The whole way -/

theorem stripped_plain (h : Holds frame (subtypeOf frame) x) (he : ¬ Edited w frame) :
    stripped w x = x := by
  unfold stripped
  split_ifs with hdel
  · rw [rtwXframeDelWfdIe_eq, h.kind, if_neg fun hcond => he ⟨hdel, hcond.1⟩]
  · rfl

theorem stripped_holds (h : Holds frame (subtypeOf frame) x) (hs : Splits frame l r)
    (hshort : txdescOffset + frame.length ≤ maxXmitExtbufSz)
    (hclean : Edited w frame → search r (strip l 0) 0 = none) :
    Holds (kept w frame l r) (subtypeOf frame) (stripped w x) := by
  by_cases he : Edited w frame
  · rw [stripped, if_pos he.1]
    exact del_exact w h hs he hshort (hclean he)
  · rw [stripped_plain w h he, kept, if_neg he]
    exact h

def finished (x : XmitFrame) : Option (List UInt8) → XmitFrame
  | none => x
  | some ie =>
    { buf := x.buf.memcpy (txdescOffset + x.pktlen) ie
      pktlen := u32 (x.pktlen + ie.length) }

theorem chk_eq (h : p2pPublic (stripped w x).buf.mem (txdescOffset + hdr3addr) =
    subtypeOf frame) : rtwXframeChkWfdIe w x = finished (stripped w x) (appended w frame) := by
  change (if w.wfdEnable then rtwXframeBuildWfdIe w (stripped w x) else stripped w x) = _
  unfold appended
  split_ifs
  · rw [rtwXframeBuildWfdIe, h]
    cases (subtypeOf frame).bind (wfdIeFor w) <;> rfl
  · rfl

theorem wfdAttributes_length : (wfdAttributes w).length = 28 := by
  have hbssid : (if w.linked then w.assocBssid.toList else List.replicate 6 0).length = 6 := by
    split_ifs
    · exact Vector.length_toList
    · rfl
  simp only [wfdAttributes, List.length_append, hbssid]
  rfl

theorem buildWfdIe_length {session : P2pRole → Bool} {ie : List UInt8}
    (h : ie ∈ buildWfdIe session w) : 0 < ie.length ∧ ie.length ≤ 37 := by
  unfold buildWfdIe at h
  by_cases hmira : w.miracast
  · rw [if_pos hmira] at h
    rw [← Option.some.inj h]
    have hoat : wfdOui.length = 4 := rfl
    have hinfo : sessionInfo.length = 3 := rfl
    simp only [rtwSetIe, List.length_cons, List.length_append, wfdAttributes_length, hoat]
    split_ifs
    · omega
    · exact ⟨Nat.succ_pos _, by decide⟩
  · rw [if_neg hmira] at h
    cases h

theorem appended_length {ie : List UInt8} (h : appended w frame = some ie) :
    0 < ie.length ∧ ie.length ≤ 37 := by
  unfold appended at h
  split_ifs at h
  · obtain ⟨s, -, hs⟩ := Option.bind_eq_some_iff.1 h
    unfold wfdIeFor at hs
    split at hs
    · exact buildWfdIe_length w hs
    · exact buildWfdIe_length w hs
    · exact buildWfdIe_length w hs
    · exact buildWfdIe_length w hs
    · exact buildWfdIe_length w hs
    · exact buildWfdIe_length w hs
    · exact buildWfdIe_length w hs
    · cases hs

theorem take_frame (frame behind : List UInt8) :
    ((clear ++ (frame ++ behind)).drop txdescOffset).take frame.length = frame := by
  have hclear : clear.length = txdescOffset := List.length_replicate
  rw [← hclear, List.drop_left, List.take_left]

theorem finished_fits {kind : Option ℕ} (h : Holds (kept w frame l r) kind x)
    (hshort : txdescOffset + (kept w frame l r).length ≤ maxXmitExtbufSz) :
    Fits w frame l r (finished x (appended w frame)) ↔
      txdescOffset + (sent w frame l r).length ≤ maxXmitExtbufSz := by
  obtain ⟨behind, hmem⟩ := h.mem
  unfold sent
  cases happ : appended w frame with
  | none =>
    have hsent : sent w frame l r = kept w frame l r := by
      rw [sent, happ]
      exact List.append_nil _
    refine iff_of_true ⟨h.inside, by rw [hsent]; exact h.pktlen, ?_⟩ ?_
    · change (x.buf.mem.drop txdescOffset).take x.pktlen = _
      rw [hmem, h.pktlen, hsent, take_frame]
    · rw [Option.getD_none, List.append_nil]
      exact hshort
  | some ie =>
    obtain ⟨hpos, hsize⟩ := appended_length w happ
    have hsent : sent w frame l r = kept w frame l r ++ ie := by rw [sent, happ, Option.getD_some]
    have hlen : u32 (x.pktlen + ie.length) = (kept w frame l r ++ ie).length := by
      unfold maxXmitExtbufSz txdescOffset at hshort
      rw [h.pktlen, List.length_append]
      exact Nat.mod_eq_of_lt (by omega)
    have hbytes : (((finished x (some ie)).buf.mem.drop txdescOffset).take
        (finished x (some ie)).pktlen) = kept w frame l r ++ ie := by
      have hput : (finished x (some ie)).buf.mem =
          clear ++ ((kept w frame l r ++ ie) ++ behind.drop ie.length) := by
        have hdst : txdescOffset + x.pktlen = (clear ++ kept w frame l r).length := by
          rw [List.length_append, h.pktlen]
          rfl
        change putBytes x.buf.mem (txdescOffset + x.pktlen) ie = _
        rw [hmem, ← List.append_assoc, hdst, putBytes_right]
        simp only [List.append_assoc]
      change ((finished x (some ie)).buf.mem.drop txdescOffset).take
        (u32 (x.pktlen + ie.length)) = _
      rw [hput, hlen, take_frame]
    rw [Option.getD_some]
    have hops : (finished x (some ie)).buf.ops =
        x.buf.ops ++ [.bytes ((txdescOffset + x.pktlen : ℕ) : ℤ) ie.length] := rfl
    constructor
    · intro hf
      have hop := hf.inside _ (by rw [hops]; exact List.mem_append_right _ List.mem_cons_self)
      have hin := (bytes_within_iff _ hpos).1 hop
      rw [h.pktlen] at hin
      rw [List.length_append]
      omega
    · intro hroom
      refine ⟨?_, ?_, ?_⟩
      · rw [hops, within_append, within_cons]
        refine ⟨h.inside, bytes_within _ ?_, within_nil⟩
        rw [h.pktlen]
        rw [List.length_append] at hroom
        omega
      · rw [hsent]
        exact hlen
      · rw [hsent]
        exact hbytes

theorem finished_pktlen_lt (hless : x.pktlen < (kept w frame l r).length) :
    (finished x (appended w frame)).pktlen < (sent w frame l r).length := by
  unfold sent
  rw [List.length_append]
  cases happ : appended w frame with
  | none => exact Nat.lt_add_right _ hless
  | some ie =>
    have hmod : u32 (x.pktlen + ie.length) ≤ x.pktlen + ie.length := Nat.mod_le _ _
    exact Nat.lt_of_le_of_lt hmod (Nat.add_lt_add_right hless _)

/-- Copied, edited and completed, a frame fits the buffer as it should just if it is sound. -/
theorem chk_fits_iff (mem : List UInt8) (hs : Splits frame l r) :
    Fits w frame l r (rtwXframeChkWfdIe w (fill mem frame)) ↔ Sound w frame l r := by
  have hkept := kept_length_le w hs
  have hrun : ∀ hshort : txdescOffset + frame.length ≤ maxXmitExtbufSz,
      (Edited w frame → search r (strip l 0) 0 = none) →
      (Fits w frame l r (rtwXframeChkWfdIe w (fill mem frame)) ↔
        txdescOffset + (sent w frame l r).length ≤ maxXmitExtbufSz) := by
    intro hshort hclean
    have hholds := stripped_holds w (fill_holds mem hshort) hs hshort hclean
    rw [chk_eq w hholds.kind]
    exact finished_fits w hholds (by omega)
  constructor
  · intro hf
    have hshort : txdescOffset + frame.length ≤ maxXmitExtbufSz := by
      rcases Nat.eq_zero_or_pos frame.length with hzero | hpos
      · rw [hzero]
        decide
      · have hop := hf.inside _ (chk_ops w _ _ (stripped_ops w _ _ (by
          rw [fill_ops]
          exact List.mem_cons_of_mem _ (List.mem_singleton_self _))))
        exact (bytes_within_iff _ hpos).1 hop
    have hclean : Edited w frame → search r (strip l 0) 0 = none := by
      intro he
      by_contra hne
      have hstripped : stripped w (fill mem frame) = rtwXframeDelWfdIe (fill mem frame) :=
        if_pos he.1
      have hin : Within maxXmitExtbufSz (stripped w (fill mem frame)).buf.ops :=
        fun op hop => hf.inside op (chk_ops w _ op hop)
      have hless := del_less w (fill_holds mem hshort) hs he hshort hne (hstripped ▸ hin)
      rw [← hstripped] at hless
      have hpkt := hf.pktlen
      rw [chk_eq w hless.2] at hpkt
      exact absurd hpkt (finished_pktlen_lt w hless.1).ne
    exact ⟨hshort, hclean, (hrun hshort hclean).1 hf⟩
  · intro h
    exact (hrun h.short h.clean).2 h.room

/-- A frame that `rtw_p2p_check_frames` does not know is copied as it is. -/
theorem chk_plain {behind : List UInt8} (mem : List UInt8)
    (h : rtwP2pCheckFrames (frame ++ behind) = none) :
    rtwXframeChkWfdIe w (fill mem frame) = fill mem frame := by
  have hkind : subtypeOf frame = none := by
    by_contra hne
    have hsome := isSome_of_padded behind (Option.isSome_iff_ne_none.2 hne)
    have hcat : byteAt (frame ++ behind) hdr3addr = 4 := by
      unfold p2pPublic at hsome
      split_ifs at hsome with hp2p
      · exact hp2p.1
      · cases hsome
    rw [rtwP2pCheckFrames, if_pos hcat] at h
    rw [h] at hsome
    cases hsome
  have hstripped : stripped w (fill mem frame) = fill mem frame := by
    unfold stripped
    split_ifs
    · rw [rtwXframeDelWfdIe_eq, fill_subtype, hkind, if_neg]
      exact fun hcond => Option.not_mem_none _ hcond.1.choose_spec.1
    · rfl
  have happ : appended w frame = none := by
    unfold appended
    rw [hkind]
    split_ifs <;> rfl
  rw [chk_eq w (by rw [hstripped]; exact fill_subtype mem frame), hstripped, happ]
  rfl

def display : WifidirectInfo where
  miracast := true
  wfdEnable := true
  wfdDeviceType := 0
  rtspCtrlport := 554
  linked := false
  assocBssid := Vector.replicate 6 0
  role := .device

def negoReq : List UInt8 :=
  0xd0 :: List.replicate 23 0 ++ [4, 9, 0x50, 0x6f, 0x9a, 0x09, 0, 1] ++
    [221, 5, 0x50, 0x6f, 0x9a, 0x0a, 7] ++ [221, 4, 0x50, 0x6f, 0x9a, 0x09]

def negoElements : List Elem :=
  [⟨221, [0x50, 0x6f, 0x9a, 0x0a, 7], by decide⟩, ⟨221, [0x50, 0x6f, 0x9a, 0x09], by decide⟩]

end Rtl8189.MgmtTx
