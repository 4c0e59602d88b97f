import Rtl8189.TkipXmit

/-!
# TKIP from the sender to the receiver

What `xmitframe_addmic` and `rtw_tkip_encrypt` make of an MSDU in one fragment is
accepted by `rtw_tkip_decrypt` and `recvframe_chkmic`, for every form of the header.
-/
namespace Rtl8189.TkipRoundTrip

open AesDecipher Decryptor Michael RecvFrame TkipXmit

/-! ## The Michael check -/

structure TkipReceiver where
  sec : SecurityPriv
  mix : sec.tkipMix = tkipMix
  /-- The key of the station that is found. -/
  dot11tkiprxmickey : MacAddr → List UInt8
  dot118021XGrprxmickey : ℕ → List UInt8
  bcheckGrpkey : Bool := false
  /-- `pmlmeinfo->key_index` -/
  mlmeKeyIndex : ℕ := 0

structure ChkMic where
  res : Bool
  frame : RecvFrame
  bcheckGrpkey : Bool
  /-- `rtw_handle_tkip_mic_err` is called. -/
  reported : Bool := false

def rxMickey (r : TkipReceiver) (f : RecvFrame) : List UInt8 :=
  if isMcast f.attrib.ra then r.dot118021XGrprxmickey (keyIndex r.sec f)
  else r.dot11tkiprxmickey f.attrib.ta

def pullMic (f : RecvFrame) : RecvFrame := (f.recvframePullTail 8).getD f

def micDatalen (f : RecvFrame) : ℕ :=
  u32 (f.len - f.attrib.hdrlen - f.attrib.ivLen - f.attrib.icvLen - 8)

def recvframeChkmic (r : TkipReceiver) (f : RecvFrame) : ChkMic :=
  if f.attrib.encrypt = .tkip then
    match r.sec.uncstKey f.attrib.ta with
    | none => { res := true, frame := pullMic f, bcheckGrpkey := r.bcheckGrpkey }
    | some _ =>
      if isMcast f.attrib.ra ∧ r.sec.binstallGrpkey = false then
        { res := false, frame := f, bcheckGrpkey := r.bcheckGrpkey }
      else
        let payload := f.view.drop (f.attrib.hdrlen + f.attrib.ivLen)
        let miccode := rtwSeccalctkipmic (rxMickey r f) f.view (payload.take (micDatalen f))
          (UInt8.ofNat f.attrib.priority)
        if miccode = bytesAt payload (micDatalen f) 8 then
          { res := true, frame := pullMic f, bcheckGrpkey := r.bcheckGrpkey || isMcast f.attrib.ra }
        else
          let brptMicerror := !(isMcast f.attrib.ra && keyIndex r.sec f ≠ r.mlmeKeyIndex)
          { res := false, frame := pullMic f, bcheckGrpkey := r.bcheckGrpkey
            reported := f.attrib.bdecrypted && brptMicerror }
  else { res := true, frame := f, bcheckGrpkey := r.bcheckGrpkey }

/-! ## The forms of a data header -/

def toDs (hdr : List UInt8) : Bool := byteAt hdr 1 % 2 = 1

def frDs (hdr : List UInt8) : Bool := byteAt hdr 1 / 2 % 2 = 1

def qos (hdr : List UInt8) : Bool := byteAt hdr 0 / 128 % 2 = 1

def order (hdr : List UInt8) : Bool := byteAt hdr 1 / 128 % 2 = 1

def a4Shift (hdr : List UInt8) : ℕ := if toDs hdr && frDs hdr then 6 else 0

/-- `GetPriority` of the QoS field, as `validate_recv_data_frame` finds it. -/
def getPriority (hdr : List UInt8) : ℕ := if qos hdr then byteAt hdr (24 + a4Shift hdr) % 16 else 0

def hdrlen (hdr : List UInt8) : ℕ :=
  (if qos hdr then 26 else 24) + a4Shift hdr + (if order hdr then 4 else 0)

def addr1 (hdr : List UInt8) : MacAddr := Vector.ofFn fun i : Fin 6 => hdr.getD (4 + i) 0

def addr2 (hdr : List UInt8) : MacAddr := Vector.ofFn fun i : Fin 6 => hdr.getD (10 + i) 0

/-- An MSDU in one fragment, with the room for the codes behind it, and with attributes
that are those of its header. -/
structure Framed (x : XmitFrame) (hdr iv payload : List UInt8) : Prop where
  encrypt : x.attrib.encrypt = .tkip
  bswenc : x.attrib.bswenc = true
  nrFrags : x.attrib.nrFrags = 1
  form : hdr.length = hdrlen hdr
  hdrlen : x.attrib.hdrlen = hdr.length
  ivlen : iv.length = 8
  pframe : hdr ++ iv ++ payload = x.pframe.take (hdr.length + 8 + payload.length)
  room : hdr.length + 8 + payload.length + 12 ≤ x.pframe.length
  lastTxcmdsz : x.attrib.lastTxcmdsz = hdr.length + 8 + payload.length + 4
  qosEn : x.attrib.qosEn = qos hdr
  priority : qos hdr = true → x.attrib.priority = getPriority hdr
  ra : x.attrib.ra = addr1 hdr
  ta : x.attrib.ta = addr2 hdr
  size : hdr.length + 8 + payload.length + 12 < 2 ^ 32

/-- `y` as it is received: the attributes are read from the header. -/
structure Heard (y : XmitFrame) (f : RecvFrame) : Prop where
  rxData : f.rxData = y.pframe.take y.attrib.lastTxcmdsz.toNat
  encrypt : f.attrib.encrypt = .tkip
  ivLen : f.attrib.ivLen = Encrypt.tkip.ivLen
  icvLen : f.attrib.icvLen = Encrypt.tkip.icvLen
  hdrlen : f.attrib.hdrlen = hdrlen f.rxData
  priority : f.attrib.priority = getPriority f.rxData
  ra : f.attrib.ra = addr1 f.rxData
  ta : f.attrib.ta = addr2 f.rxData

/-- The keys of the receiver that go with those of the sender. `keyid` is the key index
in the IV. -/
structure Matching (s : TkipSender) (r : TkipReceiver) (a : PktAttrib) (keyid : ℕ) : Prop where
  ucast : isMcast a.ra = false → r.sec.uncstKey a.ta = some a.dot118021xUncstKey ∧
    r.dot11tkiprxmickey a.ta = a.dot11tkiptxmickey
  mcast : isMcast a.ra = true → (r.sec.uncstKey a.ta).isSome ∧ r.sec.binstallGrpkey = true ∧
    r.sec.dot118021XGrpKey keyid = s.dot118021XGrpKey s.dot118021XGrpKeyid ∧
    r.dot118021XGrprxmickey keyid = s.dot118021XGrptxmickey s.dot118021XGrpKeyid

def Accepted (r : TkipReceiver) (f : RecvFrame) (payload : List UInt8) : Prop :=
  (rtwTkipDecrypt r.sec f).2 = true ∧
    (recvframeChkmic r (rtwTkipDecrypt r.sec f).1).res = true ∧
    plaintext (recvframeChkmic r (rtwTkipDecrypt r.sec f).1).frame = payload

/-! ## One key stream -/

theorem arcfourEncrypt_length (ctx : Arc4context) (src : List UInt8) :
    (arcfourEncrypt ctx src).length = src.length := by
  induction src generalizing ctx with
  | nil => rfl
  | cons b src ih =>
    rw [arcfourEncrypt, List.length_cons, ih, List.length_cons]

theorem arcfourEncrypt_append (ctx : Arc4context) (a b : List UInt8) :
    arcfourEncrypt ctx (a ++ b) =
      arcfourEncrypt ctx a ++ arcfourEncrypt (arcfourAfter ctx a.length) b := by
  induction a generalizing ctx with
  | nil => rfl
  | cons x a ih =>
    simp only [List.cons_append, arcfourEncrypt, ih]
    rfl

theorem arcfourEncrypt_twice (ctx : Arc4context) (src : List UInt8) :
    arcfourEncrypt ctx (arcfourEncrypt ctx src) = src := by
  induction src generalizing ctx with
  | nil => rfl
  | cons b src ih =>
    simp only [arcfourEncrypt, ih, UInt8.xor_assoc, UInt8.xor_self, UInt8.xor_zero]

theorem getTkipPn_append {iv : List UInt8} (h : iv.length = 8) (q : List UInt8) :
    getTkipPn (iv ++ q) = getTkipPn iv := by
  simp only [getTkipPn]
  rw [byteAt_append_left (by omega), byteAt_append_left (by omega), byteAt_append_left (by omega),
    byteAt_append_left (by omega), byteAt_append_left (by omega), byteAt_append_left (by omega)]

theorem crcBytes_length (crc : ℕ) : (crcBytes crc).length = 4 := rfl

/-- What comes after header and IV: the code and the CRC are appended, and all is encrypted. -/
def tkipBody (rc4key payload mic : List UInt8) : List UInt8 :=
  arcfourEncrypt (arcfourInit rc4key) (payload ++ mic ++ crcBytes (getcrc32 (payload ++ mic)))

/-! ## The header on both sides -/

section Header

variable {hdr : List UInt8}

theorem hdrlen_ge (hdr : List UInt8) : 24 ≤ hdrlen hdr := by
  simp only [hdrlen]
  split_ifs <;> omega

theorem qosField_lt (hq : qos hdr = true) : 24 + a4Shift hdr < hdrlen hdr := by
  simp only [hdrlen, if_pos hq]
  omega

theorem form_append (h : hdr.length = hdrlen hdr) (q : List UInt8) :
    hdrlen (hdr ++ q) = hdrlen hdr ∧ getPriority (hdr ++ q) = getPriority hdr ∧
      addr1 (hdr ++ q) = addr1 hdr ∧ addr2 (hdr ++ q) = addr2 hdr := by
  have hge := hdrlen_ge hdr
  have h0 : byteAt (hdr ++ q) 0 = byteAt hdr 0 := byteAt_append_left (by omega) q
  have h1 : byteAt (hdr ++ q) 1 = byteAt hdr 1 := byteAt_append_left (by omega) q
  have ha4 : a4Shift (hdr ++ q) = a4Shift hdr := by
    rw [a4Shift, toDs, frDs, h1]
    rfl
  have hqos : qos (hdr ++ q) = qos hdr := by
    rw [qos, h0]
    rfl
  have haddr (i : ℕ) (hi : i < 24) : (hdr ++ q).getD i 0 = hdr.getD i 0 := by
    simp only [List.getD_eq_getElem?_getD, List.getElem?_append_left (show i < hdr.length by omega)]
  refine ⟨?_, ?_, ?_, ?_⟩
  · rw [hdrlen, hqos, ha4, order, h1]
    rfl
  · simp only [getPriority, hqos, ha4]
    split_ifs with hq
    · have hlt := qosField_lt hq
      rw [byteAt_append_left (by omega)]
    · rfl
  · simp only [addr1]
    congr 1
    funext i
    exact haddr _ (by omega)
  · simp only [addr2]
    congr 1
    funext i
    exact haddr _ (by omega)

end Header

/-! ## The sender -/

section Sender

variable {s : TkipSender} {x : XmitFrame} {hdr iv payload : List UInt8}

def micOf (s : TkipSender) (a : PktAttrib) (hdr iv payload : List UInt8) : List UInt8 :=
  rtwSeccalctkipmic (txMickey s a) (hdr ++ iv) payload (UInt8.ofNat (getPriority hdr))

theorem micOf_length : (micOf s a hdr iv payload).length = 8 := rfl

theorem readSpan_append (p q r : List UInt8) {n : ℤ} (hn : n = p.length) (hq : q.length < 2 ^ 32) :
    readSpan (p ++ q ++ r) (n, q.length) = q := by
  rw [readSpan, bytesAt, hn, u32_natCast hq, Int.toNat_natCast, List.append_assoc, List.drop_left,
    List.take_left]

theorem writeSpan_append (p q r : List UInt8) {n : ℤ} (hn : n = p.length) (bytes : List UInt8)
    (h : bytes.length = q.length) : writeSpan (p ++ q ++ r) n bytes = p ++ bytes ++ r := by
  rw [writeSpan, hn, Int.toNat_natCast, putBytes_append p q r h]

theorem Framed.pframe_eq (hx : Framed x hdr iv payload) :
    ∃ mic icv rest, mic.length = 8 ∧ icv.length = 4 ∧
      x.pframe = hdr ++ iv ++ payload ++ mic ++ icv ++ rest := by
  obtain ⟨room, hroom⟩ : ∃ room, x.pframe = hdr ++ iv ++ payload ++ room :=
    ⟨x.pframe.drop (hdr.length + 8 + payload.length), by rw [hx.pframe, List.take_append_drop]⟩
  have hlen := hx.room
  rw [hroom] at hlen
  simp only [List.length_append, hx.ivlen] at hlen
  refine ⟨room.take 8, (room.drop 8).take 4, (room.drop 8).drop 4, ?_, ?_, ?_⟩
  · rw [List.length_take]
    omega
  · rw [List.length_take, List.length_drop]
    omega
  · rw [hroom, List.append_assoc _ (List.take 4 _), List.take_append_drop,
      List.append_assoc _ (List.take 8 _), List.take_append_drop]

theorem Framed.micWalk (hx : Framed x hdr iv payload) :
    Coalesce.micWalk x.attrib.walk s.fragLen x.attrib.lastTxcmdsz x.attrib.nrFrags 0 =
      ⟨[(((hdr ++ iv).length : ℤ), (payload.length : ℤ))],
        ((hdr ++ iv ++ payload).length : ℤ)⟩ := by
  have hrnd : Coalesce.rnd4 0 = 0 := rfl
  rw [hx.nrFrags, hx.lastTxcmdsz]
  simp only [Coalesce.micWalk, if_true, hrnd, PktAttrib.walk, Coalesce.PktAttrib.ivLen,
    Coalesce.PktAttrib.swIcv, Coalesce.PktAttrib.icvLen, hx.encrypt, hx.bswenc, hx.hdrlen,
    Encrypt.ivLen, Encrypt.icvLen, List.length_append, hx.ivlen]
  congr 1
  · congr 2
    · push_cast
      omega
    · push_cast
      omega
  · push_cast
    omega

theorem Framed.priority_eq (hx : Framed x hdr iv payload) :
    (if x.attrib.qosEn then UInt8.ofNat x.attrib.priority else 0) =
      UInt8.ofNat (getPriority hdr) := by
  rw [hx.qosEn]
  split_ifs with hq
  · rw [hx.priority hq]
  · rw [getPriority, if_neg hq]
    rfl

theorem Framed.addmic (hx : Framed x hdr iv payload) {mic icv rest : List UInt8}
    (hmic : mic.length = 8) (hp : x.pframe = hdr ++ iv ++ payload ++ mic ++ icv ++ rest)
    (hkey : (txMickey s x.attrib).take 16 ≠ List.replicate 16 0) :
    ∃ y, xmitframeAddmic s x = some y ∧
      y.attrib = { x.attrib with lastTxcmdsz := x.attrib.lastTxcmdsz + 8 } ∧
      y.pframe = hdr ++ iv ++ payload ++ micOf s x.attrib hdr iv payload ++ (icv ++ rest) := by
  have hsize := hx.size
  have hread : readSpan x.pframe (((hdr ++ iv).length : ℤ), (payload.length : ℤ)) = payload := by
    rw [hp, List.append_assoc _ mic, List.append_assoc _ (mic ++ icv)]
    exact readSpan_append _ _ _ rfl (by omega)
  have hpre : rtwSeccalctkipmic (txMickey s x.attrib) x.pframe payload
      (UInt8.ofNat (getPriority hdr)) = micOf s x.attrib hdr iv payload := by
    have hge := hx.form ▸ hdrlen_ge hdr
    simp only [hp, List.append_assoc payload, List.append_assoc (hdr ++ iv)]
    refine rtwSeccalctkipmic_append ?_ _ _ _ _
    rw [List.length_append, hx.ivlen]
    omega
  simp only [xmitframeAddmic, hx.encrypt, if_true, if_neg hkey, hx.micWalk, List.foldl_cons,
    List.foldl_nil, hread, hx.priority_eq]
  refine ⟨_, rfl, rfl, ?_⟩
  -- the appends are those of `rtw_seccalctkipmic`
  change writeSpan x.pframe _ (rtwSeccalctkipmic (txMickey s x.attrib) x.pframe payload
    (UInt8.ofNat (getPriority hdr))) = _
  rw [hpre, hp, List.append_assoc _ icv]
  exact writeSpan_append _ _ _ rfl _ (by rw [hmic, micOf_length])

theorem encryptWalk_one {a : PktAttrib} {n : ℕ} (henc : a.encrypt = .tkip) (hfrags : a.nrFrags = 1)
    (hlast : a.lastTxcmdsz = a.hdrlen + 8 + n + 4) :
    Coalesce.encryptWalk a.walk fragLen a.lastTxcmdsz a.nrFrags 0 =
      [((a.hdrlen + 8 : ℤ), (n : ℤ))] := by
  rw [hfrags, hlast]
  simp only [Coalesce.encryptWalk, if_true, PktAttrib.walk, Coalesce.PktAttrib.ivLen,
    Coalesce.PktAttrib.icvLen, henc, Encrypt.ivLen, Encrypt.icvLen]
  congr 2
  · push_cast
    omega
  · push_cast
    omega

theorem rtwTkipEncrypt_one {y : XmitFrame} {text icv q : List UInt8}
    (hp : y.pframe = hdr ++ iv ++ text ++ icv ++ q) (henc : y.attrib.encrypt = .tkip)
    (hfrags : y.attrib.nrFrags = 1) (hhdr : y.attrib.hdrlen = hdr.length) (hiv : iv.length = 8)
    (hlast : y.attrib.lastTxcmdsz = y.attrib.hdrlen + 8 + text.length + 4) (hicv : icv.length = 4)
    (hsize : text.length < 2 ^ 32) :
    (rtwTkipEncrypt s y).pframe =
      hdr ++ iv ++ arcfourEncrypt
        (arcfourInit (tkipMix (txKey s y.attrib) y.attrib.ta (getTkipPn iv)))
        (text ++ crcBytes (getcrc32 text)) ++ q := by
  have hread : readSpan y.pframe ((y.attrib.hdrlen + 8 : ℤ), (text.length : ℤ)) = text := by
    rw [hp, List.append_assoc _ icv]
    refine readSpan_append _ _ _ ?_ hsize
    rw [List.length_append, hiv, hhdr]
    rfl
  have hpn : getTkipPn (y.pframe.drop ((y.attrib.hdrlen + 8 : ℤ) - y.attrib.walk.ivLen).toNat) =
      getTkipPn iv := by
    have hn : ((y.attrib.hdrlen + 8 : ℤ) - y.attrib.walk.ivLen).toNat = hdr.length := by
      simp only [PktAttrib.walk, Coalesce.PktAttrib.ivLen, henc, Encrypt.ivLen]
      omega
    rw [hn, hp, List.append_assoc _ icv, List.append_assoc _ text, List.append_assoc hdr,
      List.drop_left, getTkipPn_append hiv]
  simp only [rtwTkipEncrypt, henc, if_true, encryptWalk_one henc hfrags hlast, List.foldl_cons,
    List.foldl_nil, tkipEncryptFrag, hread, hpn, ← arcfourEncrypt_append]
  rw [hp, List.append_assoc _ text]
  refine writeSpan_append _ _ _ ?_ _ ?_
  · rw [List.length_append, hiv, hhdr]
    rfl
  · rw [arcfourEncrypt_length, List.length_append, List.length_append, crcBytes_length, hicv]

theorem rtwTkipEncrypt_attrib (s : TkipSender) (y : XmitFrame) :
    (rtwTkipEncrypt s y).attrib = y.attrib := by
  simp only [rtwTkipEncrypt]
  split_ifs
  · rfl
  · rfl

end Sender

/-! ## The receiver -/

section Receiver

variable {f : RecvFrame} {p text field : List UInt8}

theorem plaintext_of (hrx : f.rxData = p ++ text ++ field)
    (hp : f.attrib.hdrlen + f.attrib.ivLen = p.length) (hfield : f.attrib.icvLen = field.length) :
    HasField f ∧ plaintext f = text ∧ integrityField f = field := by
  have hlen : f.len = p.length + text.length + field.length := by
    rw [len, hrx, List.length_append, List.length_append]
  refine ⟨?_, ?_, ?_⟩
  · rw [HasField]
    omega
  · have hn : f.len - f.attrib.hdrlen - f.attrib.ivLen - f.attrib.icvLen = text.length := by omega
    rw [plaintext, hn, hp, hrx, List.append_assoc, List.drop_left, List.take_left]
  · have hn : f.len - f.attrib.icvLen = (p ++ text).length := by
      rw [List.length_append]
      omega
    rw [integrityField, hn, hrx, List.drop_left]

theorem arcfourPayload_rxData (key : List UInt8) (hrx : f.rxData = p ++ text)
    (hp : f.attrib.hdrlen + f.attrib.ivLen = p.length) (hsize : f.len < 2 ^ 32) :
    (arcfourPayload key f).rxData = p ++ arcfourEncrypt (arcfourInit key) text := by
  have hlen : f.len = p.length + text.length := by
    rw [len, hrx, List.length_append]
  have hu : u32 (payloadLength f) = text.length := by
    have hcast : payloadLength f = (text.length : ℤ) := by
      rw [payloadLength]
      omega
    rw [hcast, u32_natCast (by omega)]
  have hview : f.view = p ++ (text ++ f.slack) := by
    rw [view, hrx, List.append_assoc]
  have hbytes : (p ++ arcfourEncrypt (arcfourInit key) text).length = f.len := by
    rw [List.length_append, arcfourEncrypt_length, hlen]
  simp only [arcfourPayload, hu, hp, hview, List.take_left, List.drop_left]
  rw [overwrite]
  dsimp only
  rw [← hbytes, List.take_left]

theorem rtwTkipDecrypt_open {sec : SecurityPriv} {prwskey : List UInt8} (hmix : sec.tkipMix = tkipMix)
    (hkey : tkipKey sec f = some prwskey)
    (hrx : f.rxData = p ++ arcfourEncrypt
      (arcfourInit (tkipMix prwskey f.attrib.ta (tkipPn f))) (text ++ crcBytes (getcrc32 text)))
    (hp : f.attrib.hdrlen + f.attrib.ivLen = p.length) (hicv : f.attrib.icvLen = 4)
    (hsize : f.len < 2 ^ 32) :
    (rtwTkipDecrypt sec f).2 = true ∧ (rtwTkipDecrypt sec f).1.attrib = f.attrib ∧
      (rtwTkipDecrypt sec f).1.rxData = p ++ text ++ crcBytes (getcrc32 text) := by
  have htake : (tkipMix prwskey f.attrib.ta (tkipPn f)).take 16 =
      tkipMix prwskey f.attrib.ta (tkipPn f) :=
    List.take_of_length_le (Nat.le_of_eq (tkipMix_length prwskey f.attrib.ta (tkipPn f)))
  have hopen := arcfourPayload_rxData (tkipMix prwskey f.attrib.ta (tkipPn f)) hrx hp hsize
  rw [arcfourEncrypt_twice, ← List.append_assoc] at hopen
  simp only [rtwTkipDecrypt, hkey, hmix, htake]
  generalize hg : arcfourPayload (tkipMix prwskey f.attrib.ta (tkipPn f)) f = g at *
  have hattrib : g.attrib = f.attrib := by
    rw [← hg, (arcfourPayload_frame _ f).1]
  obtain ⟨hfield, hplain, hint⟩ := plaintext_of hopen (hattrib ▸ hp) (hattrib ▸ hicv)
  refine ⟨?_, hattrib, hopen⟩
  rw [decide_eq_true_iff, payloadCrc_iff hfield (hattrib ▸ hicv), IcvOk, hplain, hint]
  exact ⟨hfield, rfl⟩

theorem recvframeChkmic_ok {r : TkipReceiver} {mic : List UInt8}
    (htkip : f.attrib.encrypt = .tkip) (hsta : (tkipKey r.sec f).isSome)
    (hrx : f.rxData = p ++ (text ++ mic) ++ field)
    (hp : f.attrib.hdrlen + f.attrib.ivLen = p.length) (hfield : f.attrib.icvLen = field.length)
    (hcode : rtwSeccalctkipmic (rxMickey r f) (p ++ (text ++ mic ++ field ++ f.slack)) text
      (UInt8.ofNat f.attrib.priority) = mic) (hmic : mic.length = 8) (hsize : f.len < 2 ^ 32) :
    (recvframeChkmic r f).res = true ∧
      (recvframeChkmic r f).frame =
        { f with rxData := f.rxData.take (f.len - 8)
                 slack := f.rxData.drop (f.len - 8) ++ f.slack } := by
  have hlen : f.len = p.length + (text.length + 8) + field.length := by
    simp only [len, hrx, List.length_append, hmic]
  have hpull : pullMic f = { f with rxData := f.rxData.take (f.len - 8)
                                    slack := f.rxData.drop (f.len - 8) ++ f.slack } := by
    rw [pullMic, recvframePullTail, if_pos (by omega), Option.getD_some]
  have hdata : micDatalen f = text.length := by
    have hcast : (f.len - f.attrib.hdrlen - f.attrib.ivLen - f.attrib.icvLen - 8 : ℤ) =
        (text.length : ℤ) := by
      omega
    rw [micDatalen, hcast, u32_natCast (by omega)]
  have hview : f.view = p ++ (text ++ mic ++ field ++ f.slack) := by
    rw [view, hrx, List.append_assoc, List.append_assoc, List.append_assoc (text ++ mic)]
  have hpay : f.view.drop (f.attrib.hdrlen + f.attrib.ivLen) = text ++ (mic ++ (field ++ f.slack)) := by
    rw [hview, hp, List.drop_left]
    simp only [List.append_assoc]
  have hat : bytesAt (text ++ (mic ++ (field ++ f.slack))) text.length 8 = mic := by
    rw [bytesAt, List.drop_left, ← hmic, List.take_left]
  obtain ⟨prwskey, hkey⟩ := Option.isSome_iff_exists.mp hsta
  simp only [tkipKey] at hkey
  cases hunc : r.sec.uncstKey f.attrib.ta with
  | none =>
    rw [hunc] at hkey
    cases hkey
  | some uncstKey =>
    rw [hunc] at hkey
    rw [hview] at hpay
    have hgroup : ¬ (isMcast f.attrib.ra ∧ r.sec.binstallGrpkey = false) := by
      rintro ⟨hm, hb⟩
      simp only [hm, hb, if_true] at hkey
      cases hkey
    simp only [recvframeChkmic, htkip, if_true, hunc, if_neg hgroup, hview, hpay, hdata,
      List.take_left, hat, hcode, hpull]
    exact ⟨trivial, trivial⟩

end Receiver

/-! ## From end to end -/

section EndToEnd

variable {s : TkipSender} {r : TkipReceiver} {x : XmitFrame} {hdr iv payload : List UInt8}

theorem tkipBody_length (rc4key payload mic : List UInt8) :
    (tkipBody rc4key payload mic).length = payload.length + mic.length + 4 := by
  rw [tkipBody, arcfourEncrypt_length, List.length_append, List.length_append, crcBytes_length]

/-- What is sent: header and IV, and the body made with the keys of the sender. -/
theorem Framed.sent (hx : Framed x hdr iv payload)
    (hkey : (txMickey s x.attrib).take 16 ≠ List.replicate 16 0) :
    ∃ y, xmitframeAddmic s x = some y ∧ ∀ f, Heard (rtwTkipEncrypt s y) f →
      f.rxData = hdr ++ iv ++ tkipBody (tkipMix (txKey s x.attrib) x.attrib.ta (getTkipPn iv))
        payload (micOf s x.attrib hdr iv payload) := by
  obtain ⟨mic, icv, q, hmic, hicv, hp⟩ := hx.pframe_eq
  obtain ⟨y, hy, hattrib, hpframe⟩ := hx.addmic hmic hp hkey
  refine ⟨y, hy, ?_⟩
  intro f hf
  have hsize := hx.size
  have htext : (payload ++ micOf s x.attrib hdr iv payload).length = payload.length + 8 := by
    rw [List.length_append, micOf_length]
  have hlast : y.attrib.lastTxcmdsz = hdr.length + 8 + payload.length + 12 := by
    rw [hattrib]
    dsimp only
    rw [hx.lastTxcmdsz]
    omega
  have hcount : y.attrib.lastTxcmdsz.toNat = (hdr ++ iv ++
      tkipBody (tkipMix (txKey s x.attrib) x.attrib.ta (getTkipPn iv)) payload
        (micOf s x.attrib hdr iv payload)).length := by
    rw [List.length_append, List.length_append, hx.ivlen, tkipBody_length, micOf_length, hlast]
    omega
  have hhdr : y.attrib.hdrlen = hdr.length := by rw [hattrib, hx.hdrlen]
  have hframe := rtwTkipEncrypt_one (s := s)
    (hpframe.trans (by simp only [List.append_assoc] :
      _ = hdr ++ iv ++ (payload ++ micOf s x.attrib hdr iv payload) ++ icv ++ q))
    (by rw [hattrib, hx.encrypt]) (by rw [hattrib, hx.nrFrags]) hhdr hx.ivlen
    (by rw [htext, hhdr, hlast]; push_cast; omega) hicv (by rw [htext]; omega)
  have hkeys : txKey s y.attrib = txKey s x.attrib ∧ y.attrib.ta = x.attrib.ta := by
    rw [hattrib]
    exact ⟨rfl, rfl⟩
  rw [hkeys.1, hkeys.2] at hframe
  rw [hf.rxData, rtwTkipEncrypt_attrib, hframe, hcount]
  exact List.take_left

theorem Matching.keys {a : PktAttrib} {f : RecvFrame} {q : List UInt8}
    (hm : Matching s r a (byteAt iv 3 / 64 % 4)) (hra : f.attrib.ra = a.ra)
    (hta : f.attrib.ta = a.ta) (hrx : f.rxData = hdr ++ iv ++ q)
    (hhdr : f.attrib.hdrlen = hdr.length) (hiv : iv.length = 8) :
    tkipKey r.sec f = some (txKey s a) ∧ rxMickey r f = txMickey s a := by
  have hid : keyIndex r.sec f = byteAt iv 3 / 64 % 4 := by
    have hbyte : byteAt f.view (f.attrib.hdrlen + 3) = byteAt iv 3 := by
      rw [view, hrx, hhdr, List.append_assoc, List.append_assoc, byteAt_append_right,
        byteAt_append_left (by omega)]
    have hlt : ¬ wepKeys < byteAt iv 3 / 64 % 4 := by
      rw [wepKeys]
      omega
    simp only [keyIndex, hbyte, if_neg hlt]
  rw [tkipKey, rxMickey, txKey, txMickey, hra, hta, hid]
  cases hcast : isMcast a.ra with
  | false =>
    obtain ⟨hkey, hmic⟩ := hm.ucast hcast
    rw [hkey]
    exact ⟨rfl, hmic⟩
  | true =>
    obtain ⟨hsta, hinst, hkey, hmic⟩ := hm.mcast hcast
    obtain ⟨k, hk⟩ := Option.isSome_iff_exists.mp hsta
    rw [hk, hinst]
    exact ⟨congrArg some hkey, hmic⟩

theorem Framed.accepted (hx : Framed x hdr iv payload)
    (hm : Matching s r x.attrib (byteAt iv 3 / 64 % 4)) {f : RecvFrame} {y : XmitFrame}
    (hf : Heard y f) (hrx : f.rxData = hdr ++ iv ++
      tkipBody (tkipMix (txKey s x.attrib) x.attrib.ta (getTkipPn iv)) payload
        (micOf s x.attrib hdr iv payload)) : Accepted r f payload := by
  have hsize := hx.size
  have hiv := hx.ivlen
  obtain ⟨hlen, hpri, hra, hta⟩ := form_append hx.form
    (iv ++ tkipBody (tkipMix (txKey s x.attrib) x.attrib.ta (getTkipPn iv)) payload
      (micOf s x.attrib hdr iv payload))
  rw [← List.append_assoc, ← hrx] at hlen hpri hra hta
  have hhdr : f.attrib.hdrlen = hdr.length := by rw [hf.hdrlen, hlen, hx.form]
  have hp : f.attrib.hdrlen + f.attrib.ivLen = (hdr ++ iv).length := by
    rw [List.length_append, hiv, hhdr, hf.ivLen]
    rfl
  have hicv : f.attrib.icvLen = 4 := hf.icvLen
  have hra' : f.attrib.ra = x.attrib.ra := by rw [hf.ra, hra, hx.ra]
  have hta' : f.attrib.ta = x.attrib.ta := by rw [hf.ta, hta, hx.ta]
  have hflen : f.len < 2 ^ 32 := by
    rw [len, hrx, List.length_append, List.length_append, hiv, tkipBody_length, micOf_length]
    omega
  have hpn : tkipPn f = getTkipPn iv := by
    rw [tkipPn, hhdr, view, hrx, List.append_assoc, List.append_assoc, List.drop_left]
    exact getTkipPn_append hiv _
  obtain ⟨hres, hattrib, hopen⟩ := rtwTkipDecrypt_open r.mix
    (hm.keys hra' hta' hrx hhdr hiv).1 (by rw [hrx, tkipBody, hpn, hta']) hp hicv hflen
  refine ⟨hres, ?_⟩
  generalize (rtwTkipDecrypt r.sec f).1 = g at hattrib hopen
  have hgrx : g.rxData = hdr ++ iv ++ (payload ++ micOf s x.attrib hdr iv payload ++
      crcBytes (getcrc32 (payload ++ micOf s x.attrib hdr iv payload))) := by
    rw [hopen, List.append_assoc]
  obtain ⟨hkey, hmickey⟩ :=
    hm.keys (hattrib ▸ hra') (hattrib ▸ hta') hgrx (hattrib ▸ hhdr) hiv
  have hglen : g.len = (hdr ++ iv).length + payload.length + 12 := by
    rw [len, hopen]
    simp only [List.length_append, micOf_length, crcBytes_length]
    omega
  have hcode (q : List UInt8) : rtwSeccalctkipmic (rxMickey r g) (hdr ++ iv ++ q) payload
      (UInt8.ofNat g.attrib.priority) = micOf s x.attrib hdr iv payload := by
    have hge := hx.form ▸ hdrlen_ge hdr
    rw [rtwSeccalctkipmic_append (by rw [List.length_append, hiv]; omega), hmickey, hattrib,
      hf.priority, hpri, micOf]
  obtain ⟨hok, hframe⟩ := recvframeChkmic_ok (hattrib ▸ hf.encrypt) (by rw [hkey]; rfl) hopen
    (hattrib ▸ hp) (hattrib ▸ hicv) (hcode _) micOf_length
    (by rw [hglen, List.length_append, hiv]; omega)
  refine ⟨hok, ?_⟩
  have hcut : (recvframeChkmic r g).frame.rxData = hdr ++ iv ++ payload ++
      (micOf s x.attrib hdr iv payload).take 4 := by
    have hn : g.len - 8 = (hdr ++ iv ++ payload).length + 4 := by
      rw [List.length_append, hglen]
      omega
    rw [hframe, hn, hgrx, ← List.append_assoc, ← List.append_assoc, List.append_assoc _ (micOf _ _ _ _ _),
      List.take_length_add_append, List.take_append_of_le_length (by rw [micOf_length]; omega)]
  have hgattrib : (recvframeChkmic r g).frame.attrib = f.attrib := by rw [hframe, hattrib]
  exact (plaintext_of hcut (hgattrib ▸ hp)
    (by rw [hgattrib, hicv, List.length_take, micOf_length]; rfl)).2.1

theorem xmitframeAddmic_refused (hkey : (txMickey s x.attrib).take 16 = List.replicate 16 0)
    (hx : Framed x hdr iv payload) : xmitframeAddmic s x = none := by
  simp only [xmitframeAddmic, hx.encrypt, if_true, if_pos hkey]

/-- Whatever the header, the keys, the counter and the MSDU: `xmitframe_addmic` refuses the null
Michael key, and every other frame is accepted by the receiver that has the same keys, which
gets the MSDU back. -/
theorem xmitframe_accepted (s : TkipSender) (r : TkipReceiver) (x : XmitFrame)
    (hdr iv payload : List UInt8) (hx : Framed x hdr iv payload)
    (hm : Matching s r x.attrib (byteAt iv 3 / 64 % 4)) :
    match xmitframeAddmic s x with
    | none => (txMickey s x.attrib).take 16 = List.replicate 16 0
    | some y => ∀ f, Heard (rtwTkipEncrypt s y) f → Accepted r f payload := by
  by_cases hkey : (txMickey s x.attrib).take 16 = List.replicate 16 0
  · rw [xmitframeAddmic_refused hkey hx]
    exact hkey
  · obtain ⟨y, hy, hsent⟩ := hx.sent hkey
    rw [hy]
    intro f hf
    exact hx.accepted hm hf (hsent f hf)

end EndToEnd

def wdsHdr : List UInt8 :=
  [0x88, 0x43, 0, 0, 2, 0, 0, 0, 0, 1, 2, 0, 0, 0, 0, 2, 4, 0, 0, 0, 0, 3, 0, 0,
    4, 0, 0, 0, 0, 4, 5, 0]

def wdsIv : List UInt8 := [0, 0x20, 1, 0x20, 0, 0, 0, 0]

def wdsFrame : XmitFrame where
  attrib := { hdrlen := 32, encrypt := .tkip, bswenc := true, lastTxcmdsz := 47, qosEn := true
              priority := 5, ta := addr2 wdsHdr, ra := addr1 wdsHdr
              dot11tkiptxmickey := List.replicate 16 7
              dot118021xUncstKey := List.replicate 16 9 }
  pframe := wdsHdr ++ wdsIv ++ [1, 2, 3] ++ List.replicate 12 0

def noGroup : TkipSender where
  dot118021XGrpKeyid := 1
  dot118021XGrpKey _ := []
  dot118021XGrptxmickey _ := []
  fragLen := 2346

def wdsReceiver : TkipReceiver where
  sec := { dot11DefKey := fun _ => []
           dot11DefKeylen := fun _ => 0
           uncstKey := fun _ => some (List.replicate 16 9)
           aes128k128d := fun _ b => b
           tkipMix }
  mix := rfl
  dot11tkiprxmickey _ := List.replicate 16 7
  dot118021XGrprxmickey _ := []

theorem wdsFrame_framed : Framed wdsFrame wdsHdr wdsIv [1, 2, 3] := by
  constructor <;> decide

theorem wdsReceiver_matching :
    Matching noGroup wdsReceiver wdsFrame.attrib (byteAt wdsIv 3 / 64 % 4) := by
  refine ⟨fun _ => ⟨rfl, rfl⟩, fun h => ?_⟩
  revert h
  decide

theorem xmitframe_accepted_wds :
    match xmitframeAddmic noGroup wdsFrame with
    | none => (txMickey noGroup wdsFrame.attrib).take 16 = List.replicate 16 0
    | some y => ∀ f, Heard (rtwTkipEncrypt noGroup y) f → Accepted wdsReceiver f [1, 2, 3] :=
  xmitframe_accepted noGroup wdsReceiver wdsFrame wdsHdr wdsIv [1, 2, 3] wdsFrame_framed
    wdsReceiver_matching

end Rtl8189.TkipRoundTrip
