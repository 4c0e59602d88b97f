import Rtl8189.AccessTrace
import Rtl8189.Bip
import Rtl8189.TkipRoundTrip

/-!
# Lengths of received frames

The functions that decrypt or check a received frame take its length from the receive
descriptor and subtract what the header form and the cipher ask for. Each is traced here
with the lengths it works out and the bytes of the frame it touches, and the frames are
found for which it stays inside.
-/
namespace Rtl8189.RecvBounds

open AccessTrace AesDecipher Bip Decryptor RecvFrame RecvPool TkipRoundTrip

open PacketNumber (AuthAlgrthm)

structure RxEnv where
  sec : SecurityPriv
  dot11AuthAlgrthm : AuthAlgrthm := .ieee8021X
  dot11PrivacyAlgrthm : Encrypt := .noPrivacy
  dot118021XGrpPrivacy : Encrypt := .aes
  dot118021XPrivacy : MacAddr → Encrypt := fun _ => .aes
  /-- The address checks and the caches of sequence and packet numbers let a frame pass. -/
  accepts : RecvFrame → Bool := fun _ => true
  /-- `SEC_IS_BIP_KEY_INSTALLED` -/
  bipKeyInstalled : Bool := true
  /-- The station that is found has `WLAN_STA_MFP`. -/
  staMfp : MacAddr → Bool := fun _ => true
  dot11wBIPKeyid : ℕ := 4
  dot11wBIPrxpn : ℕ := 0
  zmalloc : ℕ → Bool := fun _ => true
  /-- `omac1_aes_128` finds memory. -/
  omac1 : List UInt8 → Bool := fun _ => true
  /-- What stands before a frame in memory. -/
  before : ℕ → UInt8 := fun _ => 0

/-- A frame with its descriptor, which has 14 bits for the length. A frame without bytes
is not handed on. -/
structure RxFrame where
  f : RecvFrame
  len_pos : 0 < f.len
  len_lt : f.len < 2 ^ 14

def octet (e : RxEnv) (f : RecvFrame) (i : ℤ) : ℕ :=
  if 0 ≤ i then byteAt f.view i.toNat else (e.before i.natAbs).toNat

def getPrivacy (f : RecvFrame) : Bool := byteAt f.view 1 / 64 % 2 = 1

def getEncryAlgo (e : RxEnv) (psta : MacAddr) (bmcst : Bool) : Encrypt :=
  match e.dot11AuthAlgrthm with
  | .open | .shared | .auto | .wapi => e.dot11PrivacyAlgrthm
  | .ieee8021X => if bmcst then e.dot118021XGrpPrivacy else e.dot118021XPrivacy psta

/-- The attributes that `validate_recv_data_frame` takes from the header, or none for a
frame that is dropped. With both DS bits set it is. -/
def validateRecvDataFrame (e : RxEnv) (f : RecvFrame) : Option RecvFrame :=
  if toDs f.view ∧ frDs f.view then none
  else if e.accepts f = false then none
  else
    let ra := addr1 f.view
    let ta := TkipRoundTrip.addr2 f.view
    let encrypt := if getPrivacy f then getEncryAlgo e ta (isMcast ra) else .noPrivacy
    some { f with attrib := { f.attrib with
      ra, ta, encrypt
      qos := qos f.view
      privacy := getPrivacy f
      priority := getPriority f.view
      hdrlen := hdrlen f.view
      ivLen := encrypt.ivLen
      icvLen := encrypt.icvLen } }

/-! ## Traces -/

def rtwWepDecrypt (f : RecvFrame) : List Op :=
  if f.attrib.encrypt = .wep40 ∨ f.attrib.encrypt = .wep104 then
    let length := payloadLength f
    let payload := f.attrib.hdrlen + f.attrib.ivLen
    [.bytes f.attrib.hdrlen 3, .length length, .bytes payload (u32 length), .length (length - 4),
      .bytes payload (length - 4).toNat]
  else []

/-- The comparison of the ICV stops at the first difference. -/
def rtwTkipDecrypt (sec : SecurityPriv) (f : RecvFrame) : List Op :=
  match tkipKey sec f with
  | none => []
  | some _ =>
    let length := payloadLength f
    let payload := f.attrib.hdrlen + f.attrib.ivLen
    [.length length, .bytes f.attrib.hdrlen 1, .bytes (f.attrib.hdrlen + 2 : ℕ) 1,
      .bytes (f.attrib.hdrlen + 4 : ℕ) 4, .bytes payload (u32 length), .length (length - 4),
      .bytes payload (length - 4).toNat, .bytes (payload + length - 4) 4]

def constructCtrPreload (lay : Layout) : List Op :=
  (if lay.qcExists then [Op.bytes (if lay.a4Exists then 30 else 24) 1] else []) ++ [Op.bytes 10 6]

def pnVector (hdrlen : ℕ) : List Op := [.bytes hdrlen 2, .bytes (hdrlen + 4 : ℕ) 4]

/-- The header length that `aes_decipher` goes on with: it takes a QoS header of another
length for one without its QoS field. -/
def decipherHdrlen (lay : Layout) (hdrlen : ℕ) : ℕ :=
  if lay.qcExists ∧ hdrlen ≠ wlanHdrA3QosLen ∧ hdrlen ≠ wlanHdrA4QosLen then hdrlen + 2
  else hdrlen

/-- From the copy to `message` on the frame is only read, for its packet number and in the
comparison of the MIC. -/
def aesDecipher (lay : Layout) (hdrlen : ℕ) (plen : ℤ) : List Op :=
  let numBlocks := u32 (plen - 8) / 16
  let payloadRemainder := u32 (plen - 8) % 16
  let h := decipherHdrlen lay hdrlen
  [Op.bytes 0 2, Op.length (plen - 8)] ++ pnVector hdrlen ++
    ((List.range numBlocks).flatMap fun i =>
      constructCtrPreload lay ++ [Op.bytes (h + 8 + 16 * i : ℕ) 16]) ++
    (if 0 < payloadRemainder then
      constructCtrPreload lay ++ [Op.bytes (h + 8 + 16 * numBlocks : ℕ) payloadRemainder]
    else []) ++
    (if u32 (h + plen + 8) ≤ maxMsgSize then [Op.bytes 0 (u32 (h + plen + 8))] else []) ++
    pnVector h ++ [Op.bytes (u32 (h + plen)) 8]

def rtwAesDecrypt (sec : SecurityPriv) (f : RecvFrame) : List Op :=
  match aesKey sec f with
  | none => []
  | some _ =>
    .length (payloadLength f) ::
      aesDecipher (layoutOf (frameMem f) f.attrib.hdrlen) f.attrib.hdrlen (payloadLength f)

/-- What `decryptor` calls for the cipher of the frame. -/
def softDecrypt (sec : SecurityPriv) (f : RecvFrame) : List Op :=
  match f.attrib.encrypt with
  | .wep40 | .wep104 => rtwWepDecrypt f
  | .tkip => rtwTkipDecrypt sec f
  | .aes => rtwAesDecrypt sec f
  | _ => []

def rtwSeccalctkipmic (hdr : List UInt8) : List Op :=
  .bytes 1 1 ::
    if toDs hdr then [.bytes 16 6, .bytes (if frDs hdr then 24 else 10) 6]
    else [.bytes 4 6, .bytes (if frDs hdr then 16 else 10) 6]

def MicKeyed (sec : SecurityPriv) (f : RecvFrame) : Prop :=
  f.attrib.encrypt = .tkip ∧ (sec.uncstKey f.attrib.ta).isSome ∧
    ¬ (isMcast f.attrib.ra ∧ sec.binstallGrpkey = false)

instance (sec : SecurityPriv) (f : RecvFrame) : Decidable (MicKeyed sec f) :=
  inferInstanceAs (Decidable (_ ∧ _ ∧ ¬ _))

def recvframeChkmic (sec : SecurityPriv) (f : RecvFrame) : List Op :=
  if MicKeyed sec f then
    let datalen : ℤ := f.len - f.attrib.hdrlen - f.attrib.ivLen - f.attrib.icvLen - 8
    let payload := f.attrib.hdrlen + f.attrib.ivLen
    [Op.length datalen] ++ rtwSeccalctkipmic f.view ++
      [Op.bytes payload (u32 datalen), Op.bytes (payload + u32 datalen : ℕ) 8]
  else []

/-! ## Management frames -/

def mmePos (f : RecvFrame) : ℤ := f.len - mmeLen

def mmeIpn (e : RxEnv) (f : RecvFrame) : ℕ :=
  let rd (i : ℕ) := octet e f (mmePos f + 4 + i)
  rd 0 + 2 ^ 8 * rd 1 + 2 ^ 16 * rd 2 + 2 ^ 24 * rd 3 + 2 ^ 32 * rd 4 + 2 ^ 40 * rd 5

def isMme (e : RxEnv) (f : RecvFrame) : Bool := octet e f (mmePos f) = mmeIe

def mmeKeyed (e : RxEnv) (f : RecvFrame) : Bool :=
  octet e f (mmePos f + 2) + 2 ^ 8 * octet e f (mmePos f + 3) = e.dot11wBIPKeyid

/-- The lengths are of type `sint`, the sizes of the copies `size_t`. -/
def rtwBipVerify (e : RxEnv) (f : RecvFrame) : List Op :=
  .bytes (mmePos f) 1 ::
    if isMme e f = false then []
    else
      .bytes (mmePos f + 2) 2 ::
        if mmeKeyed e f = false then []
        else
          .bytes (mmePos f + 4) 6 ::
            if mmeIpn e f ≤ e.dot11wBIPrxpn then []
            else
              let bodyLen : ℤ := f.len - wlanHdrA3Len
              .length bodyLen ::
                if e.zmalloc (u32 (bodyLen + bipAadSize)) = false then []
                else
                  [Op.bytes wlanHdrA3Len (bodyLen % 2 ^ 64).toNat, Op.bytes 0 2, Op.bytes 4 18] ++
                    if e.omac1 f.rxData then [Op.bytes (f.len - 8) 8] else []

/-- The frame is decrypted and its body moved over the IV, also when the decryption has
failed and the frame is freed. -/
def decryptMgmt (e : RxEnv) (f : RecvFrame) : List Op :=
  let dataLen : ℤ := f.len - 24 - 8 - 8
  [Op.bytes 4 6, Op.bytes 10 6, Op.length dataLen] ++
    if e.zmalloc (u32 dataLen) = false then []
    else
      [Op.bytes 27 1] ++ rtwAesDecrypt e.sec (mgmtToDecrypt f) ++
        [Op.bytes 32 (u32 dataLen), Op.bytes 24 (u32 dataLen)]

def isBmc (f : RecvFrame) : Bool := byteAt f.view 4 % 2 = 1

def bipProtected (f : RecvFrame) : Bool :=
  (f.getFrameSubType = wifiAction ∧ categoryIsGroupPrivacy (byteAt f.view 24) = false ∧
      categoryIsRobust (byteAt f.view 24)) ∨
    f.getFrameSubType = wifiDeauth ∨ f.getFrameSubType = wifiDisassoc

def validateMgmtProtect (e : RxEnv) (f : RecvFrame) : List Op :=
  if e.bipKeyInstalled = false then []
  else
    [Op.bytes 0 2, Op.bytes 4 1] ++
      if getPrivacy f then decryptMgmt e f
      else if e.staMfp f.addr2 = false then []
      else
        (if f.getFrameSubType = wifiAction then [Op.bytes 24 1] else []) ++
          if isBmc f then if bipProtected f then rtwBipVerify e f else []
          else if f.getFrameSubType = wifiDeauth ∨ f.getFrameSubType = wifiDisassoc then
            [Op.bytes 24 2]
          else []

/-! ## Decryption -/

theorem u32_le {n : ℤ} (h : 0 ≤ n) : (u32 n : ℤ) ≤ n := by
  rw [u32]
  omega

theorem u32_eq {n : ℤ} (h : 0 ≤ n) (hlt : n < 2 ^ 32) : (u32 n : ℤ) = n := by
  rw [u32]
  omega

theorem signed_within (start : ℕ) {len : ℕ} {n : ℤ} (hn : 0 ≤ n) (h : start + n ≤ len) :
    (Op.bytes start (u32 n)).Within len := by
  have hle := u32_le hn
  exact bytes_within _ (by omega)

theorem toNat_within {start len : ℕ} {n : ℤ} (h : 0 ≤ n → start + n ≤ len) :
    (Op.bytes start n.toNat).Within len := by
  intro hpos
  exact ⟨by omega, by omega⟩

structure Measured (f : RecvFrame) : Prop where
  hdrlen : 24 ≤ f.attrib.hdrlen
  ivLen : f.attrib.ivLen = f.attrib.encrypt.ivLen
  icvLen : f.attrib.icvLen = f.attrib.encrypt.icvLen

theorem rtwWepDecrypt_within {f : RecvFrame} (hm : Measured f)
    (henc : f.attrib.encrypt = .wep40 ∨ f.attrib.encrypt = .wep104) :
    Within f.len (rtwWepDecrypt f) ↔ HasField f := by
  have hiv : f.attrib.ivLen = 4 ∧ f.attrib.icvLen = 4 := by
    rw [hm.ivLen, hm.icvLen]
    obtain h | h := henc
    · rw [h]
      exact ⟨rfl, rfl⟩
    · rw [h]
      exact ⟨rfl, rfl⟩
  rw [rtwWepDecrypt, if_pos henc, HasField, payloadLength, hiv.1, hiv.2]
  simp only [within_cons, within_nil, and_true, length_within]
  constructor
  · rintro ⟨-, -, -, hicv, -⟩
    omega
  · intro h
    exact ⟨bytes_within _ (by omega), by omega, signed_within _ (by omega) (by omega), by omega,
      toNat_within (by omega)⟩

theorem rtwTkipDecrypt_within {sec : SecurityPriv} {f : RecvFrame} (hm : Measured f)
    (henc : f.attrib.encrypt = .tkip) :
    Within f.len (rtwTkipDecrypt sec f) ↔ (tkipKey sec f ≠ none → HasField f) := by
  have hiv : f.attrib.ivLen = 8 ∧ f.attrib.icvLen = 4 := by
    rw [hm.ivLen, hm.icvLen, henc]
    exact ⟨rfl, rfl⟩
  rw [rtwTkipDecrypt, HasField, payloadLength, hiv.1, hiv.2]
  cases tkipKey sec f with
  | none => exact iff_of_true within_nil (fun h => absurd rfl h)
  | some key =>
    simp only [within_cons, within_nil, and_true, length_within]
    constructor
    · rintro ⟨-, -, -, -, -, hicv, -⟩ -
      omega
    · intro h
      have hlen := h (Option.some_ne_none key)
      exact ⟨by omega, bytes_within _ (by omega), bytes_within _ (by omega), bytes_within _ (by omega),
        signed_within _ (by omega) (by omega), by omega, toNat_within (by omega),
        fun _ => ⟨by omega, by omega⟩⟩

theorem decipherHdrlen_ge (lay : Layout) (hdrlen : ℕ) : hdrlen ≤ decipherHdrlen lay hdrlen := by
  unfold decipherHdrlen
  split <;> omega

def Layout.Fits (lay : Layout) (hdrlen : ℕ) : Prop :=
  24 ≤ hdrlen ∧ (lay.qcExists = true → lay.a4Exists = true → 30 ≤ hdrlen)

theorem constructCtrPreload_within {lay : Layout} {hdrlen len : ℕ} (hlay : Layout.Fits lay hdrlen)
    (h : hdrlen + 8 ≤ len) : Within len (constructCtrPreload lay) := by
  obtain ⟨hhdr, ha4⟩ := hlay
  rw [constructCtrPreload, within_append]
  refine ⟨?_, ?_⟩
  · cases hq : lay.qcExists with
    | false => exact within_nil
    | true =>
      cases ha : lay.a4Exists with
      | false =>
        rw [if_pos rfl, if_neg Bool.false_ne_true, within_cons]
        exact ⟨bytes_within 24 (by omega), within_nil⟩
      | true =>
        have hlong := ha4 hq ha
        rw [if_pos rfl, if_pos rfl, within_cons]
        exact ⟨bytes_within 30 (by omega), within_nil⟩
  · rw [within_cons]
    exact ⟨bytes_within 10 (by omega), within_nil⟩

theorem aesDecipher_within {lay : Layout} {hdrlen len : ℕ} {plen : ℤ}
    (hlay : Layout.Fits lay hdrlen) (hlen : (len : ℤ) = hdrlen + 8 + plen) (hlt : len < 2 ^ 14) :
    Within len (aesDecipher lay hdrlen plen) ↔
      8 ≤ plen ∧ decipherHdrlen lay hdrlen = hdrlen := by
  have hhdr := hlay.1
  rw [aesDecipher]
  simp only [within_append, within_cons, within_nil, and_true, length_within, within_loop]
  constructor
  · rintro ⟨⟨⟨⟨⟨⟨⟨-, hplen⟩, -⟩, -⟩, -⟩, -⟩, -⟩, hmic⟩
    have hge := decipherHdrlen_ge lay hdrlen
    have hle : decipherHdrlen lay hdrlen ≤ hdrlen + 2 := by
      unfold decipherHdrlen
      split <;> omega
    have hpos : u32 (decipherHdrlen lay hdrlen + plen) = decipherHdrlen lay hdrlen + plen :=
      u32_eq (by omega) (by omega)
    have hend := (hmic (by decide)).2
    exact ⟨by omega, by omega⟩
  · rintro ⟨hplen, hh⟩
    have hpre : Within len (constructCtrPreload lay) := constructCtrPreload_within hlay (by omega)
    have hpn : Within len (pnVector hdrlen) := by
      rw [pnVector, within_cons, within_cons]
      exact ⟨bytes_within _ (by omega), bytes_within _ (by omega), within_nil⟩
    have hsize : (u32 (plen - 8) : ℤ) = plen - 8 := u32_eq (by omega) (by omega)
    have hmic : (u32 (hdrlen + plen) : ℤ) = hdrlen + plen := u32_eq (by omega) (by omega)
    have hmsg : (u32 (hdrlen + plen + 8) : ℤ) = hdrlen + plen + 8 := u32_eq (by omega) (by omega)
    rw [hh]
    refine ⟨⟨⟨⟨⟨⟨⟨bytes_within 0 (by omega), by omega⟩, hpn⟩, ?_⟩, ?_⟩, ?_⟩, hpn⟩,
      bytes_within _ (by omega)⟩
    · intro i hi
      exact ⟨hpre, bytes_within _ (by omega)⟩
    · split
      · rw [within_append, within_cons]
        exact ⟨hpre, bytes_within _ (by omega), within_nil⟩
      · exact within_nil
    · split
      · rw [within_cons]
        exact ⟨bytes_within 0 (by omega), within_nil⟩
      · exact within_nil

def HtControl (f : RecvFrame) : Prop :=
  (layoutOf (frameMem f) f.attrib.hdrlen).qcExists = true ∧ order f.view = true

instance (f : RecvFrame) : Decidable (HtControl f) := inferInstanceAs (Decidable (_ ∧ _))

structure Formed (f : RecvFrame) : Prop extends Measured f where
  layout : Layout.Fits (layoutOf (frameMem f) f.attrib.hdrlen) f.attrib.hdrlen
  same : decipherHdrlen (layoutOf (frameMem f) f.attrib.hdrlen) f.attrib.hdrlen =
    f.attrib.hdrlen ↔ ¬ HtControl f

theorem rtwAesDecrypt_within {sec : SecurityPriv} {f : RecvFrame} (hf : Formed f)
    (hlt : f.len < 2 ^ 14) (henc : f.attrib.encrypt = .aes) :
    Within f.len (rtwAesDecrypt sec f) ↔
      (aesKey sec f ≠ none → HasField f ∧ ¬ HtControl f) := by
  have hiv : f.attrib.ivLen = 8 ∧ f.attrib.icvLen = 8 := by
    rw [hf.ivLen, hf.icvLen, henc]
    exact ⟨rfl, rfl⟩
  have hlen : (f.len : ℤ) = f.attrib.hdrlen + 8 + payloadLength f := by
    rw [payloadLength, hiv.1]
    omega
  have hfield : HasField f ↔ 8 ≤ payloadLength f := by
    rw [HasField, hiv.1, hiv.2]
    omega
  rw [rtwAesDecrypt, hfield, ← hf.same]
  cases aesKey sec f with
  | none => exact iff_of_true within_nil (fun h => absurd rfl h)
  | some key =>
    simp only [within_cons, length_within, aesDecipher_within hf.layout hlen hlt]
    constructor
    · rintro ⟨-, h⟩ -
      exact h
    · intro h
      have hlong := h (Option.some_ne_none key)
      exact ⟨by omega, hlong⟩

def DecryptFits (sec : SecurityPriv) (f : RecvFrame) : Prop :=
  match f.attrib.encrypt with
  | .wep40 | .wep104 => HasField f
  | .tkip => tkipKey sec f ≠ none → HasField f
  | .aes => aesKey sec f ≠ none → HasField f ∧ ¬ HtControl f
  | _ => True

theorem softDecrypt_within {sec : SecurityPriv} {f : RecvFrame} (hf : Formed f)
    (hlt : f.len < 2 ^ 14) : Within f.len (softDecrypt sec f) ↔ DecryptFits sec f := by
  cases henc : f.attrib.encrypt with
  | wep40 =>
    simp only [softDecrypt, DecryptFits, henc]
    exact rtwWepDecrypt_within hf.toMeasured (.inl henc)
  | wep104 =>
    simp only [softDecrypt, DecryptFits, henc]
    exact rtwWepDecrypt_within hf.toMeasured (.inr henc)
  | tkip =>
    simp only [softDecrypt, DecryptFits, henc]
    exact rtwTkipDecrypt_within hf.toMeasured henc
  | aes =>
    simp only [softDecrypt, DecryptFits, henc]
    exact rtwAesDecrypt_within hf hlt henc
  | _ =>
    simp only [softDecrypt, DecryptFits, henc]
    exact iff_of_true within_nil trivial

theorem qos_of_qcExists {f : RecvFrame} {n : ℕ}
    (h : (layoutOf (frameMem f) n).qcExists = true) : qos f.view = true := by
  have hnibble := (of_decide_eq_true h).2
  simp only [List.mem_cons, List.not_mem_nil, or_false] at hnibble
  refine decide_eq_true ?_
  change (f.view.getD 0 0).toNat / 128 % 2 = 1
  change (f.view.getD 0 0).toNat / 16 = 8 ∨ (f.view.getD 0 0).toNat / 16 = 9 ∨
    (f.view.getD 0 0).toNat / 16 = 10 ∨ (f.view.getD 0 0).toNat / 16 = 11 at hnibble
  omega

theorem validateRecvDataFrame_some {e : RxEnv} {f g : RecvFrame}
    (hg : validateRecvDataFrame e f = some g) :
    g.view = f.view ∧ g.len = f.len ∧ g.attrib.hdrlen = hdrlen f.view ∧ a4Shift f.view = 0 ∧
      g.attrib.ivLen = g.attrib.encrypt.ivLen ∧ g.attrib.icvLen = g.attrib.encrypt.icvLen := by
  unfold validateRecvDataFrame at hg
  by_cases hwds : toDs f.view ∧ frDs f.view
  · rw [if_pos hwds] at hg
    exact nomatch hg
  · rw [if_neg hwds] at hg
    by_cases hacc : e.accepts f = false
    · rw [if_pos hacc] at hg
      exact nomatch hg
    · rw [if_neg hacc] at hg
      obtain rfl := Option.some.inj hg
      refine ⟨rfl, rfl, rfl, ?_, rfl, rfl⟩
      rw [a4Shift, if_neg]
      rwa [Bool.and_eq_true]

theorem validated_formed {e : RxEnv} {f g : RecvFrame}
    (hg : validateRecvDataFrame e f = some g) : Formed g := by
  obtain ⟨hview, -, hhdr, ha4, hiv, hicv⟩ := validateRecvDataFrame_some hg
  rw [hdrlen, ha4, Nat.add_zero, ← hview] at hhdr
  have hqos := qos_of_qcExists (f := g) (n := g.attrib.hdrlen)
  have hsame : decipherHdrlen (layoutOf (frameMem g) g.attrib.hdrlen) g.attrib.hdrlen =
      g.attrib.hdrlen ↔ ¬ HtControl g := by
    unfold decipherHdrlen HtControl
    by_cases hqc : (layoutOf (frameMem g) g.attrib.hdrlen).qcExists = true
    · rw [hqos hqc, if_pos rfl] at hhdr
      cases ho : order g.view with
      | true =>
        rw [ho, if_pos rfl] at hhdr
        rw [if_pos ⟨hqc, by rw [hhdr]; decide⟩]
        exact iff_of_false (by omega) (not_not.mpr ⟨hqc, rfl⟩)
      | false =>
        rw [ho, if_neg Bool.false_ne_true] at hhdr
        rw [if_neg (fun h => h.2.1 hhdr)]
        exact iff_of_true rfl (fun h => Bool.false_ne_true h.2)
    · rw [if_neg (fun h => hqc h.1)]
      exact iff_of_true rfl (fun h => hqc h.1)
  refine ⟨⟨?_, hiv, hicv⟩, ⟨?_, ?_⟩, hsame⟩
  · rw [hhdr]
    split <;> split <;> omega
  · rw [hhdr]
    split <;> split <;> omega
  · intro hqc ha
    have hne := (of_decide_eq_true ha).2
    rw [hqos hqc, if_pos rfl] at hhdr
    rw [wlanHdrA3QosLen] at hne
    split at hhdr <;> omega

/-! ## The Michael check -/

def micHeaderEnd (hdr : List UInt8) : ℕ :=
  if toDs hdr then if frDs hdr then 30 else 22 else if frDs hdr then 22 else 16

def ChkmicFits (sec : SecurityPriv) (f : RecvFrame) : Prop :=
  MicKeyed sec f → f.attrib.hdrlen + f.attrib.ivLen + f.attrib.icvLen + 8 ≤ f.len ∧
    micHeaderEnd f.view ≤ f.len

theorem rtwSeccalctkipmic_within (hdr : List UInt8) (len : ℕ) :
    Within len (rtwSeccalctkipmic hdr) ↔ micHeaderEnd hdr ≤ len := by
  have hspan (start : ℕ) : (Op.bytes start 6).Within len ↔ start + 6 ≤ len :=
    bytes_within_iff start (by decide)
  have hone : (Op.bytes 1 1).Within len ↔ 2 ≤ len := bytes_within_iff 1 (by decide)
  rw [rtwSeccalctkipmic, micHeaderEnd, within_cons, hone]
  cases toDs hdr with
  | true =>
    cases frDs hdr with
    | true =>
      have h16 := hspan 16
      have h24 := hspan 24
      simp only [if_true, within_cons, within_nil, and_true]
      exact (and_congr_right fun _ => and_congr h16 h24).trans (by omega)
    | false =>
      have h16 := hspan 16
      have h10 := hspan 10
      simp only [if_true, Bool.false_eq_true, if_false, within_cons, within_nil, and_true]
      exact (and_congr_right fun _ => and_congr h16 h10).trans (by omega)
  | false =>
    cases frDs hdr with
    | true =>
      have h4 := hspan 4
      have h16 := hspan 16
      simp only [if_true, Bool.false_eq_true, if_false, within_cons, within_nil, and_true]
      exact (and_congr_right fun _ => and_congr h4 h16).trans (by omega)
    | false =>
      have h4 := hspan 4
      have h10 := hspan 10
      simp only [Bool.false_eq_true, if_false, within_cons, within_nil, and_true]
      exact (and_congr_right fun _ => and_congr h4 h10).trans (by omega)

theorem recvframeChkmic_within (sec : SecurityPriv) (f : RecvFrame) :
    Within f.len (recvframeChkmic sec f) ↔ ChkmicFits sec f := by
  unfold recvframeChkmic ChkmicFits
  by_cases hkey : MicKeyed sec f
  · rw [if_pos hkey, within_append, within_append, rtwSeccalctkipmic_within]
    simp only [within_cons, within_nil, and_true, length_within]
    constructor
    · rintro ⟨⟨hlen, hhdr⟩, -⟩ -
      exact ⟨by omega, hhdr⟩
    · intro h
      obtain ⟨hlen, hhdr⟩ := h hkey
      have hle := u32_le (n := f.len - f.attrib.hdrlen - f.attrib.ivLen - f.attrib.icvLen - 8)
        (by omega)
      exact ⟨⟨by omega, hhdr⟩, bytes_within _ (by omega), bytes_within _ (by omega)⟩
  · rw [if_neg hkey]
    exact iff_of_true within_nil (fun h => absurd h hkey)

/-! ## The management MIC element -/

def MicReached (e : RxEnv) (f : RecvFrame) : Prop :=
  isMme e f = true ∧ mmeKeyed e f = true ∧ e.dot11wBIPrxpn < mmeIpn e f

instance (e : RxEnv) (f : RecvFrame) : Decidable (MicReached e f) :=
  inferInstanceAs (Decidable (_ ∧ _ ∧ _))

def BipFits (e : RxEnv) (f : RecvFrame) : Prop :=
  mmeLen ≤ f.len ∧ (MicReached e f → wlanHdrA3Len ≤ f.len)

instance (e : RxEnv) (f : RecvFrame) : Decidable (BipFits e f) :=
  inferInstanceAs (Decidable (_ ∧ (_ → _)))

theorem rtwBipVerify_within {e : RxEnv} {f : RecvFrame} (hlt : f.len < 2 ^ 14) :
    Within f.len (rtwBipVerify e f) ↔ BipFits e f := by
  have hmme : (Op.bytes (mmePos f) 1).Within f.len ↔ 18 ≤ f.len := by
    rw [mmePos, mmeLen]
    exact ⟨fun h => by
      have hstart := (h (by decide)).1
      omega, fun h _ => ⟨by omega, by omega⟩⟩
  have hfield (off size : ℕ) (hoff : off + size ≤ 18) (h : 18 ≤ f.len) :
      (Op.bytes (mmePos f + off) size).Within f.len := by
    rw [mmePos, mmeLen]
    exact fun _ => ⟨by omega, by omega⟩
  unfold rtwBipVerify BipFits MicReached
  rw [within_cons, hmme, mmeLen]
  refine and_congr_right fun hlen => ?_
  by_cases hid : isMme e f = true
  · rw [if_neg (by rw [hid]; decide), within_cons]
    by_cases hkey : mmeKeyed e f = true
    · rw [if_neg (by rw [hkey]; decide), within_cons]
      by_cases hipn : mmeIpn e f ≤ e.dot11wBIPrxpn
      · rw [if_pos hipn]
        exact iff_of_true ⟨hfield 2 2 (by decide) hlen, hfield 4 6 (by decide) hlen, within_nil⟩
          (fun h => absurd h.2.2 (Nat.not_lt.mpr hipn))
      · rw [if_neg hipn, within_cons, length_within, wlanHdrA3Len]
        constructor
        · rintro ⟨-, -, hbody, -⟩ -
          omega
        · intro h
          have hbody := h ⟨hid, hkey, Nat.lt_of_not_le hipn⟩
          refine ⟨hfield 2 2 (by decide) hlen, hfield 4 6 (by decide) hlen, by omega, ?_⟩
          split
          · exact within_nil
          · rw [within_append, within_cons, within_cons, within_cons]
            refine ⟨⟨bytes_within 24 (by omega), bytes_within 0 (by omega),
              bytes_within 4 (by omega), within_nil⟩, ?_⟩
            split
            · rw [within_cons]
              exact ⟨fun _ => ⟨by omega, by omega⟩, within_nil⟩
            · exact within_nil
    · rw [if_pos (Bool.eq_false_of_not_eq_true hkey)]
      exact iff_of_true ⟨hfield 2 2 (by decide) hlen, within_nil⟩ (fun h => absurd h.2.1 hkey)
  · rw [if_pos (Bool.eq_false_of_not_eq_true hid)]
    exact iff_of_true within_nil (fun h => absurd h.1 hid)

/-! ## Management frames -/

/-- The condition on a management frame: room for IV and MIC when it is encrypted, else
for what is read of its body. -/
def MgmtFits (e : RxEnv) (f : RecvFrame) : Prop :=
  e.bipKeyInstalled = true →
    if getPrivacy f then 40 ≤ f.len
    else 5 ≤ f.len ∧ (e.staMfp f.addr2 = true →
      (f.getFrameSubType = wifiAction → 25 ≤ f.len) ∧
        if isBmc f then bipProtected f = true → BipFits e f
        else f.getFrameSubType = wifiDeauth ∨ f.getFrameSubType = wifiDisassoc → 26 ≤ f.len)

theorem mgmtToDecrypt_qcExists {f : RecvFrame} (hmgt : byteAt f.view 0 / 4 % 4 = 0) :
    (layoutOf (frameMem (mgmtToDecrypt f)) (mgmtToDecrypt f).attrib.hdrlen).qcExists = false := by
  refine decide_eq_false (fun h => ?_)
  have htype : byteAt f.view 0 / 4 % 4 = 2 := h.1
  omega

theorem mgmtToDecrypt_plain {f : RecvFrame} (hmgt : byteAt f.view 0 / 4 % 4 = 0) :
    ¬ HtControl (mgmtToDecrypt f) := by
  rintro ⟨hqc, -⟩
  rw [mgmtToDecrypt_qcExists hmgt] at hqc
  exact nomatch hqc

theorem mgmtToDecrypt_formed {f : RecvFrame} (hmgt : byteAt f.view 0 / 4 % 4 = 0) :
    Formed (mgmtToDecrypt f) := by
  refine ⟨⟨Nat.le_refl 24, rfl, rfl⟩, ⟨Nat.le_refl 24, fun h => ?_⟩,
    iff_of_true ?_ (mgmtToDecrypt_plain hmgt)⟩
  · rw [mgmtToDecrypt_qcExists hmgt] at h
    exact nomatch h
  · rw [decipherHdrlen, mgmtToDecrypt_qcExists hmgt]
    exact if_neg (fun h => nomatch h.1)

theorem decryptMgmt_within {e : RxEnv} {f : RecvFrame} (hlt : f.len < 2 ^ 14)
    (hmgt : byteAt f.view 0 / 4 % 4 = 0) : Within f.len (decryptMgmt e f) ↔ 40 ≤ f.len := by
  unfold decryptMgmt
  rw [within_append, within_cons, within_cons, within_cons, length_within]
  constructor
  · rintro ⟨⟨-, -, hlen, -⟩, -⟩
    omega
  · intro h
    refine ⟨⟨bytes_within 4 (by omega), bytes_within 10 (by omega), by omega, within_nil⟩, ?_⟩
    split
    · exact within_nil
    · have haes : Within f.len (rtwAesDecrypt e.sec (mgmtToDecrypt f)) :=
        (rtwAesDecrypt_within (mgmtToDecrypt_formed hmgt) hlt rfl).2 fun _ =>
          ⟨h, mgmtToDecrypt_plain hmgt⟩
      rw [within_append, within_append, within_cons, within_cons, within_cons]
      exact ⟨⟨⟨bytes_within 27 (by omega), within_nil⟩, haes⟩,
        signed_within 32 (by omega) (by omega),
        signed_within 24 (by omega) (by omega), within_nil⟩

theorem validateMgmtProtect_within {e : RxEnv} {f : RecvFrame} (hlt : f.len < 2 ^ 14)
    (hmgt : byteAt f.view 0 / 4 % 4 = 0) :
    Within f.len (validateMgmtProtect e f) ↔ MgmtFits e f := by
  have h0 : (Op.bytes 0 2).Within f.len ↔ 2 ≤ f.len := bytes_within_iff 0 (by decide)
  have h4 : (Op.bytes 4 1).Within f.len ↔ 5 ≤ f.len := bytes_within_iff 4 (by decide)
  have hcat : (Op.bytes 24 1).Within f.len ↔ 25 ≤ f.len := bytes_within_iff 24 (by decide)
  have hreason : (Op.bytes 24 2).Within f.len ↔ 26 ≤ f.len := bytes_within_iff 24 (by decide)
  unfold validateMgmtProtect MgmtFits
  by_cases hbip : e.bipKeyInstalled = true
  · rw [if_neg (by rw [hbip]; decide), within_append, within_cons, within_cons, h0, h4]
    simp only [hbip, true_imp_iff, within_nil, and_true]
    by_cases hpriv : getPrivacy f = true
    · rw [if_pos hpriv, if_pos hpriv, decryptMgmt_within hlt hmgt]
      omega
    · rw [if_neg hpriv, if_neg hpriv]
      refine and_congr ⟨fun h => h.2, fun h => ⟨by omega, h⟩⟩ ?_
      by_cases hmfp : e.staMfp f.addr2 = true
      · rw [if_neg (by rw [hmfp]; decide), within_append]
        simp only [hmfp, true_imp_iff]
        refine and_congr ?_ ?_
        · by_cases hact : f.getFrameSubType = wifiAction
          · rw [if_pos hact, within_cons, hcat]
            simp [hact]
          · rw [if_neg hact]
            exact iff_of_true within_nil (fun h => absurd h hact)
        · cases isBmc f with
          | true =>
            rw [if_pos rfl, if_pos rfl]
            by_cases hprot : bipProtected f = true
            · rw [if_pos hprot, rtwBipVerify_within hlt]
              exact ⟨fun h _ => h, fun h => h hprot⟩
            · rw [if_neg hprot]
              exact iff_of_true within_nil (fun h => absurd h hprot)
          | false =>
            rw [if_neg Bool.false_ne_true, if_neg Bool.false_ne_true]
            by_cases hdis : f.getFrameSubType = wifiDeauth ∨ f.getFrameSubType = wifiDisassoc
            · rw [if_pos hdis, within_cons, hreason]
              exact ⟨fun h _ => h.1, fun h => ⟨h hdis, within_nil⟩⟩
            · rw [if_neg hdis]
              exact iff_of_true within_nil (fun h => absurd h hdis)
      · rw [if_pos (Bool.eq_false_of_not_eq_true hmfp)]
        exact iff_of_true within_nil (fun h => absurd h hmfp)
  · rw [if_pos (Bool.eq_false_of_not_eq_true hbip)]
    exact iff_of_true within_nil (fun h => absurd h hbip)

/-! ## Every frame -/

def OfType (f : RecvFrame) (type : FrameType) : Prop :=
  byteAt f.view 0 % 4 = 0 ∧ f.getFrameType = type

instance (f : RecvFrame) (type : FrameType) : Decidable (OfType f type) :=
  inferInstanceAs (Decidable (_ ∧ _))

/-- The calls that work with lengths. A frame that comes to the Michael check may have been
put together from fragments, and management frames come with the attributes of their
descriptor. -/
inductive Call where
  | validateMgmtProtect (r : RxFrame)
  | decryptor (r : RxFrame)
  | recvframeChkmic (f : RecvFrame)

def Call.frame : Call → RecvFrame
  | .validateMgmtProtect r => r.f
  | .decryptor r => r.f
  | .recvframeChkmic f => f

def Call.ops (e : RxEnv) : Call → List Op
  | .validateMgmtProtect r => if OfType r.f .mgt then RecvBounds.validateMgmtProtect e r.f else []
  | .decryptor r =>
    if OfType r.f .data then
      match validateRecvDataFrame e r.f with
      | none => []
      | some g => if g.attrib.bdecrypted then [] else softDecrypt e.sec g
    else []
  | .recvframeChkmic f => RecvBounds.recvframeChkmic e.sec f

def Call.Fits (e : RxEnv) : Call → Prop
  | .validateMgmtProtect r => OfType r.f .mgt → MgmtFits e r.f
  | .decryptor r => OfType r.f .data →
      ∀ g ∈ validateRecvDataFrame e r.f, g.attrib.bdecrypted = false → DecryptFits e.sec g
  | .recvframeChkmic f => ChkmicFits e.sec f

theorem OfType.mgt {r : RxFrame} (h : OfType r.f .mgt) : byteAt r.f.view 0 / 4 % 4 = 0 := by
  have hpos := r.len_pos
  have htype := h.2
  unfold byteAt view
  rw [len] at hpos
  rw [getFrameType] at htype
  cases hrx : r.f.rxData with
  | nil =>
    rw [hrx] at hpos
    exact absurd hpos (Nat.lt_irrefl 0)
  | cons b l =>
    rw [hrx, List.headD_cons] at htype
    change b.toNat / 4 % 4 = 0
    split at htype
    · assumption
    · cases htype
    · cases htype
    · cases htype

/-- Lengths and accesses stay inside the frame just when it is long enough for its form. -/
theorem rx_lengths_inside (e : RxEnv) (c : Call) : Within c.frame.len (c.ops e) ↔ c.Fits e := by
  cases c with
  | validateMgmtProtect r =>
    by_cases hmgt : OfType r.f .mgt
    · simp only [Call.frame, Call.ops, Call.Fits, hmgt, if_true, true_imp_iff]
      exact validateMgmtProtect_within r.len_lt hmgt.mgt
    · simp only [Call.frame, Call.ops, Call.Fits, if_neg hmgt]
      exact iff_of_true within_nil (fun h => absurd h hmgt)
  | decryptor r =>
    by_cases hdata : OfType r.f .data
    · simp only [Call.frame, Call.ops, Call.Fits, hdata, if_true, true_imp_iff]
      cases hg : validateRecvDataFrame e r.f with
      | none => exact iff_of_true within_nil fun g h => absurd h (Option.not_mem_none g)
      | some g =>
        have hlen := (validateRecvDataFrame_some hg).2.1
        have hlt := r.len_lt
        rw [← hlen] at hlt ⊢
        simp only [Option.mem_some_iff, forall_eq']
        cases hdec : g.attrib.bdecrypted with
        | true => exact iff_of_true within_nil nofun
        | false =>
          rw [if_neg Bool.false_ne_true, softDecrypt_within (validated_formed hg) hlt]
          exact ⟨fun h _ => h, fun h => h rfl⟩
    · simp only [Call.frame, Call.ops, Call.Fits, if_neg hdata]
      exact iff_of_true within_nil (fun h => absurd h hdata)
  | recvframeChkmic f => exact recvframeChkmic_within e.sec f

def wepOnly : RxEnv where
  sec := oneKey
  dot11AuthAlgrthm := .open
  dot11PrivacyAlgrthm := .wep40

def rsn : RxEnv where
  sec := oneKey

def header (fc0 fc1 : UInt8) : List UInt8 := [fc0, fc1, 0, 0] ++ List.replicate 18 6 ++ [0, 0]

/-- A WEP frame of two bytes behind the header, a CCMP frame with QoS and HT control, an
encrypted management frame without a MIC, and a group deauthentication without a body. -/
theorem lengths_underflow :
    ¬ Within 26 ((Call.decryptor
        ⟨{ rxData := header 0x08 0x41 ++ [0, 0] }, by decide, by decide⟩).ops wepOnly) ∧
      ¬ Within 100 ((Call.decryptor ⟨{ rxData := header 0x88 0xc1 ++ List.replicate 76 0 },
        by decide, by decide⟩).ops rsn) ∧
      ¬ Within 30 ((Call.validateMgmtProtect
        ⟨{ rxData := header 0xd0 0x40 ++ List.replicate 6 0 }, by decide, by decide⟩).ops rsn) ∧
      ¬ Within 16 ((Call.validateMgmtProtect
        ⟨{ rxData := [0xc0, 0, 0, 0] ++ List.replicate 12 0xff }, by decide, by decide⟩).ops rsn) := by
  decide +kernel

end Rtl8189.RecvBounds
