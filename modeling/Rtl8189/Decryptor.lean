import Rtl8189.AesDecipher

/-!
# The decryptor

Frames that the hardware has not decrypted are decrypted by software. TKIP and CCMP
frames are freed when the integrity check fails. For WEP the CRC is computed and
dropped, and every frame is accepted.
-/
namespace Rtl8189.Decryptor

open AesDecipher BlockModes RecvFrame

/-! ## RC4 and CRC-32 -/

structure Arc4context where
  x : ℕ := 0
  y : ℕ := 0
  state : List ℕ

def arcfourInitStep (key : List UInt8) (s : List ℕ × ℕ × ℕ) (counter : ℕ) : List ℕ × ℕ × ℕ :=
  let (state, stateindex, keyindex) := s
  let t := state.getD counter 0
  let stateindex := (stateindex + byteAt key keyindex + t) % 256
  let u := state.getD stateindex 0
  ((state.set stateindex t).set counter u, stateindex,
    if key.length ≤ keyindex + 1 then 0 else keyindex + 1)

def arcfourInit (key : List UInt8) : Arc4context where
  state := ((List.range 256).foldl (arcfourInitStep key) (List.range 256, 0, 0)).1

def arcfourByte (ctx : Arc4context) : ℕ × Arc4context :=
  let x := (ctx.x + 1) % 256
  let sx := ctx.state.getD x 0
  let y := (sx + ctx.y) % 256
  let sy := ctx.state.getD y 0
  let state := (ctx.state.set y sx).set x sy
  (state.getD ((sx + sy) % 256) 0, { x, y, state })

def arcfourEncrypt : Arc4context → List UInt8 → List UInt8
  | _, [] => []
  | ctx, b :: src =>
    let (k, ctx) := arcfourByte ctx
    (b ^^^ UInt8.ofNat k) :: arcfourEncrypt ctx src

def crc32ReverseBit (data : ℕ) : ℕ :=
  (List.range 8).foldl (fun r j => 2 * r + (data.testBit j).toNat) 0

def crc32Shift (c : ℕ) : ℕ :=
  if c.testBit 31 then (2 * c % 2 ^ 32) ^^^ 0x04c11db7 else 2 * c

def crc32Table (i : ℕ) : ℕ :=
  let c := Nat.repeat crc32Shift 8 (crc32ReverseBit i * 2 ^ 24)
  crc32ReverseBit (c / 2 ^ 24) + 2 ^ 8 * crc32ReverseBit (c / 2 ^ 16 % 256) +
    2 ^ 16 * crc32ReverseBit (c / 2 ^ 8 % 256) + 2 ^ 24 * crc32ReverseBit (c % 256)

def getcrc32 (buf : List UInt8) : ℕ :=
  buf.foldl (fun crc b => crc32Table ((crc ^^^ b.toNat) % 256) ^^^ crc / 256) 0xffffffff ^^^
    0xffffffff

def crcBytes (crc : ℕ) : List UInt8 :=
  (List.range 4).map fun i => UInt8.ofNat (crc / 256 ^ i)

/-! ## Frames -/

/-- The keys, and what the ciphers are made of. `aes128k128d` and the key mixing of
TKIP are left open. -/
structure SecurityPriv where
  dot11DefKey : ℕ → List UInt8
  dot11DefKeylen : ℕ → ℕ
  dot11PrivacyKeyIndex : ℕ := 0
  binstallGrpkey : Bool := false
  dot118021XGrpKey : ℕ → List UInt8 := fun _ => []
  dot118021XGrpKeyid : ℕ := 0
  busetkipkey : Bool := false
  hwDecrypted : Bool := false
  /-- The pairwise key of a station that is found. -/
  uncstKey : MacAddr → Option (List UInt8) := fun _ => none
  aes128k128d : List UInt8 → Block → Block
  /-- `phase1` and `phase2` -/
  tkipMix : List UInt8 → MacAddr → ℕ → List UInt8

def wepKeys : ℕ := 4

def keyIndex (sec : SecurityPriv) (f : RecvFrame) : ℕ :=
  let keyIndex := byteAt f.view (f.attrib.hdrlen + 3) / 64 % 4
  if wepKeys < keyIndex then
    match f.attrib.encrypt with
    | .wep40 | .wep104 => sec.dot11PrivacyKeyIndex
    | _ => sec.dot118021XGrpKeyid
  else keyIndex

def payloadLength (f : RecvFrame) : ℤ := f.len - f.attrib.hdrlen - f.attrib.ivLen

def arcfourPayload (key : List UInt8) (f : RecvFrame) : RecvFrame :=
  let payload := f.attrib.hdrlen + f.attrib.ivLen
  f.overwrite (f.view.take payload ++
    arcfourEncrypt (arcfourInit key) ((f.view.drop payload).take (u32 (payloadLength f))))

def payloadCrc (f : RecvFrame) : List UInt8 :=
  crcBytes (getcrc32 ((f.view.drop (f.attrib.hdrlen + f.attrib.ivLen)).take
    (payloadLength f - 4).toNat))

def wepKey (sec : SecurityPriv) (f : RecvFrame) : List UInt8 :=
  (f.view.drop f.attrib.hdrlen).take 3 ++
    (sec.dot11DefKey (keyIndex sec f)).take (sec.dot11DefKeylen (keyIndex sec f))

/-- The CRC of the payload is computed, and used for nothing. -/
def rtwWepDecrypt (sec : SecurityPriv) (f : RecvFrame) : RecvFrame :=
  if f.attrib.encrypt = .wep40 ∨ f.attrib.encrypt = .wep104 then
    arcfourPayload (wepKey sec f) f
  else f

def tkipPn (f : RecvFrame) : ℕ :=
  let iv := f.view.drop f.attrib.hdrlen
  byteAt iv 2 + 2 ^ 8 * byteAt iv 0 + 2 ^ 16 * byteAt iv 4 + 2 ^ 24 * byteAt iv 5 +
    2 ^ 32 * byteAt iv 6 + 2 ^ 40 * byteAt iv 7

def tkipKey (sec : SecurityPriv) (f : RecvFrame) : Option (List UInt8) :=
  match sec.uncstKey f.attrib.ta with
  | none => none
  | some uncstKey =>
    if isMcast f.attrib.ra then
      if sec.binstallGrpkey = false then none else some (sec.dot118021XGrpKey (keyIndex sec f))
    else some uncstKey

def rtwTkipDecrypt (sec : SecurityPriv) (f : RecvFrame) : RecvFrame × Bool :=
  match tkipKey sec f with
  | none => (f, false)
  | some prwskey =>
    let f := arcfourPayload ((sec.tkipMix prwskey f.attrib.ta (tkipPn f)).take 16) f
    (f, payloadCrc f = (f.view.drop (f.len - 4)).take 4)

/-- For a group frame the key must be the one that was installed last. -/
def aesKey (sec : SecurityPriv) (f : RecvFrame) : Option (List UInt8) :=
  match sec.uncstKey f.attrib.ta with
  | none => none
  | some uncstKey =>
    if isMcast f.attrib.ra then
      if sec.binstallGrpkey = false then none
      else if sec.dot118021XGrpKeyid ≠ keyIndex sec f then none
      else some (sec.dot118021XGrpKey (keyIndex sec f))
    else some uncstKey

def frameMem (f : RecvFrame) : Mem := fun k => f.view.getD k 0

/-- The frame, the outcome, and the buffer `message`. -/
def rtwAesDecrypt (sec : SecurityPriv) (message : Mem) (f : RecvFrame) :
    RecvFrame × Bool × Mem :=
  match aesKey sec f with
  | none => (f, false, message)
  | some prwskey =>
    let d := aesDecipher (sec.aes128k128d prwskey) message f.attrib.hdrlen (frameMem f)
      (u32 (payloadLength f))
    (f.overwrite ((List.range f.view.length).map d.pframe), d.res, d.message)

/-- What is returned, or none for a frame that was freed. -/
structure Decrypted where
  frame : Option RecvFrame
  sec : SecurityPriv
  message : Mem

def softDecrypt (sec : SecurityPriv) (message : Mem) (f : RecvFrame) : RecvFrame × Bool × Mem :=
  match f.attrib.encrypt with
  | .wep40 | .wep104 => (rtwWepDecrypt sec f, true, message)
  | .tkip => ((rtwTkipDecrypt sec f).1, (rtwTkipDecrypt sec f).2, message)
  | .aes => rtwAesDecrypt sec message f
  | _ => (f, true, message)

def decryptor (sec : SecurityPriv) (message : Mem) (f : RecvFrame) : Decrypted :=
  let sec' :=
    if f.attrib.encrypt ≠ .noPrivacy ∧ f.attrib.bdecrypted = false then
      if getFrameType f = .data then { sec with hwDecrypted := false } else sec
    else if f.attrib.bdecrypted ∧ f.attrib.encrypt ≠ .noPrivacy
        ∧ (sec.busetkipkey ∨ f.attrib.encrypt ≠ .tkip) then
      { sec with hwDecrypted := true }
    else sec
  let (f, res, message) :=
    if f.attrib.encrypt ≠ .noPrivacy ∧ f.attrib.bdecrypted = false then
      softDecrypt sec message f
    else (f, true, message)
  { frame := if res then some { f with attrib := { f.attrib with bdecrypted := true } } else none
    sec := sec'
    message }

/-! ## Integrity -/

/-- A protected frame as it comes to the decryptor, with the lengths of its cipher. -/
structure Received where
  f : RecvFrame
  cipher : f.attrib.encrypt ∈ [Encrypt.wep40, .wep104, .tkip, .aes]
  bdecrypted : f.attrib.bdecrypted = false
  hdrlen : 24 ≤ f.attrib.hdrlen
  ivLen : f.attrib.ivLen = f.attrib.encrypt.ivLen
  icvLen : f.attrib.icvLen = f.attrib.encrypt.icvLen
  len : f.len < 2 ^ 32

def HasField (f : RecvFrame) : Prop :=
  f.attrib.hdrlen + f.attrib.ivLen + f.attrib.icvLen ≤ f.len

instance (f : RecvFrame) : Decidable (HasField f) := inferInstanceAs (Decidable (_ ≤ _))

def plaintext (f : RecvFrame) : List UInt8 :=
  (f.rxData.drop (f.attrib.hdrlen + f.attrib.ivLen)).take
    (f.len - f.attrib.hdrlen - f.attrib.ivLen - f.attrib.icvLen)

def integrityField (f : RecvFrame) : List UInt8 := f.rxData.drop (f.len - f.attrib.icvLen)

def IcvOk (f : RecvFrame) : Prop :=
  HasField f ∧ crcBytes (getcrc32 (plaintext f)) = integrityField f

instance (f : RecvFrame) : Decidable (IcvOk f) := inferInstanceAs (Decidable (_ ∧ _))

def CcmpOk (sec : SecurityPriv) (f : RecvFrame) : Prop :=
  HasField f ∧ ∃ key, aesKey sec f = some key ∧
    MicOk (sec.aes128k128d key) (layoutOf (frameMem f) f.attrib.hdrlen) f.attrib.hdrlen
      (frameMem f) (f.len - f.attrib.hdrlen - f.attrib.ivLen)

def IntegrityOk (sec : SecurityPriv) (f : RecvFrame) : Prop :=
  if f.attrib.encrypt = .aes then CcmpOk sec f else IcvOk f

/-- A TKIP frame has an ICV. A CCMP frame has a MIC, fits into `message`, and its header
ends with the QoS field if it has one. -/
def Regular (f : RecvFrame) : Prop :=
  (f.attrib.encrypt = .tkip → HasField f) ∧
    (f.attrib.encrypt = .aes → HasField f ∧ f.len ≤ maxMsgSize ∧
      ((layoutOf (frameMem f) f.attrib.hdrlen).qcExists = true →
        f.attrib.hdrlen = wlanHdrA3QosLen ∨ f.attrib.hdrlen = wlanHdrA4QosLen))

def markDecrypted (f : RecvFrame) : RecvFrame :=
  { f with attrib := { f.attrib with bdecrypted := true } }

theorem arcfourPayload_frame (key : List UInt8) (f : RecvFrame) :
    (arcfourPayload key f).attrib = f.attrib ∧ (arcfourPayload key f).len = f.len :=
  ⟨rfl, overwrite_len f _⟩

theorem view_take {f : RecvFrame} {n k : ℕ} (h : n + k ≤ f.len) :
    (f.view.drop n).take k = (f.rxData.drop n).take k := by
  have hn : n ≤ f.rxData.length := by
    rw [len] at h
    omega
  have hk : k ≤ (f.rxData.drop n).length := by
    rw [len] at h
    rw [List.length_drop]
    omega
  rw [view, List.drop_append_of_le_length hn, List.take_append_of_le_length hk]

theorem payloadCrc_iff {f : RecvFrame} (hf : HasField f) (hicv : f.attrib.icvLen = 4) :
    payloadCrc f = (f.view.drop (f.len - 4)).take 4 ↔ IcvOk f := by
  rw [HasField, hicv] at hf
  have hlen : (payloadLength f - 4).toNat = f.len - f.attrib.hdrlen - f.attrib.ivLen - 4 := by
    rw [payloadLength]
    omega
  have hfield : (f.view.drop (f.len - 4)).take 4 = integrityField f := by
    rw [view_take (by omega), integrityField, hicv, List.take_of_length_le]
    rw [List.length_drop, ← len]
    omega
  rw [payloadCrc, hlen, view_take (by omega), hfield, IcvOk, HasField, hicv, plaintext, hicv]
  exact (and_iff_right hf).symm

theorem softDecrypt_wep (sec : SecurityPriv) (message : Mem) {f : RecvFrame}
    (h : f.attrib.encrypt = .wep40 ∨ f.attrib.encrypt = .wep104) :
    softDecrypt sec message f = (rtwWepDecrypt sec f, true, message) := by
  rcases h with h | h
  · simp only [softDecrypt, h]
  · simp only [softDecrypt, h]

theorem decryptor_frame (sec : SecurityPriv) (message : Mem) (r : Received) :
    (decryptor sec message r.f).frame =
      if (softDecrypt sec message r.f).2.1 then
        some (markDecrypted (softDecrypt sec message r.f).1) else none := by
  have hsoft : r.f.attrib.encrypt ≠ .noPrivacy ∧ r.f.attrib.bdecrypted = false := by
    refine ⟨?_, r.bdecrypted⟩
    intro h
    have hc := r.cipher
    rw [h] at hc
    simp at hc
  simp only [decryptor, if_pos hsoft]
  rfl

theorem rtwTkipDecrypt_icvOk {sec : SecurityPriv} {f : RecvFrame} (hf : HasField f)
    (hicv : f.attrib.icvLen = 4) (h : (rtwTkipDecrypt sec f).2 = true) :
    IcvOk (rtwTkipDecrypt sec f).1 := by
  simp only [rtwTkipDecrypt] at h ⊢
  cases hkey : tkipKey sec f with
  | none =>
    rw [hkey] at h
    cases h
  | some prwskey =>
    rw [hkey] at h
    dsimp only at h ⊢
    generalize hg : arcfourPayload ((sec.tkipMix prwskey f.attrib.ta (tkipPn f)).take 16) f = g at *
    obtain ⟨hattrib, hlen⟩ := arcfourPayload_frame
      ((sec.tkipMix prwskey f.attrib.ta (tkipPn f)).take 16) f
    rw [hg] at hattrib hlen
    have hfield : HasField g := by
      rw [HasField, hattrib, hlen]
      exact hf
    exact (payloadCrc_iff hfield (hattrib ▸ hicv)).mp (of_decide_eq_true h)

theorem frameMem_overwrite (f : RecvFrame) (m : Mem) {k : ℕ} (hk : k < f.view.length) :
    frameMem (f.overwrite ((List.range f.view.length).map m)) k = m k := by
  simp only [frameMem, overwrite_view, List.length_map, List.length_range]
  rw [List.drop_length, List.append_nil]
  simp [List.getD_eq_getElem?_getD, hk]

theorem len_le_view (f : RecvFrame) : f.len ≤ f.view.length := by
  rw [view, List.length_append, len]
  omega

theorem Received.fits (r : Received) (haes : r.f.attrib.encrypt = .aes) (hr : Regular r.f) :
    Fits r.f.attrib.hdrlen (frameMem r.f) (r.f.len - r.f.attrib.hdrlen - r.f.attrib.ivLen) ∧
      u32 (payloadLength r.f) = r.f.len - r.f.attrib.hdrlen - r.f.attrib.ivLen := by
  obtain ⟨hfield, hmax, hqos⟩ := hr.2 haes
  have hiv := r.ivLen
  have hicv := r.icvLen
  rw [haes] at hiv hicv
  simp only [Encrypt.ivLen, Encrypt.icvLen] at hiv hicv
  rw [HasField, hiv, hicv] at hfield
  simp only [maxMsgSize] at hmax
  refine ⟨⟨r.hdrlen, by omega, ?_, hqos⟩, ?_⟩
  · simp only [maxMsgSize]
    omega
  · rw [payloadLength, u32]
    omega

theorem aesFrame_key {sec : SecurityPriv} {f g : RecvFrame} (hattrib : g.attrib = f.attrib)
    (h : ∀ k < f.attrib.hdrlen + 8, frameMem g k = frameMem f k) :
    aesKey sec g = aesKey sec f := by
  have hbyte : byteAt g.view (f.attrib.hdrlen + 3) = byteAt f.view (f.attrib.hdrlen + 3) :=
    congrArg UInt8.toNat (h (f.attrib.hdrlen + 3) (by omega))
  have hidx : keyIndex sec g = keyIndex sec f := by
    simp only [keyIndex, hattrib, hbyte]
  simp only [aesKey, hattrib, hidx]

theorem rtwAesDecrypt_ccmpOk {sec : SecurityPriv} {message : Mem} (r : Received)
    (haes : r.f.attrib.encrypt = .aes) (hr : Regular r.f)
    (h : (rtwAesDecrypt sec message r.f).2.1 = true) :
    CcmpOk sec (rtwAesDecrypt sec message r.f).1 := by
  obtain ⟨hfits, hlength⟩ := r.fits haes hr
  have hfield := (hr.2 haes).1
  have hview := len_le_view r.f
  have hend : r.f.attrib.hdrlen + (r.f.len - r.f.attrib.hdrlen - r.f.attrib.ivLen) + 8 = r.f.len := by
    have hiv := r.ivLen
    rw [haes] at hiv
    simp only [Encrypt.ivLen] at hiv
    rw [HasField, hiv] at hfield
    omega
  simp only [rtwAesDecrypt, hlength] at h ⊢
  cases hkey : aesKey sec r.f with
  | none =>
    rw [hkey] at h
    cases h
  | some key =>
    rw [hkey] at h
    dsimp only at h ⊢
    have hmic := (aesDecipher_res hfits).mp h
    rw [hfits.pframe_eq]
    generalize hplain : plainFrame (sec.aes128k128d key) r.f.attrib.hdrlen (frameMem r.f)
      (r.f.len - r.f.attrib.hdrlen - r.f.attrib.ivLen) = m at *
    have hmem : ∀ k < r.f.len,
        frameMem (r.f.overwrite ((List.range r.f.view.length).map m)) k = m k :=
      fun k hk => frameMem_overwrite r.f m (by omega)
    have hheader : ∀ k < r.f.attrib.hdrlen + 8,
        frameMem (r.f.overwrite ((List.range r.f.view.length).map m)) k = frameMem r.f k := by
      intro k hk
      rw [hmem k (by omega), ← hplain, plainFrame_of_out hfits.header hfits.mic (.inl hk)]
    generalize hg : r.f.overwrite ((List.range r.f.view.length).map m) = g at *
    have hattrib : g.attrib = r.f.attrib := by
      rw [← hg]
      rfl
    have hlen : g.len = r.f.len := by
      rw [← hg]
      exact overwrite_len r.f _
    have hlay : layoutOf (frameMem g) r.f.attrib.hdrlen =
        layoutOf (frameMem r.f) r.f.attrib.hdrlen := by
      simp only [layoutOf, hheader 0 (by omega)]
    refine ⟨?_, key, (aesFrame_key hattrib hheader).trans hkey, ?_⟩
    · rw [HasField, hattrib, hlen]
      exact hfield
    · rw [hattrib, hlen, hlay]
      apply hmic.congr hfits.header hfits.mic
      intro k hk
      exact hmem k (by omega)

/-! ## Acceptance -/

theorem decryptor_wep (sec : SecurityPriv) (message : Mem) (r : Received)
    (h : r.f.attrib.encrypt = .wep40 ∨ r.f.attrib.encrypt = .wep104) :
    (decryptor sec message r.f).frame = some (markDecrypted (rtwWepDecrypt sec r.f)) := by
  rw [decryptor_frame, softDecrypt_wep sec message h]
  rfl

theorem rtwWepDecrypt_attrib (sec : SecurityPriv) (f : RecvFrame) :
    (rtwWepDecrypt sec f).attrib = f.attrib := by
  simp only [rtwWepDecrypt]
  split_ifs
  · rfl
  · rfl

theorem rtwTkipDecrypt_attrib (sec : SecurityPriv) (f : RecvFrame) :
    (rtwTkipDecrypt sec f).1.attrib = f.attrib := by
  simp only [rtwTkipDecrypt]
  cases tkipKey sec f with
  | none => rfl
  | some prwskey => rfl

theorem rtwAesDecrypt_attrib (sec : SecurityPriv) (message : Mem) (f : RecvFrame) :
    (rtwAesDecrypt sec message f).1.attrib = f.attrib := by
  simp only [rtwAesDecrypt]
  cases aesKey sec f with
  | none => rfl
  | some prwskey => rfl

theorem softDecrypt_integrityOk {sec : SecurityPriv} {message : Mem} (r : Received)
    (hwep : r.f.attrib.encrypt ≠ .wep40 ∧ r.f.attrib.encrypt ≠ .wep104) (hr : Regular r.f)
    (h : (softDecrypt sec message r.f).2.1 = true) :
    IntegrityOk sec (softDecrypt sec message r.f).1 := by
  have hcipher := r.cipher
  simp only [List.mem_cons, List.not_mem_nil, or_false] at hcipher
  rcases hcipher with hc | hc | hc | hc
  · exact absurd hc hwep.1
  · exact absurd hc hwep.2
  · have hicv := r.icvLen
    rw [hc] at hicv
    simp only [softDecrypt, hc] at h ⊢
    rw [IntegrityOk, rtwTkipDecrypt_attrib, hc, if_neg (by decide)]
    exact rtwTkipDecrypt_icvOk (hr.1 hc) hicv h
  · simp only [softDecrypt, hc] at h ⊢
    rw [IntegrityOk, rtwAesDecrypt_attrib, if_pos hc]
    exact rtwAesDecrypt_ccmpOk r hc hr h

def protectedData (attrib : RxPktAttrib) (body : List UInt8) : RecvFrame where
  attrib
  rxData := [0x08, 0x41, 0, 0] ++ List.replicate 18 6 ++ [0, 0] ++ body

def oneKey : SecurityPriv where
  dot11DefKey := fun _ => [1, 2, 3, 4, 5]
  dot11DefKeylen := fun _ => 5
  uncstKey := fun _ => some [7]
  aes128k128d := fun key b i => b i + key.headD 0
  tkipMix := fun key _ _ => key

def ccmpFrame : Received where
  f := protectedData { privacy := true, encrypt := .aes, ivLen := 8, icvLen := 8 }
    (List.replicate 17 9)
  cipher := by decide
  bdecrypted := rfl
  hdrlen := by decide
  ivLen := rfl
  icvLen := rfl
  len := by decide

end Rtl8189.Decryptor
