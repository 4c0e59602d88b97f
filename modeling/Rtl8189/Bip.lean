import Mathlib.Data.UInt
import Rtl8189.AesCipher
import Rtl8189.RecvPool

/-!
# Protected management frames

`rtw_mgmt_xmitframe_coalesce` encrypts unicast robust management frames and appends a
management MIC element to those for a group. `rtw_BIP_verify` checks the element and
keeps the last packet number. The CMAC and the block cipher are left open.
-/
namespace Rtl8189.Bip

open BlockModes EventRun RecvPool

/-! ## The additional data -/

def bipAadSize : ℕ := 20

def wlanHdrA3Len : ℕ := 24

def mmeIe : ℕ := 76

def mmeLen : ℕ := 18

def clearRetry (fc : UInt8) : UInt8 := fc &&& 0xf7

def clearPwrMgt (fc : UInt8) : UInt8 := fc &&& 0xef

def clearMData (fc : UInt8) : UInt8 := fc &&& 0xdf

def bipAad (hdr : List UInt8) : List UInt8 :=
  [hdr.getD 0 0, clearMData (clearPwrMgt (clearRetry (hdr.getD 1 0)))] ++ (hdr.drop 4).take 18

def le48 (b : List UInt8) (i : ℕ) : ℕ :=
  le16 b i + 2 ^ 16 * le16 b (i + 2) + 2 ^ 32 * le16 b (i + 4)

/-- `RTW_PUT_LE64` -/
def putLe64 (val : ℕ) : List UInt8 := (List.range 8).map fun i => UInt8.ofNat (val / 256 ^ i)

/-! ## The sender -/

/-- `omac1_aes_128` fails when it has no memory. -/
structure Crypto where
  omac1Aes128 : List UInt8 → List UInt8 → Option (Vector UInt8 16)
  aes128k128d : List UInt8 → Block → Block

structure MgmtSta where
  mfp : Bool
  bpairwiseKeyInstalled : Bool
  dot118021xUncstKey : List UInt8
  dot11txpn : ℕ

/-- `dot11wBIPKeyid` is an index into `dot11wBIPKey`. -/
structure MgmtSecurity where
  binstallBIPkey : Bool
  dot11wBIPKeyid : Fin 6
  dot11wBIPKey : Fin 6 → List UInt8
  dot11wBIPtxpn : ℕ
  binstallGrpkey : Bool
  dot118021XGrpKeyid : ℕ
  dot118021XGrpKey : ℕ → List UInt8

inductive KeyType where
  | rightKey
  | wrongKey
  | noKey
  deriving DecidableEq

/-- A management frame with the bytes from its start to the end of the buffer. -/
structure MgmtXmit where
  ra : MacAddr
  psta : Option MgmtSta
  keyType : KeyType := .rightKey
  encrypt : Encrypt := .noPrivacy
  bswenc : Bool := false
  icv : List UInt8 := List.replicate 8 0
  hdrlen : ℕ := wlanHdrA3Len
  pktlen : ℕ
  pframe : List UInt8

/-- Who is found in the station table, and whether there is memory. -/
structure MgmtEnv where
  rtwGetStainfo : MacAddr → Option MgmtSta := fun _ => none
  bcmcStainfo : Option MgmtSta := none
  zmalloc : ℕ → Bool := fun _ => true

structure MgmtDone where
  res : Bool
  sec : MgmtSecurity
  x : MgmtXmit

def mmeBody (keyid pn : ℕ) : List UInt8 :=
  [UInt8.ofNat keyid, 0] ++ putLe64 pn ++ List.replicate 6 0

def nextIpn (s : MgmtSecurity) : ℕ := (s.dot11wBIPtxpn + 1) % 2 ^ 64

def appendMme (c : Crypto) (s : MgmtSecurity) (x : MgmtXmit) : MgmtDone :=
  let pn := nextIpn s
  let sec := { s with dot11wBIPtxpn := pn }
  let pframe := putBytes x.pframe x.pktlen
    ([UInt8.ofNat mmeIe, 16] ++ mmeBody s.dot11wBIPKeyid pn)
  let pktlen := x.pktlen + mmeLen
  let frameBody := (pframe.drop wlanHdrA3Len).take (pktlen - wlanHdrA3Len)
  match c.omac1Aes128 (s.dot11wBIPKey s.dot11wBIPKeyid) (bipAad pframe ++ frameBody) with
  | none => { res := false, sec, x := { x with pframe, pktlen } }
  | some mic =>
    { res := true, sec, x := { x with pframe := putBytes pframe (pktlen - 8) (mic.toList.take 8), pktlen } }

/-- `AES_IV`, which counts modulo 2^48. -/
def aesIv (pn keyidx : ℕ) : List UInt8 :=
  [UInt8.ofNat pn, UInt8.ofNat (pn / 2 ^ 8), 0, UInt8.ofNat (32 + keyidx % 4 * 64),
    UInt8.ofNat (pn / 2 ^ 16), UInt8.ofNat (pn / 2 ^ 24), UInt8.ofNat (pn / 2 ^ 32),
    UInt8.ofNat (pn / 2 ^ 40)]

def nextPn (pn : ℕ) : ℕ := if pn = 2 ^ 48 - 1 then 0 else pn + 1

def setPrivacy (b : List UInt8) : List UInt8 := putBytes b 1 [b.getD 1 0 ||| 0x40]

/-- Header, IV and body, encrypted by `rtw_aes_encrypt` where that is left to software. -/
def encryptMgmt (c : Crypto) (s : MgmtSecurity) (x : MgmtXmit) (psta : MgmtSta) (kid : ℕ)
    (key : List UInt8) : MgmtDone :=
  let encrypt := if x.keyType = .noKey then x.encrypt else .aes
  let bswenc := x.keyType ≠ .noKey ∨ x.bswenc
  if encrypt = .aes then
    let pn := nextPn psta.dot11txpn
    let body := (x.pframe.take x.pktlen).drop x.hdrlen
    let pframe := putBytes x.pframe x.hdrlen (aesIv pn kid ++ body)
    let pframe := if bswenc then putBytes pframe (x.pktlen + 8) x.icv else pframe
    let pframe := setPrivacy pframe
    let pktlen := x.pktlen + 16
    let pframe :=
      if bswenc then
        (List.range pframe.length).map
          (AesCipher.aesCipher (c.aes128k128d key) x.hdrlen (fun k => pframe.getD k 0)
            (pktlen - x.hdrlen - 16))
      else pframe
    { res := true, sec := s
      x := { x with psta := some { psta with dot11txpn := pn }, encrypt, bswenc, pktlen, pframe } }
  else { res := false, sec := s, x }

def rtwMgmtXmitframeCoalesce (e : MgmtEnv) (c : Crypto) (s : MgmtSecurity) (x : MgmtXmit) :
    MgmtDone :=
  let subtype := byteAt x.pframe 0 / 4 * 4
  let category := byteAt x.pframe 24
  let success : MgmtDone := { res := true, sec := s, x }
  let fail : MgmtDone := { res := false, sec := s, x }
  if subtype ≠ wifiDeauth ∧ subtype ≠ wifiDisassoc ∧ subtype ≠ wifiAction then success
  else if subtype = wifiAction ∧ categoryIsRobust category = false then success
  else if isMcast x.ra then
    if e.zmalloc (bipAadSize + x.pktlen) = false then fail
    else if subtype = wifiAction ∧ categoryIsGroupPrivacy category then
      match x.psta <|> e.bcmcStainfo with
      | none => fail
      | some psta =>
        if s.binstallGrpkey = false then fail
        else encryptMgmt c s x psta s.dot118021XGrpKeyid (s.dot118021XGrpKey s.dot118021XGrpKeyid)
    else if s.binstallBIPkey = false then success
    else appendMme c s x
  else
    match x.psta <|> e.rtwGetStainfo x.ra with
    | none => fail
    | some psta =>
      if psta.mfp = false then success
      else if psta.bpairwiseKeyInstalled = false then fail
      else if e.zmalloc (bipAadSize + x.pktlen) = false then fail
      else
        let key := psta.dot118021xUncstKey
        encryptMgmt c s x psta 0 (if x.keyType = .wrongKey then putBytes key 0 [0xff] else key)

/-! ## The receiver -/

inductive BipRes where
  | success
  | fail
  | handled
  deriving DecidableEq

/-- What the MIC is taken of: the frame with the last eight bytes null, behind its
additional data. The additional data is written last. -/
def bipInput (whdr : List UInt8) : List UInt8 :=
  let oriLen := whdr.length - wlanHdrA3Len + bipAadSize
  let buf := List.replicate bipAadSize 0 ++ whdr.drop wlanHdrA3Len
  let buf := putBytes buf (oriLen - mmeLen + 10) (List.replicate 8 0)
  putBytes buf 0 (bipAad whdr)

def mme (whdr : List UInt8) : List UInt8 := whdr.drop (whdr.length - mmeLen)

def pktIpn (whdr : List UInt8) : ℕ := le48 (mme whdr) 4

/-- The outcome and the last packet number. -/
def rtwBipVerify (e : MgmtEnv) (c : Crypto) (key : List UInt8) (keyid : ℕ) (whdr : List UInt8)
    (ipn : ℕ) : BipRes × ℕ :=
  if byteAt (mme whdr) 0 ≠ mmeIe then (.handled, ipn)
  else if le16 (mme whdr) 2 ≠ keyid then (.fail, ipn)
  else if pktIpn whdr ≤ ipn then (.fail, ipn)
  else if e.zmalloc (whdr.length - wlanHdrA3Len + bipAadSize) = false then (.fail, ipn)
  else
    match c.omac1Aes128 key (bipInput whdr) with
    | none => (.fail, ipn)
    | some mic =>
      if mic.toList.take 8 = whdr.drop (whdr.length - 8) then (.success, pktIpn whdr)
      else (.fail, ipn)

/-! ## What is sent -/

theorem bipAad_append {p : List UInt8} (h : wlanHdrA3Len ≤ p.length) (q : List UInt8) :
    bipAad (p ++ q) = bipAad p := by
  rw [wlanHdrA3Len] at h
  have hn : 18 ≤ (p.drop 4).length := by
    rw [List.length_drop]
    omega
  simp only [bipAad, List.getD_eq_getElem?_getD]
  rw [List.getElem?_append_left (by omega), List.getElem?_append_left (by omega),
    List.drop_append_of_le_length (by omega), List.take_append_of_le_length hn]

theorem bipAad_length {p : List UInt8} (h : wlanHdrA3Len ≤ p.length) :
    (bipAad p).length = bipAadSize := by
  rw [wlanHdrA3Len] at h
  simp only [bipAad, List.length_append, List.length_cons, List.length_nil, List.length_take,
    List.length_drop, bipAadSize]
  omega

def mmeHead (keyid pn : ℕ) : List UInt8 :=
  [UInt8.ofNat mmeIe, 16, UInt8.ofNat keyid, 0] ++ (putLe64 pn).take 6

theorem mmeHead_length (keyid pn : ℕ) : (mmeHead keyid pn).length = 10 := rfl

/-- What stands in the MIC field when the MIC is taken: the packet number is written with eight
bytes, two more than it has. -/
def mmeTail (pn : ℕ) : List UInt8 := (putLe64 pn).drop 6 ++ List.replicate 6 0

theorem mmeTail_length (pn : ℕ) : (mmeTail pn).length = 8 := rfl

theorem mmeBody_eq (keyid pn : ℕ) :
    [UInt8.ofNat mmeIe, 16] ++ mmeBody keyid pn = mmeHead keyid pn ++ mmeTail pn := rfl

theorem mmeTail_null {pn : ℕ} (h : pn < 2 ^ 48) : mmeTail pn = List.replicate 8 0 := by
  have hsix : pn / 256 ^ 6 = 0 := Nat.div_eq_of_lt (by omega)
  have hseven : pn / 256 ^ 7 = 0 := Nat.div_eq_of_lt (by omega)
  change [UInt8.ofNat (pn / 256 ^ 6), UInt8.ofNat (pn / 256 ^ 7)] ++ List.replicate 6 0 = _
  rw [hsix, hseven]
  rfl

theorem le48_mmeHead (keyid pn : ℕ) (q : List UInt8) :
    le48 (mmeHead keyid pn ++ q) 4 = pn % 2 ^ 48 := by
  have hbyte (i : ℕ) (hi : i < 6) : byteAt (mmeHead keyid pn ++ q) (4 + i) = pn / 256 ^ i % 256 := by
    rw [byteAt_append_left (show 4 + i < 10 by omega)]
    obtain rfl | rfl | rfl | rfl | rfl | rfl : i = 0 ∨ i = 1 ∨ i = 2 ∨ i = 3 ∨ i = 4 ∨ i = 5 := by
      omega
    all_goals exact UInt8.toNat_ofNat'
  simp only [le48, le16]
  rw [hbyte 0 (by omega), hbyte 1 (by omega), hbyte 2 (by omega), hbyte 3 (by omega),
    hbyte 4 (by omega), hbyte 5 (by omega)]
  omega

structure Room (x : MgmtXmit) : Prop where
  header : wlanHdrA3Len ≤ x.pktlen
  room : x.pktlen + mmeLen ≤ x.pframe.length

def frame (x : MgmtXmit) : List UInt8 := x.pframe.take x.pktlen

section Sender

variable {c : Crypto} {s : MgmtSecurity} {x : MgmtXmit}

theorem Room.pframe_eq (hx : Room x) :
    ∃ q rest, q.length = mmeLen ∧ x.pframe = frame x ++ q ++ rest ∧ (frame x).length = x.pktlen := by
  have hroom := hx.room
  rw [mmeLen] at hroom
  refine ⟨(x.pframe.drop x.pktlen).take mmeLen, (x.pframe.drop x.pktlen).drop mmeLen, ?_, ?_, ?_⟩
  · rw [List.length_take, List.length_drop, mmeLen]
    omega
  · rw [List.append_assoc, List.take_append_drop, frame, List.take_append_drop]
  · rw [frame, List.length_take]
    omega

theorem appendMme_frame (hx : Room x) (hres : (appendMme c s x).res = true) :
    ∃ mic, c.omac1Aes128 (s.dot11wBIPKey s.dot11wBIPKeyid)
        (bipAad (frame x) ++ ((frame x).drop wlanHdrA3Len ++
          mmeHead s.dot11wBIPKeyid (nextIpn s) ++ mmeTail (nextIpn s))) = some mic ∧
      frame (appendMme c s x).x = frame x ++
        mmeHead s.dot11wBIPKeyid (nextIpn s) ++ mic.toList.take 8 := by
  obtain ⟨q, rest, hq, hp, hlen⟩ := hx.pframe_eq
  have hhdr := hx.header
  have hput : putBytes x.pframe x.pktlen
      ([UInt8.ofNat mmeIe, 16] ++ mmeBody s.dot11wBIPKeyid (nextIpn s)) =
      frame x ++ mmeHead s.dot11wBIPKeyid (nextIpn s) ++ mmeTail (nextIpn s) ++ rest := by
    rw [hp, ← hlen, putBytes_append _ _ _ (by rw [hq]; rfl), mmeBody_eq, ← List.append_assoc]
  have haad : bipAad (frame x ++ mmeHead s.dot11wBIPKeyid (nextIpn s) ++
      mmeTail (nextIpn s) ++ rest) = bipAad (frame x) := by
    rw [List.append_assoc, List.append_assoc]
    exact bipAad_append (hlen ▸ hhdr) _
  have hbody : ((frame x ++ mmeHead s.dot11wBIPKeyid (nextIpn s) ++
      mmeTail (nextIpn s) ++ rest).drop wlanHdrA3Len).take (x.pktlen + mmeLen - wlanHdrA3Len) =
      (frame x).drop wlanHdrA3Len ++ mmeHead s.dot11wBIPKeyid (nextIpn s) ++
        mmeTail (nextIpn s) := by
    have hn : x.pktlen + mmeLen - wlanHdrA3Len = ((frame x).drop wlanHdrA3Len ++
        mmeHead s.dot11wBIPKeyid (nextIpn s) ++ mmeTail (nextIpn s)).length := by
      simp only [List.length_append, List.length_drop, hlen, mmeTail_length, mmeHead_length,
        mmeLen]
      omega
    rw [List.append_assoc, List.append_assoc, List.drop_append_of_le_length (hlen ▸ hhdr), hn]
    simp only [← List.append_assoc]
    exact List.take_left
  simp only [appendMme, hput, haad, hbody] at hres ⊢
  cases homac : c.omac1Aes128 (s.dot11wBIPKey s.dot11wBIPKeyid) (bipAad (frame x) ++
      ((frame x).drop wlanHdrA3Len ++ mmeHead s.dot11wBIPKeyid (nextIpn s) ++
        mmeTail (nextIpn s))) with
  | none =>
    rw [homac] at hres
    cases hres
  | some mic =>
    refine ⟨mic, rfl, ?_⟩
    have hmic : (mic.toList.take 8).length = 8 := by
      rw [List.length_take, Vector.length_toList]
      rfl
    have hat : x.pktlen + mmeLen - 8 =
        (frame x ++ mmeHead s.dot11wBIPKeyid (nextIpn s)).length := by
      rw [List.length_append, mmeHead_length, hlen, mmeLen]
      omega
    have hend : x.pktlen + mmeLen = (frame x ++
        mmeHead s.dot11wBIPKeyid (nextIpn s) ++ mic.toList.take 8).length := by
      rw [List.length_append, ← hat, hmic, mmeLen]
      omega
    rw [frame]
    dsimp only
    rw [hat, putBytes_append _ _ _ hmic, hend]
    exact List.take_left

end Sender

/-! ## What is received -/

/-- A frame on the air: the hardware may have set bits that the additional data leaves out,
and the fields that are not in it. -/
structure Carried (sent whdr : List UInt8) : Prop where
  length : whdr.length = sent.length
  aad : bipAad whdr = bipAad sent
  body : whdr.drop wlanHdrA3Len = sent.drop wlanHdrA3Len

def MicVerified (c : Crypto) (key whdr : List UInt8) : Prop :=
  ∃ mic, c.omac1Aes128 key (bipInput whdr) = some mic ∧
    mic.toList.take 8 = whdr.drop (whdr.length - 8)

theorem bipInput_eq {whdr : List UInt8} (h : wlanHdrA3Len ≤ whdr.length) {body mic : List UInt8}
    (hbody : whdr.drop wlanHdrA3Len = body ++ mic) (hmic : mic.length = 8) :
    bipInput whdr = bipAad whdr ++ (body ++ List.replicate 8 0) := by
  have hlen : whdr.length - wlanHdrA3Len = body.length + 8 := by
    rw [← List.length_drop, hbody, List.length_append, hmic]
  have hat : whdr.length - wlanHdrA3Len + bipAadSize - mmeLen + 10 =
      (List.replicate bipAadSize (0 : UInt8) ++ body).length := by
    rw [hlen, List.length_append, List.length_replicate, bipAadSize, mmeLen]
    omega
  have hclear : putBytes (List.replicate bipAadSize 0 ++ (body ++ mic))
      (List.replicate bipAadSize (0 : UInt8) ++ body).length (List.replicate 8 0) =
      List.replicate bipAadSize 0 ++ body ++ List.replicate 8 0 := by
    have hput := putBytes_append (List.replicate bipAadSize 0 ++ body) mic []
      (show (List.replicate 8 (0 : UInt8)).length = mic.length by rw [List.length_replicate, hmic])
    rwa [List.append_nil, List.append_nil, List.append_assoc _ body mic] at hput
  simp only [bipInput, hat, hbody, hclear]
  have hput := putBytes_append [] (List.replicate bipAadSize 0) (body ++ List.replicate 8 0)
    (show (bipAad whdr).length = _ by rw [bipAad_length h, List.length_replicate])
  rw [List.nil_append, List.length_nil, List.nil_append] at hput
  rw [List.append_assoc, hput]

theorem rtwBipVerify_cases (e : MgmtEnv) (c : Crypto) (key : List UInt8) (keyid : ℕ)
    (whdr : List UInt8) (ipn : ℕ) :
    (rtwBipVerify e c key keyid whdr ipn = (.success, pktIpn whdr) ∧ ipn < pktIpn whdr ∧
      MicVerified c key whdr) ∨
    ((rtwBipVerify e c key keyid whdr ipn).1 ≠ .success ∧
      (rtwBipVerify e c key keyid whdr ipn).2 = ipn) := by
  simp only [rtwBipVerify]
  split_ifs with hie hid hreplay hmem
  · exact .inr ⟨by simp, rfl⟩
  · exact .inr ⟨by simp, rfl⟩
  · exact .inr ⟨by simp, rfl⟩
  · exact .inr ⟨by simp, rfl⟩
  · cases homac : c.omac1Aes128 key (bipInput whdr) with
    | none => exact .inr ⟨by simp, rfl⟩
    | some mic =>
      dsimp only
      split_ifs with hmic
      · exact .inl ⟨rfl, Nat.lt_of_not_le hreplay, mic, homac, hmic⟩
      · exact .inr ⟨by simp, rfl⟩

variable {e : MgmtEnv} {c : Crypto} {key whdr : List UInt8} {keyid ipn : ℕ}

theorem rtwBipVerify_replay (h : pktIpn whdr ≤ ipn) :
    (rtwBipVerify e c key keyid whdr ipn).1 ≠ .success ∧
      (rtwBipVerify e c key keyid whdr ipn).2 = ipn := by
  rcases rtwBipVerify_cases e c key keyid whdr ipn with ⟨-, hlt, -⟩ | hkept
  · exact absurd h (Nat.not_le_of_lt hlt)
  · exact hkept

theorem rtwBipVerify_ok (hie : byteAt (mme whdr) 0 = mmeIe) (hid : le16 (mme whdr) 2 = keyid)
    (hnew : ipn < pktIpn whdr) (hmem : e.zmalloc (whdr.length - wlanHdrA3Len + bipAadSize) = true)
    (hmic : MicVerified c key whdr) :
    rtwBipVerify e c key keyid whdr ipn = (.success, pktIpn whdr) := by
  obtain ⟨mic, homac, heq⟩ := hmic
  simp only [rtwBipVerify, hie, hid, hmem, homac, heq, if_neg (Nat.not_le_of_lt hnew)]
  simp

/-! ## From the sender to the receiver -/

theorem pktIpn_appendMme {s : MgmtSecurity} {x : MgmtXmit} {sent mic : List UInt8} {pn : ℕ}
    (hsent : sent = frame x ++ mmeHead s.dot11wBIPKeyid pn ++ mic) (hmic : mic.length = 8)
    (hcarried : Carried sent whdr) (hhdr : wlanHdrA3Len ≤ (frame x).length) :
    mme whdr = mmeHead s.dot11wBIPKeyid pn ++ mic ∧ pktIpn whdr = pn % 2 ^ 48 := by
  have hlen : sent.length = (frame x).length + 18 := by
    rw [hsent, List.length_append, List.length_append, mmeHead_length, hmic]
  have hmme : mme whdr = mmeHead s.dot11wBIPKeyid pn ++ mic := by
    have hbody : mme whdr = (whdr.drop wlanHdrA3Len).drop (whdr.length - mmeLen - wlanHdrA3Len) := by
      rw [List.drop_drop, mme]
      congr 1
      rw [hcarried.length, hlen, mmeLen]
      omega
    have hat : wlanHdrA3Len + (whdr.length - mmeLen - wlanHdrA3Len) = (frame x).length := by
      rw [hcarried.length, hlen, mmeLen]
      omega
    rw [hbody, hcarried.body, List.drop_drop, hat, hsent, List.append_assoc, List.drop_left]
  refine ⟨hmme, ?_⟩
  rw [pktIpn, hmme, le48_mmeHead]

/-- A robust management frame for a group, other than a group-addressed privacy frame. -/
structure GroupRobust (x : MgmtXmit) : Prop extends Room x where
  group : isMcast x.ra = true
  robust : byteAt x.pframe 0 / 4 * 4 = wifiDeauth ∨ byteAt x.pframe 0 / 4 * 4 = wifiDisassoc ∨
    byteAt x.pframe 0 / 4 * 4 = wifiAction ∧ categoryIsRobust (byteAt x.pframe 24) = true ∧
      categoryIsGroupPrivacy (byteAt x.pframe 24) = false

theorem GroupRobust.coalesce {s : MgmtSecurity} {x : MgmtXmit} (hx : GroupRobust x)
    (hkey : s.binstallBIPkey = true) : rtwMgmtXmitframeCoalesce e c s x =
      if e.zmalloc (bipAadSize + x.pktlen) = false then { res := false, sec := s, x }
      else appendMme c s x := by
  have hgroup := hx.group
  have hdeauth : wifiDeauth ≠ wifiAction := by decide
  have hdisassoc : wifiDisassoc ≠ wifiAction := by decide
  rcases hx.robust with h | h | ⟨h, hcat, hpriv⟩
  · simp [rtwMgmtXmitframeCoalesce, h, hdeauth, hgroup, hkey]
  · simp [rtwMgmtXmitframeCoalesce, h, hdisassoc, hgroup, hkey]
  · simp [rtwMgmtXmitframeCoalesce, h, hcat, hpriv, hgroup, hkey]

theorem appendMme_verified {s : MgmtSecurity} {x : MgmtXmit} (hx : Room x)
    (h48 : s.dot11wBIPtxpn < 2 ^ 48) (hres : (appendMme c s x).res = true)
    (hcarried : Carried (frame (appendMme c s x).x) whdr) (hnew : ipn < pktIpn whdr)
    (hmem : e.zmalloc (whdr.length - wlanHdrA3Len + bipAadSize) = true) :
    rtwBipVerify e c (s.dot11wBIPKey s.dot11wBIPKeyid) s.dot11wBIPKeyid whdr ipn =
      (.success, pktIpn whdr) := by
  obtain ⟨mic, homac, hsent⟩ := appendMme_frame hx hres
  obtain ⟨-, -, -, -, hlen⟩ := hx.pframe_eq
  have hhdr : wlanHdrA3Len ≤ (frame x).length := hlen ▸ hx.header
  have hmic : (mic.toList.take 8).length = 8 := by
    rw [List.length_take, Vector.length_toList]
    rfl
  obtain ⟨hmme, hipn⟩ := pktIpn_appendMme hsent hmic hcarried hhdr
  -- after 2^48 - 1 comes 0, which is new to nobody
  have hsmall : nextIpn s < 2 ^ 48 := by
    rw [hipn] at hnew
    simp only [nextIpn] at hnew ⊢
    omega
  rw [mmeTail_null hsmall] at homac
  have hwlen : whdr.length = (frame x).length + 18 := by
    rw [hcarried.length, hsent, List.length_append, List.length_append, mmeHead_length, hmic]
  have hbody : whdr.drop wlanHdrA3Len = ((frame x).drop wlanHdrA3Len ++
      mmeHead s.dot11wBIPKeyid (nextIpn s)) ++ mic.toList.take 8 := by
    rw [hcarried.body, hsent, List.append_assoc, List.drop_append_of_le_length hhdr,
      List.append_assoc]
  have haad : bipAad whdr = bipAad (frame x) := by
    rw [hcarried.aad, hsent, List.append_assoc, bipAad_append hhdr]
  have hlast : whdr.drop (whdr.length - 8) = mic.toList.take 8 := by
    have hat : whdr.length - 8 = whdr.length - mmeLen + 10 := by
      rw [hwlen, mmeLen]
      omega
    rw [hat, ← List.drop_drop]
    change List.drop 10 (mme whdr) = _
    rw [hmme]
    exact List.drop_left' (mmeHead_length _ _)
  refine rtwBipVerify_ok ?_ ?_ hnew hmem ⟨mic, ?_, hlast.symm⟩
  · rw [hmme]
    rfl
  · rw [hmme]
    have hkeyid := s.dot11wBIPKeyid.isLt
    change (UInt8.ofNat s.dot11wBIPKeyid).toNat + 256 * 0 = _
    rw [UInt8.toNat_ofNat_of_lt' (Nat.lt_trans hkeyid (by decide)), Nat.mul_zero, Nat.add_zero]
  · rw [bipInput_eq (by rw [hwlen]; omega) hbody hmic, haad, homac]

/-! ## Runs of the receiver -/

/-- A management frame with its header, and the memory there is for it. -/
structure BipFrame where
  whdr : List UInt8
  header : wlanHdrA3Len ≤ whdr.length
  env : MgmtEnv := {}

def bipStep (c : Crypto) (key : List UInt8) (keyid ipn : ℕ) (f : BipFrame) : ℕ :=
  (rtwBipVerify f.env c key keyid f.whdr ipn).2

theorem bipStep_cases (c : Crypto) (key : List UInt8) (keyid ipn : ℕ) (f : BipFrame) :
    (bipStep c key keyid ipn f = pktIpn f.whdr ∧ ipn < pktIpn f.whdr ∧ MicVerified c key f.whdr) ∨
      bipStep c key keyid ipn f = ipn := by
  rcases rtwBipVerify_cases f.env c key keyid f.whdr ipn with ⟨hok, hlt, hmic⟩ | ⟨-, hkept⟩
  · exact .inl ⟨congrArg Prod.snd hok, hlt, hmic⟩
  · exact .inr hkept

theorem run_bipStep_le (c : Crypto) (key : List UInt8) (keyid ipn : ℕ) (fs : List BipFrame) :
    ipn ≤ run (bipStep c key keyid) ipn fs := by
  refine run_invariant (fun n => ipn ≤ n) ?_ (Nat.le_refl ipn) fs
  intro n f hn
  rcases bipStep_cases c key keyid n f with ⟨hstep, hlt, -⟩ | hstep
  · rw [hstep]
    omega
  · rw [hstep]
    exact hn

def storedIpn (c : Crypto) (key : List UInt8) (keyid ipn : ℕ) (fs : List BipFrame) (i : ℕ) : ℕ :=
  run (bipStep c key keyid) ipn (fs.take i)

theorem storedIpn_mono (c : Crypto) (key : List UInt8) (keyid ipn : ℕ) (fs : List BipFrame)
    {i j : ℕ} (h : i ≤ j) : storedIpn c key keyid ipn fs i ≤ storedIpn c key keyid ipn fs j := by
  obtain ⟨k, rfl⟩ := Nat.exists_eq_add_of_le h
  rw [storedIpn, storedIpn, List.take_add, run_append]
  exact run_bipStep_le c key keyid _ _

theorem storedIpn_succ (c : Crypto) (key : List UInt8) (keyid ipn : ℕ) (fs : List BipFrame)
    {i : ℕ} (h : i < fs.length) : storedIpn c key keyid ipn fs (i + 1) =
      bipStep c key keyid (storedIpn c key keyid ipn fs i) fs[i] := by
  rw [storedIpn, List.take_add_one, List.getElem?_eq_getElem h, run_append]
  rfl

/-- BIP: what the sender protects is accepted by a receiver with its key for which the number is
new, old numbers are refused, and over every run the stored number only grows, and only with a
frame whose MIC is right. -/
theorem bip_protects (c : Crypto) :
    (∀ e s x, GroupRobust x → s.binstallBIPkey = true → s.dot11wBIPtxpn < 2 ^ 48 →
      (rtwMgmtXmitframeCoalesce e c s x).res = true →
      ∀ e' whdr ipn, Carried (frame (rtwMgmtXmitframeCoalesce e c s x).x) whdr →
        e'.zmalloc (whdr.length - wlanHdrA3Len + bipAadSize) = true → ipn < pktIpn whdr →
        rtwBipVerify e' c (s.dot11wBIPKey s.dot11wBIPKeyid) s.dot11wBIPKeyid whdr ipn =
          (.success, pktIpn whdr)) ∧
    (∀ e key keyid whdr ipn, pktIpn whdr ≤ ipn →
      (rtwBipVerify e c key keyid whdr ipn).1 ≠ .success ∧
        (rtwBipVerify e c key keyid whdr ipn).2 = ipn) ∧
    ∀ key keyid ipn fs,
      (∀ i j, i ≤ j → storedIpn c key keyid ipn fs i ≤ storedIpn c key keyid ipn fs j) ∧
      ∀ i (h : i < fs.length),
        storedIpn c key keyid ipn fs (i + 1) ≠ storedIpn c key keyid ipn fs i →
        MicVerified c key fs[i].whdr ∧
          storedIpn c key keyid ipn fs (i + 1) = pktIpn fs[i].whdr := by
  refine ⟨?_, ?_, ?_⟩
  · intro e s x hx hkey h48 hres e' whdr ipn hcarried hmem hnew
    rw [hx.coalesce hkey] at hres hcarried
    split_ifs at hres hcarried
    exact appendMme_verified hx.toRoom h48 hres hcarried hnew hmem
  · intro e key keyid whdr ipn h
    exact rtwBipVerify_replay h
  · intro key keyid ipn fs
    refine ⟨fun i j h => storedIpn_mono c key keyid ipn fs h, ?_⟩
    intro i h hne
    rw [storedIpn_succ c key keyid ipn fs h] at hne ⊢
    rcases bipStep_cases c key keyid (storedIpn c key keyid ipn fs i) fs[i] with
      ⟨hstep, -, hmic⟩ | hstep
    · exact ⟨hmic, hstep⟩
    · exact absurd hstep hne

def sumMac : Crypto where
  omac1Aes128 _ data := some (Vector.replicate 16 data.sum)
  aes128k128d _ b := b

def igtkSender : MgmtSecurity where
  binstallBIPkey := true
  dot11wBIPKeyid := 4
  dot11wBIPKey _ := List.replicate 16 3
  dot11wBIPtxpn := 255
  binstallGrpkey := false
  dot118021XGrpKeyid := 1
  dot118021XGrpKey _ := []

def deauthAll : MgmtXmit where
  ra := Vector.replicate 6 255
  psta := none
  pktlen := 26
  pframe := [0xc0, 0, 0, 0] ++ List.replicate 6 255 ++ List.replicate 14 1 ++ [3, 0] ++
    List.replicate 20 0

def deauthSent : List UInt8 :=
  frame (rtwMgmtXmitframeCoalesce {} sumMac igtkSender deauthAll).x

theorem bip_protects_deauth :
    rtwBipVerify {} sumMac (List.replicate 16 3) 4 deauthSent 255 = (.success, 256) ∧
      (rtwBipVerify {} sumMac (List.replicate 16 3) 4 deauthSent 256).1 ≠ .success ∧
      storedIpn sumMac (List.replicate 16 3) 4 255 [⟨deauthSent, by decide, {}⟩] 0 ≤
        storedIpn sumMac (List.replicate 16 3) 4 255 [⟨deauthSent, by decide, {}⟩] 1 := by
  have hrobust : GroupRobust deauthAll := ⟨⟨by decide, by decide⟩, by decide, by decide⟩
  refine ⟨?_, ?_, ?_⟩
  · exact (bip_protects sumMac).1 {} igtkSender deauthAll hrobust rfl (by decide) (by decide) {}
      deauthSent 255 ⟨rfl, rfl, rfl⟩ rfl (by decide)
  · exact ((bip_protects sumMac).2.1 {} _ 4 deauthSent 256 (by decide)).1
  · exact ((bip_protects sumMac).2.2 _ 4 255 _).1 0 1 (by decide)

end Rtl8189.Bip
