import Rtl8189.PacketNumber

/-!
# Station records

The `sta_info` of a station, and the functions that fill it in from the elements
of an association request. A parser returns the record it leaves behind with a
status code, zero for success; the record may have changed on a failure too.
-/
namespace Rtl8189.StaInfo

open PacketNumber (AuthAlgrthm)

structure StaState where
  linked : Bool := false
  authNull : Bool := false
  authState : Bool := false
  authSuccess : Bool := false
  assocState : Bool := false
  assocSuccess : Bool := false
  deriving DecidableEq, Repr

structure StaFlags where
  shortPreamble : Bool := false
  wme : Bool := false
  mfp : Bool := false
  ht : Bool := false
  wps : Bool := false
  maybeWps : Bool := false
  vht : Bool := false
  nonErp : Bool := false
  deriving DecidableEq, Repr

structure StaKeys where
  dot118021XPrivacy : Encrypt := .noPrivacy
  dot118021xUncstKey : List UInt8 := []
  dot11tkiptxmickey : List UInt8 := []
  dot11tkiprxmickey : List UInt8 := []
  dot11txpn : ℕ := 0
  dot11rxpn : ℕ := 0
  iv : List ℕ := List.replicate 16 0
  deriving DecidableEq, Repr

structure Sta where
  macAddr : MacAddr := Vector.replicate 6 0
  state : StaState := {}
  flags : StaFlags := {}
  authalg : ℕ := 0
  authSeq : ℕ := 0
  expireTo : ℕ := 0
  aid : ℕ := 0
  chgTxt : List UInt8 := List.replicate 128 0
  bpairwiseKeyInstalled : Bool := false
  keys : StaKeys := {}
  capability : ℕ := 0
  bssrateset : List ℕ := []
  dot8021xalg : ℕ := 0
  wpaPsk : ℕ := 0
  wpaGroupCipher : ℕ := 0
  wpa2GroupCipher : ℕ := 0
  wpaPairwiseCipher : ℕ := 0
  wpa2PairwiseCipher : ℕ := 0
  akmSuiteType : ℕ := 0
  wpaIe : List UInt8 := List.replicate 32 0
  qosOption : Bool := false
  qosInfo : ℕ := 0
  maxSpLen : ℕ := 0
  hasLegacyAc : Bool := false
  uapsdVo : ℕ := 0
  uapsdVi : ℕ := 0
  uapsdBe : ℕ := 0
  uapsdBk : ℕ := 0
  htCap : List UInt8 := []
  htOp : Option (List UInt8) := none
  isP2pDevice : Bool := false
  p2pStatusCode : ℕ := 0
  assocReq : List UInt8 := []
  deriving DecidableEq, Repr

inductive MfpOpt where
  | no
  | invalid
  | optional
  | required
  deriving DecidableEq, Repr

/-- `mfp_opt >= MFP_OPTIONAL` -/
def MfpOpt.capable : MfpOpt → Bool
  | .optional | .required => true
  | _ => false

/-- The results of `rtw_parse_wpa2_ie` and `rtw_parse_wpa_ie`. -/
structure WpaSuites where
  groupCipher : ℕ
  pairwiseCipher : ℕ
  akm : ℕ := 0
  mfpOpt : MfpOpt := .no
  deriving DecidableEq, Repr

/-- One access control list: `RTW_ACL_MODE_*` and its valid nodes. -/
inductive Acl where
  | disabled
  | acceptUnlessListed (addrs : List MacAddr)
  | denyUnlessListed (addrs : List MacAddr)

/-- The access point as the two frame handlers read it. The parsers of the
security, WPS and P2P elements and the WEP cipher are left open. -/
structure Adapter where
  pmlmeinfoState : ℕ := 3
  mlmeIsAsoc : Bool := true
  mlmeIsAp : Bool := true
  ssid : List UInt8
  dot11AuthAlgrthm : AuthAlgrthm := .ieee8021X
  dot11PrivacyAlgrthm : Encrypt := .aes
  wpaPsk : ℕ := 2
  wpaGroupCipher : ℕ := 0
  wpa2GroupCipher : ℕ := 16
  wpaPairwiseCipher : ℕ := 0
  wpa2PairwiseCipher : ℕ := 16
  mfpOpt : MfpOpt := .optional
  authTypeSae : Bool := false
  cfg80211ReportAuth : Bool := false
  forceAuthFail : ℕ := 0
  forceAsocFail : ℕ := 0
  aclList : List Acl := []
  wpsSelectedRegistrar : Option Bool := none
  qosOption : Bool := true
  htOption : Bool := true
  p2pRoleGo : Bool := false
  authTo : ℕ := 3
  assocTo : ℕ := 3
  expireTo : ℕ := 3
  rtwWepDecrypt : List UInt8 → List UInt8
  rtwParseWpa2Ie : List UInt8 → Option WpaSuites
  rtwParseWpaIe : List UInt8 → Option WpaSuites
  rtwCachedPmkid : MacAddr → Bool
  rtwGetP2pIe : List UInt8 → Bool
  processAssocReqP2pIe : RecvFrame → ℕ
  staInfoUpdate : Sta → Sta

inductive Status where
  | successful
  | failure
  | capFail
  | noSuppAlg
  | outOfAuthSeq
  | challengeFail
  | unableHandleSta
  | refusedTemporarily
  | robustMgmtFramePolicyViolation
  | invalidIe
  | groupCipherNotValid
  | pairwiseCipherNotValid
  | invalidPmkid
  | forced (code : ℕ)
  deriving DecidableEq, Repr

def wlanHdrA3Len : ℕ := 24

/-! ## Elements -/

structure Elems where
  ssid : Option (List UInt8) := none
  rsnIe : Option (List UInt8) := none
  wpaIe : Option (List UInt8) := none
  wpsIe : Option (List UInt8) := none
  htCapabilities : Option (List UInt8) := none
  htOperation : Option (List UInt8) := none
  deriving DecidableEq, Repr

def rtwIeee80211ParseVendorSpecific (elems : Elems) (ie : List UInt8) : Elems :=
  if ie.length < 4 then elems
  else if ie.take 3 = [0x00, 0x50, 0xf2] then
    match byteAt ie 3 with
    | 1 => { elems with wpaIe := some ie }
    | 4 => { elems with wpsIe := some ie }
    | _ => elems
  else elems

def Elems.record (elems : Elems) (id : UInt8) (ie : List UInt8) : Elems :=
  match id.toNat with
  | 0 => { elems with ssid := some ie }
  | 45 => { elems with htCapabilities := some ie }
  | 48 => { elems with rsnIe := some ie }
  | 61 => { elems with htOperation := some ie }
  | 221 => rtwIeee80211ParseVendorSpecific elems ie
  | _ => elems

def parseElemsFrom : ℕ → Elems → List UInt8 → Option Elems
  | _, elems, [] => some elems
  | fuel + 1, elems, id :: elen :: rest =>
    if rest.length < elen.toNat then none
    else parseElemsFrom fuel (elems.record id (rest.take elen.toNat)) (rest.drop elen.toNat)
  | _, _, _ => none

/-- `none` is `ParseFailed`: an element reaches past the end, or one byte is left. -/
def rtwIeee80211ParseElems (start : List UInt8) : Option Elems :=
  parseElemsFrom start.length {} start

def rtwGetIeFrom (pbuf : List UInt8) (index limit : ℕ) : ℕ → ℕ → Option ℕ
  | 0, _ => none
  | fuel + 1, i =>
    if byteAt pbuf i = index then some i
    else if limit ≤ i + (byteAt pbuf (i + 1) + 2) then none
    else rtwGetIeFrom pbuf index limit fuel (i + (byteAt pbuf (i + 1) + 2))

def rtwGetIe (pbuf : List UInt8) (index limit : ℕ) : Option ℕ :=
  if limit < 1 then none else rtwGetIeFrom pbuf index limit limit 0

def rtwGetIeExFrom (inIe : List UInt8) (inLen eid : ℕ) (oui : List UInt8) : ℕ → ℕ → Option ℕ
  | 0, _ => none
  | fuel + 1, cnt =>
    if inLen ≤ cnt then none
    else if byteAt inIe cnt = eid ∧ (inIe.drop (cnt + 2)).take oui.length = oui then some cnt
    else rtwGetIeExFrom inIe inLen eid oui fuel (cnt + (byteAt inIe (cnt + 1) + 2))

def rtwGetIeEx (inIe : List UInt8) (inLen eid : ℕ) (oui : List UInt8) : Option ℕ :=
  rtwGetIeExFrom inIe inLen eid oui inLen 0

/-! ## What an association request writes -/

def rtwApParseStaCapability (sta : Sta) (f : RecvFrame) : Sta :=
  let capability := le16 f.view wlanHdrA3Len
  { sta with
    capability
    flags := { sta.flags with shortPreamble := capability.testBit 5 } }

def supportRateTbl : List ℕ := [2, 4, 11, 22, 12, 18, 24, 36, 48, 72, 96, 108]

def ratesOf (ies : List UInt8) : Option ℕ → List ℕ
  | none => []
  | some i => (List.range (byteAt ies (i + 1))).map fun j => byteAt ies (i + 2 + j)

def rtwIesGetSupportedRate (ies : List UInt8) (iesLen : ℕ) : List ℕ :=
  let rates := ratesOf ies (rtwGetIe ies 1 iesLen) ++ ratesOf ies (rtwGetIe ies 50 iesLen)
  supportRateTbl.filterMap fun rate =>
    if rates.any (· % 128 = rate) then
      some (if rates.any (· = rate + 128) then rate + 128 else rate)
    else none

def updateBrateTblForSoftAP (bssrateset : List ℕ) : List ℕ :=
  bssrateset.map fun rate => if rate ∈ [2, 4, 11, 22] then rate + 128 else rate

def rtwApParseStaSupportedRates (ad : Adapter) (sta : Sta) (ies : List UInt8) (iesLen : ℕ) :
    Sta × Status :=
  match rtwIesGetSupportedRate ies iesLen with
  | [] => (sta, .failure)
  | rates =>
    let bssrateset := if ad.mlmeIsAp then updateBrateTblForSoftAP rates else rates
    ({ sta with
       bssrateset
       flags := { sta.flags with nonErp := bssrateset.all (· % 128 ≤ 22) } }, .successful)

/-- The first half of `rtw_ap_parse_sta_security_ie`: the WPA2 or WPA element
that applies, the suites common to both sides, and `mfp_opt`. -/
def parseWpaIe (ad : Adapter) (sta : Sta) (elems : Elems) :
    Sta × Status × MfpOpt × Option (List UInt8) :=
  let sta := { sta with
    dot8021xalg := 0
    wpaPsk := 0
    wpaGroupCipher := 0
    wpa2GroupCipher := 0
    wpaPairwiseCipher := 0
    wpa2PairwiseCipher := 0
    wpaIe := List.replicate 32 0 }
  match ad.wpaPsk.testBit 1, ad.wpaPsk.testBit 0, elems.rsnIe, elems.wpaIe with
  | true, _, some ie, _ =>
    match ad.rtwParseWpa2Ie ie with
    | none => (sta, .invalidIe, .no, some ((48 : UInt8) :: UInt8.ofNat ie.length :: ie))
    | some suites =>
      let group := suites.groupCipher &&& ad.wpa2GroupCipher
      let pairwise := suites.pairwiseCipher &&& ad.wpa2PairwiseCipher
      ({ sta with
         dot8021xalg := 1
         wpaPsk := 2
         wpa2GroupCipher := group
         wpa2PairwiseCipher := pairwise
         akmSuiteType := suites.akm },
        if pairwise = 0 then .pairwiseCipherNotValid
        else if group = 0 then .groupCipherNotValid
        else if ad.mlmeIsAp ∧ suites.akm.testBit 7 ∧ suites.mfpOpt = .no then
          .robustMgmtFramePolicyViolation
        else .successful,
        suites.mfpOpt, some ((48 : UInt8) :: UInt8.ofNat ie.length :: ie))
  | _, true, _, some ie =>
    match ad.rtwParseWpaIe ie with
    | none => (sta, .invalidIe, .no, some ((221 : UInt8) :: UInt8.ofNat ie.length :: ie))
    | some suites =>
      let group := suites.groupCipher &&& ad.wpaGroupCipher
      let pairwise := suites.pairwiseCipher &&& ad.wpaPairwiseCipher
      ({ sta with
         dot8021xalg := 1
         wpaPsk := 1
         wpaGroupCipher := group
         wpaPairwiseCipher := pairwise },
        if pairwise = 0 then .pairwiseCipherNotValid
        else if group = 0 then .groupCipherNotValid
        else .successful,
        .no, some ((221 : UInt8) :: UInt8.ofNat ie.length :: ie))
  | _, _, _, _ => (sta, .successful, .no, none)

def checkMfpOpt (ad : Adapter) (mfpOpt : MfpOpt) (sta : Sta) (status : Status) : Sta × Status :=
  if (ad.mfpOpt = .required ∧ mfpOpt = .no) ∨ mfpOpt = .invalid then
    (sta, .robustMgmtFramePolicyViolation)
  else if ad.mfpOpt.capable ∧ mfpOpt.capable then
    ({ sta with flags := { sta.flags with mfp := true } }, status)
  else (sta, status)

def checkPmkid (ad : Adapter) (sta : Sta) (status : Status) : Status :=
  if ad.mlmeIsAp ∧ ad.authTypeSae ∧ sta.akmSuiteType.testBit 7 ∧ sta.authalg = 0
      ∧ ¬ ad.rtwCachedPmkid sta.macAddr then .invalidPmkid
  else status

def parseWpsIe (ad : Adapter) (sta : Sta) (elems : Elems) (wpaIe : Option (List UInt8)) :
    Sta × Status :=
  let sta := { sta with flags := { sta.flags with wps := false, maybeWps := false } }
  match wpaIe with
  | none =>
    let sta := { sta with
      flags := { sta.flags with
        wps := elems.wpsIe.isSome
        maybeWps := elems.wpsIe.isNone } }
    if 0 < ad.wpaPsk ∧ ad.wpsSelectedRegistrar = some false then (sta, .unableHandleSta)
    else (sta, .successful)
  | some ie =>
    if ad.wpaPsk = 0 then (sta, .invalidIe)
    else if elems.wpsIe.isSome then
      ({ sta with flags := { sta.flags with wps := true } }, .successful)
    else ({ sta with wpaIe := ie.take 32 ++ sta.wpaIe.drop ie.length }, .successful)

def rtwApParseStaSecurityIe (ad : Adapter) (sta : Sta) (elems : Elems) : Sta × Status :=
  let (sta, status, mfpOpt, wpaIe) := parseWpaIe ad sta elems
  let (sta, status) := checkMfpOpt ad mfpOpt sta status
  let status := checkPmkid ad sta status
  if status ≠ .successful ∨ ad.mlmeIsAp = false then (sta, status)
  else parseWpsIe ad sta elems wpaIe

def uapsd (qosInfo i : ℕ) : ℕ := if qosInfo.testBit i then 3 else 0

def rtwApParseStaWmmIe (ad : Adapter) (sta : Sta) (ies : List UInt8) (iesLen : ℕ) : Sta :=
  let sta := { sta with
    flags := { sta.flags with wme := false }
    qosOption := false
    qosInfo := 0
    hasLegacyAc := true
    uapsdVo := 0
    uapsdVi := 0
    uapsdBe := 0
    uapsdBk := 0 }
  if ad.qosOption = false then sta
  else match rtwGetIeEx ies iesLen 221 [0x00, 0x50, 0xf2, 0x02, 0x00, 0x01] with
  | none => sta
  | some p =>
    let qosInfo := byteAt ies (p + 8)
    { sta with
      flags := { sta.flags with wme := true }
      qosOption := true
      qosInfo
      maxSpLen := qosInfo / 32 % 4
      hasLegacyAc := qosInfo % 16 ≠ 15
      uapsdVo := uapsd qosInfo 0
      uapsdVi := uapsd qosInfo 1
      uapsdBk := uapsd qosInfo 2
      uapsdBe := uapsd qosInfo 3 }

/-- The 802.11n part; the 802.11ac handler of this chip only clears its flag. -/
def rtwApParseStaHtIe (ad : Adapter) (sta : Sta) (elems : Elems) : Sta :=
  let sta := { sta with flags := { sta.flags with ht := false } }
  if ad.htOption = false then sta
  else match elems.htCapabilities with
  | none => { sta with htCap := List.replicate 26 0 }
  | some cap =>
    if cap.length < 26 then { sta with htCap := List.replicate 26 0 }
    else
      { sta with
        flags := { sta.flags with ht := true, wme := true }
        htCap := cap.take 26
        htOp := match elems.htOperation with
          | some op => if op.length = 22 then some op else sta.htOp
          | none => sta.htOp }

def rtwApParseStaVhtIe (sta : Sta) : Sta :=
  { sta with flags := { sta.flags with vht := false } }

def dropHtWithTkip (sta : Sta) : Sta :=
  if (sta.flags.ht ∨ sta.flags.vht)
      ∧ (sta.wpa2PairwiseCipher.testBit 3 ∨ sta.wpaPairwiseCipher.testBit 3) then
    { sta with flags := { sta.flags with ht := false, vht := false } }
  else sta

def checkP2pIe (ad : Adapter) (sta : Sta) (f : RecvFrame) (ieOffset : ℕ) : Sta × Status :=
  let sta := { sta with isP2pDevice := false }
  if ad.p2pRoleGo ∧ ad.rtwGetP2pIe (f.rxData.drop (wlanHdrA3Len + ieOffset)) then
    ({ sta with isP2pDevice := true, p2pStatusCode := ad.processAssocReqP2pIe f },
      if 0 < ad.processAssocReqP2pIe f then .capFail else .successful)
  else ({ sta with p2pStatusCode := 0 }, .successful)

def ssidMatches (ad : Adapter) (elems : Elems) : Bool :=
  match elems.ssid with
  | none => false
  | some ssid => ssid ≠ [] ∧ ssid = ad.ssid

def andThen (r : Sta × Status) (k : Sta → Sta × Status) : Sta × Status :=
  if r.2 = .successful then k r.1 else r

/-- The checks of `OnAssocReq` on the elements, in their order. -/
def checkAssocReq (ad : Adapter) (sta : Sta) (f : RecvFrame) (ieOffset : ℕ) : Sta × Status :=
  if ad.forceAsocFail ≠ 0 then (sta, .forced ad.forceAsocFail)
  else match rtwIeee80211ParseElems (f.rxData.drop (wlanHdrA3Len + ieOffset)) with
  | none => (sta, .failure)
  | some elems =>
    let sta := rtwApParseStaCapability sta f
    let ies := f.view.drop (wlanHdrA3Len + ieOffset)
    let iesLen := f.len - (wlanHdrA3Len + ieOffset)
    if ssidMatches ad elems = false then (sta, .failure)
    else
      andThen (rtwApParseStaSupportedRates ad sta ies iesLen) fun sta =>
      andThen (rtwApParseStaSecurityIe ad sta elems) fun sta =>
      checkP2pIe ad (dropHtWithTkip (rtwApParseStaVhtIe (rtwApParseStaHtIe ad
        (rtwApParseStaWmmIe ad sta ies iesLen) elems))) f ieOffset

/-! ## What it leaves alone -/

/-- The parsers may set the frame protection flag; they never clear it. -/
structure Keeps (p q : Sta) : Prop where
  macAddr : q.macAddr = p.macAddr
  aid : q.aid = p.aid
  state : q.state = p.state
  bpairwiseKeyInstalled : q.bpairwiseKeyInstalled = p.bpairwiseKeyInstalled
  keys : q.keys = p.keys
  mfp : p.flags.mfp = true → q.flags.mfp = true

theorem Keeps.refl (p : Sta) : Keeps p p := ⟨rfl, rfl, rfl, rfl, rfl, id⟩

theorem Keeps.trans {p q r : Sta} (hpq : Keeps p q) (hqr : Keeps q r) : Keeps p r where
  macAddr := hqr.macAddr.trans hpq.macAddr
  aid := hqr.aid.trans hpq.aid
  state := hqr.state.trans hpq.state
  bpairwiseKeyInstalled := hqr.bpairwiseKeyInstalled.trans hpq.bpairwiseKeyInstalled
  keys := hqr.keys.trans hpq.keys
  mfp := fun h => hqr.mfp (hpq.mfp h)

theorem andThen_keeps {p : Sta} {r : Sta × Status} {k : Sta → Sta × Status} (hr : Keeps p r.1)
    (hk : ∀ q, Keeps q (k q).1) : Keeps p (andThen r k).1 := by
  simp only [andThen]
  split_ifs
  · exact hr.trans (hk r.1)
  · exact hr

theorem rtwApParseStaCapability_keeps (sta : Sta) (f : RecvFrame) :
    Keeps sta (rtwApParseStaCapability sta f) :=
  ⟨rfl, rfl, rfl, rfl, rfl, id⟩

theorem rtwApParseStaSupportedRates_keeps (ad : Adapter) (sta : Sta) (ies : List UInt8)
    (iesLen : ℕ) : Keeps sta (rtwApParseStaSupportedRates ad sta ies iesLen).1 := by
  simp only [rtwApParseStaSupportedRates]
  split
  · exact Keeps.refl sta
  · exact ⟨rfl, rfl, rfl, rfl, rfl, id⟩

theorem parseWpaIe_keeps (ad : Adapter) (sta : Sta) (elems : Elems) :
    Keeps sta (parseWpaIe ad sta elems).1 := by
  simp only [parseWpaIe]
  split
  · split
    · exact ⟨rfl, rfl, rfl, rfl, rfl, id⟩
    · exact ⟨rfl, rfl, rfl, rfl, rfl, id⟩
  · split
    · exact ⟨rfl, rfl, rfl, rfl, rfl, id⟩
    · exact ⟨rfl, rfl, rfl, rfl, rfl, id⟩
  · exact ⟨rfl, rfl, rfl, rfl, rfl, id⟩

theorem checkMfpOpt_keeps (ad : Adapter) (mfpOpt : MfpOpt) (sta : Sta) (status : Status) :
    Keeps sta (checkMfpOpt ad mfpOpt sta status).1 := by
  simp only [checkMfpOpt]
  split_ifs
  · exact Keeps.refl sta
  · exact ⟨rfl, rfl, rfl, rfl, rfl, fun _ => rfl⟩
  · exact Keeps.refl sta

theorem parseWpsIe_keeps (ad : Adapter) (sta : Sta) (elems : Elems)
    (wpaIe : Option (List UInt8)) : Keeps sta (parseWpsIe ad sta elems wpaIe).1 := by
  simp only [parseWpsIe]
  split
  · split_ifs <;> exact ⟨rfl, rfl, rfl, rfl, rfl, id⟩
  · split_ifs <;> exact ⟨rfl, rfl, rfl, rfl, rfl, id⟩

theorem rtwApParseStaSecurityIe_keeps (ad : Adapter) (sta : Sta) (elems : Elems) :
    Keeps sta (rtwApParseStaSecurityIe ad sta elems).1 := by
  have hwpa := parseWpaIe_keeps ad sta elems
  have hmfp := checkMfpOpt_keeps ad (parseWpaIe ad sta elems).2.2.1 (parseWpaIe ad sta elems).1
    (parseWpaIe ad sta elems).2.1
  simp only [rtwApParseStaSecurityIe]
  split_ifs
  · exact hwpa.trans hmfp
  · exact (hwpa.trans hmfp).trans (parseWpsIe_keeps ad _ elems _)

theorem rtwApParseStaWmmIe_keeps (ad : Adapter) (sta : Sta) (ies : List UInt8) (iesLen : ℕ) :
    Keeps sta (rtwApParseStaWmmIe ad sta ies iesLen) := by
  simp only [rtwApParseStaWmmIe]
  split_ifs
  · exact ⟨rfl, rfl, rfl, rfl, rfl, id⟩
  · split <;> exact ⟨rfl, rfl, rfl, rfl, rfl, id⟩

theorem rtwApParseStaHtIe_keeps (ad : Adapter) (sta : Sta) (elems : Elems) :
    Keeps sta (rtwApParseStaHtIe ad sta elems) := by
  simp only [rtwApParseStaHtIe]
  split_ifs
  · exact ⟨rfl, rfl, rfl, rfl, rfl, id⟩
  · split
    · exact ⟨rfl, rfl, rfl, rfl, rfl, id⟩
    · split_ifs <;> exact ⟨rfl, rfl, rfl, rfl, rfl, id⟩

theorem dropHtWithTkip_keeps (sta : Sta) : Keeps sta (dropHtWithTkip sta) := by
  simp only [dropHtWithTkip]
  split_ifs
  · exact ⟨rfl, rfl, rfl, rfl, rfl, id⟩
  · exact Keeps.refl sta

theorem checkP2pIe_keeps (ad : Adapter) (sta : Sta) (f : RecvFrame) (ieOffset : ℕ) :
    Keeps sta (checkP2pIe ad sta f ieOffset).1 := by
  simp only [checkP2pIe]
  split_ifs <;> exact ⟨rfl, rfl, rfl, rfl, rfl, id⟩

theorem checkAssocReq_keeps (ad : Adapter) (sta : Sta) (f : RecvFrame) (ieOffset : ℕ) :
    Keeps sta (checkAssocReq ad sta f ieOffset).1 := by
  simp only [checkAssocReq]
  split_ifs
  · exact Keeps.refl sta
  split
  · exact Keeps.refl sta
  have hcap := rtwApParseStaCapability_keeps sta f
  split_ifs
  · exact hcap
  apply andThen_keeps
  · exact hcap.trans (rtwApParseStaSupportedRates_keeps ad _ _ _)
  intro p
  apply andThen_keeps
  · exact rtwApParseStaSecurityIe_keeps ad p _
  intro q
  have hwmm := rtwApParseStaWmmIe_keeps ad q
  have hvht : ∀ sta : Sta, Keeps sta (rtwApParseStaVhtIe sta) :=
    fun _ => ⟨rfl, rfl, rfl, rfl, rfl, id⟩
  exact ((((hwmm _ _).trans (rtwApParseStaHtIe_keeps ad _ _)).trans (hvht _)).trans
    (dropHtWithTkip_keeps _)).trans (checkP2pIe_keeps ad _ f ieOffset)

/-! ## When it is accepted -/

theorem andThen_successful_iff {r : Sta × Status} {k : Sta → Sta × Status} :
    (andThen r k).2 = .successful ↔ r.2 = .successful ∧ (k r.1).2 = .successful := by
  simp only [andThen]
  split_ifs with h
  · exact ⟨fun hk => ⟨h, hk⟩, fun hk => hk.2⟩
  · exact ⟨fun hr => absurd hr h, fun hr => hr.1⟩

theorem rtwApParseStaSupportedRates_successful_iff (ad : Adapter) (sta : Sta)
    (ies : List UInt8) (iesLen : ℕ) :
    (rtwApParseStaSupportedRates ad sta ies iesLen).2 = .successful ↔
      rtwIesGetSupportedRate ies iesLen ≠ [] := by
  simp only [rtwApParseStaSupportedRates]
  split
  · next h => exact ⟨fun h' => (nomatch h'), fun h' => absurd h h'⟩
  · next h => exact ⟨fun _ => h, fun _ => rfl⟩

theorem parseWpaIe_congr (ad : Adapter) {p q : Sta} (elems : Elems) :
    (parseWpaIe ad p elems).2 = (parseWpaIe ad q elems).2 := by
  simp only [parseWpaIe]
  split
  · split <;> rfl
  · split <;> rfl
  · rfl

/-- What the security elements are judged by, besides themselves. -/
structure SameCredentials (p q : Sta) : Prop where
  macAddr : p.macAddr = q.macAddr
  authalg : p.authalg = q.authalg
  akmSuiteType : p.akmSuiteType = q.akmSuiteType

theorem parseWpaIe_sameCredentials (ad : Adapter) {p q : Sta} (h : SameCredentials p q)
    (elems : Elems) :
    SameCredentials (parseWpaIe ad p elems).1 (parseWpaIe ad q elems).1 := by
  obtain ⟨hmac, halg, hakm⟩ := h
  simp only [parseWpaIe]
  split
  · split
    · exact ⟨hmac, halg, hakm⟩
    · exact ⟨hmac, halg, rfl⟩
  · split
    · exact ⟨hmac, halg, hakm⟩
    · exact ⟨hmac, halg, hakm⟩
  · exact ⟨hmac, halg, hakm⟩

theorem checkMfpOpt_sameCredentials (ad : Adapter) (mfpOpt : MfpOpt) {p q : Sta}
    (h : SameCredentials p q) (status : Status) :
    SameCredentials (checkMfpOpt ad mfpOpt p status).1 (checkMfpOpt ad mfpOpt q status).1
      ∧ (checkMfpOpt ad mfpOpt p status).2 = (checkMfpOpt ad mfpOpt q status).2 := by
  simp only [checkMfpOpt]
  split_ifs
  · exact ⟨h, rfl⟩
  · exact ⟨⟨h.macAddr, h.authalg, h.akmSuiteType⟩, rfl⟩
  · exact ⟨h, rfl⟩

theorem parseWpsIe_congr (ad : Adapter) (p q : Sta) (elems : Elems)
    (wpaIe : Option (List UInt8)) :
    (parseWpsIe ad p elems wpaIe).2 = (parseWpsIe ad q elems wpaIe).2 := by
  simp only [parseWpsIe]
  split
  · split_ifs <;> rfl
  · split_ifs <;> rfl

theorem rtwApParseStaSecurityIe_congr (ad : Adapter) {p q : Sta} (h : SameCredentials p q)
    (elems : Elems) :
    (rtwApParseStaSecurityIe ad p elems).2 = (rtwApParseStaSecurityIe ad q elems).2 := by
  have hwpa := parseWpaIe_congr ad (p := p) (q := q) elems
  have hcred := parseWpaIe_sameCredentials ad h elems
  obtain ⟨hmfp, hstatus⟩ := checkMfpOpt_sameCredentials ad (parseWpaIe ad q elems).2.2.1 hcred
    (parseWpaIe ad q elems).2.1
  simp only [rtwApParseStaSecurityIe, hwpa, hstatus, checkPmkid, hmfp.macAddr, hmfp.authalg,
    hmfp.akmSuiteType]
  split_ifs
  · rfl
  · exact parseWpsIe_congr ad _ _ elems _
  · rfl
  · exact parseWpsIe_congr ad _ _ elems _

def refusedByP2p (ad : Adapter) (f : RecvFrame) (ieOffset : ℕ) : Prop :=
  ad.p2pRoleGo = true ∧ ad.rtwGetP2pIe (f.rxData.drop (wlanHdrA3Len + ieOffset)) = true
    ∧ 0 < ad.processAssocReqP2pIe f

theorem checkP2pIe_successful_iff (ad : Adapter) (sta : Sta) (f : RecvFrame) (ieOffset : ℕ) :
    (checkP2pIe ad sta f ieOffset).2 = .successful ↔ ¬ refusedByP2p ad f ieOffset := by
  simp only [checkP2pIe, refusedByP2p]
  split_ifs with hie hcode
  · exact ⟨fun h => (nomatch h), fun h => absurd ⟨hie.1, hie.2, hcode⟩ h⟩
  · exact ⟨fun _ h => hcode h.2.2, fun _ => rfl⟩
  · exact ⟨fun _ h => hie ⟨h.1, h.2.1⟩, fun _ => rfl⟩

/-- The elements well formed, with the SSID of the access point, a rate, and
security and P2P elements that are accepted. -/
def AssocReqAcceptable (ad : Adapter) (sta : Sta) (f : RecvFrame) (ieOffset : ℕ) : Prop :=
  ad.forceAsocFail = 0 ∧ ∃ elems,
    rtwIeee80211ParseElems (f.rxData.drop (wlanHdrA3Len + ieOffset)) = some elems
      ∧ ssidMatches ad elems = true
      ∧ rtwIesGetSupportedRate (f.view.drop (wlanHdrA3Len + ieOffset))
          (f.len - (wlanHdrA3Len + ieOffset)) ≠ []
      ∧ (rtwApParseStaSecurityIe ad sta elems).2 = .successful
      ∧ ¬ refusedByP2p ad f ieOffset

theorem checkAssocReq_successful_iff (ad : Adapter) (sta : Sta) (f : RecvFrame) (ieOffset : ℕ) :
    (checkAssocReq ad sta f ieOffset).2 = .successful ↔ AssocReqAcceptable ad sta f ieOffset := by
  simp only [checkAssocReq, AssocReqAcceptable]
  split_ifs with hforce
  · exact ⟨fun h => (nomatch h), fun h => absurd h.1 hforce⟩
  cases rtwIeee80211ParseElems (f.rxData.drop (wlanHdrA3Len + ieOffset)) with
  | none => exact ⟨fun h => (nomatch h), fun ⟨_, _, h, _⟩ => (nomatch h)⟩
  | some elems =>
    have hforce : ad.forceAsocFail = 0 := not_not.mp hforce
    have hcred : ∀ ies iesLen, SameCredentials
        (rtwApParseStaSupportedRates ad (rtwApParseStaCapability sta f) ies iesLen).1 sta := by
      intro ies iesLen
      simp only [rtwApParseStaSupportedRates]
      split <;> exact ⟨rfl, rfl, rfl⟩
    simp only [Option.some.injEq, exists_eq_left', hforce, true_and]
    split_ifs with hssid
    · exact ⟨fun h => (nomatch h), fun h => absurd h.1 (by rw [hssid]; exact Bool.false_ne_true)⟩
    · rw [andThen_successful_iff, andThen_successful_iff, checkP2pIe_successful_iff,
        rtwApParseStaSupportedRates_successful_iff, rtwApParseStaSecurityIe_congr ad (hcred _ _)]
      exact ⟨fun h => ⟨Bool.eq_true_of_not_eq_false hssid, h⟩, fun h => h.2⟩

end Rtl8189.StaInfo
