import Mathlib.Data.Nat.Notation
import Rtl8189.RecvFrame

/-!
# Association requests

What `OnAssocReq` of an access point reads of a request, what it answers, and
what it leaves in the record of the station. The bytes `behind` the frame in the
receive buffer are part of the input, for the search of the WMM element compares
with them. What the join then does with the record is left out.
-/
namespace Rtl8189.AssocReq

abbrev Bits := BitVec 32

def wpaCipherNone : Bits := 1
def wpaCipherWep40 : Bits := 2
def wpaCipherWep104 : Bits := 4
def wpaCipherTkip : Bits := 8
def wpaCipherCcmp : Bits := 16

def wlanAkmTypeSae : Bits := 128

inductive MfpOpt where
  | no
  | invalid
  | optional
  | required
  deriving DecidableEq

/-- `>= MFP_OPTIONAL` -/
def MfpOpt.offered : MfpOpt → Bool
  | .optional | .required => true
  | _ => false

inductive AuthAlg where
  | openSystem
  | sharedKey
  | sae
  deriving DecidableEq

section Elements

structure Elems where
  ssid : Option (List UInt8) := none
  rsnIe : Option (List UInt8) := none
  wpaIe : Option (List UInt8) := none
  wpsIe : Option (List UInt8) := none
  htCapabilities : Option (List UInt8) := none
  htOperation : Option (List UInt8) := none
  deriving DecidableEq

def microsoftOui : List UInt8 := [0x00, 0x50, 0xf2]

def Elems.parseVendorSpecific (e : Elems) (c : List UInt8) : Elems :=
  if c.length < 4 then e
  else if c.take 3 = microsoftOui then
    if byteAt c 3 = 1 then { e with wpaIe := some c }
    else if byteAt c 3 = 4 then { e with wpsIe := some c }
    else e
  else e

def Elems.add (e : Elems) (id : UInt8) (c : List UInt8) : Elems :=
  if id = 0 then { e with ssid := some c }
  else if id = 221 then e.parseVendorSpecific c
  else if id = 48 then { e with rsnIe := some c }
  else if id = 45 then { e with htCapabilities := some c }
  else if id = 61 then { e with htOperation := some c }
  else e

/-- The elements from `start` on; none where they do not fill the frame. The first argument
bounds the number of elements. -/
def parseElemsFrom : ℕ → List UInt8 → Elems → Option Elems
  | _, [], e => some e
  | n + 1, id :: elen :: rest, e =>
    if elen.toNat > rest.length then none
    else parseElemsFrom n (rest.drop elen.toNat) (e.add id (rest.take elen.toNat))
  | _, _, _ => none

def rtwIeee80211ParseElems (start : List UInt8) : Option Elems :=
  parseElemsFrom start.length start {}

/-- The bytes from the element on, where `limit` bytes are searched. -/
def rtwGetIe (index : UInt8) : ℕ → List UInt8 → ℕ → Option (List UInt8)
  | 0, _, _ => none
  | n + 1, p, limit =>
    if limit = 0 then none
    else if p.headD 0 = index then some p
    else rtwGetIe index n (p.drop (byteAt p 1 + 2)) (limit - (byteAt p 1 + 2))

/-- The comparison with the OUI is not bounded by the element. -/
def rtwGetIeEx (eid : UInt8) (oui : List UInt8) : ℕ → List UInt8 → ℕ → Option (List UInt8)
  | 0, _, _ => none
  | n + 1, p, limit =>
    if limit = 0 then none
    else if p.headD 0 = eid ∧ (p.drop 2).take oui.length = oui then some p
    else rtwGetIeEx eid oui n (p.drop (byteAt p 1 + 2)) (limit - (byteAt p 1 + 2))

def supportRateTbl : List ℕ :=
  [0x02, 0x04, 0x0B, 0x16, 0x0C, 0x12, 0x18, 0x24, 0x30, 0x48, 0x60, 0x6C]

/-- `rate_num` of `rtw_ies_get_supported_rate` -/
def supportedRateNum (ies : List UInt8) : ℕ :=
  let rates := fun id => match rtwGetIe id ies.length ies ies.length with
    | some p => (p.drop 2).take (byteAt p 1)
    | none => []
  (supportRateTbl.filter fun rate => (rates 1 ++ rates 50).any fun r => r.toNat % 128 = rate).length

end Elements

section SecurityElements

def rtwGetWpaCipherSuite (s : List UInt8) : Bits :=
  if s = [0x00, 0x50, 0xf2, 0] then wpaCipherNone
  else if s = [0x00, 0x50, 0xf2, 1] then wpaCipherWep40
  else if s = [0x00, 0x50, 0xf2, 2] then wpaCipherTkip
  else if s = [0x00, 0x50, 0xf2, 4] then wpaCipherCcmp
  else if s = [0x00, 0x50, 0xf2, 5] then wpaCipherWep104
  else 0

def rtwGetWpa2CipherSuite (s : List UInt8) : Bits :=
  if s = [0x00, 0x0f, 0xac, 0] then wpaCipherNone
  else if s = [0x00, 0x0f, 0xac, 1] then wpaCipherWep40
  else if s = [0x00, 0x0f, 0xac, 2] then wpaCipherTkip
  else if s = [0x00, 0x0f, 0xac, 4] then wpaCipherCcmp
  else if s = [0x00, 0x0f, 0xac, 5] then wpaCipherWep104
  else 0

/-- The suite types with a bit, in the order of the bits `WLAN_AKM_TYPE_...`. -/
def akmSuites : List UInt8 := [1, 2, 3, 4, 5, 6, 7, 8, 9, 11, 12, 14, 15, 16, 17]

def rtwGetAkmSuiteBitmap (s : List UInt8) : Bits :=
  if s.take 3 = [0x00, 0x0f, 0xac] then
    match akmSuites.idxOf? (s.getD 3 0) with
    | some i => 1 <<< i
    | none => 0
  else 0

def suites (n count : ℕ) (bs : List UInt8) : List (List UInt8) :=
  (List.range count).map fun i => (bs.drop (n * i)).take n

def rtwParseWpaIe (c : List UInt8) : Option (Bits × Bits) :=
  if c.take 4 ≠ microsoftOui ++ [1] then none
  else
    let pos := c.drop 6
    if 0 < pos.length ∧ pos.length < 4 then none
    else
      let group := if pos.length ≥ 4 then rtwGetWpaCipherSuite (pos.take 4) else 0
      let pos := pos.drop 4
      if pos.length ≥ 2 then
        let count := le16 pos 0
        let pos := pos.drop 2
        if count = 0 ∨ pos.length < count * 4 then none
        else some (group, (suites 4 count pos).foldl (fun m s => m ||| rtwGetWpaCipherSuite s) 0)
      else if pos.length = 1 then none
      else some (group, 0)

structure RsneInfo where
  gcs : Option (List UInt8) := none
  pcsList : List (List UInt8) := []
  akmList : List (List UInt8) := []
  cap : Option (List UInt8) := none

/-- A field of `n` bytes; the element may end before it, not inside it. -/
def fieldOr (n : ℕ) (pos : List UInt8) (info : RsneInfo)
    (next : List UInt8 → List UInt8 → Option RsneInfo) : Option RsneInfo :=
  if pos.length < n then (if pos = [] then some info else none)
  else next (pos.take n) (pos.drop n)

def countedOr (n : ℕ) (pos : List UInt8) (info : RsneInfo)
    (next : List (List UInt8) → List UInt8 → Option RsneInfo) : Option RsneInfo :=
  fieldOr 2 pos info fun cnt pos =>
    fieldOr (n * le16 cnt 0) pos info fun list pos => next (suites n (le16 cnt 0) list) pos

def rtwRsneInfoParse (c : List UInt8) : Option RsneInfo :=
  if c.length < 2 then none
  else
    fieldOr 4 (c.drop 2) {} fun gcs pos =>
    countedOr 4 pos { gcs := some gcs } fun pcsList pos =>
    countedOr 4 pos { gcs := some gcs, pcsList := pcsList } fun akmList pos =>
    let info : RsneInfo := { gcs := some gcs, pcsList := pcsList, akmList := akmList }
    fieldOr 2 pos info fun cap pos =>
    let info := { info with cap := some cap }
    countedOr 16 pos info fun _ pos => fieldOr 4 pos info fun _ _ => some info

/-- `GET_RSN_CAP_MFP_OPTION` -/
def rsnCapMfpOption (cap : List UInt8) : MfpOpt :=
  match byteAt cap 0 / 64 with
  | 0 => .no
  | 1 => .invalid
  | 2 => .optional
  | _ => .required

structure Wpa2Ie where
  groupCipher : Bits
  pairwiseCipher : Bits
  akm : Bits
  mfpOpt : MfpOpt

def rtwParseWpa2Ie (c : List UInt8) : Option Wpa2Ie :=
  (rtwRsneInfoParse c).map fun info =>
    { groupCipher := (info.gcs.map rtwGetWpa2CipherSuite).getD 0
      pairwiseCipher := info.pcsList.foldl (fun m s => m ||| rtwGetWpa2CipherSuite s) 0
      akm := info.akmList.foldl (fun m s => m ||| rtwGetAkmSuiteBitmap s) 0
      mfpOpt := (info.cap.map rsnCapMfpOption).getD .no }

end SecurityElements

/-- The settings of the access point that admission reads. -/
structure ApConfig where
  ssid : List UInt8
  /-- BIT(0) and BIT(1) of `wpa_psk` -/
  wpa : Bool
  rsn : Bool
  wpaGroupCipher : Bits
  wpaPairwiseCipher : Bits
  wpa2GroupCipher : Bits
  wpa2PairwiseCipher : Bits
  mfpOpt : MfpOpt
  /-- `auth_type` is `NL80211_AUTHTYPE_SAE` -/
  authTypeSae : Bool
  /-- the attributes of `wps_beacon_ie` -/
  wpsBeaconIe : Option (List (ℕ × List UInt8))
  qosOption : Bool
  htOption : Bool

structure Env where
  forceAsocFail : ℕ := 0
  pmkidCached : Bool := false
  aidFree : Bool := true

structure SecRec where
  dot8021xalg : ℕ := 0
  /-- BIT(0) and BIT(1) of `wpa_psk` -/
  wpa : Bool := false
  rsn : Bool := false
  wpaGroupCipher : Bits := 0
  wpaPairwiseCipher : Bits := 0
  wpa2GroupCipher : Bits := 0
  wpa2PairwiseCipher : Bits := 0
  akmSuiteType : Bits := 0
  wpaIe : List UInt8 := []
  /-- `WLAN_STA_WPS`, `WLAN_STA_MAYBE_WPS`, `WLAN_STA_MFP` -/
  wps : Bool := false
  maybeWps : Bool := false
  mfp : Bool := false
  deriving DecidableEq

structure WmmRec where
  /-- `WLAN_STA_WME` -/
  wme : Bool := false
  qosOption : Bool := false
  qosInfo : ℕ := 0
  maxSpLen : ℕ := 0
  hasLegacyAc : Bool := true
  uapsdVo : ℕ := 0
  uapsdVi : ℕ := 0
  uapsdBe : ℕ := 0
  uapsdBk : ℕ := 0
  deriving DecidableEq

structure StaInfo where
  authalg : AuthAlg := .openSystem
  /-- `WIFI_FW_AUTH_NULL`, `WIFI_FW_AUTH_SUCCESS`, `WIFI_FW_ASSOC_SUCCESS` -/
  authNull : Bool := false
  authSuccess : Bool := false
  assocSuccess : Bool := false
  bpairwiseKeyInstalled : Bool := false
  hasAid : Bool := false
  sec : SecRec := {}
  wmm : WmmRec := {}
  /-- `WLAN_STA_HT` -/
  ht : Bool := false
  htCap : List UInt8 := []
  htOp : Option (List UInt8) := none

def statsSuccessful : ℕ := 0
def statsFailure : ℕ := 1
def statsUnableHandleSta : ℕ := 17
def statsRefusedTemporarily : ℕ := 30
def statusRobustMgmtFramePolicyViolation : ℕ := 31
def statusInvalidIe : ℕ := 40
def statusGroupCipherNotValid : ℕ := 41
def statusPairwiseCipherNotValid : ℕ := 42
def statusInvalidPmkid : ℕ := 53

section SecurityIe

variable (cfg : ApConfig)

/-- What reading the element of an enabled kind gives: `wpaIe` is the element, none where the
request has none of an enabled kind. -/
structure KindResult where
  sec : SecRec
  wpaIe : Option (List UInt8) := none
  mfpOpt : MfpOpt := .no
  status : ℕ := statsSuccessful

def parseRsn (sec : SecRec) (c : List UInt8) : KindResult :=
  match rtwParseWpa2Ie c with
  | none =>
    { sec := sec, wpaIe := some (48 :: UInt8.ofNat c.length :: c), status := statusInvalidIe }
  | some w =>
    let sec := { sec with
      dot8021xalg := 1, rsn := true
      wpa2GroupCipher := w.groupCipher &&& cfg.wpa2GroupCipher
      wpa2PairwiseCipher := w.pairwiseCipher &&& cfg.wpa2PairwiseCipher
      akmSuiteType := w.akm }
    let status := if w.akm &&& wlanAkmTypeSae ≠ 0 ∧ w.mfpOpt = .no then
      statusRobustMgmtFramePolicyViolation else statsSuccessful
    let status := if sec.wpa2GroupCipher = 0 then statusGroupCipherNotValid else status
    let status := if sec.wpa2PairwiseCipher = 0 then statusPairwiseCipherNotValid else status
    { sec := sec, wpaIe := some (48 :: UInt8.ofNat c.length :: c), mfpOpt := w.mfpOpt
      status := status }

def parseWpa (sec : SecRec) (c : List UInt8) : KindResult :=
  match rtwParseWpaIe c with
  | none =>
    { sec := sec, wpaIe := some (221 :: UInt8.ofNat c.length :: c), status := statusInvalidIe }
  | some (group, pairwise) =>
    let sec := { sec with
      dot8021xalg := 1, wpa := true
      wpaGroupCipher := group &&& cfg.wpaGroupCipher
      wpaPairwiseCipher := pairwise &&& cfg.wpaPairwiseCipher }
    let status := if sec.wpaGroupCipher = 0 then statusGroupCipherNotValid else statsSuccessful
    let status := if sec.wpaPairwiseCipher = 0 then statusPairwiseCipherNotValid else status
    { sec := sec, wpaIe := some (221 :: UInt8.ofNat c.length :: c), status := status }

/-- RSN goes before WPA. -/
def parseKind (sec : SecRec) (elems : Elems) : KindResult :=
  match cfg.rsn, elems.rsnIe with
  | true, some c => parseRsn cfg sec c
  | _, _ =>
    match cfg.wpa, elems.wpaIe with
    | true, some c => parseWpa cfg sec c
    | _, _ => { sec := sec }

def selectedRegistrar (attrs : List (ℕ × List UInt8)) : ℕ :=
  match attrs.find? (·.1 = 0x1041) with
  | some (_, content) => byteAt content 0
  | none => 0

/-- Whether WPS is meant, and the element that is kept. -/
def parseWps (sec : SecRec) (elems : Elems) (wpaIe : Option (List UInt8)) : SecRec × ℕ :=
  let sec := { sec with wps := false, maybeWps := false }
  match wpaIe with
  | none =>
    let sec := if elems.wpsIe.isSome then { sec with wps := true }
      else { sec with maybeWps := true }
    match cfg.wpsBeaconIe with
    | some attrs =>
      if (cfg.wpa || cfg.rsn) ∧ selectedRegistrar attrs = 0 then (sec, statsUnableHandleSta)
      else (sec, statsSuccessful)
    | none => (sec, statsSuccessful)
  | some ie =>
    if (cfg.wpa || cfg.rsn) = false then (sec, statusInvalidIe)
    else if elems.wpsIe.isSome then ({ sec with wps := true }, statsSuccessful)
    else ({ sec with wpaIe := ie.take 32 }, statsSuccessful)

def parseMfp (r : KindResult) : SecRec × ℕ :=
  if (cfg.mfpOpt = .required ∧ r.mfpOpt = .no) ∨ r.mfpOpt = .invalid then
    (r.sec, statusRobustMgmtFramePolicyViolation)
  else if cfg.mfpOpt.offered ∧ r.mfpOpt.offered then ({ r.sec with mfp := true }, r.status)
  else (r.sec, r.status)

def checkPmkid (env : Env) (authalg : AuthAlg) (akmSuiteType : Bits) (status : ℕ) : ℕ :=
  if cfg.authTypeSae ∧ akmSuiteType &&& wlanAkmTypeSae ≠ 0 ∧ authalg = .openSystem ∧
      env.pmkidCached = false then statusInvalidPmkid
  else status

/-- The AKM suites and the flags outlive the fields that are reset. -/
def rtwApParseStaSecurityIe (env : Env) (authalg : AuthAlg) (old : SecRec) (elems : Elems) :
    SecRec × ℕ :=
  let sec : SecRec :=
    { akmSuiteType := old.akmSuiteType, wps := old.wps, maybeWps := old.maybeWps, mfp := old.mfp }
  let r := parseKind cfg sec elems
  let (sec, status) := parseMfp cfg r
  let status := checkPmkid cfg env authalg sec.akmSuiteType status
  if status ≠ statsSuccessful then (sec, status)
  else parseWps cfg sec elems r.wpaIe

end SecurityIe

def wmmIe : List UInt8 := [0x00, 0x50, 0xf2, 0x02, 0x00, 0x01]

/-- `qos_info` of the WMM element found. -/
def wmmQosInfo (ies behind : List UInt8) : Option ℕ :=
  (rtwGetIeEx 221 wmmIe ies.length (ies ++ behind) ies.length).map fun p => byteAt p 8

def uapsdOf (qosInfo bit : ℕ) : ℕ := if qosInfo.testBit bit then 3 else 0

/-- `max_sp_len` is not reset. -/
def rtwApParseStaWmmIe (cfg : ApConfig) (old : WmmRec) (ies behind : List UInt8) : WmmRec :=
  let wmm : WmmRec := { maxSpLen := old.maxSpLen }
  if cfg.qosOption then
    match wmmQosInfo ies behind with
    | none => wmm
    | some qosInfo =>
      { wme := true, qosOption := true, qosInfo := qosInfo, maxSpLen := qosInfo / 32 % 4
        hasLegacyAc := qosInfo % 16 ≠ 15
        uapsdVo := uapsdOf qosInfo 0, uapsdVi := uapsdOf qosInfo 1
        uapsdBk := uapsdOf qosInfo 2, uapsdBe := uapsdOf qosInfo 3 }
  else wmm

def parseHtOp (old : Option (List UInt8)) : Option (List UInt8) → Option (List UInt8)
  | some op => if op.length = 22 then some op else old
  | none => old

def rtwApParseStaHtIe (cfg : ApConfig) (sta : StaInfo) (elems : Elems) : StaInfo :=
  let sta := { sta with ht := false }
  if cfg.htOption then
    let sta := { sta with htCap := List.replicate 26 0 }
    match elems.htCapabilities with
    | some c =>
      if c.length ≥ 26 then
        { sta with
          ht := true, wmm := { sta.wmm with wme := true }, htCap := c.take 26
          htOp := parseHtOp sta.htOp elems.htOperation }
      else sta
    | none => sta
  else sta

def ieOffset (frame : List UInt8) : ℕ := if byteAt frame 0 / 4 = 0 then 4 else 10

def tlvIes (frame : List UInt8) : List UInt8 := frame.drop (24 + ieOffset frame)

def tkipUsed (sec : SecRec) : Bool :=
  sec.wpa2PairwiseCipher &&& wpaCipherTkip ≠ 0 || sec.wpaPairwiseCipher &&& wpaCipherTkip ≠ 0

/-- A station may not use TKIP with HT. -/
def dropHtWithTkip (sta : StaInfo) : StaInfo :=
  if sta.ht ∧ tkipUsed sta.sec then { sta with ht := false } else sta

/-- The record left, and the status of the response where there is one. -/
def onAssocReq (cfg : ApConfig) (env : Env) (sta : StaInfo) (frame behind : List UInt8) :
    StaInfo × Option ℕ :=
  if frame.length < 24 + ieOffset frame then (sta, none)
  else if sta.authalg = .sae ∧ sta.authNull then (sta, none)
  else if ¬ sta.authSuccess ∧ ¬ sta.assocSuccess then (sta, none)
  else
    let sta := if sta.authSuccess then { sta with authSuccess := false }
      else { sta with assocSuccess := false }
    let fail := fun (sta : StaInfo) status => ({ sta with hasAid := false }, some status)
    if env.forceAsocFail ≠ 0 then fail sta env.forceAsocFail
    else
      let ies := tlvIes frame
      match rtwIeee80211ParseElems ies with
      | none => fail sta statsFailure
      | some elems =>
        if elems.ssid = none ∨ elems.ssid = some [] ∨ elems.ssid ≠ some cfg.ssid then
          fail sta statsFailure
        else if supportedRateNum ies = 0 then fail sta statsFailure
        else
          let r := rtwApParseStaSecurityIe cfg env sta.authalg sta.sec elems
          let sta := { sta with sec := r.1 }
          if r.2 ≠ statsSuccessful then fail sta r.2
          else
            let sta := { sta with wmm := rtwApParseStaWmmIe cfg sta.wmm ies behind }
            let sta := dropHtWithTkip (rtwApParseStaHtIe cfg sta elems)
            if ¬ sta.hasAid ∧ ¬ env.aidFree then fail sta statsUnableHandleSta
            else
              let sta := { sta with hasAid := true, assocSuccess := true }
              (sta, some (if sta.bpairwiseKeyInstalled ∧ sta.sec.mfp then statsRefusedTemporarily
                else statsSuccessful))

section Spec

variable {cfg : ApConfig} {env : Env} {elems : Elems}

def MfpFits (ap sta : MfpOpt) : Prop := sta ≠ .invalid ∧ ¬ (ap = .required ∧ sta = .no)

/-- An RSN element, or a WPA element, of an enabled kind that parses, with ciphers and a
management frame protection that the access point allows. -/
def GoodElement (cfg : ApConfig) (elems : Elems) : Prop :=
  (cfg.rsn = true ∧ ∃ c w, elems.rsnIe = some c ∧ rtwParseWpa2Ie c = some w ∧
    w.groupCipher &&& cfg.wpa2GroupCipher ≠ 0 ∧ w.pairwiseCipher &&& cfg.wpa2PairwiseCipher ≠ 0 ∧
    MfpFits cfg.mfpOpt w.mfpOpt) ∨
  (cfg.wpa = true ∧ ∃ c g p, elems.wpaIe = some c ∧ rtwParseWpaIe c = some (g, p) ∧
    g &&& cfg.wpaGroupCipher ≠ 0 ∧ p &&& cfg.wpaPairwiseCipher ≠ 0 ∧ MfpFits cfg.mfpOpt .no)

def RegistrarSelected (cfg : ApConfig) : Prop :=
  ∃ attrs, cfg.wpsBeaconIe = some attrs ∧ selectedRegistrar attrs ≠ 0

def kindUsed (cfg : ApConfig) (elems : Elems) : Bool :=
  cfg.rsn && elems.rsnIe.isSome || cfg.wpa && elems.wpaIe.isSome

def rsnParsed (cfg : ApConfig) (elems : Elems) : Option Wpa2Ie :=
  if cfg.rsn then elems.rsnIe.bind rtwParseWpa2Ie else none

def takesMfp (cfg : ApConfig) (elems : Elems) : Bool :=
  cfg.mfpOpt.offered && ((rsnParsed cfg elems).map (·.mfpOpt.offered)).getD false

/-- The security fields where the request is not refused. -/
def secOf (cfg : ApConfig) (old : SecRec) (elems : Elems) : SecRec :=
  let r := parseKind cfg { akmSuiteType := old.akmSuiteType, mfp := old.mfp } elems
  let sec := if cfg.mfpOpt.offered ∧ r.mfpOpt.offered then { r.sec with mfp := true } else r.sec
  (parseWps cfg sec elems r.wpaIe).1

theorem parseKind_cases (cfg : ApConfig) (elems : Elems) :
    (∃ c, cfg.rsn = true ∧ elems.rsnIe = some c ∧
      rsnParsed cfg elems = rtwParseWpa2Ie c ∧ kindUsed cfg elems = true ∧
      ∀ sec, parseKind cfg sec elems = parseRsn cfg sec c) ∨
    (∃ c, cfg.wpa = true ∧ elems.wpaIe = some c ∧ rsnParsed cfg elems = none ∧
      kindUsed cfg elems = true ∧ ∀ sec, parseKind cfg sec elems = parseWpa cfg sec c) ∨
    (rsnParsed cfg elems = none ∧ kindUsed cfg elems = false ∧
      ∀ sec, parseKind cfg sec elems = { sec := sec }) := by
  have hrsn : ∀ c, cfg.rsn = true → elems.rsnIe = some c →
      (∃ c, cfg.rsn = true ∧ elems.rsnIe = some c ∧
        rsnParsed cfg elems = rtwParseWpa2Ie c ∧ kindUsed cfg elems = true ∧
        ∀ sec, parseKind cfg sec elems = parseRsn cfg sec c) := by
    intro c hr hc
    refine ⟨c, hr, hc, ?_, ?_, fun sec => ?_⟩
    · rw [rsnParsed, if_pos hr, hc]
      rfl
    · rw [kindUsed, hr, hc]
      rfl
    · simp only [parseKind, hr, hc]
  by_cases hused : cfg.rsn = true ∧ elems.rsnIe.isSome
  · obtain ⟨c, hc⟩ := Option.isSome_iff_exists.1 hused.2
    exact .inl (hrsn c hused.1 hc)
  · have hnone : rsnParsed cfg elems = none := by
      rw [rsnParsed]
      split
      · next hr =>
        cases hc : elems.rsnIe with
        | none => rfl
        | some c => exact absurd ⟨hr, by rw [hc]; rfl⟩ hused
      · rfl
    have hkind : ∀ sec, parseKind cfg sec elems = match cfg.wpa, elems.wpaIe with
        | true, some c => parseWpa cfg sec c
        | _, _ => { sec := sec } := by
      intro sec
      rw [parseKind]
      split
      · next c hr hc => exact absurd ⟨hr, by rw [hc]; rfl⟩ hused
      · rfl
    have hkindUsed : kindUsed cfg elems = (cfg.wpa && elems.wpaIe.isSome) := by
      rw [kindUsed]
      have : (cfg.rsn && elems.rsnIe.isSome) = false := by simpa using hused
      rw [this, Bool.false_or]
    by_cases hwpa : cfg.wpa = true ∧ elems.wpaIe.isSome
    · obtain ⟨c, hc⟩ := Option.isSome_iff_exists.1 hwpa.2
      refine .inr (.inl ⟨c, hwpa.1, hc, hnone, ?_, fun sec => ?_⟩)
      · rw [hkindUsed, hwpa.1, hwpa.2]
        rfl
      · rw [hkind, hwpa.1, hc]
    · refine .inr (.inr ⟨hnone, ?_, fun sec => ?_⟩)
      · rw [hkindUsed]
        simpa using hwpa
      · rw [hkind]
        split
        · next c hw hc => exact absurd ⟨hw, by rw [hc]; rfl⟩ hwpa
        · rfl

/-- The WPS flags and the kept element do not depend on what is in the record. -/
theorem parseWps_rec (cfg : ApConfig) (elems : Elems) (wpaIe : Option (List UInt8)) :
    ∃ (wps maybeWps : Bool) (keep : Option (List UInt8)), ∀ sec, (parseWps cfg sec elems wpaIe).1 =
      { sec with wps := wps, maybeWps := maybeWps, wpaIe := keep.getD sec.wpaIe } := by
  cases wpaIe with
  | none =>
    refine ⟨elems.wpsIe.isSome, !elems.wpsIe.isSome, none, fun sec => ?_⟩
    simp only [parseWps]
    cases cfg.wpsBeaconIe with
    | none => cases elems.wpsIe <;> rfl
    | some attrs =>
      dsimp only
      split <;> cases elems.wpsIe <;> rfl
  | some ie =>
    cases hwpa : (cfg.wpa || cfg.rsn) with
    | false => exact ⟨false, false, none, fun sec => by simp only [parseWps, hwpa]; rfl⟩
    | true =>
      cases hwps : elems.wpsIe with
      | none =>
        refine ⟨false, false, some (ie.take 32), fun sec => ?_⟩
        simp only [parseWps, hwpa, hwps]
        rfl
      | some c =>
        refine ⟨true, false, none, fun sec => ?_⟩
        simp only [parseWps, hwpa, hwps]
        rfl

/-- Only the AKM suites and the flag of the management frame protection outlive a request. -/
theorem secOf_old (cfg : ApConfig) (old : SecRec) (elems : Elems) :
    secOf cfg old elems = { secOf cfg {} elems with
      akmSuiteType := ((rsnParsed cfg elems).map (·.akm)).getD old.akmSuiteType
      mfp := takesMfp cfg elems || old.mfp } := by
  rcases parseKind_cases cfg elems with ⟨c, -, -, hrsn, -, hkind⟩ | ⟨c, -, -, hrsn, -, hkind⟩ |
    ⟨hrsn, -, hkind⟩
  · obtain ⟨wps, maybeWps, keep, hwps⟩ :=
      parseWps_rec cfg elems (some (48 :: UInt8.ofNat c.length :: c))
    cases hc : rtwParseWpa2Ie c with
    | none =>
      simp only [secOf, hkind, parseRsn, hc, hwps, takesMfp, hrsn, MfpOpt.offered]
      simp
    | some w =>
      simp only [secOf, hkind, parseRsn, hc, hwps, takesMfp, hrsn, Option.map_some,
        Option.getD_some]
      cases cfg.mfpOpt.offered <;> cases w.mfpOpt.offered <;> simp
  · obtain ⟨wps, maybeWps, keep, hwps⟩ :=
      parseWps_rec cfg elems (some (221 :: UInt8.ofNat c.length :: c))
    cases hc : rtwParseWpaIe c with
    | none =>
      simp only [secOf, hkind, parseWpa, hc, hwps, takesMfp, hrsn, MfpOpt.offered]
      simp
    | some w =>
      simp only [secOf, hkind, parseWpa, hc, hwps, takesMfp, hrsn, MfpOpt.offered]
      simp
  · obtain ⟨wps, maybeWps, keep, hwps⟩ := parseWps_rec cfg elems none
    simp only [secOf, hkind, hwps, takesMfp, hrsn, MfpOpt.offered]
    simp

theorem secOf_new (cfg : ApConfig) (elems : Elems) :
    (secOf cfg {} elems).akmSuiteType = ((rsnParsed cfg elems).map (·.akm)).getD 0 ∧
      (secOf cfg {} elems).mfp = takesMfp cfg elems := by
  have h := secOf_old cfg {} elems
  refine ⟨congrArg SecRec.akmSuiteType h, (congrArg SecRec.mfp h).trans ?_⟩
  exact Bool.or_false _

theorem parseWps_congr (cfg : ApConfig) (sec : SecRec) (wps maybeWps : Bool) (elems : Elems)
    (wpaIe : Option (List UInt8)) :
    parseWps cfg { sec with wps := wps, maybeWps := maybeWps } elems wpaIe =
      parseWps cfg sec elems wpaIe := rfl

theorem parseWps_accepts {sec : SecRec} {wpaIe : Option (List UInt8)}
    (h : (parseWps cfg sec elems wpaIe).2 = statsSuccessful) (hnone : wpaIe = none)
    (hap : (cfg.wpa || cfg.rsn) = true) : cfg.wpsBeaconIe = none ∨ RegistrarSelected cfg := by
  subst hnone
  cases hbeacon : cfg.wpsBeaconIe with
  | none => exact .inl rfl
  | some attrs =>
    refine .inr ⟨attrs, hbeacon, fun hsel => ?_⟩
    simp only [parseWps, hbeacon] at h
    rw [if_pos ⟨hap, hsel⟩] at h
    cases h

theorem parseKind_wps (cfg : ApConfig) (sec : SecRec) (wps maybeWps : Bool) (elems : Elems) :
    parseKind cfg { sec with wps := wps, maybeWps := maybeWps } elems =
      { parseKind cfg sec elems with
        sec := { (parseKind cfg sec elems).sec with wps := wps, maybeWps := maybeWps } } := by
  rcases parseKind_cases cfg elems with ⟨c, -, -, -, -, hkind⟩ | ⟨c, -, -, -, -, hkind⟩ |
    ⟨-, -, hkind⟩
  · rw [hkind, hkind, parseRsn, parseRsn]
    cases rtwParseWpa2Ie c <;> rfl
  · rw [hkind, hkind, parseWpa, parseWpa]
    cases rtwParseWpaIe c <;> rfl
  · rw [hkind, hkind]

theorem parseMfp_accepts {r : KindResult} (h : (parseMfp cfg r).2 = statsSuccessful) :
    MfpFits cfg.mfpOpt r.mfpOpt ∧ r.status = statsSuccessful ∧ (parseMfp cfg r).1 =
      if cfg.mfpOpt.offered ∧ r.mfpOpt.offered then { r.sec with mfp := true } else r.sec := by
  rw [parseMfp] at h ⊢
  by_cases hrefused : (cfg.mfpOpt = .required ∧ r.mfpOpt = .no) ∨ r.mfpOpt = .invalid
  · rw [if_pos hrefused] at h
    cases h
  · rw [if_neg hrefused] at h ⊢
    refine ⟨⟨fun hi => hrefused (.inr hi), fun hn => hrefused (.inl hn)⟩, ?_, ?_⟩
    · split at h <;> exact h
    · split <;> rfl

/-- The checks in order: the element, the management frame protection, the cached key, WPS. -/
theorem security_steps {authalg : AuthAlg} {old : SecRec}
    (h : (rtwApParseStaSecurityIe cfg env authalg old elems).2 = statsSuccessful) :
    let r := parseKind cfg { akmSuiteType := old.akmSuiteType, mfp := old.mfp } elems
    MfpFits cfg.mfpOpt r.mfpOpt ∧ r.status = statsSuccessful ∧
      rtwApParseStaSecurityIe cfg env authalg old elems = parseWps cfg
        (if cfg.mfpOpt.offered ∧ r.mfpOpt.offered then { r.sec with mfp := true } else r.sec)
        elems r.wpaIe := by
  intro r
  have hwps : parseKind cfg
      { akmSuiteType := old.akmSuiteType, wps := old.wps, maybeWps := old.maybeWps, mfp := old.mfp }
      elems =
      { r with sec := { r.sec with wps := old.wps, maybeWps := old.maybeWps } } :=
    parseKind_wps cfg { akmSuiteType := old.akmSuiteType, mfp := old.mfp } old.wps old.maybeWps
      elems
  simp only [rtwApParseStaSecurityIe, hwps] at h ⊢
  generalize hm : parseMfp cfg
    { r with sec := { r.sec with wps := old.wps, maybeWps := old.maybeWps } } = m at h ⊢
  by_cases hstatus : checkPmkid cfg env authalg m.1.akmSuiteType m.2 ≠ statsSuccessful
  · rw [if_pos hstatus] at h
    exact absurd h hstatus
  · rw [if_neg hstatus]
    have hm2 : m.2 = statsSuccessful := by
      rw [checkPmkid] at hstatus
      split at hstatus
      · exact absurd (by decide) hstatus
      · exact Decidable.not_not.1 hstatus
    rw [← hm] at hm2
    obtain ⟨hfits, hr, hsec⟩ := parseMfp_accepts hm2
    refine ⟨hfits, hr, ?_⟩
    rw [← hm, hsec]
    split
    · exact parseWps_congr cfg { r.sec with mfp := true } old.wps old.maybeWps elems r.wpaIe
    · exact parseWps_congr cfg r.sec old.wps old.maybeWps elems r.wpaIe

theorem security_accepts {authalg : AuthAlg} {old : SecRec}
    (h : (rtwApParseStaSecurityIe cfg env authalg old elems).2 = statsSuccessful) :
    (rtwApParseStaSecurityIe cfg env authalg old elems).1 = secOf cfg old elems ∧
      (kindUsed cfg elems = true → GoodElement cfg elems) ∧
      (kindUsed cfg elems = false → (cfg.wpa || cfg.rsn) = true →
        cfg.wpsBeaconIe = none ∨ RegistrarSelected cfg) := by
  obtain ⟨hfits, hstatus, heq⟩ := security_steps h
  refine ⟨by rw [heq]; rfl, ?_, ?_⟩
  · intro hused
    rcases parseKind_cases cfg elems with ⟨c, hrsn, hc, -, -, hkind⟩ | ⟨c, hwpa, hc, -, -, hkind⟩ |
      ⟨-, hnot, -⟩
    · rw [hkind, parseRsn] at hfits hstatus
      cases hw : rtwParseWpa2Ie c with
      | none =>
        rw [hw] at hstatus
        cases hstatus
      | some w =>
        simp only [hw] at hstatus hfits
        refine .inl ⟨hrsn, c, w, hc, hw, ?_, ?_, hfits⟩
        · intro hzero
          rw [if_pos hzero] at hstatus
          split at hstatus <;> cases hstatus
        · intro hzero
          rw [if_pos hzero] at hstatus
          cases hstatus
    · rw [hkind, parseWpa] at hfits hstatus
      cases hw : rtwParseWpaIe c with
      | none =>
        rw [hw] at hstatus
        cases hstatus
      | some gp =>
        obtain ⟨g, p⟩ := gp
        simp only [hw] at hstatus hfits
        refine .inr ⟨hwpa, c, g, p, hc, hw, ?_, ?_, hfits⟩
        · intro hzero
          rw [if_pos hzero] at hstatus
          split at hstatus <;> cases hstatus
        · intro hzero
          rw [if_pos hzero] at hstatus
          cases hstatus
    · rw [hnot] at hused
      cases hused
  · intro hunused hap
    rw [heq] at h
    rcases parseKind_cases cfg elems with ⟨c, -, -, -, hused, -⟩ | ⟨c, -, -, -, hused, -⟩ |
      ⟨-, -, hkind⟩
    · rw [hused] at hunused
      cases hunused
    · rw [hused] at hunused
      cases hunused
    · exact parseWps_accepts h (by rw [hkind]) hap

def recorded (sta : StaInfo) : SecRec × WmmRec × Bool := (sta.sec, sta.wmm, sta.ht)

def htOf (cfg : ApConfig) (elems : Elems) : Bool :=
  cfg.htOption && elems.htCapabilities.any (26 ≤ ·.length)

def finish (cfg : ApConfig) (sec : SecRec) (wmm : WmmRec) (elems : Elems) :
    SecRec × WmmRec × Bool :=
  (sec, { wmm with wme := wmm.wme || htOf cfg elems }, htOf cfg elems && !tkipUsed sec)

def recordOf (cfg : ApConfig) (frame : List UInt8) (elems : Elems) : SecRec × WmmRec × Bool :=
  finish cfg (secOf cfg {} elems) (rtwApParseStaWmmIe cfg {} (tlvIes frame) []) elems

theorem recorded_ht (cfg : ApConfig) (sta : StaInfo) (elems : Elems) :
    recorded (dropHtWithTkip (rtwApParseStaHtIe cfg sta elems)) =
      finish cfg sta.sec sta.wmm elems := by
  have hdrop : ∀ t : StaInfo,
      recorded (dropHtWithTkip t) = (t.sec, t.wmm, t.ht && !tkipUsed t.sec) := by
    intro t
    rw [dropHtWithTkip]
    cases hht : t.ht <;> cases htkip : tkipUsed t.sec <;> simp [recorded, hht]
  rw [hdrop, finish, htOf]
  cases hopt : cfg.htOption with
  | false => simp [rtwApParseStaHtIe, hopt]
  | true =>
    cases hcap : elems.htCapabilities with
    | none => simp [rtwApParseStaHtIe, hopt, hcap]
    | some c =>
      by_cases hlen : 26 ≤ c.length
      · simp [rtwApParseStaHtIe, hopt, hcap, hlen]
      · simp [rtwApParseStaHtIe, hopt, hcap, hlen]

theorem ite_passed {α : Type} {c : Prop} [Decidable c] {a b r : α} (hne : a ≠ r)
    (h : (if c then a else b) = r) : ¬ c ∧ b = r :=
  (ite_eq_iff.mp h).resolve_left fun ha => hne ha.2

theorem onAssocReq_success {sta : StaInfo} {frame behind : List UInt8}
    (h : (onAssocReq cfg env sta frame behind).2 = some statsSuccessful) :
    ∃ elems, rtwIeee80211ParseElems (tlvIes frame) = some elems ∧ elems.ssid = some cfg.ssid ∧
      (rtwApParseStaSecurityIe cfg env sta.authalg sta.sec elems).2 = statsSuccessful ∧
      recorded (onAssocReq cfg env sta frame behind).1 =
        finish cfg (rtwApParseStaSecurityIe cfg env sta.authalg sta.sec elems).1
          (rtwApParseStaWmmIe cfg sta.wmm (tlvIes frame) behind) elems := by
  generalize hres : onAssocReq cfg env sta frame behind = res at h ⊢
  rw [onAssocReq] at hres
  have hrefuse : ∀ {sta : StaInfo} {status : ℕ}, status ≠ statsSuccessful →
      ((sta, some status) : StaInfo × Option ℕ) ≠ res := by
    rintro sta status hne rfl
    exact hne (Option.some.inj h)
  have hsilent : ∀ {sta : StaInfo}, ((sta, none) : StaInfo × Option ℕ) ≠ res := by
    rintro sta rfl
    cases h
  obtain ⟨-, hres⟩ := ite_passed hsilent hres
  obtain ⟨-, hres⟩ := ite_passed hsilent hres
  obtain ⟨-, hres⟩ := ite_passed hsilent hres
  obtain ⟨t, ht⟩ : ∃ t, t = if sta.authSuccess = true then { sta with authSuccess := false }
      else { sta with assocSuccess := false } := ⟨_, rfl⟩
  have hauth : t.authalg = sta.authalg ∧ t.sec = sta.sec ∧ t.wmm = sta.wmm := by
    rw [ht]
    split <;> exact ⟨rfl, rfl, rfl⟩
  simp only [← ht] at hres
  by_cases hforce : env.forceAsocFail ≠ 0
  · rw [if_pos hforce] at hres
    exact absurd hres (hrefuse hforce)
  rw [if_neg hforce] at hres
  cases helems : rtwIeee80211ParseElems (tlvIes frame) with
  | none =>
    rw [helems] at hres
    exact absurd hres (hrefuse (by decide))
  | some elems =>
    simp only [helems] at hres
    obtain ⟨hssid, hres⟩ := ite_passed (hrefuse (by decide)) hres
    obtain ⟨-, hres⟩ := ite_passed (hrefuse (by decide)) hres
    by_cases hsec : (rtwApParseStaSecurityIe cfg env t.authalg t.sec elems).2 ≠ statsSuccessful
    · rw [if_pos hsec] at hres
      exact absurd hres (hrefuse hsec)
    rw [if_neg hsec] at hres
    obtain ⟨-, hres⟩ := ite_passed (hrefuse (by decide)) hres
    rw [hauth.1, hauth.2.1] at hsec
    refine ⟨elems, rfl, ?_, Decidable.not_not.1 hsec, ?_⟩
    · exact Decidable.not_not.1 fun hne => hssid (.inr (.inr hne))
    · rw [← hres, ← hauth.1, ← hauth.2.1, ← hauth.2.2]
      exact recorded_ht cfg _ elems

/-- Of an earlier request nothing is left that this one does not overwrite, and what is behind
the frame does not matter. -/
structure Fresh (cfg : ApConfig) (sta : StaInfo) (frame behind : List UInt8) (elems : Elems) :
    Prop where
  akm : (rsnParsed cfg elems).isSome = true ∨ sta.sec.akmSuiteType = 0
  mfp : takesMfp cfg elems = true ∨ sta.sec.mfp = false
  maxSpLen : cfg.qosOption = true ∧ (wmmQosInfo (tlvIes frame) behind).isSome = true ∨
    sta.wmm.maxSpLen = 0
  behind : cfg.qosOption = true → wmmQosInfo (tlvIes frame) behind = wmmQosInfo (tlvIes frame) []

theorem secOf_fresh (cfg : ApConfig) (old : SecRec) (elems : Elems) :
    secOf cfg old elems = secOf cfg {} elems ↔
      ((rsnParsed cfg elems).isSome = true ∨ old.akmSuiteType = 0) ∧
        (takesMfp cfg elems = true ∨ old.mfp = false) := by
  obtain ⟨hakm, hmfp⟩ := secOf_new cfg elems
  rw [secOf_old cfg old elems]
  constructor
  · intro h
    have hakm' := (congrArg SecRec.akmSuiteType h).trans hakm
    have hmfp' := (congrArg SecRec.mfp h).trans hmfp
    refine ⟨?_, ?_⟩
    · cases hr : rsnParsed cfg elems with
      | none =>
        rw [hr] at hakm'
        exact .inr hakm'
      | some w => exact .inl rfl
    · cases ht : takesMfp cfg elems with
      | true => exact .inl rfl
      | false =>
        rw [ht] at hmfp'
        exact .inr hmfp'
  · rintro ⟨ha, hm⟩
    have h₁ : ((rsnParsed cfg elems).map (·.akm)).getD old.akmSuiteType =
        (secOf cfg {} elems).akmSuiteType := by
      rw [hakm]
      cases hr : rsnParsed cfg elems with
      | none =>
        rw [hr] at ha
        exact ha.resolve_left nofun
      | some w => rfl
    have h₂ : (takesMfp cfg elems || old.mfp) = (secOf cfg {} elems).mfp := by
      rw [hmfp]
      rcases hm with hm | hm
      · rw [hm, Bool.true_or]
      · rw [hm, Bool.or_false]
    rw [h₁, h₂]

theorem wmm_fresh (cfg : ApConfig) (old : WmmRec) (ies behind : List UInt8) (ht : Bool) :
    ({ rtwApParseStaWmmIe cfg old ies behind with
        wme := (rtwApParseStaWmmIe cfg old ies behind).wme || ht } : WmmRec) =
      { rtwApParseStaWmmIe cfg {} ies [] with
        wme := (rtwApParseStaWmmIe cfg {} ies []).wme || ht } ↔
      (cfg.qosOption = true ∧ (wmmQosInfo ies behind).isSome = true ∨ old.maxSpLen = 0) ∧
        (cfg.qosOption = true → wmmQosInfo ies behind = wmmQosInfo ies []) := by
  cases hqos : cfg.qosOption with
  | false => simp [rtwApParseStaWmmIe, hqos]
  | true =>
    cases hb : wmmQosInfo ies behind with
    | none =>
      cases hn : wmmQosInfo ies [] with
      | none => simp [rtwApParseStaWmmIe, hqos, hb, hn]
      | some q => simp [rtwApParseStaWmmIe, hqos, hb, hn]
    | some q =>
      cases hn : wmmQosInfo ies [] with
      | none => simp [rtwApParseStaWmmIe, hqos, hb, hn]
      | some q' =>
        simp only [rtwApParseStaWmmIe, hqos, hb, hn, if_true]
        constructor
        · intro h
          have hq : q = q' := congrArg WmmRec.qosInfo h
          exact ⟨.inl ⟨trivial, rfl⟩, fun _ => congrArg some hq⟩
        · rintro ⟨-, h⟩
          obtain rfl : q = q' := Option.some.inj (h trivial)
          rfl

/-- What admission is for: the name of the network, security as the access point wants it, and
a record that says what this request said. -/
structure Sound (cfg : ApConfig) (frame : List UInt8) (elems : Elems) (sta : StaInfo) : Prop where
  ssid : elems.ssid = some cfg.ssid
  secure : cfg.wpa = true ∨ cfg.rsn = true → GoodElement cfg elems ∨ RegistrarSelected cfg
  recorded : recorded sta = recordOf cfg frame elems

/-- A request that is admitted is so soundly if and only if it has an element of an enabled kind
where one is wanted, or the access point has a WPS element at all, and the record is fresh. -/
theorem admission_sound (cfg : ApConfig) (env : Env) (sta : StaInfo) (frame behind : List UInt8)
    (h : (onAssocReq cfg env sta frame behind).2 = some statsSuccessful) :
    ∃ elems, rtwIeee80211ParseElems (tlvIes frame) = some elems ∧
      (Sound cfg frame elems (onAssocReq cfg env sta frame behind).1 ↔
        (cfg.wpa = true ∨ cfg.rsn = true →
          kindUsed cfg elems = true ∨ cfg.wpsBeaconIe.isSome = true) ∧
        Fresh cfg sta frame behind elems) := by
  obtain ⟨elems, helems, hssid, hsec, hrec⟩ := onAssocReq_success h
  obtain ⟨hsecOf, hgood, hnone⟩ := security_accepts hsec
  rw [hsecOf] at hrec
  have hfields : recorded (onAssocReq cfg env sta frame behind).1 = recordOf cfg frame elems ↔
      Fresh cfg sta frame behind elems := by
    have hs := secOf_fresh cfg sta.sec elems
    have hw := wmm_fresh cfg sta.wmm (tlvIes frame) behind (htOf cfg elems)
    rw [hrec, recordOf, finish, finish]
    constructor
    · intro heq
      obtain ⟨heqs, heqr⟩ := Prod.mk.inj heq
      obtain ⟨ha, hm⟩ := hs.1 heqs
      obtain ⟨hl, hb⟩ := hw.1 (Prod.mk.inj heqr).1
      exact ⟨ha, hm, hl, hb⟩
    · intro hfresh
      rw [hs.2 ⟨hfresh.akm, hfresh.mfp⟩, hw.2 ⟨hfresh.maxSpLen, hfresh.behind⟩]
  have hap : (cfg.wpa = true ∨ cfg.rsn = true) ↔ (cfg.wpa || cfg.rsn) = true := by simp
  refine ⟨elems, helems, ?_, ?_⟩
  · rintro ⟨-, hsecure, hr⟩
    refine ⟨fun hwants => ?_, hfields.1 hr⟩
    rcases hsecure hwants with hg | ⟨attrs, hattrs, -⟩
    · refine .inl ?_
      rcases hg with ⟨hrsn, c, -, hc, -⟩ | ⟨hwpa, c, -, -, hc, -⟩
      · rw [kindUsed, hrsn, hc]
        rfl
      · rw [kindUsed, hwpa, hc]
        exact Bool.or_true _
    · exact .inr (by rw [hattrs]; rfl)
  · rintro ⟨hkind, hfresh⟩
    refine ⟨hssid, fun hwants => ?_, hfields.2 hfresh⟩
    cases hused : kindUsed cfg elems with
    | true => exact .inl (hgood hused)
    | false =>
      rcases hnone hused (hap.1 hwants) with hbeacon | hsel
      · have := (hkind hwants).resolve_left (by rw [hused]; nofun)
        rw [hbeacon] at this
        cases this
      · exact .inr hsel

end Spec

section Requests

def ccmpAp : ApConfig where
  ssid := [97, 98, 99]
  wpa := false
  rsn := true
  wpaGroupCipher := 0
  wpaPairwiseCipher := 0
  wpa2GroupCipher := wpaCipherCcmp
  wpa2PairwiseCipher := wpaCipherCcmp
  mfpOpt := .optional
  authTypeSae := false
  wpsBeaconIe := none
  qosOption := true
  htOption := true

def request (ies : List UInt8) : List UInt8 :=
  List.replicate 28 0 ++ [0, 3, 97, 98, 99, 1, 1, 0x82] ++ ies

def ccmpRsn (cap : UInt8) : List UInt8 :=
  [48, 20, 1, 0, 0x00, 0x0f, 0xac, 4, 1, 0, 0x00, 0x0f, 0xac, 4, 1, 0, 0x00, 0x0f, 0xac, 2, cap, 0]

def wmm (qosInfo : UInt8) : List UInt8 := [221, 7, 0x00, 0x50, 0xf2, 0x02, 0x00, 0x01, qosInfo]

def authenticated : StaInfo := { authSuccess := true }

def associated : StaInfo :=
  (onAssocReq ccmpAp {} authenticated (request (ccmpRsn 0x80 ++ wmm 0x60)) []).1

theorem admission_sound_ccmp :
    ∃ elems, rtwIeee80211ParseElems (tlvIes (request (ccmpRsn 0))) = some elems ∧
      (Sound ccmpAp (request (ccmpRsn 0)) elems
          (onAssocReq ccmpAp {} authenticated (request (ccmpRsn 0)) []).1 ↔
        (ccmpAp.wpa = true ∨ ccmpAp.rsn = true →
          kindUsed ccmpAp elems = true ∨ ccmpAp.wpsBeaconIe.isSome = true) ∧
        Fresh ccmpAp authenticated (request (ccmpRsn 0)) [] elems) :=
  admission_sound ccmpAp {} authenticated (request (ccmpRsn 0)) [] (by decide +kernel)

/-- A request without an RSN element is admitted, and so is a second request without protection
whose record says that its management frames are protected. -/
theorem unsound_admissions :
    ((onAssocReq ccmpAp {} authenticated (request []) []).2 = some statsSuccessful ∧
      ¬ ∃ elems, rtwIeee80211ParseElems (tlvIes (request [])) = some elems ∧
        Sound ccmpAp (request []) elems
          (onAssocReq ccmpAp {} authenticated (request []) []).1) ∧
    ((onAssocReq ccmpAp {} associated (request (ccmpRsn 0)) []).2 = some statsSuccessful ∧
      ¬ ∃ elems, rtwIeee80211ParseElems (tlvIes (request (ccmpRsn 0))) = some elems ∧
        Sound ccmpAp (request (ccmpRsn 0)) elems
          (onAssocReq ccmpAp {} associated (request (ccmpRsn 0)) []).1) := by
  refine ⟨⟨by decide +kernel, ?_⟩, by decide +kernel, ?_⟩
  · rintro ⟨elems, helems, hsound⟩
    have hnone : rtwIeee80211ParseElems (tlvIes (request [])) =
        some { ssid := some [97, 98, 99] } := by decide +kernel
    obtain rfl := Option.some.inj (hnone.symm.trans helems)
    rcases hsound.secure (.inr rfl) with (⟨-, c, -, hc, -⟩ | ⟨hwpa, -⟩) | ⟨attrs, hattrs, -⟩
    · cases hc
    · cases hwpa
    · cases hattrs
  · rintro ⟨elems, helems, hsound⟩
    have hrsn : rtwIeee80211ParseElems (tlvIes (request (ccmpRsn 0))) =
        some { ssid := some [97, 98, 99], rsnIe := some ((ccmpRsn 0).drop 2) } := by
      decide +kernel
    obtain rfl := Option.some.inj (hrsn.symm.trans helems)
    have hstale : (recorded (onAssocReq ccmpAp {} associated (request (ccmpRsn 0)) []).1).1.mfp =
        true := by decide +kernel
    rw [hsound.recorded] at hstale
    revert hstale
    decide +kernel

end Requests

end Rtl8189.AssocReq
