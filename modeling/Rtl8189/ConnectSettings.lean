import Mathlib.Data.List.GetD
import Rtl8189.AssocReq
import Rtl8189.BlockModes
import Rtl8189.EventRun
import Rtl8189.KeyReadback

/-!
# Settings of a connection

`cfg80211_rtw_connect` and what it writes of the settings from which the association request is
built. What a request writes depends on the request only; what it leaves alone is that of an
earlier connection. The bytes behind the element string belong to the request, for the search of
the WPA element compares with them.
-/
namespace Rtl8189.ConnectSettings

open AssocReq (Bits MfpOpt Wpa2Ie rtwParseWpa2Ie rtwGetWpaCipherSuite suites wpaCipherNone
  wpaCipherWep40 wpaCipherWep104 wpaCipherTkip wpaCipherCcmp)

open BlockModes (Mem bytesAt)

open EventRun

open KeyReadback (EncryptStatus)

open PacketNumber (AuthAlgrthm)

/-! ## Lookups in an element string -/

section Lookups

variable (mem : Mem)

def ieLen (p : ℕ) : ℕ := (mem (p + 1)).toNat

def ieBytes (p : ℕ) : List UInt8 := bytesAt mem p (ieLen mem p + 2)

/-- The loop of `rtw_get_ie` at the offset `i`; no more rounds than bytes. -/
def getIeFrom (index : UInt8) (pbuf limit : ℕ) : ℕ → ℕ → Option ℕ
  | 0, _ => none
  | n + 1, i =>
    if mem (pbuf + i) = index then some (pbuf + i)
    else if limit ≤ i + (ieLen mem (pbuf + i) + 2) then none
    else getIeFrom index pbuf limit n (i + (ieLen mem (pbuf + i) + 2))

def rtwGetIe (index : UInt8) (pbuf limit : ℕ) : Option ℕ :=
  if limit < 1 then none else getIeFrom mem index pbuf limit limit 0

def wpaOuiType : List UInt8 := [0x00, 0x50, 0xf2, 0x01]

/-- The loop of `rtw_get_wpa_ie` at `pbuf`. -/
def getWpaIeFrom (limit : ℕ) : ℕ → ℕ → Option ℕ
  | 0, _ => none
  | n + 1, pbuf =>
    match rtwGetIe mem 221 pbuf (limit - pbuf) with
    | none => none
    | some p =>
      if bytesAt mem (p + 2) 4 = wpaOuiType ∧ le16 (bytesAt mem (p + 6) 2) 0 = 1 then some p
      else if limit ≤ p + 2 + ieLen mem p then none
      else getWpaIeFrom limit n (p + 2 + ieLen mem p)

def rtwGetWpaIe (limit : ℕ) : Option ℕ := getWpaIeFrom mem limit limit 0

def rtwGetWpa2Ie (limit : ℕ) : Option ℕ := rtwGetIe mem 48 0 limit

def maxIeSz : ℕ := 768

/-- The loop of `rtw_get_wps_ie`, `rtw_get_p2p_ie` and `rtw_get_wfd_ie`. -/
def getVendorIeFrom (oui : List UInt8) (inLen : ℕ) : ℕ → ℕ → Option ℕ
  | 0, _ => none
  | n + 1, cnt =>
    if cnt + 1 + 4 < inLen then
      if maxIeSz ≤ cnt + 1 + 4 then none
      else if mem cnt = 221 ∧ bytesAt mem (cnt + 2) 4 = oui then some cnt
      else getVendorIeFrom oui inLen n (cnt + (ieLen mem cnt + 2))
    else none

def rtwGetWpsIe (inLen : ℕ) : Option ℕ :=
  getVendorIeFrom mem [0x00, 0x50, 0xf2, 0x04] inLen inLen 0

def rtwGetP2pIe (inLen : ℕ) : Option ℕ :=
  getVendorIeFrom mem [0x50, 0x6f, 0x9a, 0x09] inLen inLen 0

def rtwGetWfdIe (inLen : ℕ) : Option ℕ :=
  getVendorIeFrom mem [0x50, 0x6f, 0x9a, 0x0a] inLen inLen 0

end Lookups

structure WpaIe where
  groupCipher : Bits
  pairwiseCipher : Bits
  ok : Bool

/-- `rtw_parse_wpa_ie` from the group cipher on. Where it fails, the ciphers read so far stay. -/
def rtwParseWpaIe (pos : List UInt8) : WpaIe :=
  if 0 < pos.length ∧ pos.length < 4 then ⟨0, 0, false⟩
  else
    let group := if 4 ≤ pos.length then rtwGetWpaCipherSuite (pos.take 4) else 0
    let pos := pos.drop 4
    if 2 ≤ pos.length then
      let count := le16 pos 0
      let pos := pos.drop 2
      if count = 0 ∨ pos.length < count * 4 then ⟨group, 0, false⟩
      else ⟨group, (suites 4 count pos).foldl (fun m s => m ||| rtwGetWpaCipherSuite s) 0, true⟩
    else if pos.length = 1 then ⟨group, 0, false⟩
    else ⟨group, 0, true⟩

/-! ## Requests -/

inductive WlanAuth where
  | open
  | sae
  deriving DecidableEq

/-- `NDIS_802_11_AUTHENTICATION_MODE`, of what a request sets. -/
inductive AuthMode where
  | open
  | wpaPsk
  | wpa2Psk
  deriving DecidableEq

inductive AuthType where
  | openSystem
  | sharedKey
  | sae
  | automatic
  | other
  deriving DecidableEq

inductive Suite where
  | zero
  | none
  | wep40
  | wep104
  | tkip
  | ccmp
  | other
  deriving DecidableEq

inductive Akm where
  | ieee8021X
  | psk
  | other
  deriving DecidableEq

/-- `cfg80211_connect_params`: the first of the pairwise ciphers and of the AKM suites, if any.
A missing key has length 0. -/
structure ConnectParams where
  ssidLen : ℕ
  wpaVersions : ℕ := 0
  authType : AuthType := .openSystem
  ie : List UInt8 := []
  behind : List UInt8 := []
  ciphersPairwise : Option Suite := none
  cipherGroup : Suite := .zero
  akmSuite : Option Akm := none
  keyLen : ℕ := 0
  keyIdx : ℕ := 0

/-- How a request meets the system. `reset` says that a reset of the security state, which a
disconnection leaves to the command thread, runs before the settings are written. -/
structure Circumstances where
  block : Bool := false
  reset : Bool := false
  wakeupOk : Bool := true
  bufOk : Bool := true
  p2pOk : Bool := true
  wfdOk : Bool := true
  wepOk : Bool := true
  setKeyOk : Bool := true
  connectOk : Bool := true
  linking : Bool := true

namespace ConnectParams

variable (r : ConnectParams)

def mem : Mem := fun p => (r.ie ++ r.behind).getD p 0

def wpaIe : Option (ℕ × WpaIe) :=
  match rtwGetWpaIe r.mem r.ie.length with
  | none => none
  | some p =>
    if 0 < ieLen r.mem p then
      some (p, rtwParseWpaIe (bytesAt r.mem (p + 8) (ieLen r.mem p - 6)))
    else none

def wpaAccepted : Option ℕ :=
  match r.wpaIe with
  | some (p, w) => if w.ok then some p else none
  | none => none

def rsnIe : Option (ℕ × Wpa2Ie) :=
  match rtwGetWpa2Ie r.mem r.ie.length with
  | none => none
  | some p =>
    if 0 < ieLen r.mem p then
      (rtwParseWpa2Ie (bytesAt r.mem (p + 2) (ieLen r.mem p))).map fun w => (p, w)
    else none

def rsnAccepted : Option ℕ := r.rsnIe.map Prod.fst

def orNone (cipher : Bits) : Bits := if cipher = 0 then wpaCipherNone else cipher

def groupCipher : Bits :=
  orNone (match r.rsnIe, r.wpaIe with
    | some (_, w), _ => w.groupCipher
    | none, some (_, w) => w.groupCipher
    | none, none => 0)

def pairwiseCipher : Bits :=
  orNone (match r.rsnIe, r.wpaIe with
    | some (_, w), _ => w.pairwiseCipher
    | none, some (_, w) => w.pairwiseCipher
    | none, none => 0)

def mfpOpt : MfpOpt :=
  match r.rsnIe with
  | some (_, w) => w.mfpOpt
  | none => .no

def wpsIe : Option ℕ := rtwGetWpsIe r.mem r.ie.length
def p2pIe : Option ℕ := rtwGetP2pIe r.mem r.ie.length
def wfdIe : Option ℕ := rtwGetWfdIe r.mem r.ie.length

end ConnectParams

/-! ## The security state -/

structure Keys where
  authAlgrthm : AuthAlgrthm := .open
  authAlg : WlanAuth := .open
  ndisauthtype : AuthMode := .open
  ndisencryptstatus : EncryptStatus := .encryptionDisabled
  privacyAlgrthm : Encrypt := .noPrivacy
  grpPrivacy : Encrypt := .noPrivacy
  deriving DecidableEq

structure State where
  keys : Keys := {}
  supplicantIe : List UInt8 := List.replicate 256 0
  mfpOpt : MfpOpt := .no
  rsnAkmSuiteType : ℕ := 0
  wpsIe : List UInt8 := List.replicate 512 0
  wpsIeLen : ℕ := 0
  underWps : Bool := false
  p2pAssocReqIe : Option (List UInt8) := none
  wfdAssocReqIe : Option (List UInt8) := none
  linked : Bool := false

/-- `rtw_reset_securitypriv`: the elements for P2P and WFD are kept elsewhere. -/
def rtwResetSecuritypriv (s : State) : State :=
  if s.keys.authAlgrthm = .ieee8021X then
    { underWps := s.underWps
      p2pAssocReqIe := s.p2pAssocReqIe
      wfdAssocReqIe := s.wfdAssocReqIe
      linked := s.linked }
  else { s with keys := { authAlg := s.keys.authAlg } }

/-- `_rtw_disconnect`, without the reset that it leaves to the command thread. -/
def rtwDisconnect (s : State) : State := { s with underWps := false, linked := false }

namespace Keys

variable (k : Keys)

def setWpaVersion (wpaVersions : ℕ) : Keys :=
  if wpaVersions = 0 then { k with ndisauthtype := .open }
  else if wpaVersions &&& 3 ≠ 0 then { k with ndisauthtype := .wpaPsk }
  else k

def setAuthType : AuthType → Keys
  | .sae => { k with authAlg := .sae }
  | .automatic => { k with authAlgrthm := .auto }
  | .openSystem =>
    { k with authAlgrthm := if k.ndisauthtype = .open then .open else .ieee8021X }
  | .sharedKey => { k with authAlgrthm := .shared, ndisencryptstatus := .encryption1Enabled }
  | .other => { k with authAlgrthm := .open }

def profile : Suite → Option (Encrypt × EncryptStatus)
  | .zero | .none => some (.noPrivacy, .encryptionDisabled)
  | .wep40 => some (.wep40, .encryption1Enabled)
  | .wep104 => some (.wep104, .encryption1Enabled)
  | .tkip => some (.tkip, .encryption2Enabled)
  | .ccmp => some (.aes, .encryption3Enabled)
  | .other => none

/-- `rtw_cfg80211_set_cipher`, and whether it returns 0. -/
def setCipher (cipher : Suite) (ucast : Bool) : Keys × Bool :=
  match profile cipher with
  | none => (k, false)
  | some (alg, status) =>
    if ucast then ({ k with privacyAlgrthm := alg, ndisencryptstatus := status }, true)
    else if cipher = .zero then ({ k with grpPrivacy := alg, ndisencryptstatus := status }, true)
    else ({ k with grpPrivacy := alg }, true)

/-- The `switch` on a cipher of the elements. -/
def elementCipher (cipher : Bits) : Option (Encrypt × EncryptStatus) :=
  if cipher = wpaCipherNone then some (.noPrivacy, .encryptionDisabled)
  else if cipher = wpaCipherWep40 then some (.wep40, .encryption1Enabled)
  else if cipher = wpaCipherTkip then some (.tkip, .encryption2Enabled)
  else if cipher = wpaCipherCcmp then some (.aes, .encryption3Enabled)
  else if cipher = wpaCipherWep104 then some (.wep104, .encryption1Enabled)
  else none

def setGroup (cipher : Bits) : Keys :=
  match elementCipher cipher with
  | some (alg, status) => { k with grpPrivacy := alg, ndisencryptstatus := status }
  | none => k

def setPairwise (cipher : Bits) : Keys :=
  match elementCipher cipher with
  | some (alg, status) => { k with privacyAlgrthm := alg, ndisencryptstatus := status }
  | none => k

/-- What `rtw_cfg80211_set_wpa_ie` writes of the keys. -/
def setElements (r : ConnectParams) : Keys :=
  let k := if r.wpaAccepted.isSome then
    { k with authAlgrthm := .ieee8021X, ndisauthtype := .wpaPsk } else k
  let k := if r.rsnAccepted.isSome then
    { k with authAlgrthm := .ieee8021X, ndisauthtype := .wpa2Psk } else k
  (k.setGroup r.groupCipher).setPairwise r.pairwiseCipher

/-- The part for a WEP key, with `rtw_set_802_11_add_wep`. -/
def setWep (r : ConnectParams) (c : Circumstances) : Keys × Bool :=
  if r.keyLen = 0 then (k, true)
  else if 4 < r.keyIdx ∨ ¬ c.wepOk then (k, false)
  else
    let k := if 5 < r.keyLen then { k with privacyAlgrthm := .wep104, grpPrivacy := .wep104 } else k
    if 4 ≤ r.keyIdx then (k, false)
    else ({ k with privacyAlgrthm := if 5 < r.keyLen then .wep104 else .wep40 }, c.setKeyOk)

def setKeyMgt : Option Akm → Keys
  | some .ieee8021X | some .psk => { k with authAlgrthm := .ieee8021X }
  | _ => k

/-- `rtw_set_802_11_authentication_mode` -/
def setAuthenticationMode : Keys :=
  if k.ndisauthtype = .open then k else { k with authAlgrthm := .ieee8021X }

end Keys

def Akm.suiteType : Akm → Option ℕ
  | .ieee8021X => some 1
  | .psk => some 2
  | .other => none

def putFront (buf bytes : List UInt8) : List UInt8 := bytes ++ buf.drop bytes.length

section Requests

-- the chip has Miracast, and the driver does not build the WFD elements itself
variable (storesWfd : Bool)

namespace State

variable (s : State) (r : ConnectParams) (c : Circumstances)

def storeSupplicant (p : Option ℕ) : State :=
  match p with
  | some p => { s with supplicantIe := putFront s.supplicantIe (ieBytes r.mem p) }
  | none => s

def maxWpsIeLen : ℕ := 512

def storeWps : State :=
  match r.wpsIe with
  | some p =>
    let len := min (ieLen r.mem p + 2) maxWpsIeLen
    { s with wpsIeLen := len, wpsIe := putFront s.wpsIe (bytesAt r.mem p len), underWps := true }
  | none => { s with underWps := false }

def storeWfd : State :=
  match r.wfdIe with
  | some p =>
    if storesWfd then
      { s with wfdAssocReqIe := if c.wfdOk then some (ieBytes r.mem p) else none }
    else s
  | none => s

/-- Without memory for the P2P element the WFD element is not looked for. -/
def storeP2p : State :=
  match r.p2pIe with
  | some p =>
    if c.p2pOk then storeWfd storesWfd { s with p2pAssocReqIe := some (ieBytes r.mem p) } r c
    else { s with p2pAssocReqIe := none }
  | none => storeWfd storesWfd s r c

end State

def rtwCfg80211SetWpaIe (r : ConnectParams) (c : Circumstances) (s : State) : State × Bool :=
  if r.ie = [] then ({ s with underWps := false }, true)
  else if 1024 < r.ie.length ∨ ¬ c.bufOk ∨ r.ie.length < 4 then
    ({ s with underWps := false }, false)
  else
    let s := (s.storeSupplicant r r.wpaAccepted).storeSupplicant r r.rsnAccepted
    let s := { s with keys := s.keys.setElements r }
    if r.mfpOpt = .invalid then ({ s with underWps := false }, false)
    else (({ s with mfpOpt := r.mfpOpt }.storeWps r).storeP2p storesWfd r c, true)

def prepared (c : Circumstances) (s : State) : State :=
  let s := if s.linked then rtwDisconnect s else s
  if c.reset then rtwResetSecuritypriv s else s

/-- `cfg80211_rtw_connect`, and whether it returns 0. -/
def connect (r : ConnectParams) (c : Circumstances) (s : State) : State × Bool :=
  if c.block then (s, false)
  else
    let s := prepared c s
    if r.ssidLen = 0 ∨ 32 < r.ssidLen ∨ ¬ c.wakeupOk then (s, false)
    else
      let keys := (({} : Keys).setWpaVersion r.wpaVersions).setAuthType r.authType
      match rtwCfg80211SetWpaIe storesWfd r c { s with keys := keys } with
      | (s, false) => (s, false)
      | (s, true) =>
        match (match r.ciphersPairwise with
          | some cipher => s.keys.setCipher cipher true
          | none => (s.keys, true)) with
        | (keys, false) => ({ s with keys := keys }, false)
        | (keys, true) =>
          match keys.setWep r c with
          | (keys, false) => ({ s with keys := keys }, false)
          | (keys, true) =>
            match keys.setCipher r.cipherGroup false with
            | (keys, false) => ({ s with keys := keys }, false)
            | (keys, true) =>
              let s := { s with
                keys := (keys.setKeyMgt r.akmSuite).setAuthenticationMode
                rsnAkmSuiteType := (r.akmSuite.bind Akm.suiteType).getD s.rsnAkmSuiteType }
              if c.connectOk then ({ s with linked := c.linking }, true) else (s, false)

/-- `cfg80211_rtw_join_ibss`; `leaves` says that another network is left first. -/
def joinIbss (ssidLen : ℕ) (wakeupOk leaves linking : Bool) (s : State) : State :=
  if ssidLen = 0 ∨ 32 < ssidLen ∨ ¬ wakeupOk then s
  else
    let s := { s with keys := ({ authAlg := s.keys.authAlg } : Keys).setAuthType .openSystem }
    let s := if leaves then rtwDisconnect s else s
    { s with linked := s.linked || linking }

/-- The requests, and what happens between them: the reset of the security state after a
disconnection or a failed join, the start of the authentication with a cached PMKID, and the end
of a join. -/
inductive Event where
  | connect (r : ConnectParams) (c : Circumstances)
  | joinIbss (ssidLen : ℕ) (wakeupOk leaves linking : Bool)
  | disconnect
  | reset
  | authOpen
  | joined
  | joinFailed

def step (s : State) : Event → State
  | .connect r c => (connect storesWfd r c s).1
  | .joinIbss ssidLen wakeupOk leaves linking => joinIbss ssidLen wakeupOk leaves linking s
  | .disconnect => rtwDisconnect s
  | .reset => rtwResetSecuritypriv s
  | .authOpen => { s with keys := { s.keys with authAlg := .open } }
  | .joined => { s with wpsIeLen := 0, linked := true }
  | .joinFailed => { s with linked := false }

def after (h : List Event) : State := run (step storesWfd) {} h

end Requests

/-! ## What the association request is built from -/

/-- Of the supplicant element as many bytes as its length byte says. -/
def storedElement (buf : List UInt8) : List UInt8 := buf.take (byteAt buf 1 + 2)

structure Settings where
  keys : Keys
  supplicantIe : List UInt8
  mfpOpt : MfpOpt
  rsnAkmSuiteType : ℕ
  underWps : Bool
  wpsIe : List UInt8
  p2pAssocReqIe : Option (List UInt8)
  wfdAssocReqIe : Option (List UInt8)
  deriving DecidableEq

def State.settings (s : State) : Settings where
  keys := s.keys
  supplicantIe := storedElement s.supplicantIe
  mfpOpt := s.mfpOpt
  rsnAkmSuiteType := s.rsnAkmSuiteType
  underWps := s.underWps
  wpsIe := s.wpsIe.take s.wpsIeLen
  p2pAssocReqIe := s.p2pAssocReqIe
  wfdAssocReqIe := s.wfdAssocReqIe

/-- Bytes from the element string to a buffer of `size` bytes. -/
structure Copy where
  start : ℕ
  len : ℕ
  size : ℕ

def Copy.Inside (total : ℕ) (cp : Copy) : Prop := cp.start + cp.len ≤ total ∧ cp.len ≤ cp.size

instance (total : ℕ) : DecidablePred (Copy.Inside total) :=
  fun _ => inferInstanceAs (Decidable (_ ∧ _))

section Copies

variable (r : ConnectParams) (storesWfd : Bool) (c : Circumstances)

/-- An element at `p`, to a buffer that is as large as `size` says. -/
def elementCopy (size : ℕ → ℕ) (p : Option ℕ) : List Copy :=
  match p with
  | some p => [⟨p, ieLen r.mem p + 2, size (ieLen r.mem p + 2)⟩]
  | none => []

def wpsCopy : List Copy :=
  match r.wpsIe with
  | some p => [⟨p, min (ieLen r.mem p + 2) State.maxWpsIeLen, State.maxWpsIeLen⟩]
  | none => []

def wfdCopy : List Copy :=
  if storesWfd ∧ c.wfdOk then elementCopy r id r.wfdIe else []

/-- The copies of a request that returns 0. -/
def copies : List Copy :=
  if r.ie = [] then []
  else ⟨0, r.ie.length, r.ie.length⟩ :: (elementCopy r (fun _ => 256) r.wpaAccepted ++
    elementCopy r (fun _ => 256) r.rsnAccepted ++ wpsCopy r ++
    (if r.p2pIe.isSome ∧ ¬ c.p2pOk then []
      else elementCopy r id r.p2pIe ++ wfdCopy r storesWfd c))

end Copies

/-! ## What is left from before -/

section Kept

variable (storesWfd : Bool) (r : ConnectParams)

structure SameBefore (c₁ c₂ : Circumstances) (s₁ s₂ : State) : Prop where
  supplicant : r.wpaAccepted = none → r.rsnAccepted = none →
    storedElement s₁.supplicantIe = storedElement s₂.supplicantIe
  mfp : r.ie = [] → s₁.mfpOpt = s₂.mfpOpt
  akm : r.akmSuite.bind Akm.suiteType = none → s₁.rsnAkmSuiteType = s₂.rsnAkmSuiteType
  wps : r.wpsIe = none → s₁.wpsIe.take s₁.wpsIeLen = s₂.wpsIe.take s₂.wpsIeLen
  p2p : if r.p2pIe.isSome then c₁.p2pOk = c₂.p2pOk else s₁.p2pAssocReqIe = s₂.p2pAssocReqIe
  wfd : if r.wfdIe.isSome ∧ storesWfd ∧ (r.p2pIe.isSome → c₁.p2pOk) then c₁.wfdOk = c₂.wfdOk
    else s₁.wfdAssocReqIe = s₂.wfdAssocReqIe

def Ends (p : Option ℕ) : Prop := ∀ i ∈ p, i + ieLen r.mem i + 2 ≤ r.ie.length

/-- The elements that are found end inside the string, and the accepted ones are not of the
greatest length. -/
structure WellFormed (c : Circumstances) : Prop where
  wpa : Ends r r.wpaAccepted ∧ ∀ i ∈ r.wpaAccepted, ieLen r.mem i ≠ 255
  rsn : Ends r r.rsnAccepted ∧ ∀ i ∈ r.rsnAccepted, ieLen r.mem i ≠ 255
  wps : Ends r r.wpsIe
  p2p : c.p2pOk → Ends r r.p2pIe
  wfd : storesWfd → c.wfdOk → (r.p2pIe.isSome → c.p2pOk) → Ends r r.wfdIe

end Kept

/-! ## What a request writes -/

section Written

variable {storesWfd : Bool} {r : ConnectParams} {c : Circumstances} {s s' : State}

theorem length_ieBytes (mem : Mem) (p : ℕ) : (ieBytes mem p).length = ieLen mem p + 2 :=
  BlockModes.length_bytesAt mem p _

theorem storedElement_putFront (mem : Mem) (p : ℕ) (buf : List UInt8) :
    storedElement (putFront buf (ieBytes mem p)) = ieBytes mem p := by
  have hlen : byteAt (putFront buf (ieBytes mem p)) 1 = ieLen mem p := by
    rw [byteAt, putFront, List.getD_append _ _ _ _ (by rw [length_ieBytes]; omega), ieBytes,
      BlockModes.bytesAt_getD _ _ (by omega)]
    rfl
  rw [storedElement, hlen, ← length_ieBytes, putFront, List.take_left]

theorem lookups_empty (h : r.ie = []) : r.wpaIe = none ∧ r.rsnIe = none ∧ r.wpsIe = none ∧
    r.p2pIe = none ∧ r.wfdIe = none := by
  unfold ConnectParams.wpaIe ConnectParams.rsnIe ConnectParams.wpsIe ConnectParams.p2pIe
    ConnectParams.wfdIe
  rw [h]
  exact ⟨rfl, rfl, rfl, rfl, rfl⟩

def p2pAfter (r : ConnectParams) (c : Circumstances) (s : State) : Option (List UInt8) :=
  match r.p2pIe with
  | some p => if c.p2pOk then some (ieBytes r.mem p) else none
  | none => s.p2pAssocReqIe

def wfdAfter (storesWfd : Bool) (r : ConnectParams) (c : Circumstances) (s : State) :
    Option (List UInt8) :=
  match r.wfdIe with
  | some p =>
    if storesWfd ∧ (r.p2pIe.isSome → c.p2pOk) then
      if c.wfdOk then some (ieBytes r.mem p) else none
    else s.wfdAssocReqIe
  | none => s.wfdAssocReqIe

structure ElementsEffect (storesWfd : Bool) (r : ConnectParams) (c : Circumstances)
    (s s' : State) : Prop where
  keys : s'.keys = if r.ie = [] then s.keys else s.keys.setElements r
  supplicant : s'.supplicantIe =
    ((s.storeSupplicant r r.wpaAccepted).storeSupplicant r r.rsnAccepted).supplicantIe
  mfp : s'.mfpOpt = if r.ie = [] then s.mfpOpt else r.mfpOpt
  akm : s'.rsnAkmSuiteType = s.rsnAkmSuiteType
  underWps : s'.underWps = r.wpsIe.isSome
  wps : s'.wpsIe.take s'.wpsIeLen = match r.wpsIe with
    | some p => bytesAt r.mem p (min (ieLen r.mem p + 2) State.maxWpsIeLen)
    | none => s.wpsIe.take s.wpsIeLen
  p2p : s'.p2pAssocReqIe = p2pAfter r c s
  wfd : s'.wfdAssocReqIe = wfdAfter storesWfd r c s

variable (storesWfd r c) in
theorem storeP2p_frame (t : State) : ∃ p2p wfd, t.storeP2p storesWfd r c =
    { t with p2pAssocReqIe := p2p, wfdAssocReqIe := wfd } := by
  have hwfd : ∀ t : State, ∃ wfd, t.storeWfd storesWfd r c = { t with wfdAssocReqIe := wfd } := by
    intro t
    unfold State.storeWfd
    split
    · split
      · exact ⟨_, rfl⟩
      · exact ⟨t.wfdAssocReqIe, rfl⟩
    · exact ⟨t.wfdAssocReqIe, rfl⟩
  unfold State.storeP2p
  split
  · split
    · obtain ⟨wfd, h⟩ := hwfd { t with p2pAssocReqIe := some (ieBytes r.mem _) }
      exact ⟨_, wfd, h⟩
    · exact ⟨none, t.wfdAssocReqIe, rfl⟩
  · obtain ⟨wfd, h⟩ := hwfd t
    exact ⟨t.p2pAssocReqIe, wfd, h⟩

theorem storeP2p_p2p (t : State) : (t.storeP2p storesWfd r c).p2pAssocReqIe = p2pAfter r c t := by
  have hwfd : ∀ t : State, (t.storeWfd storesWfd r c).p2pAssocReqIe = t.p2pAssocReqIe := by
    intro t
    unfold State.storeWfd
    split
    · split <;> rfl
    · rfl
  unfold State.storeP2p p2pAfter
  cases r.p2pIe with
  | none => exact hwfd t
  | some p =>
    dsimp only
    split
    · exact hwfd _
    · rfl

theorem storeP2p_wfd (t : State) :
    (t.storeP2p storesWfd r c).wfdAssocReqIe = wfdAfter storesWfd r c t := by
  have hwfd : ∀ t : State, (r.p2pIe.isSome → c.p2pOk) →
      (t.storeWfd storesWfd r c).wfdAssocReqIe = wfdAfter storesWfd r c t := by
    intro t hmem
    unfold State.storeWfd wfdAfter
    cases r.wfdIe with
    | none => rfl
    | some p =>
      dsimp only
      by_cases hstores : storesWfd = true
      · have hboth : storesWfd = true ∧ (r.p2pIe.isSome → c.p2pOk) := ⟨hstores, hmem⟩
        rw [if_pos hstores, if_pos hboth]
      · rw [if_neg hstores, if_neg fun h => hstores h.1]
  unfold State.storeP2p
  cases hp2p : r.p2pIe with
  | none => exact hwfd t (by rw [hp2p]; exact nofun)
  | some p =>
    dsimp only
    by_cases hok : c.p2pOk = true
    · rw [if_pos hok]
      exact hwfd _ fun _ => hok
    · rw [if_neg hok, wfdAfter]
      split
      · rw [if_neg fun h => hok (h.2 (by rw [hp2p]; rfl))]
      · rfl

theorem storeSupplicant_frame (t : State) (p : Option ℕ) :
    ∃ buf, t.storeSupplicant r p = { t with supplicantIe := buf } := by
  cases p with
  | none => exact ⟨t.supplicantIe, rfl⟩
  | some p => exact ⟨_, rfl⟩

theorem storeWps_frame (t : State) : ∃ len ie, t.storeWps r =
      { t with wpsIeLen := len, wpsIe := ie, underWps := r.wpsIe.isSome } ∧
    ie.take len = match r.wpsIe with
      | some p => bytesAt r.mem p (min (ieLen r.mem p + 2) State.maxWpsIeLen)
      | none => t.wpsIe.take t.wpsIeLen := by
  unfold State.storeWps
  cases r.wpsIe with
  | none => exact ⟨t.wpsIeLen, t.wpsIe, rfl, rfl⟩
  | some p =>
    refine ⟨_, _, rfl, ?_⟩
    have hlen := BlockModes.length_bytesAt r.mem p (min (ieLen r.mem p + 2) State.maxWpsIeLen)
    rw [putFront]
    nth_rewrite 1 [← hlen]
    exact List.take_left

theorem setWpaIe_effect (h : rtwCfg80211SetWpaIe storesWfd r c s = (s', true)) :
    ElementsEffect storesWfd r c s s' := by
  unfold rtwCfg80211SetWpaIe at h
  by_cases hie : r.ie = []
  · obtain ⟨hwpa, hrsn, hwps, hp2p, hwfd⟩ := lookups_empty hie
    rw [if_pos hie] at h
    obtain rfl := (Prod.mk.inj h).1
    constructor
    · rw [if_pos hie]
    · rw [ConnectParams.wpaAccepted, ConnectParams.rsnAccepted, hwpa, hrsn]
      rfl
    · rw [if_pos hie]
    · rfl
    · rw [hwps]
      rfl
    · rw [hwps]
    · rw [p2pAfter, hp2p]
    · rw [wfdAfter, hwfd]
  · rw [if_neg hie] at h
    split_ifs at h with hbad hmfp
    · exact nomatch (Prod.mk.inj h).2
    · exact nomatch (Prod.mk.inj h).2
    obtain ⟨buf, hbuf⟩ := storeSupplicant_frame (r := r) s r.wpaAccepted
    obtain ⟨buf', hbuf'⟩ :=
      storeSupplicant_frame (r := r) (s.storeSupplicant r r.wpaAccepted) r.rsnAccepted
    rw [hbuf] at hbuf'
    have hs' := (Prod.mk.inj h).1.symm
    rw [hbuf, hbuf'] at hs'
    obtain ⟨len, ie, hwps, htake⟩ := storeWps_frame (r := r)
      ({ s with keys := s.keys.setElements r, supplicantIe := buf', mfpOpt := r.mfpOpt } : State)
    rw [hwps] at hs'
    obtain ⟨p2p, wfd, hframe⟩ := storeP2p_frame storesWfd r c
      ({ s with
        keys := s.keys.setElements r
        supplicantIe := buf'
        mfpOpt := r.mfpOpt
        wpsIeLen := len
        wpsIe := ie
        underWps := r.wpsIe.isSome } : State)
    have hafter := hs'.trans hframe
    constructor
    · rw [if_neg hie, hafter]
    · rw [hafter, hbuf, hbuf']
    · rw [if_neg hie, hafter]
    · rw [hafter]
    · rw [hafter]
    · rw [hafter]
      exact htake
    · rw [hs']
      exact storeP2p_p2p _
    · rw [hs']
      exact storeP2p_wfd _

def wepKeys (r : ConnectParams) (k : Keys) : Keys :=
  if r.keyLen = 0 then k
  else if 5 < r.keyLen then { k with privacyAlgrthm := .wep104, grpPrivacy := .wep104 }
  else { k with privacyAlgrthm := .wep40 }

theorem setWep_keys {k k' : Keys} (h : k.setWep r c = (k', true)) : k' = wepKeys r k := by
  unfold Keys.setWep at h
  unfold wepKeys
  by_cases hkey : r.keyLen = 0
  · rw [if_pos hkey] at h ⊢
    exact (Prod.mk.inj h).1.symm
  · rw [if_neg hkey] at h ⊢
    dsimp only at h
    split at h
    · exact nomatch (Prod.mk.inj h).2
    split at h
    · exact nomatch (Prod.mk.inj h).2
    rw [← (Prod.mk.inj h).1]
    split <;> rfl

def keysOf (r : ConnectParams) : Keys :=
  let k := (({} : Keys).setWpaVersion r.wpaVersions).setAuthType r.authType
  let k := if r.ie = [] then k else k.setElements r
  let k := match r.ciphersPairwise with
    | some cipher => (k.setCipher cipher true).1
    | none => k
  let k := ((wepKeys r k).setCipher r.cipherGroup false).1
  (k.setKeyMgt r.akmSuite).setAuthenticationMode

/-- What a request that returns 0 writes, and what it leaves of the state before. -/
structure ConnectEffect (storesWfd : Bool) (r : ConnectParams) (c : Circumstances)
    (s s' : State) : Prop where
  keys : s'.keys = keysOf r
  supplicant : s'.supplicantIe =
    ((s.storeSupplicant r r.wpaAccepted).storeSupplicant r r.rsnAccepted).supplicantIe
  mfp : s'.mfpOpt = if r.ie = [] then s.mfpOpt else r.mfpOpt
  akm : s'.rsnAkmSuiteType = (r.akmSuite.bind Akm.suiteType).getD s.rsnAkmSuiteType
  underWps : s'.underWps = r.wpsIe.isSome
  wps : s'.wpsIe.take s'.wpsIeLen = match r.wpsIe with
    | some p => bytesAt r.mem p (min (ieLen r.mem p + 2) State.maxWpsIeLen)
    | none => s.wpsIe.take s.wpsIeLen
  p2p : s'.p2pAssocReqIe = p2pAfter r c s
  wfd : s'.wfdAssocReqIe = wfdAfter storesWfd r c s

theorem storeSupplicant_keys (s : State) (k : Keys) (p q : Option ℕ) :
    (({ s with keys := k }.storeSupplicant r p).storeSupplicant r q).supplicantIe =
      ((s.storeSupplicant r p).storeSupplicant r q).supplicantIe := by
  cases p <;> cases q <;> rfl

theorem connect_effect (h : connect storesWfd r c s = (s', true)) :
    ConnectEffect storesWfd r c (prepared c s) s' := by
  unfold connect at h
  split at h
  · exact nomatch (Prod.mk.inj h).2
  dsimp only at h
  split at h
  · exact nomatch (Prod.mk.inj h).2
  split at h
  · exact nomatch (Prod.mk.inj h).2
  next t ht =>
  have heff := setWpaIe_effect ht
  split at h
  · exact nomatch (Prod.mk.inj h).2
  next k hk =>
  split at h
  · exact nomatch (Prod.mk.inj h).2
  next k' hk' =>
  split at h
  · exact nomatch (Prod.mk.inj h).2
  next k'' hk'' =>
  split at h
  · obtain rfl := (Prod.mk.inj h).1
    have hpairwise : k = match r.ciphersPairwise with
        | some cipher => (t.keys.setCipher cipher true).1
        | none => t.keys := by
      cases hc : r.ciphersPairwise with
      | none =>
        rw [hc] at hk
        exact (Prod.mk.inj hk).1.symm
      | some cipher =>
        rw [hc] at hk
        exact (congrArg Prod.fst hk).symm
    have hgroup : k'' = ((wepKeys r k).setCipher r.cipherGroup false).1 := by
      rw [← setWep_keys hk', hk'']
    constructor
    · dsimp only
      rw [hgroup, hpairwise, heff.keys, keysOf]
    · rw [← storeSupplicant_keys]
      exact heff.supplicant
    · exact heff.mfp
    · rw [← heff.akm]
    · exact heff.underWps
    · exact heff.wps
    · exact heff.p2p
    · exact heff.wfd
  · exact nomatch (Prod.mk.inj h).2

end Written

/-! ## Two runs -/

section TwoRuns

variable {storesWfd : Bool} {r : ConnectParams} {c c₁ c₂ : Circumstances} {s₁ s₂ t₁ t₂ : State}

theorem supplicant_after (s : State) :
    storedElement
        ((s.storeSupplicant r r.wpaAccepted).storeSupplicant r r.rsnAccepted).supplicantIe =
      match r.rsnAccepted, r.wpaAccepted with
      | some p, _ => ieBytes r.mem p
      | none, some p => ieBytes r.mem p
      | none, none => storedElement s.supplicantIe := by
  cases r.rsnAccepted with
  | some p => exact storedElement_putFront r.mem p _
  | none =>
    cases r.wpaAccepted with
    | some p => exact storedElement_putFront r.mem p _
    | none => rfl

theorem supplicant_iff (h₁ : ConnectEffect storesWfd r c₁ s₁ t₁)
    (h₂ : ConnectEffect storesWfd r c₂ s₂ t₂) :
    storedElement t₁.supplicantIe = storedElement t₂.supplicantIe ↔
      (r.wpaAccepted = none → r.rsnAccepted = none →
        storedElement s₁.supplicantIe = storedElement s₂.supplicantIe) := by
  rw [h₁.supplicant, h₂.supplicant, supplicant_after, supplicant_after]
  cases r.rsnAccepted with
  | some p => exact iff_of_true rfl fun _ h => nomatch h
  | none =>
    cases r.wpaAccepted with
    | some p => exact iff_of_true rfl fun h => nomatch h
    | none => exact ⟨fun h _ _ => h, fun h => h rfl rfl⟩

theorem mfp_iff (h₁ : ConnectEffect storesWfd r c₁ s₁ t₁)
    (h₂ : ConnectEffect storesWfd r c₂ s₂ t₂) :
    t₁.mfpOpt = t₂.mfpOpt ↔ (r.ie = [] → s₁.mfpOpt = s₂.mfpOpt) := by
  rw [h₁.mfp, h₂.mfp]
  by_cases hie : r.ie = []
  · rw [if_pos hie, if_pos hie]
    exact ⟨fun h _ => h, fun h => h hie⟩
  · rw [if_neg hie, if_neg hie]
    exact iff_of_true rfl fun h => absurd h hie

theorem akm_iff (h₁ : ConnectEffect storesWfd r c₁ s₁ t₁)
    (h₂ : ConnectEffect storesWfd r c₂ s₂ t₂) :
    t₁.rsnAkmSuiteType = t₂.rsnAkmSuiteType ↔
      (r.akmSuite.bind Akm.suiteType = none → s₁.rsnAkmSuiteType = s₂.rsnAkmSuiteType) := by
  rw [h₁.akm, h₂.akm]
  cases r.akmSuite.bind Akm.suiteType with
  | some n => exact iff_of_true rfl fun h => nomatch h
  | none => exact ⟨fun h _ => h, fun h => h rfl⟩

theorem wps_iff (h₁ : ConnectEffect storesWfd r c₁ s₁ t₁)
    (h₂ : ConnectEffect storesWfd r c₂ s₂ t₂) :
    t₁.wpsIe.take t₁.wpsIeLen = t₂.wpsIe.take t₂.wpsIeLen ↔
      (r.wpsIe = none → s₁.wpsIe.take s₁.wpsIeLen = s₂.wpsIe.take s₂.wpsIeLen) := by
  rw [h₁.wps, h₂.wps]
  cases r.wpsIe with
  | some p => exact iff_of_true rfl fun h => nomatch h
  | none => exact ⟨fun h _ => h, fun h => h rfl⟩

theorem stored_iff (x y : Bool) (bytes : List UInt8) :
    (if x then some bytes else none) = (if y then some bytes else none) ↔ x = y := by
  cases x <;> cases y <;> simp

theorem p2p_iff (h₁ : ConnectEffect storesWfd r c₁ s₁ t₁)
    (h₂ : ConnectEffect storesWfd r c₂ s₂ t₂) :
    t₁.p2pAssocReqIe = t₂.p2pAssocReqIe ↔
      if r.p2pIe.isSome then c₁.p2pOk = c₂.p2pOk else s₁.p2pAssocReqIe = s₂.p2pAssocReqIe := by
  rw [h₁.p2p, h₂.p2p, p2pAfter, p2pAfter]
  cases r.p2pIe with
  | none => exact Iff.rfl
  | some p => exact stored_iff _ _ _

theorem wfd_iff (h₁ : ConnectEffect storesWfd r c₁ s₁ t₁)
    (h₂ : ConnectEffect storesWfd r c₂ s₂ t₂)
    (hp2p : r.p2pIe.isSome → c₁.p2pOk = c₂.p2pOk) :
    t₁.wfdAssocReqIe = t₂.wfdAssocReqIe ↔
      if r.wfdIe.isSome ∧ storesWfd ∧ (r.p2pIe.isSome → c₁.p2pOk) then c₁.wfdOk = c₂.wfdOk
      else s₁.wfdAssocReqIe = s₂.wfdAssocReqIe := by
  have hreach : (r.p2pIe.isSome → c₁.p2pOk) ↔ (r.p2pIe.isSome → c₂.p2pOk) :=
    ⟨fun h hp => hp2p hp ▸ h hp, fun h hp => hp2p hp ▸ h hp⟩
  rw [h₁.wfd, h₂.wfd, wfdAfter, wfdAfter]
  cases r.wfdIe with
  | none =>
    rw [if_neg fun h => nomatch h.1]
  | some p =>
    dsimp only
    by_cases hstores : storesWfd = true ∧ (r.p2pIe.isSome → c₁.p2pOk)
    · have hstores₂ : storesWfd = true ∧ (r.p2pIe.isSome → c₂.p2pOk) :=
        ⟨hstores.1, hreach.mp hstores.2⟩
      have hfound : (some p).isSome = true ∧ storesWfd = true ∧ (r.p2pIe.isSome → c₁.p2pOk) :=
        ⟨rfl, hstores⟩
      rw [if_pos hstores, if_pos hstores₂, if_pos hfound]
      exact stored_iff _ _ _
    · rw [if_neg hstores, if_neg fun h => hstores ⟨h.1, hreach.mpr h.2⟩,
        if_neg fun h => hstores h.2]

theorem settings_iff (h₁ : ConnectEffect storesWfd r c₁ s₁ t₁)
    (h₂ : ConnectEffect storesWfd r c₂ s₂ t₂) :
    t₁.settings = t₂.settings ↔ SameBefore storesWfd r c₁ c₂ s₁ s₂ := by
  have hsplit : t₁.settings = t₂.settings ↔ t₁.keys = t₂.keys ∧
      storedElement t₁.supplicantIe = storedElement t₂.supplicantIe ∧ t₁.mfpOpt = t₂.mfpOpt ∧
      t₁.rsnAkmSuiteType = t₂.rsnAkmSuiteType ∧ t₁.underWps = t₂.underWps ∧
      t₁.wpsIe.take t₁.wpsIeLen = t₂.wpsIe.take t₂.wpsIeLen ∧
      t₁.p2pAssocReqIe = t₂.p2pAssocReqIe ∧ t₁.wfdAssocReqIe = t₂.wfdAssocReqIe := by
    unfold State.settings
    rw [Settings.mk.injEq]
  have hkeys : t₁.keys = t₂.keys := h₁.keys.trans h₂.keys.symm
  have hunder : t₁.underWps = t₂.underWps := h₁.underWps.trans h₂.underWps.symm
  rw [hsplit, supplicant_iff h₁ h₂, mfp_iff h₁ h₂, akm_iff h₁ h₂, wps_iff h₁ h₂, p2p_iff h₁ h₂]
  constructor
  · rintro ⟨-, hsupplicant, hmfp, hakm, -, hwps, hp2p, hwfd⟩
    refine ⟨hsupplicant, hmfp, hakm, hwps, hp2p, (wfd_iff h₁ h₂ fun hsome => ?_).mp hwfd⟩
    rwa [if_pos hsome] at hp2p
  · rintro ⟨hsupplicant, hmfp, hakm, hwps, hp2p, hwfd⟩
    refine ⟨hkeys, hsupplicant, hmfp, hakm, hunder, hwps, hp2p,
      (wfd_iff h₁ h₂ fun hsome => ?_).mpr hwfd⟩
    rwa [if_pos hsome] at hp2p

/-! ## The copies -/

theorem elementCopy_inside (size : ℕ → ℕ) (p : Option ℕ) :
    (∀ cp ∈ elementCopy r size p, cp.Inside r.ie.length) ↔
      Ends r p ∧ ∀ i ∈ p, ieLen r.mem i + 2 ≤ size (ieLen r.mem i + 2) := by
  cases p with
  | none => exact iff_of_true nofun ⟨nofun, nofun⟩
  | some i =>
    unfold elementCopy Ends Copy.Inside
    simp only [List.mem_singleton, forall_eq, Option.mem_some_iff, forall_eq']
    rw [Nat.add_assoc]

theorem ieLen_le (mem : Mem) (p : ℕ) : ieLen mem p ≤ 255 :=
  Nat.le_of_lt_succ (UInt8.toNat_lt _)

theorem accepted_inside (p : Option ℕ) :
    (∀ cp ∈ elementCopy r (fun _ => 256) p, cp.Inside r.ie.length) ↔
      Ends r p ∧ ∀ i ∈ p, ieLen r.mem i ≠ 255 := by
  rw [elementCopy_inside]
  refine and_congr_right fun _ => forall₂_congr fun i _ => ?_
  have hle := ieLen_le r.mem i
  omega

theorem wpsCopy_inside : (∀ cp ∈ wpsCopy r, cp.Inside r.ie.length) ↔ Ends r r.wpsIe := by
  unfold wpsCopy Ends
  cases r.wpsIe with
  | none => exact iff_of_true nofun nofun
  | some p =>
    have hle := ieLen_le r.mem p
    have hmin : min (ieLen r.mem p + 2) State.maxWpsIeLen = ieLen r.mem p + 2 :=
      Nat.min_eq_left (by unfold State.maxWpsIeLen; omega)
    dsimp only
    rw [hmin]
    unfold Copy.Inside State.maxWpsIeLen
    simp only [List.mem_singleton, forall_eq, Option.mem_some_iff, forall_eq']
    omega

theorem stored_inside (p : Option ℕ) :
    (∀ cp ∈ elementCopy r id p, cp.Inside r.ie.length) ↔ Ends r p := by
  rw [elementCopy_inside]
  exact and_iff_left fun _ _ => le_rfl

theorem wfdCopy_inside : (∀ cp ∈ wfdCopy r storesWfd c, cp.Inside r.ie.length) ↔
    (storesWfd → c.wfdOk → Ends r r.wfdIe) := by
  unfold wfdCopy
  split
  · next h =>
    rw [stored_inside]
    exact ⟨fun hends _ _ => hends, fun hends => hends h.1 h.2⟩
  · next h => exact iff_of_true nofun fun hstores hok => absurd ⟨hstores, hok⟩ h

theorem copies_inside : (∀ cp ∈ copies r storesWfd c, cp.Inside r.ie.length) ↔
    WellFormed storesWfd r c := by
  unfold copies
  by_cases hie : r.ie = []
  · obtain ⟨hwpa, hrsn, hwps, hp2p, hwfd⟩ := lookups_empty hie
    rw [if_pos hie]
    refine iff_of_true nofun ⟨?_, ?_, ?_, ?_, ?_⟩
    · rw [ConnectParams.wpaAccepted, hwpa]
      exact ⟨nofun, nofun⟩
    · rw [ConnectParams.rsnAccepted, hrsn]
      exact ⟨nofun, nofun⟩
    · rw [hwps]
      exact nofun
    · rw [hp2p]
      exact fun _ => nofun
    · rw [hwfd]
      exact fun _ _ _ => nofun
  · rw [if_neg hie]
    have hbuf : Copy.Inside r.ie.length ⟨0, r.ie.length, r.ie.length⟩ :=
      ⟨(Nat.zero_add _).le, le_rfl⟩
    have hlast : (∀ cp ∈ (if r.p2pIe.isSome ∧ ¬ c.p2pOk then []
          else elementCopy r id r.p2pIe ++ wfdCopy r storesWfd c), cp.Inside r.ie.length) ↔
        (c.p2pOk → Ends r r.p2pIe) ∧
          (storesWfd → c.wfdOk → (r.p2pIe.isSome → c.p2pOk) → Ends r r.wfdIe) := by
      by_cases hmem : r.p2pIe.isSome ∧ ¬ c.p2pOk
      · rw [if_pos hmem]
        exact iff_of_true nofun ⟨fun h => absurd h hmem.2, fun _ _ h => absurd (h hmem.1) hmem.2⟩
      · rw [if_neg hmem, List.forall_mem_append, stored_inside, wfdCopy_inside]
        have hok : r.p2pIe.isSome → c.p2pOk := fun hsome => by_contra fun h => hmem ⟨hsome, h⟩
        refine and_congr ⟨fun h _ => h, fun h => ?_⟩ ⟨fun h hs hw _ => h hs hw,
          fun h hs hw => h hs hw hok⟩
        cases hp : r.p2pIe with
        | none => exact nofun
        | some p =>
          rw [← hp]
          exact h (hok (by rw [hp]; rfl))
    rw [List.forall_mem_cons, List.forall_mem_append, List.forall_mem_append,
      List.forall_mem_append, accepted_inside, accepted_inside, wpsCopy_inside, hlast]
    constructor
    · rintro ⟨-, ⟨⟨hwpa, hrsn⟩, hwps⟩, hp2p, hwfd⟩
      exact ⟨hwpa, hrsn, hwps, hp2p, hwfd⟩
    · rintro ⟨hwpa, hrsn, hwps, hp2p, hwfd⟩
      exact ⟨hbuf, ⟨⟨hwpa, hrsn⟩, hwps⟩, hp2p, hwfd⟩

/-- After any two histories, a request leaves the same settings just when what it does not write
is the same before. -/
theorem settings_of_request (h₁ h₂ : List Event)
    (hs₁ : connect storesWfd r c₁ (after storesWfd h₁) = (t₁, true))
    (hs₂ : connect storesWfd r c₂ (after storesWfd h₂) = (t₂, true)) :
    (t₁.settings = t₂.settings ∧
      ∀ cp ∈ copies r storesWfd c₁ ++ copies r storesWfd c₂, cp.Inside r.ie.length) ↔
    SameBefore storesWfd r c₁ c₂ (prepared c₁ (after storesWfd h₁))
        (prepared c₂ (after storesWfd h₂)) ∧
      WellFormed storesWfd r c₁ ∧ WellFormed storesWfd r c₂ := by
  rw [List.forall_mem_append, copies_inside, copies_inside,
    settings_iff (connect_effect hs₁) (connect_effect hs₂)]

end TwoRuns

/-! ## Requests one after the other -/

def openRequest : ConnectParams := { ssidLen := 4 }

def p2pRequest : ConnectParams := { ssidLen := 4, ie := [221, 4, 0x50, 0x6f, 0x9a, 0x09] }

def rsnElement (len cap : UInt8) : List UInt8 :=
  [48, len, 1, 0, 0x00, 0x0f, 0xac, 4, 1, 0, 0x00, 0x0f, 0xac, 4, 1, 0, 0x00, 0x0f, 0xac, 2, cap, 0]

def rsnRequest (ie : List UInt8) : ConnectParams where
  ssidLen := 4
  wpaVersions := 2
  ie := ie
  ciphersPairwise := some .ccmp
  cipherGroup := .ccmp
  akmSuite := some .psk

def mfpRequest : ConnectParams := rsnRequest (rsnElement 20 0xc0)

def longRequest : ConnectParams := rsnRequest (rsnElement 255 0 ++ List.replicate 235 0)

def left (r : ConnectParams) : List Event := [.connect r {}, .disconnect, .reset]

theorem settings_of_request_mfp :
    (connect true mfpRequest {} (after true [])).1.settings =
        (connect true mfpRequest {} (after true (left mfpRequest))).1.settings ∧
      ∀ cp ∈ copies mfpRequest true {} ++ copies mfpRequest true {},
        cp.Inside mfpRequest.ie.length := by
  have hok₁ : (connect true mfpRequest {} (after true [])).2 = true := by decide +kernel
  have hok₂ : (connect true mfpRequest {} (after true (left mfpRequest))).2 = true := by
    decide +kernel
  have hwell : WellFormed true mfpRequest {} := copies_inside.mp (by decide +kernel)
  refine (settings_of_request [] (left mfpRequest) (Prod.ext rfl hok₁) (Prod.ext rfl hok₂)).mpr
    ⟨⟨?_, ?_, ?_, ?_, ?_, ?_⟩, hwell, hwell⟩
  all_goals decide +kernel

/-- The P2P element outlives a disconnection, the MFP option a refused request, and an accepted
element of the greatest length does not fit. -/
theorem settings_of_earlier_request :
    (connect true openRequest {} (after true [])).2 = true ∧
    (connect true openRequest {} (after true (left p2pRequest))).2 = true ∧
    (connect true openRequest {} (after true [])).1.settings ≠
      (connect true openRequest {} (after true (left p2pRequest))).1.settings ∧
    (connect true openRequest {} (after true [.connect mfpRequest { connectOk := false }])).2 =
      true ∧
    (connect true openRequest {} (after true [])).1.settings ≠
      (connect true openRequest {}
        (after true [.connect mfpRequest { connectOk := false }])).1.settings ∧
    (connect true longRequest {} (after true [])).2 = true ∧
    ¬ ∀ cp ∈ copies longRequest true {}, cp.Inside longRequest.ie.length := by
  refine ⟨?_, ?_, ?_, ?_, ?_, ?_, ?_⟩
  all_goals decide +kernel

end Rtl8189.ConnectSettings
