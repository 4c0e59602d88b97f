import Rtl8189.EventRun
import Rtl8189.PacketNumber
import Mathlib.Logic.Function.Basic

/-!
# Keys read back

`add_key`, `del_key` and `set_default_key` of cfg80211 in station and AP mode, and what `get_key`
delivers. One cipher and one flag stand for all the group keys, and nothing is ever deleted.
-/
namespace Rtl8189.KeyReadback

open EventRun

open PacketNumber (AuthAlgrthm)

inductive Cipher where
  | wep40
  | wep104
  | tkip
  | ccmp
  | aesCmac
  deriving DecidableEq, Repr

def Cipher.alg : Cipher → Encrypt
  | .wep40 => .wep40
  | .wep104 => .wep104
  | .tkip => .tkip
  | .ccmp => .aes
  | .aesCmac => .bip

def isWepEnc (alg : Encrypt) : Bool := alg = .wep40 ∨ alg = .wep104

inductive Target where
  | group
  | pairwise (mac : MacAddr)
  deriving DecidableEq, Repr

def IndexOk : Target → ℕ → Prop
  | .group, idx => idx < 4
  | .pairwise _, idx => idx = 0

/-- What cfg80211 lets through. -/
def LetThrough (target : Target) (keyIndex : ℕ) (key : List UInt8) : Cipher → Prop
  | .wep40 => keyIndex < 4 ∧ key.length = 5
  | .wep104 => keyIndex < 4 ∧ key.length = 13
  | .tkip => IndexOk target keyIndex ∧ key.length = 32
  | .ccmp => IndexOk target keyIndex ∧ key.length = 16
  | .aesCmac => target = .group ∧ (keyIndex = 4 ∨ keyIndex = 5) ∧ key.length = 16

/-- A request, and how it meets the system: in the mode of the interface, with memory for its
parameters and for the command. -/
structure AddKey where
  target : Target
  keyIndex : ℕ
  cipher : Cipher
  key : List UInt8
  seq : List UInt8
  letThrough : LetThrough target keyIndex key cipher
  unicast : ∀ mac, target = .pairwise mac → isMcast mac = false
  synced : Bool := true
  paramOk : Bool := true
  cmdOk : Bool := true

inductive EncryptStatus where
  | encryption1Enabled
  | encryptionDisabled
  | encryption1KeyAbsent
  | encryptionNotSupported
  | encryption2Enabled
  | encryption2KeyAbsent
  | encryption3Enabled
  | encryption3KeyAbsent
  | encryption11
  deriving DecidableEq, Repr

structure StaKey where
  privacy : Encrypt := .noPrivacy
  uncstKey : List UInt8 := List.replicate 16 0
  installed : Bool := false

/-- What the requests use of the adapter; in AP mode if it is not in station mode. -/
structure KeyState where
  station : Bool
  bssid : MacAddr
  authAlgrthm : AuthAlgrthm
  ndisencryptstatus : EncryptStatus
  privacyAlgrthm : Encrypt
  privacyKeyIndex : ℕ := 0
  defKey : ℕ → List UInt8 := fun _ => List.replicate 16 0
  defKeylen : ℕ → ℕ := fun _ => 0
  keyMask : ℕ := 0
  grpPrivacy : Encrypt
  grpKey : ℕ → List UInt8 := fun _ => List.replicate 16 0
  binstallGrpkey : Bool := false
  bipKey : ℕ → List UInt8 := fun _ => List.replicate 16 0
  bipTxpn : ℕ := 0
  binstallBipkey : Bool := false
  bWepDefaultKeyIdxSet : Bool := false
  bcmcTxpn : Option ℕ := some 0
  sta : MacAddr → Option StaKey

def putKey (buf bytes : List UInt8) : List UInt8 := bytes ++ buf.drop bytes.length

def seqVal (seq : List UInt8) : ℕ := le64 seq 0

def wepAlg (len : ℕ) : Encrypt := if len = 13 then .wep104 else .wep40

def wepLen (len : ℕ) : ℕ := if len ≤ 5 then 5 else 13

namespace KeyState

variable (s : KeyState)

def setSta (mac : MacAddr) (st : StaKey) : KeyState :=
  { s with sta := Function.update s.sta mac (some st) }

/-! ## Adding keys -/

/-- No default key has been set, so the index of this one is used. -/
def useAsDefault (idx len : ℕ) : KeyState :=
  { s with
    ndisencryptstatus := .encryption1Enabled
    privacyAlgrthm := wepAlg len
    grpPrivacy := wepAlg len
    privacyKeyIndex := idx }

def putDefKey (idx : ℕ) (key : List UInt8) (len : ℕ) : KeyState :=
  { s with
    defKey := Function.update s.defKey idx (putKey (s.defKey idx) (key.take len))
    defKeylen := Function.update s.defKeylen idx len }

def markKey (alg : Encrypt) (idx : ℕ) (cmdOk : Bool) : KeyState :=
  if cmdOk ∧ isWepEnc alg then { s with keyMask := s.keyMask ||| 2 ^ idx } else s

def rtwSetKey (idx : ℕ) (cmdOk : Bool) : KeyState :=
  s.markKey (if s.authAlgrthm = .ieee8021X then s.grpPrivacy else s.privacyAlgrthm) idx cmdOk

def setWep (a : AddKey) : KeyState :=
  if s.bWepDefaultKeyIdxSet then
    (s.putDefKey a.keyIndex a.key a.key.length).rtwSetKey a.keyIndex a.cmdOk
  else
    ((s.useAsDefault a.keyIndex (wepLen a.key.length)).putDefKey a.keyIndex a.key
      (wepLen a.key.length)).rtwSetKey a.keyIndex a.cmdOk

def connCipher (st : StaKey) : StaKey :=
  if s.ndisencryptstatus = .encryption2Enabled ∨ s.ndisencryptstatus = .encryption3Enabled then
    { st with privacy := s.privacyAlgrthm }
  else st

def putGrpKey (idx : ℕ) (key : List UInt8) : KeyState :=
  { s with
    grpKey := Function.update s.grpKey idx (putKey (s.grpKey idx) (key.take 16))
    binstallGrpkey := true }

def putBipKey (idx : ℕ) (key : List UInt8) : KeyState :=
  { s with
    bipKey := Function.update s.bipKey idx (putKey (s.bipKey idx) (key.take 16))
    binstallBipkey := true }

def putUncstKey (st : StaKey) (key : List UInt8) : StaKey :=
  { st with uncstKey := putKey st.uncstKey (key.take 16) }

/-- The station's part of `rtw_cfg80211_set_encryption`, for all but WEP. -/
def setWpa (a : AddKey) : KeyState :=
  match s.sta s.bssid with
  | none => s
  | some st =>
    match a.target with
    | .pairwise _ =>
      s.setSta s.bssid { putUncstKey (s.connCipher st) a.key with installed := true }
    | .group =>
      if a.cipher = .tkip ∨ a.cipher = .ccmp then
        (s.setSta s.bssid (s.connCipher st)).putGrpKey a.keyIndex a.key
      else if a.cipher = .aesCmac then
        (s.setSta s.bssid (s.connCipher st)).putBipKey a.keyIndex a.key
      else s.setSta s.bssid (s.connCipher st)

/-- `rtw_cfg80211_set_encryption`; `none` is `-EINVAL`. The address is not looked at. -/
def setEncryption (a : AddKey) : Option KeyState :=
  if 5 < a.keyIndex then none
  else if isWepEnc a.cipher.alg then
    if 4 ≤ a.keyIndex ∨ a.key.length = 0 then none else some (s.setWep a)
  else if s.authAlgrthm = .ieee8021X then some (s.setWpa a)
  else some s

def apSetWep (a : AddKey) : KeyState :=
  let len := wepLen a.key.length
  ((if s.bWepDefaultKeyIdxSet then s
    else { s.useAsDefault a.keyIndex len with authAlgrthm := .auto }).putDefKey a.keyIndex a.key
      len).markKey (wepAlg len) a.keyIndex a.cmdOk

def apSetGroup (a : AddKey) : KeyState :=
  if a.cipher = .aesCmac then { s.putBipKey a.keyIndex a.key with bipTxpn := seqVal a.seq }
  else
    { s.putGrpKey a.keyIndex a.key with
      grpPrivacy := a.cipher.alg
      privacyAlgrthm := a.cipher.alg
      bcmcTxpn := s.bcmcTxpn.map fun _ => seqVal a.seq }

def apSetPairwise (mac : MacAddr) (st : StaKey) (a : AddKey) : KeyState :=
  if a.cipher = .aesCmac then s.setSta mac (putUncstKey st a.key)
  else
    s.setSta mac { putUncstKey st a.key with
      privacy := if isWepEnc a.cipher.alg then wepAlg a.key.length else a.cipher.alg
      installed := true }

/-- `rtw_cfg80211_ap_set_encryption` -/
def apSetEncryption (a : AddKey) : Option KeyState :=
  match a.target with
  | .group =>
    if 5 < a.keyIndex then none
    else if isWepEnc a.cipher.alg then
      if 4 ≤ a.keyIndex ∨ a.key.length = 0 then none else some (s.apSetWep a)
    else some (s.apSetGroup a)
  | .pairwise mac =>
    match s.sta mac with
    | none => none
    | some st => if s.authAlgrthm = .ieee8021X then some (s.apSetPairwise mac st a) else some s

/-- `cfg80211_rtw_add_key`: `none` where it does not return 0. -/
def addKey (a : AddKey) : Option KeyState :=
  if ¬ a.synced ∨ ¬ a.paramOk then none
  else if s.station then s.setEncryption a
  else s.apSetEncryption a

/-! ## The other requests -/

/-- `cfg80211_rtw_del_key` -/
def delKey (keyIndex : ℕ) : KeyState :=
  if keyIndex = s.privacyKeyIndex then { s with bWepDefaultKeyIdxSet := false } else s

/-- `cfg80211_rtw_set_default_key` -/
def setDefaultKey (keyIndex : ℕ) : KeyState :=
  if keyIndex < 4 ∧ isWepEnc s.privacyAlgrthm then
    { s.useAsDefault keyIndex (s.defKeylen keyIndex) with bWepDefaultKeyIdxSet := true }
  else s

structure KeyParams where
  cipher : Cipher
  key : List UInt8
  seq : Option ℕ
  deriving DecidableEq

def deliver (keyid : ℕ) (alg : Encrypt) (buf : List UInt8) (pn : Option ℕ) : Option KeyParams :=
  match alg with
  | .wep40 => some ⟨.wep40, buf.take (s.defKeylen keyid), pn⟩
  | .wep104 => some ⟨.wep104, buf.take (s.defKeylen keyid), pn⟩
  | .tkip => some ⟨.tkip, buf.take 16, pn⟩
  | .aes => some ⟨.ccmp, buf.take 16, pn⟩
  | .bip => some ⟨.aesCmac, buf.take 16, pn⟩
  | _ => none

/-- `cfg80211_rtw_get_key`; `none` is `-ENOENT`. -/
def getKey (keyid : ℕ) : Target → Option KeyParams
  | .group =>
    if 5 < keyid then none
    else if isWepEnc s.grpPrivacy then
      if 4 ≤ keyid then none
      else if s.keyMask.testBit keyid then s.deliver keyid s.grpPrivacy (s.defKey keyid) none
      else none
    else if keyid < 4 then
      if s.binstallGrpkey then s.deliver keyid s.grpPrivacy (s.grpKey keyid) s.bcmcTxpn else none
    else if s.binstallBipkey then s.deliver keyid .bip (s.bipKey keyid) (some s.bipTxpn)
    else none
  | .pairwise mac =>
    if 5 < keyid then none
    else match s.sta mac with
      | none => none
      | some st =>
        if keyid < 4 then
          if st.installed then s.deliver keyid st.privacy st.uncstKey none else none
        else none

end KeyState

/-! ## What should be read back -/

inductive KeyName where
  | group (idx : ℕ)
  | pairwise (mac : MacAddr)
  deriving DecidableEq

def AddKey.name (a : AddKey) : KeyName :=
  match a.target with
  | .group => .group a.keyIndex
  | .pairwise mac => .pairwise mac

def AddKey.used (a : AddKey) : List UInt8 := a.key.take 16

inductive Request where
  | add (a : AddKey)
  | del (keyIndex : ℕ) (target : Target)
  | setDefault (keyIndex : ℕ)

def delName (keyIndex : ℕ) : Target → KeyName
  | .group => .group keyIndex
  | .pairwise mac => .pairwise mac

abbrev Keys := KeyName → Option (Cipher × List UInt8)

structure Run where
  state : KeyState
  keys : Keys

def step (r : Run) : Request → Run
  | .add a =>
    match r.state.addKey a with
    | some s => ⟨s, Function.update r.keys a.name (some (a.cipher, a.used))⟩
    | none => r
  | .del idx target => ⟨r.state.delKey idx, Function.update r.keys (delName idx target) none⟩
  | .setDefault idx => ⟨r.state.setDefaultKey idx, r.keys⟩

def asked (s : KeyState) (keyid : ℕ) : KeyName → Option (Cipher × List UInt8)
  | .group idx => (s.getKey idx .group).map fun p => (p.cipher, p.key)
  | .pairwise mac => (s.getKey keyid (.pairwise mac)).map fun p => (p.cipher, p.key)

def ReadsBack (keyid : ℕ) (q : KeyName) (r : Run) : Prop := asked r.state keyid q = r.keys q

structure Fresh (s : KeyState) : Prop where
  mask : s.keyMask = 0
  grp : s.binstallGrpkey = false
  bip : s.binstallBipkey = false
  sta : ∀ mac st, s.sta mac = some st → st.installed = false

/-! ## Where a key is put -/

inductive Slot where
  | wep
  | group
  | bip
  | pairwise (mac : MacAddr)
  | nowhere
  deriving DecidableEq

section Slots

variable (s : KeyState) (a : AddKey)

def slot : Slot :=
  if s.station then
    if isWepEnc a.cipher.alg then .wep
    else if s.authAlgrthm = .ieee8021X ∧ (s.sta s.bssid).isSome then
      match a.target with
      | .pairwise _ => .pairwise s.bssid
      | .group => if a.cipher = .aesCmac then .bip else .group
    else .nowhere
  else
    match a.target with
    | .group =>
      if isWepEnc a.cipher.alg then .wep else if a.cipher = .aesCmac then .bip else .group
    | .pairwise mac => if s.authAlgrthm = .ieee8021X then .pairwise mac else .nowhere

def groupAfter : Encrypt :=
  if isWepEnc a.cipher.alg then
    if s.bWepDefaultKeyIdxSet then s.grpPrivacy else a.cipher.alg
  else if s.station then s.grpPrivacy
  else a.cipher.alg

def marks : Bool :=
  a.cmdOk && (!s.station ||
    isWepEnc (if s.authAlgrthm = .ieee8021X then groupAfter s a
      else if s.bWepDefaultKeyIdxSet then s.privacyAlgrthm else a.cipher.alg))

def staAfter (mac : MacAddr) : Option StaKey :=
  if s.station ∧ mac = s.bssid then (s.sta mac).map s.connCipher else s.sta mac

def pairwiseAfter (st : StaKey) : Encrypt :=
  if s.station then (s.connCipher st).privacy else a.cipher.alg

variable (s' : KeyState)

structure WepEffect : Prop where
  group : s'.grpPrivacy = groupAfter s a
  key : s'.defKey = Function.update s.defKey a.keyIndex (putKey (s.defKey a.keyIndex) a.key)
  len : s'.defKeylen = Function.update s.defKeylen a.keyIndex a.key.length
  mask : s'.keyMask = if marks s a then s.keyMask ||| 2 ^ a.keyIndex else s.keyMask
  grp : s'.grpKey = s.grpKey ∧ s'.binstallGrpkey = s.binstallGrpkey
  bip : s'.bipKey = s.bipKey ∧ s'.binstallBipkey = s.binstallBipkey
  sta : s'.sta = s.sta

structure GroupEffect : Prop where
  group : s'.grpPrivacy = groupAfter s a
  wep : s'.defKey = s.defKey ∧ s'.defKeylen = s.defKeylen ∧ s'.keyMask = s.keyMask
  key : s'.grpKey = Function.update s.grpKey a.keyIndex (putKey (s.grpKey a.keyIndex) a.used)
  flag : s'.binstallGrpkey = true
  bip : s'.bipKey = s.bipKey ∧ s'.binstallBipkey = s.binstallBipkey
  sta : ∀ mac, s'.sta mac = staAfter s mac

structure BipEffect : Prop where
  group : s'.grpPrivacy = s.grpPrivacy
  wep : s'.defKey = s.defKey ∧ s'.defKeylen = s.defKeylen ∧ s'.keyMask = s.keyMask
  grp : s'.grpKey = s.grpKey ∧ s'.binstallGrpkey = s.binstallGrpkey
  key : s'.bipKey = Function.update s.bipKey a.keyIndex (putKey (s.bipKey a.keyIndex) a.used)
  flag : s'.binstallBipkey = true
  sta : ∀ mac, s'.sta mac = staAfter s mac

structure PairwiseEffect (mac : MacAddr) : Prop where
  group : s'.grpPrivacy = s.grpPrivacy
  wep : s'.defKey = s.defKey ∧ s'.defKeylen = s.defKeylen ∧ s'.keyMask = s.keyMask
  grp : s'.grpKey = s.grpKey ∧ s'.binstallGrpkey = s.binstallGrpkey
  bip : s'.bipKey = s.bipKey ∧ s'.binstallBipkey = s.binstallBipkey
  sta : ∃ st, s.sta mac = some st ∧ s'.sta = Function.update s.sta mac
    (some ⟨pairwiseAfter s a st, putKey st.uncstKey a.used, true⟩)

end Slots

section Effects

variable {s s' : KeyState} {a : AddKey}

theorem wep_len (h : isWepEnc a.cipher.alg = true) :
    wepLen a.key.length = a.key.length ∧ wepAlg a.key.length = a.cipher.alg ∧
      a.key.length ≤ 16 ∧ a.keyIndex < 4 := by
  have hok := a.letThrough
  cases hc : a.cipher <;> rw [hc] at h hok
  · obtain ⟨hidx, hlen⟩ := hok
    rw [hlen]
    exact ⟨rfl, rfl, by decide, hidx⟩
  · obtain ⟨hidx, hlen⟩ := hok
    rw [hlen]
    exact ⟨rfl, rfl, by decide, hidx⟩
  all_goals exact nomatch h

theorem used_wep (h : isWepEnc a.cipher.alg = true) : a.used = a.key :=
  List.take_of_length_le (wep_len h).2.2.1

theorem markKey_eq (t : KeyState) (alg : Encrypt) (idx : ℕ) (cmdOk : Bool) :
    t.markKey alg idx cmdOk =
      { t with keyMask := if cmdOk && isWepEnc alg then t.keyMask ||| 2 ^ idx else t.keyMask } := by
  rw [KeyState.markKey]
  simp only [Bool.and_eq_true]
  split <;> rfl

theorem setWep_effect (hstation : s.station = true) (hwep : isWepEnc a.cipher.alg = true) :
    WepEffect s a (s.setWep a) := by
  obtain ⟨hlen, halg, -, -⟩ := wep_len hwep
  have htake : a.key.take a.key.length = a.key := List.take_length
  unfold KeyState.setWep KeyState.rtwSetKey
  rw [hlen]
  cases hset : s.bWepDefaultKeyIdxSet <;>
    constructor <;>
    simp [markKey_eq, KeyState.putDefKey, KeyState.useAsDefault, groupAfter, marks, hwep, hstation,
      hset, halg, htake]

theorem apSetWep_effect (hstation : s.station = false) (hwep : isWepEnc a.cipher.alg = true) :
    WepEffect s a (s.apSetWep a) := by
  obtain ⟨hlen, halg, -, -⟩ := wep_len hwep
  have htake : a.key.take a.key.length = a.key := List.take_length
  unfold KeyState.apSetWep
  rw [hlen]
  cases hset : s.bWepDefaultKeyIdxSet <;>
    constructor <;>
    simp [markKey_eq, KeyState.putDefKey, KeyState.useAsDefault, groupAfter, marks, hwep, hstation,
      hset, halg, htake]

theorem addKey_station (hstation : s.station = true) (h : s.addKey a = some s') :
    s' = if isWepEnc a.cipher.alg then s.setWep a
      else if s.authAlgrthm = .ieee8021X then s.setWpa a else s := by
  unfold KeyState.addKey KeyState.setEncryption at h
  rw [hstation] at h
  split_ifs at h ⊢ <;> first | exact (Option.some.inj h).symm | simp_all

theorem addKey_ap (hstation : s.station = false) (h : s.addKey a = some s') :
    s.apSetEncryption a = some s' := by
  unfold KeyState.addKey at h
  rw [hstation, if_neg Bool.false_ne_true] at h
  split_ifs at h
  exact h

theorem slot_station (hstation : s.station = true) : slot s a =
    if isWepEnc a.cipher.alg then .wep
    else if s.authAlgrthm = .ieee8021X ∧ (s.sta s.bssid).isSome then
      match a.target with
      | .pairwise _ => .pairwise s.bssid
      | .group => if a.cipher = .aesCmac then .bip else .group
    else .nowhere := by
  rw [slot, if_pos hstation]

theorem slot_ap (hstation : s.station = false) : slot s a =
    match a.target with
    | .group =>
      if isWepEnc a.cipher.alg then .wep else if a.cipher = .aesCmac then .bip else .group
    | .pairwise mac => if s.authAlgrthm = .ieee8021X then .pairwise mac else .nowhere := by
  rw [slot, if_neg (by rw [hstation]; exact Bool.false_ne_true)]

def Effect (s : KeyState) (a : AddKey) (s' : KeyState) : Slot → Prop
  | .wep => WepEffect s a s' ∧ isWepEnc a.cipher.alg = true
  | .group => GroupEffect s a s' ∧ isWepEnc a.cipher.alg = false ∧ a.cipher ≠ .aesCmac ∧
      a.target = .group
  | .bip => BipEffect s a s' ∧ a.cipher = .aesCmac ∧ a.target = .group
  | .pairwise mac => PairwiseEffect s a s' mac ∧ (∃ mac', a.target = .pairwise mac')
  | .nowhere => s' = s

theorem staAfter_station (hstation : s.station = true) {st : StaKey} (hst : s.sta s.bssid = some st)
    (mac : MacAddr) :
    Function.update s.sta s.bssid (some (s.connCipher st)) mac = staAfter s mac := by
  unfold staAfter
  by_cases hmac : mac = s.bssid
  · rw [hmac, Function.update_self, if_pos ⟨hstation, rfl⟩, hst, Option.map_some]
  · rw [Function.update_of_ne hmac, if_neg fun h => hmac h.2]

theorem staAfter_ap (hstation : s.station = false) (mac : MacAddr) :
    staAfter s mac = s.sta mac := by
  rw [staAfter, hstation, if_neg fun h => Bool.false_ne_true h.1]

theorem cipher_cases (hwep : ¬ isWepEnc a.cipher.alg = true) :
    a.cipher = .aesCmac ∨ a.cipher ≠ .aesCmac ∧ (a.cipher = .tkip ∨ a.cipher = .ccmp) := by
  cases hc : a.cipher
  · exact absurd (hc ▸ rfl) hwep
  · exact absurd (hc ▸ rfl) hwep
  · exact .inr ⟨nofun, .inl rfl⟩
  · exact .inr ⟨nofun, .inr rfl⟩
  · exact .inl rfl

theorem effect_station (hstation : s.station = true) (h : s.addKey a = some s') :
    Effect s a s' (slot s a) := by
  have hs' := addKey_station hstation h
  rw [slot_station hstation]
  by_cases hwep : isWepEnc a.cipher.alg = true
  · rw [if_pos hwep] at hs' ⊢
    exact ⟨hs' ▸ setWep_effect hstation hwep, hwep⟩
  · rw [if_neg hwep] at hs' ⊢
    by_cases hx : s.authAlgrthm = .ieee8021X
    · rw [if_pos hx] at hs'
      unfold KeyState.setWpa at hs'
      cases hsta : s.sta s.bssid with
      | none =>
        rw [hsta] at hs'
        rw [if_neg fun h => absurd h.2 Bool.false_ne_true]
        exact hs'
      | some st =>
        rw [hsta] at hs'
        rw [if_pos ⟨hx, rfl⟩]
        cases ht : a.target with
        | pairwise mac =>
          rw [ht] at hs'
          subst hs'
          refine ⟨⟨rfl, ⟨rfl, rfl, rfl⟩, ⟨rfl, rfl⟩, ⟨rfl, rfl⟩, st, hsta, ?_⟩, mac, ht⟩
          rw [pairwiseAfter, if_pos hstation]
          have huncst : (s.connCipher st).uncstKey = st.uncstKey := by
            unfold KeyState.connCipher
            split <;> rfl
          rw [← huncst]
          rfl
        | group =>
          rw [ht] at hs'
          dsimp only at hs'
          have hgroup : groupAfter s a = s.grpPrivacy := by
            rw [groupAfter, if_neg hwep, if_pos hstation]
          dsimp only
          obtain hmac | ⟨hmac, hwpa⟩ := cipher_cases hwep
          · have hother : ¬ (a.cipher = .tkip ∨ a.cipher = .ccmp) := by
              rw [hmac]
              decide
            rw [if_neg hother, if_pos hmac] at hs'
            rw [if_pos hmac]
            subst hs'
            exact ⟨⟨rfl, ⟨rfl, rfl, rfl⟩, ⟨rfl, rfl⟩, rfl, rfl, staAfter_station hstation hsta⟩,
              hmac, ht⟩
          · rw [if_pos hwpa] at hs'
            rw [if_neg hmac]
            subst hs'
            exact ⟨⟨hgroup.symm, ⟨rfl, rfl, rfl⟩, rfl, rfl, ⟨rfl, rfl⟩,
              staAfter_station hstation hsta⟩, Bool.eq_false_iff.mpr hwep, hmac, ht⟩
    · rw [if_neg hx] at hs'
      rw [if_neg fun h => hx h.1]
      exact hs'

theorem effect_ap (hstation : s.station = false) (h : s.addKey a = some s') :
    Effect s a s' (slot s a) := by
  have hs' := addKey_ap hstation h
  rw [slot_ap hstation]
  unfold KeyState.apSetEncryption at hs'
  cases ht : a.target with
  | group =>
    rw [ht] at hs'
    dsimp only at hs' ⊢
    split_ifs at hs' with hidx hwep hlen
    · obtain rfl := Option.some.inj hs'
      rw [if_pos hwep]
      exact ⟨apSetWep_effect hstation hwep, hwep⟩
    · obtain rfl := Option.some.inj hs'
      have hgroup : groupAfter s a = a.cipher.alg := by
        rw [groupAfter, if_neg hwep, hstation, if_neg Bool.false_ne_true]
      rw [if_neg hwep]
      unfold KeyState.apSetGroup
      by_cases hmac : a.cipher = .aesCmac
      · rw [if_pos hmac, if_pos hmac]
        exact ⟨⟨rfl, ⟨rfl, rfl, rfl⟩, ⟨rfl, rfl⟩, rfl, rfl,
          fun mac => (staAfter_ap hstation mac).symm⟩, hmac, ht⟩
      · rw [if_neg hmac, if_neg hmac]
        exact ⟨⟨hgroup.symm, ⟨rfl, rfl, rfl⟩, rfl, rfl, ⟨rfl, rfl⟩,
          fun mac => (staAfter_ap hstation mac).symm⟩, Bool.eq_false_iff.mpr hwep, hmac, ht⟩
  | pairwise mac =>
    rw [ht] at hs'
    dsimp only at hs' ⊢
    cases hsta : s.sta mac with
    | none =>
      rw [hsta] at hs'
      exact nomatch hs'
    | some st =>
      rw [hsta] at hs'
      dsimp only at hs'
      split_ifs at hs' with hx
      · obtain rfl := Option.some.inj hs'
        rw [if_pos hx]
        have hmac : a.cipher ≠ .aesCmac := by
          intro hc
          have hok := a.letThrough
          rw [hc] at hok
          exact nomatch ht.symm.trans hok.1
        unfold KeyState.apSetPairwise
        rw [if_neg hmac]
        refine ⟨⟨rfl, ⟨rfl, rfl, rfl⟩, ⟨rfl, rfl⟩, ⟨rfl, rfl⟩, st, hsta, ?_⟩, mac, ht⟩
        have hprivacy : (if isWepEnc a.cipher.alg then wepAlg a.key.length else a.cipher.alg) =
            a.cipher.alg := by
          split
          · next hwep => exact (wep_len hwep).2.1
          · rfl
        rw [pairwiseAfter, hstation, if_neg Bool.false_ne_true, hprivacy]
        rfl
      · rw [if_neg hx]
        exact (Option.some.inj hs').symm

theorem addKey_effect (h : s.addKey a = some s') : Effect s a s' (slot s a) := by
  cases hstation : s.station with
  | true => exact effect_station hstation h
  | false => exact effect_ap hstation h

end Effects

/-! ## Requests that keep a key readable -/

section Clean

variable (r : Run)

def CipherKept (q : KeyName) (g : Encrypt) : Prop := ∀ c k, r.keys q = some (c, k) → c.alg = g

/-- The request, put in its slot, leaves the index 0 to 3 readable: the cipher of the group keys
becomes or stays that of the key, and no flag is set for an index without one. -/
def CleanGroup (i : ℕ) (a : AddKey) : Slot → Prop
  | .wep =>
    if a.name = .group i then
      groupAfter r.state a = a.cipher.alg ∧ (marks r.state a || r.state.keyMask.testBit i) = true
    else a.keyIndex ≠ i ∧ CipherKept r (.group i) (groupAfter r.state a)
  | .group =>
    if a.keyIndex = i then groupAfter r.state a = a.cipher.alg
    else ∃ c k, r.keys (.group i) = some (c, k) ∧ c.alg = groupAfter r.state a
  | .bip => True
  | .pairwise _ => True
  | .nowhere => a.name ≠ .group i

/-- The index 4 or 5 is read back while the group cipher is not WEP. -/
def CleanMgmt (i : ℕ) (a : AddKey) : Slot → Prop
  | .wep => isWepEnc (groupAfter r.state a) = false ∨ r.keys (.group i) = none
  | .group => isWepEnc (groupAfter r.state a) = true ∨
      (r.keys (.group i) = none → r.state.binstallBipkey = false)
  | .bip =>
    if a.keyIndex = i then isWepEnc r.state.grpPrivacy = false
    else r.keys (.group i) = none → isWepEnc r.state.grpPrivacy = true
  | .pairwise _ => True
  | .nowhere => a.name ≠ .group i

/-- The station's key stays the one that was added for it, of the cipher of the request; the
length of a WEP key is taken from the default keys. -/
def CleanPairwise (keyid : ℕ) (mac : MacAddr) (a : AddKey) : Slot → Prop
  | .wep => a.name ≠ .pairwise mac ∧ (a.keyIndex = keyid →
      ∀ c k, r.keys (.pairwise mac) = some (c, k) → isWepEnc c.alg = true →
        k.length = a.key.length)
  | .group => ∀ st, staAfter r.state mac = some st → CipherKept r (.pairwise mac) st.privacy
  | .bip => ∀ st, staAfter r.state mac = some st → CipherKept r (.pairwise mac) st.privacy
  | .pairwise mac' =>
    if mac' = mac then
      a.name = .pairwise mac ∧
        (∀ st, r.state.sta mac = some st → pairwiseAfter r.state a st = a.cipher.alg) ∧
        (isWepEnc a.cipher.alg = true → r.state.defKeylen keyid = a.key.length)
    else a.name ≠ .pairwise mac
  | .nowhere => a.name ≠ .pairwise mac

def CleanAdd (keyid : ℕ) (a : AddKey) : KeyName → Prop
  | .group i =>
    if i < 4 then CleanGroup r i a (slot r.state a)
    else if i ≤ 5 then CleanMgmt r i a (slot r.state a)
    else True
  | .pairwise mac => CleanPairwise r keyid mac a (slot r.state a)

def CleanDefault (idx : ℕ) : KeyName → Prop
  | .group i =>
    if i < 4 then CipherKept r (.group i) (wepAlg (r.state.defKeylen idx))
    else r.keys (.group i) = none
  | .pairwise _ => True

end Clean

def Clean (keyid : ℕ) (q : KeyName) (r : Run) : Request → Prop
  | .add a => (r.state.addKey a).isSome → CleanAdd r keyid a q
  | .del idx target => delName idx target = q → r.keys q = none
  | .setDefault idx => idx < 4 ∧ isWepEnc r.state.privacyAlgrthm = true → CleanDefault r idx q

/-! ## The tables hold what was added -/

section Invariant

variable (r : Run)

def HoldsGroup (i : ℕ) : Prop :=
  match r.keys (.group i) with
  | none => r.state.keyMask.testBit i = false ∧ r.state.binstallGrpkey = false
  | some (c, k) => c.alg = r.state.grpPrivacy ∧
      if isWepEnc c.alg then
        r.state.keyMask.testBit i = true ∧ (r.state.defKey i).take (r.state.defKeylen i) = k
      else r.state.binstallGrpkey = true ∧ (r.state.grpKey i).take 16 = k

def HoldsMgmt (i : ℕ) : Prop :=
  match r.keys (.group i) with
  | none => r.state.binstallBipkey = true → isWepEnc r.state.grpPrivacy = true
  | some (c, k) => c = .aesCmac ∧ isWepEnc r.state.grpPrivacy = false ∧
      r.state.binstallBipkey = true ∧ (r.state.bipKey i).take 16 = k

def HoldsPairwise (keyid : ℕ) (mac : MacAddr) : Prop :=
  match r.keys (.pairwise mac) with
  | none => ∀ st, r.state.sta mac = some st → st.installed = false
  | some (c, k) => ∃ st, r.state.sta mac = some st ∧ st.installed = true ∧ st.privacy = c.alg ∧
      if isWepEnc c.alg then st.uncstKey.take k.length = k ∧ r.state.defKeylen keyid = k.length
      else st.uncstKey.take 16 = k

def Holds (keyid : ℕ) : KeyName → Prop
  | .group i =>
    if i < 4 then HoldsGroup r i else if i ≤ 5 then HoldsMgmt r i else r.keys (.group i) = none
  | .pairwise mac => HoldsPairwise r keyid mac

end Invariant

theorem deliver_alg (s : KeyState) (keyid : ℕ) (c : Cipher) (buf : List UInt8) (pn : Option ℕ) :
    s.deliver keyid c.alg buf pn =
      some ⟨c, if isWepEnc c.alg then buf.take (s.defKeylen keyid) else buf.take 16, pn⟩ := by
  cases c <;> rfl

theorem holds_reads {keyid : ℕ} (hid : keyid < 4) {q : KeyName} {r : Run} (h : Holds r keyid q) :
    ReadsBack keyid q r := by
  unfold ReadsBack asked
  cases q with
  | group i =>
    dsimp only [Holds] at h
    unfold KeyState.getKey
    dsimp only
    by_cases hi : i < 4
    · rw [if_pos hi, HoldsGroup] at h
      rw [if_neg (by omega), if_neg (by omega : ¬ 4 ≤ i), if_pos hi]
      cases hkey : r.keys (.group i) with
      | none =>
        rw [hkey] at h
        rw [h.1, h.2]
        split <;> rfl
      | some p =>
        obtain ⟨c, k⟩ := p
        rw [hkey] at h
        obtain ⟨hg, h⟩ := h
        rw [← hg]
        by_cases hwep : isWepEnc c.alg = true
        · rw [if_pos hwep] at h ⊢
          rw [if_pos h.1, deliver_alg, if_pos hwep, Option.map_some, h.2]
        · rw [if_neg hwep] at h ⊢
          rw [if_pos h.1, deliver_alg, if_neg hwep, Option.map_some, h.2]
    · rw [if_neg hi] at h
      by_cases hfive : i ≤ 5
      · rw [if_pos hfive, HoldsMgmt] at h
        rw [if_neg (by omega), if_pos (by omega : 4 ≤ i), if_neg hi]
        cases hkey : r.keys (.group i) with
        | none =>
          rw [hkey] at h
          split
          · rfl
          · next hwep =>
            rw [if_neg fun hflag => hwep (h hflag)]
            rfl
        | some p =>
          obtain ⟨c, k⟩ := p
          rw [hkey] at h
          obtain ⟨rfl, hwep, hflag, hkey⟩ := h
          rw [hwep, if_neg Bool.false_ne_true, if_pos hflag]
          exact congrArg (fun key => some (Cipher.aesCmac, key)) hkey
      · rw [if_neg hfive] at h
        rw [if_pos (by omega), h]
        rfl
  | pairwise mac =>
    dsimp only [Holds, HoldsPairwise] at h
    unfold KeyState.getKey
    dsimp only
    rw [if_neg (by omega)]
    cases hkey : r.keys (.pairwise mac) with
    | none =>
      rw [hkey] at h
      cases hsta : r.state.sta mac with
      | none => rfl
      | some st =>
        dsimp only
        rw [if_pos hid, h st hsta]
        rfl
    | some p =>
      obtain ⟨c, k⟩ := p
      rw [hkey] at h
      obtain ⟨st, hsta, hinst, hprivacy, h⟩ := h
      rw [hsta]
      dsimp only
      rw [if_pos hid, if_pos hinst, hprivacy, deliver_alg]
      by_cases hwep : isWepEnc c.alg = true
      · rw [if_pos hwep] at h ⊢
        rw [h.2, Option.map_some, h.1]
      · rw [if_neg hwep] at h ⊢
        rw [Option.map_some, h]

/-! ## Steps -/

section Steps

variable {r : Run} {a : AddKey} {s' : KeyState} {i : ℕ}

abbrev AddKey.put (a : AddKey) (keys : Keys) : Keys :=
  Function.update keys a.name (some (a.cipher, a.used))

theorem name_group : a.name = .group i ↔ a.target = .group ∧ a.keyIndex = i := by
  unfold AddKey.name
  cases a.target with
  | group => simp
  | pairwise mac => simp

theorem name_pairwise {mac : MacAddr} : a.name = .pairwise mac ↔ a.target = .pairwise mac := by
  unfold AddKey.name
  cases a.target with
  | group => simp
  | pairwise mac' => simp

theorem put_own {q : KeyName} (keys : Keys) (h : a.name = q) :
    a.put keys q = some (a.cipher, a.used) := by
  rw [← h]
  exact Function.update_self _ _ _

theorem put_other {q : KeyName} (keys : Keys) (h : a.name ≠ q) : a.put keys q = keys q :=
  Function.update_of_ne (Ne.symm h) _ _

theorem take_putKey (buf bytes : List UInt8) : (putKey buf bytes).take bytes.length = bytes :=
  List.take_left

theorem used_length (h : isWepEnc a.cipher.alg = false) : a.used.length = 16 := by
  have hok := a.letThrough
  rw [AddKey.used, List.length_take]
  cases hc : a.cipher <;> rw [hc] at h hok
  · exact nomatch h
  · exact nomatch h
  · rw [hok.2]
    rfl
  · rw [hok.2]
    rfl
  · rw [hok.2.2]
    rfl

theorem take_used (h : isWepEnc a.cipher.alg = false) (buf : List UInt8) :
    (putKey buf a.used).take 16 = a.used := by
  have htake := take_putKey buf a.used
  rwa [used_length h] at htake

theorem testBit_mark (m j i : ℕ) : (m ||| 2 ^ j).testBit i = (m.testBit i || decide (j = i)) := by
  rw [Nat.testBit_or, Nat.testBit_two_pow]

theorem mgmt_index (h : a.cipher = .aesCmac) : a.keyIndex = 4 ∨ a.keyIndex = 5 := by
  have hok := a.letThrough
  rw [h] at hok
  exact hok.2.1

theorem group_index (h : a.cipher ≠ .aesCmac) (htarget : a.target = .group) : a.keyIndex < 4 := by
  have hok := a.letThrough
  rw [htarget] at hok
  cases hc : a.cipher <;> rw [hc] at h hok
  · exact hok.1
  · exact hok.1
  · exact hok.1
  · exact hok.1
  · exact absurd rfl h

theorem group_holds (hi : i < 4) (h : r.state.addKey a = some s') (hh : HoldsGroup r i)
    (hc : CleanGroup r i a (slot r.state a)) : HoldsGroup ⟨s', a.put r.keys⟩ i := by
  have heff := addKey_effect h
  generalize slot r.state a = sl at heff hc
  unfold HoldsGroup at hh ⊢
  dsimp only
  cases sl with
  | wep =>
    obtain ⟨⟨hgroup, hkey, hlen, hmask, ⟨hgrp, hflag⟩, -, -⟩, hwep⟩ := heff
    rw [CleanGroup] at hc
    by_cases hown : a.name = .group i
    · rw [if_pos hown] at hc
      obtain ⟨hcipher, hmark⟩ := hc
      obtain ⟨-, rfl⟩ := name_group.mp hown
      rw [put_own r.keys hown]
      dsimp only
      refine ⟨by rw [hgroup, hcipher], ?_⟩
      rw [if_pos hwep, hmask, hkey, hlen, Function.update_self, Function.update_self, take_putKey,
        used_wep hwep]
      refine ⟨?_, rfl⟩
      cases hm : marks r.state a with
      | true =>
        rw [if_pos rfl, testBit_mark, decide_eq_true rfl, Bool.or_true]
      | false =>
        rw [hm, Bool.false_or] at hmark
        rw [if_neg Bool.false_ne_true, hmark]
    · rw [if_neg hown] at hc
      obtain ⟨hidx, hkept⟩ := hc
      have hbit : s'.keyMask.testBit i = r.state.keyMask.testBit i := by
        rw [hmask]
        split
        · rw [testBit_mark, decide_eq_false hidx, Bool.or_false]
        · rfl
      rw [put_other r.keys hown, hbit, hkey, hlen, hgrp, hflag, hgroup,
        Function.update_of_ne (Ne.symm hidx), Function.update_of_ne (Ne.symm hidx)]
      cases hq : r.keys (.group i) with
      | none =>
        rw [hq] at hh
        exact hh
      | some p =>
        obtain ⟨c, k⟩ := p
        rw [hq] at hh
        exact ⟨hkept c k hq, hh.2⟩
  | group =>
    obtain ⟨⟨hgroup, ⟨hdef, hlen, hmask⟩, hkey, hflag, -, -⟩, hwep, -, htarget⟩ := heff
    rw [CleanGroup] at hc
    by_cases hidx : a.keyIndex = i
    · rw [if_pos hidx] at hc
      rw [put_own r.keys (name_group.mpr ⟨htarget, hidx⟩)]
      dsimp only
      refine ⟨by rw [hgroup, hc], ?_⟩
      rw [hwep, if_neg Bool.false_ne_true, hkey, ← hidx, Function.update_self, take_used hwep]
      exact ⟨hflag, rfl⟩
    · rw [if_neg hidx] at hc
      obtain ⟨c, k, hq, hcipher⟩ := hc
      rw [hq] at hh
      rw [put_other r.keys fun h => hidx (name_group.mp h).2, hq]
      dsimp only at hh ⊢
      refine ⟨by rw [hgroup, hcipher], ?_⟩
      rw [hdef, hlen, hmask, hkey, hflag, Function.update_of_ne (Ne.symm hidx)]
      by_cases hw : isWepEnc c.alg = true
      · rw [if_pos hw] at hh ⊢
        exact hh.2
      · rw [if_neg hw] at hh ⊢
        exact ⟨rfl, hh.2.2⟩
  | bip =>
    obtain ⟨⟨hgroup, ⟨hdef, hlen, hmask⟩, ⟨hgrp, hflag⟩, -, -, -⟩, hmac, htarget⟩ := heff
    have hidx : a.keyIndex ≠ i := by
      have hmgmt := mgmt_index hmac
      omega
    rw [put_other r.keys fun h => hidx (name_group.mp h).2, hgroup, hdef, hlen, hmask, hgrp, hflag]
    exact hh
  | pairwise mac =>
    obtain ⟨⟨hgroup, ⟨hdef, hlen, hmask⟩, ⟨hgrp, hflag⟩, -, -⟩, mac', htarget⟩ := heff
    have hother : a.name ≠ .group i := fun h => nomatch htarget.symm.trans (name_group.mp h).1
    rw [put_other r.keys hother, hgroup, hdef, hlen, hmask, hgrp, hflag]
    exact hh
  | nowhere =>
    have hs : s' = r.state := heff
    rw [put_other r.keys hc, hs]
    exact hh

theorem mgmt_holds (hi : 4 ≤ i) (hfive : i ≤ 5) (h : r.state.addKey a = some s')
    (hh : HoldsMgmt r i) (hc : CleanMgmt r i a (slot r.state a)) :
    HoldsMgmt ⟨s', a.put r.keys⟩ i := by
  have heff := addKey_effect h
  generalize slot r.state a = sl at heff hc
  unfold HoldsMgmt at hh ⊢
  dsimp only
  cases sl with
  | wep =>
    obtain ⟨⟨hgroup, -, -, -, -, ⟨hbip, hflag⟩, -⟩, hwep⟩ := heff
    have hidx := (wep_len hwep).2.2.2
    rw [put_other r.keys fun h => absurd (name_group.mp h).2 (by omega), hgroup, hbip, hflag]
    cases hq : r.keys (.group i) with
    | none =>
      rw [hq] at hh
      intro hset
      have hold := hh hset
      rw [groupAfter, if_pos hwep]
      split
      · exact hold
      · exact hwep
    | some p =>
      obtain ⟨c, k⟩ := p
      rw [hq] at hh
      exact ⟨hh.1, hc.resolve_right (by rw [hq]; exact nofun), hh.2.2⟩
  | group =>
    obtain ⟨⟨hgroup, -, -, -, ⟨hbip, hflag⟩, -⟩, hwep, hmac, htarget⟩ := heff
    have hidx := group_index hmac htarget
    rw [put_other r.keys fun h => absurd (name_group.mp h).2 (by omega), hgroup, hbip, hflag]
    cases hq : r.keys (.group i) with
    | none =>
      rw [hq] at hh
      intro hset
      refine hc.resolve_right fun hnone => ?_
      rw [hnone hq] at hset
      exact nomatch hset
    | some p =>
      obtain ⟨c, k⟩ := p
      rw [hq] at hh
      refine ⟨hh.1, ?_, hh.2.2⟩
      rw [groupAfter, if_neg (by rw [hwep]; exact Bool.false_ne_true)]
      split
      · exact hh.2.1
      · exact hwep
  | bip =>
    obtain ⟨⟨hgroup, -, -, hkey, hflag, -⟩, hmac, htarget⟩ := heff
    have hwep : isWepEnc a.cipher.alg = false := by
      rw [hmac]
      rfl
    rw [CleanMgmt] at hc
    by_cases hidx : a.keyIndex = i
    · rw [if_pos hidx] at hc
      rw [put_own r.keys (name_group.mpr ⟨htarget, hidx⟩)]
      dsimp only
      rw [hgroup, hkey, ← hidx, Function.update_self, take_used hwep]
      exact ⟨hmac, hc, hflag, rfl⟩
    · rw [if_neg hidx] at hc
      rw [put_other r.keys fun h => hidx (name_group.mp h).2, hgroup, hkey, hflag,
        Function.update_of_ne (Ne.symm hidx)]
      cases hq : r.keys (.group i) with
      | none => exact fun _ => hc hq
      | some p =>
        obtain ⟨c, k⟩ := p
        rw [hq] at hh
        exact ⟨hh.1, hh.2.1, rfl, hh.2.2.2⟩
  | pairwise mac =>
    obtain ⟨⟨hgroup, -, -, ⟨hbip, hflag⟩, -⟩, mac', htarget⟩ := heff
    have hother : a.name ≠ .group i := fun h => nomatch htarget.symm.trans (name_group.mp h).1
    rw [put_other r.keys hother, hgroup, hbip, hflag]
    exact hh
  | nowhere =>
    have hs : s' = r.state := heff
    rw [put_other r.keys hc, hs]
    exact hh

theorem connCipher_eq (s : KeyState) (st : StaKey) :
    s.connCipher st = { st with privacy := (s.connCipher st).privacy } := by
  unfold KeyState.connCipher
  split <;> rfl

theorem staAfter_holds {keyid : ℕ} {mac : MacAddr} {keys : Keys}
    (hkeys : keys (.pairwise mac) = r.keys (.pairwise mac)) (hh : HoldsPairwise r keyid mac)
    (hlen : s'.defKeylen = r.state.defKeylen) (hsta : ∀ mac, s'.sta mac = staAfter r.state mac)
    (hc : ∀ st, staAfter r.state mac = some st → CipherKept r (.pairwise mac) st.privacy) :
    HoldsPairwise ⟨s', keys⟩ keyid mac := by
  have hafter : ∀ st, r.state.sta mac = some st → ∃ st', staAfter r.state mac = some st' ∧
      st'.uncstKey = st.uncstKey ∧ st'.installed = st.installed := by
    intro st hst
    rw [staAfter, hst]
    split
    · exact ⟨_, rfl, by rw [connCipher_eq], by rw [connCipher_eq]⟩
    · exact ⟨st, rfl, rfl, rfl⟩
  unfold HoldsPairwise at hh ⊢
  dsimp only
  rw [hkeys, hlen, hsta]
  cases hq : r.keys (.pairwise mac) with
  | none =>
    rw [hq] at hh
    intro st' hst'
    cases hst : r.state.sta mac with
    | none =>
      rw [staAfter, hst] at hst'
      split at hst' <;> exact nomatch hst'
    | some st =>
      obtain ⟨st'', hst'', -, hinst⟩ := hafter st hst
      obtain rfl := Option.some.inj (hst'.symm.trans hst'')
      exact hinst.trans (hh st hst)
  | some p =>
    obtain ⟨c, k⟩ := p
    rw [hq] at hh
    obtain ⟨st, hst, hinst, -, hkey⟩ := hh
    obtain ⟨st', hst', huncst, hinst'⟩ := hafter st hst
    refine ⟨st', hst', hinst'.trans hinst, (hc st' hst' c k hq).symm, ?_⟩
    rw [huncst]
    exact hkey

theorem pairwise_holds {keyid : ℕ} {mac : MacAddr} (h : r.state.addKey a = some s')
    (hh : HoldsPairwise r keyid mac) (hc : CleanPairwise r keyid mac a (slot r.state a)) :
    HoldsPairwise ⟨s', a.put r.keys⟩ keyid mac := by
  have heff := addKey_effect h
  generalize slot r.state a = sl at heff hc
  cases sl with
  | wep =>
    obtain ⟨⟨-, -, hlen, -, -, -, hsta⟩, -⟩ := heff
    obtain ⟨hother, hsize⟩ := hc
    unfold HoldsPairwise at hh ⊢
    dsimp only
    rw [put_other r.keys hother, hlen, hsta]
    cases hq : r.keys (.pairwise mac) with
    | none =>
      rw [hq] at hh
      exact hh
    | some p =>
      obtain ⟨c, k⟩ := p
      rw [hq] at hh
      obtain ⟨st, hst, hinst, hprivacy, hkey⟩ := hh
      refine ⟨st, hst, hinst, hprivacy, ?_⟩
      by_cases hwep : isWepEnc c.alg = true
      · rw [if_pos hwep] at hkey ⊢
        refine ⟨hkey.1, ?_⟩
        by_cases hidx : a.keyIndex = keyid
        · rw [hidx, Function.update_self, hsize hidx c k hq hwep]
        · rw [Function.update_of_ne (Ne.symm hidx)]
          exact hkey.2
      · rw [if_neg hwep] at hkey ⊢
        exact hkey
  | group =>
    obtain ⟨⟨-, ⟨-, hlen, -⟩, -, -, -, hsta⟩, -, -, htarget⟩ := heff
    have hother : a.name ≠ .pairwise mac := fun h => nomatch htarget.symm.trans (name_pairwise.mp h)
    exact staAfter_holds (put_other r.keys hother) hh hlen hsta hc
  | bip =>
    obtain ⟨⟨-, ⟨-, hlen, -⟩, -, -, -, hsta⟩, -, htarget⟩ := heff
    have hother : a.name ≠ .pairwise mac := fun h => nomatch htarget.symm.trans (name_pairwise.mp h)
    exact staAfter_holds (put_other r.keys hother) hh hlen hsta hc
  | pairwise mac' =>
    obtain ⟨⟨-, ⟨-, hlen, -⟩, -, -, st, hst, hsta⟩, -⟩ := heff
    rw [CleanPairwise] at hc
    by_cases hmac : mac' = mac
    · rw [if_pos hmac] at hc
      obtain ⟨hown, hcipher, hsize⟩ := hc
      subst hmac
      unfold HoldsPairwise
      dsimp only
      rw [put_own r.keys hown, hsta, hlen, Function.update_self]
      refine ⟨_, rfl, rfl, hcipher st hst, ?_⟩
      by_cases hwep : isWepEnc a.cipher.alg = true
      · rw [if_pos hwep, used_wep hwep]
        exact ⟨take_putKey _ _, hsize hwep⟩
      · rw [if_neg hwep]
        exact take_used (Bool.eq_false_iff.mpr hwep) _
    · rw [if_neg hmac] at hc
      unfold HoldsPairwise at hh ⊢
      dsimp only
      rw [put_other r.keys hc, hsta, hlen, Function.update_of_ne (Ne.symm hmac)]
      exact hh
  | nowhere =>
    have hs : s' = r.state := heff
    unfold HoldsPairwise at hh ⊢
    dsimp only
    rw [put_other r.keys hc, hs]
    exact hh

theorem add_holds {keyid : ℕ} {q : KeyName} (h : r.state.addKey a = some s') (hh : Holds r keyid q)
    (hc : CleanAdd r keyid a q) : Holds ⟨s', a.put r.keys⟩ keyid q := by
  cases q with
  | pairwise mac => exact pairwise_holds h hh hc
  | group i =>
    unfold Holds at hh ⊢
    unfold CleanAdd at hc
    dsimp only at hh hc ⊢
    by_cases hi : i < 4
    · rw [if_pos hi] at hh hc ⊢
      exact group_holds hi h hh hc
    · rw [if_neg hi] at hh hc ⊢
      by_cases hfive : i ≤ 5
      · rw [if_pos hfive] at hh hc ⊢
        exact mgmt_holds (Nat.le_of_not_lt hi) hfive h hh hc
      · rw [if_neg hfive] at hh ⊢
        rwa [put_other r.keys fun hname => ?_]
        obtain ⟨htarget, rfl⟩ := name_group.mp hname
        by_cases hmac : a.cipher = .aesCmac
        · have hidx := mgmt_index hmac
          omega
        · exact hi (group_index hmac htarget)

theorem setDefault_holds {keyid idx : ℕ} {q : KeyName} (hh : Holds r keyid q)
    (hc : idx < 4 ∧ isWepEnc r.state.privacyAlgrthm = true → CleanDefault r idx q) :
    Holds ⟨r.state.setDefaultKey idx, r.keys⟩ keyid q := by
  unfold KeyState.setDefaultKey
  split
  · next heff =>
    replace hc := hc heff
    cases q with
    | pairwise mac => exact hh
    | group i =>
      unfold Holds at hh ⊢
      unfold CleanDefault at hc
      dsimp only at hh hc ⊢
      by_cases hi : i < 4
      · rw [if_pos hi] at hh hc ⊢
        unfold HoldsGroup at hh ⊢
        dsimp only [KeyState.useAsDefault]
        cases hq : r.keys (.group i) with
        | none =>
          rw [hq] at hh
          exact hh
        | some p =>
          obtain ⟨c, k⟩ := p
          rw [hq] at hh
          exact ⟨hc c k hq, hh.2⟩
      · rw [if_neg hi] at hh hc ⊢
        by_cases hfive : i ≤ 5
        · rw [if_pos hfive]
          unfold HoldsMgmt
          dsimp only [KeyState.useAsDefault]
          rw [hc]
          intro _
          unfold wepAlg
          split <;> rfl
        · rw [if_neg hfive]
          exact hc
  · exact hh

theorem del_holds {keyid idx : ℕ} {target : Target} {q : KeyName} (hh : Holds r keyid q)
    (hc : delName idx target = q → r.keys q = none) :
    Holds ⟨r.state.delKey idx, Function.update r.keys (delName idx target) none⟩ keyid q := by
  have hkeys : Function.update r.keys (delName idx target) none q = r.keys q := by
    by_cases hq : delName idx target = q
    · rw [← hq, Function.update_self, hq, hc hq]
    · exact Function.update_of_ne (Ne.symm hq) _ _
  have hdel : ∀ s : KeyState, ∃ set, s.delKey idx = { s with bWepDefaultKeyIdxSet := set } := by
    intro s
    unfold KeyState.delKey
    split
    · exact ⟨false, rfl⟩
    · exact ⟨s.bWepDefaultKeyIdxSet, rfl⟩
  obtain ⟨set, hset⟩ := hdel r.state
  cases q with
  | group i =>
    unfold Holds HoldsGroup HoldsMgmt at hh ⊢
    dsimp only at hh ⊢
    rw [hkeys, hset]
    exact hh
  | pairwise mac =>
    unfold Holds HoldsPairwise at hh ⊢
    dsimp only at hh ⊢
    rw [hkeys, hset]
    exact hh

theorem step_holds {keyid : ℕ} {q : KeyName} {request : Request} (hh : Holds r keyid q)
    (hc : Clean keyid q r request) : Holds (step r request) keyid q := by
  cases request with
  | add a =>
    unfold step
    dsimp only
    cases hs : r.state.addKey a with
    | none => exact hh
    | some s' => exact add_holds hs hh (hc (hs ▸ rfl))
  | del idx target => exact del_holds hh hc
  | setDefault idx => exact setDefault_holds hh hc

end Steps

/-! ## Runs -/

def start (s : KeyState) : Run := ⟨s, fun _ => none⟩

theorem fresh_holds {s : KeyState} (h : Fresh s) (keyid : ℕ) (q : KeyName) :
    Holds (start s) keyid q := by
  cases q with
  | group i =>
    unfold Holds
    dsimp only
    split
    · refine ⟨?_, h.grp⟩
      rw [start, h.mask]
      exact Nat.zero_testBit i
    · split
      · intro hset
        exact nomatch h.bip.symm.trans hset
      · rfl
  | pairwise mac => exact h.sta mac

def exampleAp : KeyState where
  station := false
  bssid := macOf 2 0 0 0 0 1
  authAlgrthm := .ieee8021X
  ndisencryptstatus := .encryption3Enabled
  privacyAlgrthm := .aes
  grpPrivacy := .aes
  sta := fun mac => if mac = macOf 2 0 0 0 0 2 then some {} else none

def exampleKey (idx : ℕ) (h : idx < 4) : AddKey where
  target := .group
  keyIndex := idx
  cipher := .ccmp
  key := List.replicate 16 7
  seq := List.replicate 6 0
  letThrough := ⟨h, rfl⟩
  unicast := nofun

theorem exampleAp_fresh : Fresh exampleAp where
  mask := rfl
  grp := rfl
  bip := rfl
  sta := by
    intro mac st hst
    dsimp only [exampleAp] at hst
    split at hst
    · obtain rfl := Option.some.inj hst
      rfl
    · exact nomatch hst

end Rtl8189.KeyReadback
