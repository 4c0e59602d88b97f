import Rtl8189.Bip
import Rtl8189.Coalesce
import Rtl8189.EventRun
import Rtl8189.Issuer
import Rtl8189.PacketNumber
import Rtl8189.TkipXmit

/-!
# Packet numbers of what is sent

A data frame takes its packet number in `update_attrib_sec_info`, waits in the transmit
queue, and is fragmented and encrypted when it is dumped; a management frame does both
at once. The keys are those of TKIP and CCMP; WEP counts otherwise. For every key it is
recorded how often it was installed and how many numbers were taken since.
-/
namespace Rtl8189.TxNumbers

open EventRun
open PacketNumber (AuthAlgrthm ccmph2Pn)

/-! ## Keys and stations -/

inductive KeyAlg
  | none
  | tkip
  | ccmp
  deriving DecidableEq

def KeyAlg.encrypt : KeyAlg → Encrypt
  | .none => .noPrivacy
  | .tkip => .tkip
  | .ccmp => .aes

structure StaInfo extends Bip.MgmtSta where
  dot118021XPrivacy : KeyAlg := .none
  ieee8021xBlocked : Bool := false

structure SecurityPriv extends Bip.MgmtSecurity where
  dot11AuthAlgrthm : AuthAlgrthm := .ieee8021X
  dot11PrivacyAlgrthm : KeyAlg := .none
  dot11PrivacyKeyIndex : ℕ := 0
  dot118021XGrpPrivacy : KeyAlg := .none

inductive KeyRef
  | pairwise (ra : MacAddr)
  | group
  deriving DecidableEq

def keyOf (ra : MacAddr) : KeyRef := if isMcast ra then .group else .pairwise ra

/-! ## Frames -/

/-- What `update_attrib_sec_info` leaves in the attributes. -/
structure SecAttrib where
  encrypt : KeyAlg := .none
  keyIdx : ℕ := 0
  iv : List UInt8 := []
  bswenc : Bool := false
  dot118021xUncstKey : List UInt8 := List.replicate 16 0
  deriving DecidableEq

/-- A data frame in the transmit queue, with the epoch its number is of. -/
structure XmitFrame where
  ra : MacAddr
  etherType : ℕ
  hdrlen : ℕ
  sec : SecAttrib
  payload : List UInt8
  epoch : ℕ

def XmitFrame.attrib (p : XmitFrame) : Coalesce.PktAttrib where
  hdrlen := p.hdrlen
  encrypt := p.sec.encrypt.encrypt
  bswenc := p.sec.bswenc
  bmcst := isMcast p.ra
  etherType := p.etherType

structure Mpdu where
  key : KeyRef
  epoch : ℕ
  encrypt : KeyAlg
  iv : List UInt8
  deriving DecidableEq

def pnOf (alg : KeyAlg) (iv : List UInt8) : ℕ :=
  if alg = .tkip then TkipXmit.getTkipPn iv else ccmph2Pn (le64 iv 0)

def Mpdu.stamp (m : Mpdu) : KeyRef × ℕ × ℕ := (m.key, m.epoch, pnOf m.encrypt m.iv)

/-- A management frame with room for the IV and the MIC. -/
structure MgmtFrame where
  x : Bip.MgmtXmit
  hdrlen : x.hdrlen = Bip.wlanHdrA3Len
  body : Bip.wlanHdrA3Len ≤ x.pktlen
  room : x.pktlen + 16 ≤ x.pframe.length

def MgmtFrame.fresh (f : MgmtFrame) : Bip.MgmtXmit := { f.x with psta := none }

structure State where
  sta : MacAddr → Option StaInfo
  bcmc : StaInfo
  sec : SecurityPriv
  pending : List XmitFrame
  sent : List Mpdu
  issuer : Issuer KeyRef

def State.init (sta : MacAddr → Option StaInfo) (bcmc : StaInfo) (sec : SecurityPriv) : State where
  sta := sta
  bcmc := bcmc
  sec := sec
  pending := []
  sent := []
  issuer := {
    start := fun k => match k with
      | .group => bcmc.dot11txpn
      | .pairwise ra => ((sta ra).map fun p => p.dot11txpn).getD 0
    taken := fun _ => 0, epoch := fun _ => 0, issued := [] }

def State.txpn (s : State) : KeyRef → Option ℕ
  | .group => some s.bcmc.dot11txpn
  | .pairwise ra => (s.sta ra).map fun p => p.dot11txpn

def State.setSta (s : State) (ra : MacAddr) (p : StaInfo) : State :=
  { s with sta := fun a => if a = ra then some p else s.sta a }

/-! ## Installing keys -/

/-- A pairwise key from the supplicant or the authenticator; an access point may clear
it. -/
def setPairwiseKey (s : State) (ap : Bool) (ra : MacAddr) (alg : KeyAlg) (key : List UInt8)
    (seq : UInt64) : State :=
  if s.sec.dot11AuthAlgrthm ≠ .ieee8021X then s
  else
    match s.sta ra with
    | none => s
    | some psta =>
      { s.setSta ra { psta with
          dot118021xUncstKey := key.take 16
          dot118021XPrivacy := alg
          dot11txpn := seq.toNat
          ieee8021xBlocked := if ap = true ∨ alg ≠ .none then false else psta.ieee8021xBlocked
          bpairwiseKeyInstalled :=
            if ap = true ∧ alg = .none then psta.bpairwiseKeyInstalled else true } with
        issuer := s.issuer.renew (.pairwise ra) seq.toNat }

/-- A group key to send with, in `rtw_cfg80211_ap_set_encryption`. -/
def apSetGroupKey (s : State) (idx : ℕ) (alg : KeyAlg) (key : List UInt8) (seq : UInt64) : State :=
  { s with
    sec := { s.sec with
      dot118021XGrpPrivacy := alg
      dot118021XGrpKey := fun i =>
        if i = idx ∧ alg ≠ .none then key.take 16 else s.sec.dot118021XGrpKey i
      dot118021XGrpKeyid := idx
      binstallGrpkey := true
      dot11PrivacyAlgrthm := alg }
    bcmc := { s.bcmc with
      dot11txpn := seq.toNat, ieee8021xBlocked := false, dot118021XPrivacy := alg }
    issuer := s.issuer.renew .group seq.toNat }

/-- The group key of the access point, in `rtw_cfg80211_set_encryption`; what is sent is
not counted anew. -/
def staSetGroupKey (s : State) (idx : ℕ) (key : List UInt8) : State :=
  { s with
    sec := { s.sec with
      dot118021XGrpKey := fun i => if i = idx then key.take 16 else s.sec.dot118021XGrpKey i
      dot118021XGrpKeyid := idx
      binstallGrpkey := true }
    issuer := s.issuer.renew .group s.bcmc.dot11txpn }

/-! ## Sending -/

structure TxSec where
  mpState : Bool := false
  busetkipkey : Bool := true
  swEncrypt : Bool := false
  hwDecrypted : Bool := true
  pkGkConflict : Bool := false

def nextPn (pn : ℕ) : ℕ := Bip.nextPn pn % 2 ^ 64

def tkipIv (pn keyidx : ℕ) : List UInt8 :=
  [UInt8.ofNat (pn / 2 ^ 8), (UInt8.ofNat (pn / 2 ^ 8) ||| 0x20) &&& 0x7f, UInt8.ofNat pn,
    UInt8.ofNat (32 + keyidx % 4 * 64), UInt8.ofNat (pn / 2 ^ 16), UInt8.ofNat (pn / 2 ^ 24),
    UInt8.ofNat (pn / 2 ^ 32), UInt8.ofNat (pn / 2 ^ 40)]

def ivOf (alg : KeyAlg) (pn keyidx : ℕ) : List UInt8 :=
  if alg = .tkip then tkipIv pn keyidx else Bip.aesIv pn keyidx

def getEncryAlgo (sec : SecurityPriv) (psta : StaInfo) (bmcast : Bool) : KeyAlg :=
  match sec.dot11AuthAlgrthm with
  | .ieee8021X => if bmcast then sec.dot118021XGrpPrivacy else psta.dot118021XPrivacy
  | _ => sec.dot11PrivacyAlgrthm

def updateAttribSecInfo (t : TxSec) (sec : SecurityPriv) (psta : StaInfo) (bmcast : Bool)
    (etherType : ℕ) : Option (SecAttrib × ℕ) :=
  if psta.ieee8021xBlocked then
    if etherType ≠ 0x888e ∧ t.mpState = false then none else some ({}, psta.dot11txpn)
  else
    let encrypt := getEncryAlgo sec psta bmcast
    let keyIdx := match sec.dot11AuthAlgrthm with
      | .open | .shared | .auto => sec.dot11PrivacyKeyIndex
      | .ieee8021X => if bmcast then sec.dot118021XGrpKeyid else 0
      | .wapi => 0
    if encrypt = .none then some ({ keyIdx := keyIdx }, psta.dot11txpn)
    else if encrypt = .tkip ∧ t.busetkipkey = false then none
    else
      let pn := nextPn psta.dot11txpn
      some ({
        encrypt := encrypt
        keyIdx := keyIdx
        iv := ivOf encrypt pn (if bmcast then keyIdx else 0)
        bswenc := t.swEncrypt || !t.hwDecrypted || (bmcast && t.pkGkConflict)
        dot118021xUncstKey := psta.dot118021xUncstKey }, pn)

def State.setTxpn (s : State) (k : KeyRef) (pn : ℕ) : State :=
  match k with
  | .group => { s with bcmc := { s.bcmc with dot11txpn := pn } }
  | .pairwise ra =>
    match s.sta ra with
    | none => s
    | some p => s.setSta ra { p with dot11txpn := pn }

def State.took (s : State) (k : KeyRef) (pn : ℕ) : State :=
  { s.setTxpn k pn with issuer := s.issuer.take (2 ^ 48) k }

def State.lookup (s : State) (ra : MacAddr) : Option StaInfo :=
  if isMcast ra then some s.bcmc else s.sta ra

def xmit (s : State) (t : TxSec) (ra : MacAddr) (etherType hdrlen : ℕ) (payload : List UInt8) :
    State :=
  match s.lookup ra with
  | none => s
  | some psta =>
    match updateAttribSecInfo t s.sec psta (isMcast ra) etherType with
    | none => s
    | some (a, pn) =>
      let s := if a.encrypt = .none then s else s.took (keyOf ra) pn
      { s with pending := s.pending ++
          [{ ra := ra, etherType := etherType, hdrlen := hdrlen, sec := a, payload := payload
             epoch := s.issuer.epoch (keyOf ra) }] }

/-- The epoch of the key that the frame is encrypted with: the software has a copy of the
pairwise key from when the attributes were made. -/
def State.keyEpoch (s : State) (p : XmitFrame) : ℕ :=
  if p.sec.bswenc = true ∧ isMcast p.ra = false then p.epoch else s.issuer.epoch (keyOf p.ra)

/-- Every fragment gets a copy of the IV. -/
def State.mpdus (s : State) (env : Coalesce.TxEnv) (fragLen : UInt16) (p : XmitFrame) : List Mpdu :=
  if p.sec.encrypt = .none then []
  else
    match Coalesce.rtwXmitframeCoalesce env p.attrib fragLen.toNat p.payload with
    | none => []
    | some t => t.frags.map fun _ =>
        { key := keyOf p.ra, epoch := s.keyEpoch p, encrypt := p.sec.encrypt, iv := p.sec.iv }

def dump (s : State) (i : ℕ) (env : Coalesce.TxEnv) (fragLen : UInt16) : State :=
  match s.pending[i]? with
  | none => s
  | some p =>
    { s with pending := s.pending.eraseIdx i, sent := s.sent ++ s.mpdus env fragLen p }

def mgmt (s : State) (c : Bip.Crypto) (zmalloc : ℕ → Bool) (f : MgmtFrame) : State :=
  let done := Bip.rtwMgmtXmitframeCoalesce
    { rtwGetStainfo := fun ra => (s.sta ra).map StaInfo.toMgmtSta
      bcmcStainfo := some s.bcmc.toMgmtSta
      zmalloc := zmalloc } c s.sec.toMgmtSecurity f.fresh
  let s := { s with sec := { s.sec with toMgmtSecurity := done.sec } }
  match done.x.psta with
  | none => s
  | some psta =>
    let k := keyOf f.x.ra
    let s := s.took k (psta.dot11txpn % 2 ^ 64)
    { s with sent := s.sent ++
        [{ key := k, epoch := s.issuer.epoch k, encrypt := .ccmp
           iv := (List.range 8).map fun j => done.x.pframe.getD (f.x.hdrlen + j) 0 }] }

inductive Event
  | setPairwiseKey (ap : Bool) (ra : MacAddr) (alg : KeyAlg) (key : List UInt8) (seq : UInt64)
  | apSetGroupKey (idx : ℕ) (alg : KeyAlg) (key : List UInt8) (seq : UInt64)
  | staSetGroupKey (idx : ℕ) (key : List UInt8)
  | xmit (t : TxSec) (ra : MacAddr) (etherType hdrlen : ℕ) (payload : List UInt8)
  | dump (i : ℕ) (env : Coalesce.TxEnv) (fragLen : UInt16)
  | mgmt (c : Bip.Crypto) (zmalloc : ℕ → Bool) (f : MgmtFrame)

def step (s : State) : Event → State
  | .setPairwiseKey ap ra alg key seq => setPairwiseKey s ap ra alg key seq
  | .apSetGroupKey idx alg key seq => apSetGroupKey s idx alg key seq
  | .staSetGroupKey idx key => staSetGroupKey s idx key
  | .xmit t ra etherType hdrlen payload => xmit s t ra etherType hdrlen payload
  | .dump i env fragLen => dump s i env fragLen
  | .mgmt c zmalloc f => mgmt s c zmalloc f

/-- Fewer than 2^48 numbers were taken since the key was installed; a frame goes out in
one fragment, and under the key that its number is for. -/
def Fresh (s : State) : Event → Prop
  | .xmit _ ra _ _ _ => s.issuer.taken (keyOf ra) < 2 ^ 48
  | .mgmt _ _ f => s.issuer.taken (keyOf f.x.ra) < 2 ^ 48
  | .dump i _ fragLen => ∀ p, s.pending[i]? = some p → p.sec.encrypt ≠ .none →
      Coalesce.OneFragment p.attrib fragLen.toNat p.payload ∧ s.keyEpoch p = p.epoch
  | _ => True

/-! ## The number in the IV -/

theorem nextPn_mod (pn : ℕ) : nextPn pn % 2 ^ 48 = (pn + 1) % 2 ^ 48 := by
  simp only [nextPn, Bip.nextPn]
  split_ifs <;> omega

theorem pnOf_tkipIv (pn keyidx : ℕ) : TkipXmit.getTkipPn (tkipIv pn keyidx) = pn % 2 ^ 48 := by
  simp only [TkipXmit.getTkipPn, tkipIv, byteAt, List.getD_cons_zero, List.getD_cons_succ,
    UInt8.toNat_ofNat']
  omega

theorem ccmph2Pn_le64 (b : List UInt8) :
    ccmph2Pn (le64 b 0) = le16 b 0 + 2 ^ 16 * le16 b 4 + 2 ^ 32 * le16 b 6 := by
  have hlt (i : ℕ) : le16 b i < 2 ^ 16 := by
    have hlo := byteAt_lt b i
    have hhi := byteAt_lt b (i + 1)
    rw [le16]
    omega
  have h0 := hlt 0
  have h2 := hlt 2
  have h4 := hlt 4
  have h6 := hlt 6
  simp only [ccmph2Pn, le64, Nat.zero_add]
  omega

theorem pnOf_aesIv (pn keyidx : ℕ) : ccmph2Pn (le64 (Bip.aesIv pn keyidx) 0) = pn % 2 ^ 48 := by
  rw [ccmph2Pn_le64]
  simp only [le16, Bip.aesIv, byteAt, List.getD_cons_zero, List.getD_cons_succ, UInt8.toNat_ofNat']
  omega

theorem pnOf_ivOf (alg : KeyAlg) (pn keyidx : ℕ) : pnOf alg (ivOf alg pn keyidx) = pn % 2 ^ 48 := by
  rw [pnOf, ivOf]
  split_ifs
  · exact pnOf_tkipIv pn keyidx
  · exact pnOf_aesIv pn keyidx

/-! ## Management frames -/

section Mgmt

variable {c : Bip.Crypto} {sec : Bip.MgmtSecurity} {x : Bip.MgmtXmit}

theorem appendMme_psta (hx : x.psta = none) : (Bip.appendMme c sec x).x.psta = none := by
  simp only [Bip.appendMme]
  split
  · exact hx
  · exact hx

/-- What is protected is a management frame, for the station that is looked up. -/
theorem coalesce_protects (e : Bip.MgmtEnv) (hx : x.psta = none) {done : Bip.MgmtDone}
    (hdone : Bip.rtwMgmtXmitframeCoalesce e c sec x = done) :
    done.x.psta = none ∨ ∃ psta kid key,
      (if isMcast x.ra then e.bcmcStainfo else e.rtwGetStainfo x.ra) = some psta ∧
      byteAt x.pframe 0 / 4 % 4 = 0 ∧ done = Bip.encryptMgmt c sec x psta kid key := by
  have hnone (psta : Option Bip.MgmtSta) : (none <|> psta) = psta := by
    cases psta <;> rfl
  simp only [Bip.rtwMgmtXmitframeCoalesce, hx, hnone] at hdone
  split at hdone
  · exact Or.inl (hdone ▸ hx)
  · rename_i hsubtype
    have hmgt : byteAt x.pframe 0 / 4 % 4 = 0 := by
      rw [RecvPool.wifiDeauth, RecvPool.wifiDisassoc, RecvPool.wifiAction] at hsubtype
      omega
    split at hdone
    · exact Or.inl (hdone ▸ hx)
    · by_cases hmcast : isMcast x.ra = true
      · rw [if_pos hmcast] at hdone ⊢
        split at hdone
        · exact Or.inl (hdone ▸ hx)
        · split at hdone
          · cases hsta : e.bcmcStainfo with
            | none =>
              rw [hsta] at hdone
              exact Or.inl (hdone ▸ hx)
            | some psta =>
              simp only [hsta] at hdone
              split at hdone
              · exact Or.inl (hdone ▸ hx)
              · exact Or.inr ⟨psta, _, _, rfl, hmgt, hdone.symm⟩
          · split at hdone
            · exact Or.inl (hdone ▸ hx)
            · exact Or.inl (hdone ▸ appendMme_psta hx)
      · rw [if_neg hmcast] at hdone ⊢
        cases hsta : e.rtwGetStainfo x.ra with
        | none =>
          rw [hsta] at hdone
          exact Or.inl (hdone ▸ hx)
        | some psta =>
          simp only [hsta] at hdone
          split at hdone
          · exact Or.inl (hdone ▸ hx)
          · split at hdone
            · exact Or.inl (hdone ▸ hx)
            · split at hdone
              · exact Or.inl (hdone ▸ hx)
              · exact Or.inr ⟨psta, _, _, rfl, hmgt, hdone.symm⟩

theorem encryptMgmt_psta (c : Bip.Crypto) (sec : Bip.MgmtSecurity) (psta : Bip.MgmtSta)
    (hx : x.psta = none) (kid : ℕ) (key : List UInt8) :
    let done := Bip.encryptMgmt c sec x psta kid key
    done.x.psta = none ∨
      done.x.psta = some { psta with dot11txpn := Bip.nextPn psta.dot11txpn } := by
  rw [Bip.encryptMgmt]
  generalize (if x.keyType = .noKey then x.encrypt else .aes) = encrypt
  by_cases haes : encrypt = .aes
  · simp only [if_pos haes]
    exact Or.inr trivial
  · simp only [if_neg haes]
    exact Or.inl hx

theorem getD_putBytes_of_lt {b bytes : List UInt8} {i k : ℕ} (hi : i ≤ b.length) (hk : k < i) :
    (putBytes b i bytes).getD k 0 = b.getD k 0 := by
  have hlen : k < (b.take i).length := by
    rw [List.length_take]
    omega
  simp only [putBytes, List.getD_eq_getElem?_getD]
  rw [List.append_assoc, List.getElem?_append_left hlen, List.getElem?_take_of_lt hk]

theorem getD_putBytes_mid {b bytes : List UInt8} {i k : ℕ} (hi : i ≤ b.length)
    (hk : k < bytes.length) : (putBytes b i bytes).getD (i + k) 0 = bytes.getD k 0 := by
  have hlen : (b.take i).length = i := by
    rw [List.length_take]
    omega
  simp only [putBytes, List.append_assoc, List.getD_eq_getElem?_getD]
  rw [List.getElem?_append_right (by omega), hlen, Nat.add_sub_cancel_left,
    List.getElem?_append_left hk]

theorem le_length_putBytes {b bytes : List UInt8} {i : ℕ} (hi : i ≤ b.length) :
    i + bytes.length ≤ (putBytes b i bytes).length := by
  simp only [putBytes, List.length_append, List.length_take, List.length_drop]
  omega

theorem getD_putBytes_of_ge {b bytes : List UInt8} {i k : ℕ} (hi : i ≤ b.length)
    (hk : i + bytes.length ≤ k) : (putBytes b i bytes).getD k 0 = b.getD k 0 := by
  have hlen : (b.take i ++ bytes).length = i + bytes.length := by
    rw [List.length_append, List.length_take]
    omega
  simp only [putBytes, List.getD_eq_getElem?_getD]
  rw [List.getElem?_append_right (by omega), hlen, List.getElem?_drop,
    Nat.add_sub_cancel' hk]

/-- The first `n` bytes are the same. -/
def SameBelow (n : ℕ) (b b' : List UInt8) : Prop := ∀ k < n, b'.getD k 0 = b.getD k 0

theorem putBytes_sameBelow {b : List UInt8} {n i : ℕ} (hi : i ≤ b.length) (hn : n ≤ i)
    (bytes : List UInt8) : SameBelow n b (putBytes b i bytes) :=
  fun _ hk => getD_putBytes_of_lt hi (Nat.lt_of_lt_of_le hk hn)

theorem aesCipher_sameBelow {b : List UInt8} (enc : BlockModes.Block → BlockModes.Block)
    (plen : ℕ) (hmgt : byteAt b 0 / 4 % 4 = 0) (hlen : 32 ≤ b.length) :
    SameBelow 32 b ((List.range b.length).map
      (AesCipher.aesCipher enc Bip.wlanHdrA3Len (fun k => b.getD k 0) plen)) := by
  have hshaped : AesDecipher.Shaped Bip.wlanHdrA3Len fun k => b.getD k 0 := by
    refine ⟨Nat.le_refl _, fun hqos => ?_⟩
    simp only [AesDecipher.layoutOf, decide_eq_true_eq] at hqos
    have htwo := hqos.1
    rw [byteAt] at hmgt
    omega
  intro k hk
  have hin : k < ((List.range b.length).map
      (AesCipher.aesCipher enc Bip.wlanHdrA3Len (fun k => b.getD k 0) plen)).length := by
    rw [List.length_map, List.length_range]
    omega
  rw [List.getD_eq_getElem?_getD, List.getElem?_eq_getElem hin, List.getElem_map,
    List.getElem_range]
  exact (AesCipher.aesCipher_header enc plen hshaped).1 k hk

theorem protected_getD {b : List UInt8} {n : ℕ} (hn : 32 ≤ n) (hb : n ≤ b.length)
    (hmgt : byteAt b 0 / 4 % 4 = 0) (icv : List UInt8)
    (enc : BlockModes.Block → BlockModes.Block) (plen : ℕ) (sw : Prop) [Decidable sw] {k : ℕ}
    (hk : k < 32) (hne : k ≠ 1) :
    let p := Bip.setPrivacy (if sw then putBytes b n icv else b)
    (if sw then (List.range p.length).map
      (AesCipher.aesCipher enc Bip.wlanHdrA3Len (fun k => p.getD k 0) plen) else p).getD k 0 =
      b.getD k 0 := by
  intro p
  have hpriv (q : List UInt8) (hq : 32 ≤ q.length) : 32 ≤ (Bip.setPrivacy q).length ∧
      ∀ k ≠ 1, (Bip.setPrivacy q).getD k 0 = q.getD k 0 := by
    refine ⟨?_, fun k hk => ?_⟩
    · simp only [Bip.setPrivacy, putBytes, List.length_append, List.length_take, List.length_drop,
        List.length_singleton]
      omega
    · rcases Nat.lt_or_ge k 1 with hlt | hge
      · exact getD_putBytes_of_lt (by omega) hlt
      · refine getD_putBytes_of_ge (by omega) ?_
        rw [List.length_singleton]
        omega
  have hicv : 32 ≤ (if sw then putBytes b n icv else b).length ∧
      SameBelow 32 b (if sw then putBytes b n icv else b) := by
    split
    · have hlen : n + icv.length ≤ (putBytes b n icv).length := le_length_putBytes hb
      exact ⟨by omega, putBytes_sameBelow hb hn icv⟩
    · exact ⟨by omega, fun _ _ => rfl⟩
  obtain ⟨hlen, hsame⟩ := hpriv _ hicv.1
  have hp : ∀ k < 32, k ≠ 1 → p.getD k 0 = b.getD k 0 :=
    fun k hk hne => (hsame k hne).trans (hicv.2 k hk)
  split
  · have hzero : byteAt p 0 / 4 % 4 = 0 := by
      rw [byteAt, hp 0 (by omega) (by omega)]
      exact hmgt
    exact (aesCipher_sameBelow enc plen hzero hlen k hk).trans (hp k hk hne)
  · exact hp k hk hne

theorem encryptMgmt_iv (c : Bip.Crypto) (sec : Bip.MgmtSecurity) (psta psta' : Bip.MgmtSta)
    (f : MgmtFrame) (hmgt : byteAt f.x.pframe 0 / 4 % 4 = 0) (kid : ℕ) (key : List UInt8) :
    let done := Bip.encryptMgmt c sec f.fresh psta kid key
    done.x.psta = some psta' →
      ((List.range 8).map fun j => done.x.pframe.getD (f.x.hdrlen + j) 0) =
        Bip.aesIv (Bip.nextPn psta.dot11txpn) kid := by
  have hbody := f.body
  have hroom := f.room
  rw [Bip.encryptMgmt]
  simp only [MgmtFrame.fresh, f.hdrlen]
  generalize (if f.x.keyType = .noKey then f.x.encrypt else .aes) = encrypt
  have hfits : Bip.wlanHdrA3Len ≤ f.x.pframe.length := by omega
  rw [Bip.wlanHdrA3Len] at hbody
  have hb : f.x.pktlen + 8 ≤ (putBytes f.x.pframe Bip.wlanHdrA3Len
      (Bip.aesIv (Bip.nextPn psta.dot11txpn) kid ++
        (f.x.pframe.take f.x.pktlen).drop Bip.wlanHdrA3Len)).length := by
    refine Nat.le_trans ?_ (le_length_putBytes hfits)
    simp only [List.length_append, List.length_drop, List.length_take, Bip.wlanHdrA3Len,
      Bip.aesIv, List.length_cons, List.length_nil]
    omega
  have hzero : byteAt (putBytes f.x.pframe Bip.wlanHdrA3Len
      (Bip.aesIv (Bip.nextPn psta.dot11txpn) kid ++
        (f.x.pframe.take f.x.pktlen).drop Bip.wlanHdrA3Len)) 0 / 4 % 4 = 0 := by
    rw [byteAt, getD_putBytes_of_lt hfits (by decide)]
    exact hmgt
  have hmid (j : ℕ) (hj : j < 8) : (putBytes f.x.pframe Bip.wlanHdrA3Len
      (Bip.aesIv (Bip.nextPn psta.dot11txpn) kid ++
        (f.x.pframe.take f.x.pktlen).drop Bip.wlanHdrA3Len)).getD (Bip.wlanHdrA3Len + j) 0 =
      (Bip.aesIv (Bip.nextPn psta.dot11txpn) kid ++
        (f.x.pframe.take f.x.pktlen).drop Bip.wlanHdrA3Len).getD j 0 := by
    refine getD_putBytes_mid hfits ?_
    rw [List.length_append]
    exact Nat.lt_of_lt_of_le hj (Nat.le_add_right 8 _)
  generalize putBytes f.x.pframe Bip.wlanHdrA3Len
    (Bip.aesIv (Bip.nextPn psta.dot11txpn) kid ++
      (f.x.pframe.take f.x.pktlen).drop Bip.wlanHdrA3Len) = b at hb hzero hmid
  split
  · intro _
    have hall : ∀ j < 8, b.getD (Bip.wlanHdrA3Len + j) 0 =
        (Bip.aesIv (Bip.nextPn psta.dot11txpn) kid).getD j 0 := by
      intro j hj
      rw [hmid j hj]
      simp only [List.getD_eq_getElem?_getD]
      rw [List.getElem?_append_left (by exact hj)]
    have hbytes : ((List.range 8).map fun j =>
        (Bip.aesIv (Bip.nextPn psta.dot11txpn) kid).getD j 0) =
        Bip.aesIv (Bip.nextPn psta.dot11txpn) kid := rfl
    refine Eq.trans (List.map_congr_left fun j hj => ?_) hbytes
    have hj8 : j < 8 := List.mem_range.mp hj
    rw [← hall j hj8]
    exact protected_getD (by omega) hb hzero _ _ _ _ (by rw [Bip.wlanHdrA3Len]; omega)
      (by rw [Bip.wlanHdrA3Len]; omega)
  · intro hnone
    cases hnone

end Mgmt

/-! ## The numbers taken -/

variable {s t : State} {k : KeyRef} {pn pn' : ℕ}

def XmitFrame.stamp (p : XmitFrame) : Option (KeyRef × ℕ × ℕ) :=
  if p.sec.encrypt = .none then none
  else some (keyOf p.ra, p.epoch, pnOf p.sec.encrypt p.sec.iv)

def State.live (s : State) : List (KeyRef × ℕ × ℕ) :=
  s.pending.filterMap XmitFrame.stamp ++ s.sent.map Mpdu.stamp

/-- The counters are where the issuer is, and each of the numbers was issued and is there
once. -/
structure Sound (s : State) : Prop where
  issuer : s.issuer.Sound (2 ^ 48)
  counts : ∀ k pn, s.txpn k = some pn →
    pn % 2 ^ 48 = (s.issuer.start k + s.issuer.taken k) % 2 ^ 48
  nodup : s.live.Nodup
  issued : ∀ x ∈ s.live, x ∈ s.issuer.issued

theorem init_sound (sta : MacAddr → Option StaInfo) (bcmc : StaInfo) (sec : SecurityPriv) :
    Sound (State.init sta bcmc sec) := by
  refine ⟨fun x hx => absurd hx List.not_mem_nil, ?_, List.nodup_nil,
    fun x hx => absurd hx List.not_mem_nil⟩
  intro k pn hpn
  cases k with
  | group =>
    obtain rfl := Option.some.inj hpn
    rfl
  | pairwise ra =>
    simp only [State.init, State.txpn] at hpn ⊢
    rw [hpn]
    rfl

theorem Sound.live_sublist (h : Sound s) (htxpn : t.txpn = s.txpn) (hissuer : t.issuer = s.issuer)
    {l : List (KeyRef × ℕ × ℕ)} (hperm : s.live.Perm l) (hsub : t.live.Sublist l) : Sound t := by
  refine ⟨hissuer ▸ h.issuer, ?_, hsub.nodup (hperm.nodup_iff.mp h.nodup), ?_⟩
  · intro k pn hpn
    rw [hissuer]
    rw [htxpn] at hpn
    exact h.counts k pn hpn
  · intro x hx
    rw [hissuer]
    exact h.issued x (hperm.mem_iff.mpr (hsub.subset hx))

theorem Sound.congr (h : Sound s) (htxpn : t.txpn = s.txpn) (hissuer : t.issuer = s.issuer)
    (hlive : t.live = s.live) : Sound t :=
  h.live_sublist htxpn hissuer (List.Perm.refl _) (hlive ▸ List.Sublist.refl _)

theorem Sound.renew (h : Sound s) {v : ℕ} (hissuer : t.issuer = s.issuer.renew k v)
    (hk : ∀ pn, t.txpn k = some pn → pn = v)
    (hother : ∀ j ≠ k, t.txpn j = s.txpn j) (hlive : t.live = s.live) : Sound t := by
  refine ⟨hissuer ▸ h.issuer.renew k v, ?_, hlive ▸ h.nodup, ?_⟩
  · intro j pn hpn
    rw [hissuer]
    by_cases heq : j = k
    · subst heq
      simp only [Issuer.renew, if_true, Nat.add_zero]
      rw [hk pn hpn]
    · simp only [Issuer.renew, if_neg heq]
      rw [hother j heq] at hpn
      exact h.counts j pn hpn
  · intro x hx
    rw [hissuer]
    exact h.issued x (hlive ▸ hx)

theorem setTxpn_txpn (hk : s.txpn k = some pn) (pn' : ℕ) (j : KeyRef) :
    (s.setTxpn k pn').txpn j = if j = k then some pn' else s.txpn j := by
  cases k with
  | group =>
    cases j with
    | group => rfl
    | pairwise ra => rfl
  | pairwise ra =>
    simp only [State.txpn] at hk
    cases hsta : s.sta ra with
    | none =>
      rw [hsta] at hk
      cases hk
    | some p =>
      simp only [State.setTxpn, hsta]
      cases j with
      | group => rfl
      | pairwise ra' =>
        by_cases heq : ra' = ra
        · subst heq
          simp only [State.txpn, State.setSta, if_true]
          rfl
        · have hne : KeyRef.pairwise ra' ≠ .pairwise ra := fun h => heq (KeyRef.pairwise.inj h)
          simp only [State.txpn, State.setSta, if_neg heq, if_neg hne]

theorem setTxpn_keeps (s : State) (k : KeyRef) (pn' : ℕ) :
    (s.setTxpn k pn').issuer = s.issuer ∧ (s.setTxpn k pn').pending = s.pending ∧
      (s.setTxpn k pn').sent = s.sent := by
  cases k with
  | group => exact ⟨rfl, rfl, rfl⟩
  | pairwise ra =>
    simp only [State.setTxpn]
    split
    · exact ⟨rfl, rfl, rfl⟩
    · exact ⟨rfl, rfl, rfl⟩

structure Took (s t : State) (k : KeyRef) (x : KeyRef × ℕ × ℕ) : Prop where
  sound : Sound t
  live : t.live = s.live
  fresh : x ∉ t.live
  issued : x ∈ t.issuer.issued
  epoch : t.issuer.epoch = s.issuer.epoch

theorem took_spec (h : Sound s) (hk : s.issuer.taken k < 2 ^ 48) (hpn : s.txpn k = some pn)
    (hnext : pn' % 2 ^ 48 = (pn + 1) % 2 ^ 48) :
    Took s (s.took k pn') k (k, s.issuer.epoch k, pn' % 2 ^ 48) := by
  obtain ⟨hissuer, hpending, hsent⟩ := setTxpn_keeps s k pn'
  have hlive : (s.took k pn').live = s.live := by
    simp only [State.live, State.took, hpending, hsent]
  have hcount := h.counts k pn hpn
  have hnum : pn' % 2 ^ 48 = (s.issuer.start k + (s.issuer.taken k + 1)) % 2 ^ 48 := by
    rw [hnext, Nat.add_mod, hcount, ← Nat.add_mod, Nat.add_assoc]
  have hnew : (k, s.issuer.epoch k, pn' % 2 ^ 48) = s.issuer.next (2 ^ 48) k := by
    rw [hnum, Issuer.next]
  have hfresh := h.issuer.next_fresh hk
  refine ⟨⟨h.issuer.take k, ?_, hlive ▸ h.nodup, ?_⟩, hlive, ?_, ?_, rfl⟩
  · intro j q hq
    have hq' : (s.setTxpn k pn').txpn j = some q := hq
    rw [setTxpn_txpn hpn] at hq'
    simp only [State.took, Issuer.take]
    split_ifs at hq' ⊢ with heq
    · obtain rfl := Option.some.inj hq'
      rw [heq, hnum]
    · exact h.counts j q hq'
  · intro x hx
    rw [hlive] at hx
    exact List.mem_cons_of_mem _ (h.issued x hx)
  · rw [hlive, hnew]
    exact fun hmem => hfresh (h.issued _ hmem)
  · rw [hnew]
    exact List.mem_cons_self

theorem Took.add {u : State} {x : KeyRef × ℕ × ℕ} (h : Took s t k x) (htxpn : u.txpn = t.txpn)
    (hissuer : u.issuer = t.issuer) (hlive : u.live.Perm (x :: t.live)) : Sound u := by
  refine ⟨hissuer ▸ h.sound.issuer, ?_, ?_, ?_⟩
  · intro j pn hpn
    rw [hissuer]
    rw [htxpn] at hpn
    exact h.sound.counts j pn hpn
  · exact hlive.nodup_iff.mpr (List.nodup_cons.mpr ⟨h.fresh, h.sound.nodup⟩)
  · intro y hy
    rw [hissuer]
    rcases List.mem_cons.mp (hlive.mem_iff.mp hy) with rfl | hmem
    · exact h.issued
    · exact h.sound.issued y hmem

/-! ## The steps -/

theorem setPairwiseKey_sound (h : Sound s) (ap : Bool) (ra : MacAddr) (alg : KeyAlg)
    (key : List UInt8) (seq : UInt64) : Sound (setPairwiseKey s ap ra alg key seq) := by
  rw [setPairwiseKey]
  split
  · exact h
  · split
    · exact h
    · refine h.renew rfl ?_ ?_ rfl
      · intro pn hpn
        simp only [State.txpn, State.setSta, if_true] at hpn
        exact (Option.some.inj hpn).symm
      · intro j hj
        cases j with
        | group => rfl
        | pairwise ra' =>
          have hne : ra' ≠ ra := fun heq => hj (congrArg _ heq)
          simp only [State.txpn, State.setSta, if_neg hne]

theorem Sound.renewGroup (h : Sound s)
    (hissuer : t.issuer = s.issuer.renew .group t.bcmc.dot11txpn) (hsta : t.sta = s.sta)
    (hlive : t.live = s.live) : Sound t := by
  refine h.renew hissuer ?_ ?_ hlive
  · intro pn hpn
    exact (Option.some.inj hpn).symm
  · intro j hj
    cases j with
    | group => exact absurd rfl hj
    | pairwise ra => simp only [State.txpn, hsta]

theorem apSetGroupKey_sound (h : Sound s) (idx : ℕ) (alg : KeyAlg) (key : List UInt8)
    (seq : UInt64) : Sound (apSetGroupKey s idx alg key seq) :=
  h.renewGroup rfl rfl rfl

theorem staSetGroupKey_sound (h : Sound s) (idx : ℕ) (key : List UInt8) :
    Sound (staSetGroupKey s idx key) :=
  h.renewGroup rfl rfl rfl

theorem lookup_txpn {ra : MacAddr} {psta : StaInfo} (h : s.lookup ra = some psta) :
    s.txpn (keyOf ra) = some psta.dot11txpn := by
  rw [State.lookup] at h
  rw [keyOf]
  split_ifs at h ⊢ with hmcast
  · rw [← Option.some.inj h]
    rfl
  · simp only [State.txpn, h]
    rfl

theorem updateAttribSecInfo_some {t : TxSec} {sec : SecurityPriv} {psta : StaInfo} {b : Bool}
    {etherType : ℕ} {a : SecAttrib} (h : updateAttribSecInfo t sec psta b etherType = some (a, pn))
    (henc : a.encrypt ≠ .none) :
    pn = nextPn psta.dot11txpn ∧ pnOf a.encrypt a.iv = pn % 2 ^ 48 := by
  rw [updateAttribSecInfo] at h
  generalize getEncryAlgo sec psta b = encrypt at h
  generalize nextPn psta.dot11txpn = next at h ⊢
  split at h
  · split at h
    · cases h
    · obtain ⟨rfl, -⟩ := Prod.mk.inj (Option.some.inj h)
      exact absurd rfl henc
  · simp only at h
    split at h
    · obtain ⟨rfl, -⟩ := Prod.mk.inj (Option.some.inj h)
      exact absurd rfl henc
    · split at h
      · cases h
      · obtain ⟨rfl, rfl⟩ := Prod.mk.inj (Option.some.inj h)
        exact ⟨rfl, pnOf_ivOf encrypt next _⟩

theorem xmit_sound (h : Sound s) (t : TxSec) (ra : MacAddr) (etherType hdrlen : ℕ)
    (payload : List UInt8) (hk : s.issuer.taken (keyOf ra) < 2 ^ 48) :
    Sound (xmit s t ra etherType hdrlen payload) := by
  rw [xmit]
  cases hsta : s.lookup ra with
  | none => exact h
  | some psta =>
    simp only
    cases hsec : updateAttribSecInfo t s.sec psta (isMcast ra) etherType with
    | none => exact h
    | some r =>
      obtain ⟨a, pn⟩ := r
      simp only
      by_cases henc : a.encrypt = .none
      · rw [if_pos henc]
        refine h.congr rfl rfl ?_
        simp only [State.live, List.filterMap_append, List.filterMap_cons, List.filterMap_nil,
          XmitFrame.stamp, henc, if_true, List.append_nil]
      · rw [if_neg henc]
        obtain ⟨hpn, hiv⟩ := updateAttribSecInfo_some hsec henc
        have hnext : pn % 2 ^ 48 = (psta.dot11txpn + 1) % 2 ^ 48 := by
          rw [hpn, nextPn_mod]
        have htook := took_spec h hk (lookup_txpn hsta) hnext
        refine htook.add rfl rfl ?_
        simp only [State.live, List.filterMap_append, List.filterMap_cons, List.filterMap_nil,
          XmitFrame.stamp, henc, if_false, hiv, List.append_assoc, List.singleton_append]
        exact List.perm_middle

theorem coalesceLoop_one {a : Coalesce.PktAttrib} {fragLen : ℕ} {payload : List UInt8}
    (hfrag : fragLen < 2 ^ 32) (hone : Coalesce.OneFragment a fragLen payload) (fuel : ℕ)
    (memStart : ℤ) (hdr : Coalesce.WlanHdr) :
    (Coalesce.coalesceLoop a fragLen (fuel + 1) 0 memStart hdr payload).frags.length = 1 := by
  rw [Coalesce.coalesceLoop]
  rcases hone with hmcast | hfits
  · simp only [hmcast, Bool.true_or, if_true, List.length_singleton]
  · have hmem : Coalesce.pktfileRead payload
        (Coalesce.mpduRoom a fragLen (Coalesce.rtwPutSnap a.etherType)) = payload := by
      rw [Coalesce.pktfileRead, Coalesce.mpduRoom, Coalesce.rtwPutSnap_length]
      have hiv := a.ivLen_le
      have hicv := a.swIcv_le
      refine List.take_of_length_le ?_
      rw [Int.emod_eq_of_lt (by omega) (by omega)]
      omega
    simp only [if_true, hmem, ite_self, List.drop_length, List.isEmpty_nil, Bool.or_true,
      List.length_singleton]

theorem mpdus_one (s : State) {p : XmitFrame} (henc : p.sec.encrypt ≠ .none) {fragLen : UInt16}
    (hone : Coalesce.OneFragment p.attrib fragLen.toNat p.payload) (env : Coalesce.TxEnv) :
    s.mpdus env fragLen p = [] ∨ s.mpdus env fragLen p =
      [{ key := keyOf p.ra, epoch := s.keyEpoch p, encrypt := p.sec.encrypt, iv := p.sec.iv }] := by
  rw [State.mpdus, if_neg henc]
  cases ht : Coalesce.rtwXmitframeCoalesce env p.attrib fragLen.toNat p.payload with
  | none => exact Or.inl rfl
  | some t =>
    refine Or.inr ?_
    obtain ⟨buf, hbuf⟩ : ∃ buf, env.bufAddr = some buf := by
      cases hbuf : env.bufAddr with
      | none =>
        simp only [Coalesce.rtwXmitframeCoalesce, hbuf] at ht
        cases ht
      | some buf => exact ⟨buf, rfl⟩
    have hfrags := (Coalesce.rtwXmitframeCoalesce_some hbuf ht).1
    have hlen : t.frags.length = 1 := by
      rw [hfrags]
      exact coalesceLoop_one (fragLen.toNat_lt.trans (by decide)) hone _ _ _
    simp only [List.map_const', hlen]
    rfl

theorem dump_sound (h : Sound s) (i : ℕ) (env : Coalesce.TxEnv) (fragLen : UInt16)
    (hi : ∀ p, s.pending[i]? = some p → p.sec.encrypt ≠ .none →
      Coalesce.OneFragment p.attrib fragLen.toNat p.payload ∧ s.keyEpoch p = p.epoch) :
    Sound (dump s i env fragLen) := by
  rw [dump]
  cases hp : s.pending[i]? with
  | none => exact h
  | some p =>
    obtain ⟨hlt, hget⟩ := List.getElem?_eq_some_iff.mp hp
    have hpending : s.pending.Perm (p :: s.pending.eraseIdx i) := by
      rw [← hget]
      exact (List.getElem_cons_eraseIdx_perm hlt).symm
    have hlive : s.live.Perm (p.stamp.toList ++
        (s.pending.eraseIdx i).filterMap XmitFrame.stamp ++ s.sent.map Mpdu.stamp) := by
      refine List.Perm.append_right _ ((hpending.filterMap _).trans ?_)
      cases hstamp : p.stamp with
      | none =>
        rw [List.filterMap_cons, hstamp]
        exact List.Perm.refl _
      | some x =>
        rw [List.filterMap_cons, hstamp]
        exact List.Perm.refl _
    by_cases henc : p.sec.encrypt = .none
    · have hstamp : p.stamp = none := if_pos henc
      have hmpdus : s.mpdus env fragLen p = [] := if_pos henc
      rw [hstamp] at hlive
      refine h.live_sublist rfl rfl hlive ?_
      simp only [State.live, hmpdus, List.append_nil]
      exact List.Sublist.refl _
    · obtain ⟨hone, hepoch⟩ := hi p hp henc
      have hstamp : p.stamp = some (keyOf p.ra, p.epoch, pnOf p.sec.encrypt p.sec.iv) :=
        if_neg henc
      rw [hstamp] at hlive
      rcases mpdus_one s henc hone env with hmpdus | hmpdus
      · refine h.live_sublist rfl rfl hlive ?_
        simp only [State.live, hmpdus, List.append_nil]
        exact List.sublist_cons_self _ _
      · refine h.live_sublist rfl rfl (hlive.trans ?_) (List.Sublist.refl _)
        simp only [State.live, hmpdus, List.map_append, List.map_cons, List.map_nil, Mpdu.stamp,
          hepoch, Option.toList_some, List.cons_append]
        rw [← List.append_assoc]
        exact (List.perm_append_singleton _ _).symm

theorem mgmt_sound (h : Sound s) (c : Bip.Crypto) (zmalloc : ℕ → Bool) (f : MgmtFrame)
    (hk : s.issuer.taken (keyOf f.x.ra) < 2 ^ 48) : Sound (mgmt s c zmalloc f) := by
  simp only [mgmt]
  generalize hdone : Bip.rtwMgmtXmitframeCoalesce _ c s.sec.toMgmtSecurity f.fresh = done
  have hnone : f.fresh.psta = none := rfl
  rcases coalesce_protects _ hnone hdone with hx | ⟨psta, kid, key, hlookup, hmgt, henc⟩
  · rw [hx]
    exact h.congr rfl rfl rfl
  · have hpn : s.txpn (keyOf f.x.ra) = some psta.dot11txpn := by
      have hra : f.fresh.ra = f.x.ra := rfl
      rw [hra] at hlookup
      rw [keyOf]
      split_ifs at hlookup ⊢ with hmcast
      · rw [← Option.some.inj hlookup]
        rfl
      · obtain ⟨p, hp, rfl⟩ := Option.map_eq_some_iff.mp hlookup
        simp only [State.txpn, hp]
        rfl
    rcases encryptMgmt_psta c s.sec.toMgmtSecurity psta hnone kid key with hx | hx
    · rw [henc, hx]
      exact h.congr rfl rfl rfl
    · have hiv := encryptMgmt_iv c s.sec.toMgmtSecurity psta _ f hmgt kid key hx
      rw [← henc] at hx hiv
      have hsec : Sound { s with sec := { s.sec with toMgmtSecurity := done.sec } } :=
        h.congr rfl rfl rfl
      have htook := took_spec hsec hk hpn (nextPn_mod psta.dot11txpn)
      have hnum : Bip.nextPn psta.dot11txpn % 2 ^ 48 = nextPn psta.dot11txpn % 2 ^ 48 := by
        rw [nextPn, Nat.mod_mod_of_dvd _ (by decide)]
      have hstamp : pnOf .ccmp (Bip.aesIv (Bip.nextPn psta.dot11txpn) kid) =
          nextPn psta.dot11txpn % 2 ^ 48 := (pnOf_aesIv _ kid).trans hnum
      simp only [hx]
      refine htook.add rfl rfl ?_
      simp only [State.live, List.map_append, List.map_cons, List.map_nil, Mpdu.stamp, hiv,
        hstamp]
      rw [← List.append_assoc]
      exact List.perm_append_singleton _ _

theorem step_sound (h : Sound s) {e : Event} (he : Fresh s e) : Sound (step s e) := by
  cases e with
  | setPairwiseKey ap ra alg key seq => exact setPairwiseKey_sound h ap ra alg key seq
  | apSetGroupKey idx alg key seq => exact apSetGroupKey_sound h idx alg key seq
  | staSetGroupKey idx key => exact staSetGroupKey_sound h idx key
  | xmit t ra etherType hdrlen payload => exact xmit_sound h t ra etherType hdrlen payload he
  | dump i env fragLen => exact dump_sound h i env fragLen he
  | mgmt c zmalloc f => exact mgmt_sound h c zmalloc f he

/-- In a run whose frames go out in one fragment each, under the key their number is for,
no two MPDUs under one installation of a key have the same packet number. -/
theorem numbers_unique (sta : MacAddr → Option StaInfo) (bcmc : StaInfo) (sec : SecurityPriv)
    (es : List Event) (hes : Along step Fresh (State.init sta bcmc sec) es) :
    ((run step (State.init sta bcmc sec) es).sent.map Mpdu.stamp).Nodup := by
  have hsound : Sound (run step (State.init sta bcmc sec) es) :=
    run_spec Fresh Sound (fun _ _ h he => step_sound h he) (init_sound sta bcmc sec) hes
  exact (List.nodup_append.mp hsound.nodup).2.1

/-! ## One station -/

def noKey : Bip.MgmtSta where
  mfp := false
  bpairwiseKeyInstalled := false
  dot118021xUncstKey := List.replicate 16 0
  dot11txpn := 0

def unset : SecurityPriv where
  binstallBIPkey := false
  dot11wBIPKeyid := 0
  dot11wBIPKey := fun _ => []
  dot11wBIPtxpn := 0
  binstallGrpkey := false
  dot118021XGrpKeyid := 0
  dot118021XGrpKey := fun _ => []

def client : MacAddr := macOf 2 0 0 0 0 1

def everyone : MacAddr := macOf 0xff 0xff 0xff 0xff 0xff 0xff

def start : State :=
  State.init (fun ra => if ra = client then some { toMgmtSta := noKey } else none)
    { toMgmtSta := noKey } unset

def keyedFrame (size : ℕ) : List Event :=
  [.setPairwiseKey true client .ccmp (List.replicate 16 7) 0,
    .xmit {} client 0x0800 24 (List.replicate size 0),
    .dump 0 { bufAddr := some 512 } 256]

theorem numbers_unique_short :
    ((run step start (keyedFrame 3)).sent.map Mpdu.stamp).Nodup := by
  have htaken : 0 < 2 ^ 48 := by decide
  refine numbers_unique _ _ _ (keyedFrame 3) ⟨trivial, htaken, fun p hp _ => ?_, trivial⟩
  obtain rfl := Option.some.inj hp
  exact ⟨Or.inr (by decide), rfl⟩

/-- The group key is renewed while a frame waits that the software encrypts. -/
def rekeyed : List Event :=
  [.apSetGroupKey 1 .ccmp (List.replicate 16 7) 0,
    .xmit { swEncrypt := true } everyone 0x0800 24 [1],
    .apSetGroupKey 2 .ccmp (List.replicate 16 8) 0,
    .dump 0 { bufAddr := some 512 } 2346,
    .xmit { swEncrypt := true } everyone 0x0800 24 [2],
    .dump 0 { bufAddr := some 512 } 2346]

set_option maxRecDepth 4000 in
/-- Two fragments have the number 1, and so have a frame that waited for its key to be
renewed and the first one after. -/
theorem numbers_reused :
    ¬((run step start (keyedFrame 220)).sent.map Mpdu.stamp).Nodup ∧
      ¬((run step start rekeyed).sent.map Mpdu.stamp).Nodup := by
  constructor
  · decide
  · decide

end Rtl8189.TxNumbers
