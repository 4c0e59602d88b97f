import Rtl8189.EventRun
import Rtl8189.StaInfo

/-!
# Authentication and association frames of protected stations

`OnAuth` and `OnAssocReq` of an access point. A station that negotiated frame
protection and has its pairwise key is to keep its association whatever
unprotected frames arrive under its address. The guards see to that everywhere
but on the failure exits: `auth_fail` frees the station, and `OnAssocReqFail`
takes its AID after the association flag has been cleared.
-/
namespace Rtl8189.MlmeProtect

open EventRun StaInfo

open PacketNumber (AuthAlgrthm)

open RecvFrame (addr2 getFrameSubType)

/-- Stations are named by their slot in `pstainfo_buf`. -/
structure StaPriv where
  sta : ℕ → Sta
  freeStaQueue : List ℕ
  staHash : List ℕ
  asocStaCount : ℕ
  asocList : List ℕ
  asocListCnt : ℕ
  authList : List ℕ
  authListCnt : ℕ
  staAid : ℕ → Option ℕ
  maxAid : ℕ
  maxNumSta : ℕ
  startedAid : ℕ
  rrAid : Bool

def StaPriv.setSta (s : StaPriv) (i : ℕ) (sta : Sta) : StaPriv :=
  { s with sta := Function.update s.sta i sta }

@[simp] theorem StaPriv.setSta_self (s : StaPriv) (i : ℕ) (sta : Sta) :
    (s.setSta i sta).sta i = sta := by
  simp only [setSta, Function.update_self]

theorem StaPriv.setSta_of_ne (s : StaPriv) {i k : ℕ} (h : k ≠ i) (sta : Sta) :
    (s.setSta i sta).sta k = s.sta k := by
  simp only [setSta, Function.update_of_ne h]

inductive Issued where
  | auth (da : MacAddr) (status : Status)
  | deauth (da : MacAddr)
  | asocrsp (da : MacAddr) (status : Status)
  | saQuery (da : MacAddr)
  | staAddEvent (addr : MacAddr)
  | rxMframe (f : RecvFrame)
  deriving DecidableEq, Repr

/-- The state after a handler, what it sent and reported, and whether it
returned `_SUCCESS`. -/
structure Handled where
  priv : StaPriv
  issued : List Issued
  ret : Bool

def getPrivacy (f : RecvFrame) : Bool := (byteAt f.view 1).testBit 6

def rtwGetStainfo (s : StaPriv) (hwaddr : MacAddr) : Option ℕ :=
  let addr := if isMcast hwaddr then Vector.replicate 6 0xff else hwaddr
  s.staHash.find? fun i => (s.sta i).macAddr = addr

def rtwAllocStainfo (s : StaPriv) (hwaddr : MacAddr) : Option (StaPriv × ℕ) :=
  match s.freeStaQueue with
  | [] => none
  | i :: free =>
    some ({ s with
      sta := Function.update s.sta i { macAddr := hwaddr }
      freeStaQueue := free
      staHash := s.staHash ++ [i]
      asocStaCount := s.asocStaCount + 1
      asocList := s.asocList.erase i
      authList := s.authList.erase i }, i)

/-- The entry on `asoc_list` stays. -/
def rtwFreeStainfo (ad : Adapter) (s : StaPriv) (i : ℕ) : StaPriv :=
  let sta := s.sta i
  let sta := { sta with
    state := { sta.state with linked := false }
    expireTo := 0
    qosInfo := 0
    maxSpLen := 0
    uapsdBk := 0
    uapsdBe := 0
    uapsdVi := 0
    uapsdVo := 0
    hasLegacyAc := false }
  let ownAid := ad.pmlmeinfoState = 3 ∧ 0 < sta.aid ∧ s.staAid (sta.aid - 1) = some i
  { s with
    sta := Function.update s.sta i (if ownAid then { sta with aid := 0 } else sta)
    staHash := s.staHash.erase i
    asocStaCount := s.asocStaCount - 1
    authList := s.authList.erase i
    authListCnt := if i ∈ s.authList then s.authListCnt - 1 else s.authListCnt
    staAid := if ownAid then Function.update s.staAid (sta.aid - 1) none else s.staAid
    freeStaQueue := s.freeStaQueue ++ [i] }

def unguarded (sta : Sta) : Bool :=
  !sta.bpairwiseKeyInstalled && sta.flags.mfp || !sta.flags.mfp

/-! ## Authentication -/

def wlanAuthSae : ℕ := 3

def authFrame (ad : Adapter) (f : RecvFrame) : List UInt8 × ℕ :=
  if getPrivacy f then (ad.rtwWepDecrypt f.view, 4) else (f.view, 0)

def authAlgorithm (ad : Adapter) (f : RecvFrame) : ℕ :=
  le16 (authFrame ad f).1 (wlanHdrA3Len + (authFrame ad f).2)

def authTransSeq (ad : Adapter) (f : RecvFrame) : ℕ :=
  le16 (authFrame ad f).1 (wlanHdrA3Len + (authFrame ad f).2 + 2)

def authMode (ad : Adapter) (algorithm : ℕ) : AuthAlgrthm :=
  if ad.dot11AuthAlgrthm = .ieee8021X ∧ algorithm ≠ wlanAuthSae
      ∧ ad.dot11PrivacyAlgrthm ≠ .wep40 ∧ ad.dot11PrivacyAlgrthm ≠ .wep104 then .open
  else ad.dot11AuthAlgrthm

def aclAllows (macAddr : MacAddr) : Acl → Bool
  | .disabled => true
  | .acceptUnlessListed addrs => macAddr ∉ addrs
  | .denyUnlessListed addrs => macAddr ∈ addrs

def rtwAccessCtrl (ad : Adapter) (macAddr : MacAddr) : Bool := ad.aclList.all (aclAllows macAddr)

def rejectBeforeLookup (ad : Adapter) (f : RecvFrame) : Option Status :=
  let algorithm := authAlgorithm ad f
  let mode := authMode ad algorithm
  if ad.forceAuthFail ≠ 0 then some (.forced ad.forceAuthFail)
  else if (0 < algorithm ∧ mode = .open) ∨ (algorithm = 0 ∧ mode = .shared) then
    some .noSuppAlg
  else if rtwAccessCtrl ad (addr2 f) = false then some .unableHandleSta
  else none

/-- The station of the frame, a new one if it is not known. A known one leaves
`asoc_list`. -/
def authSta (s : StaPriv) (sa : MacAddr) : Option (StaPriv × ℕ) :=
  match rtwGetStainfo s sa with
  | none =>
    (rtwAllocStainfo s sa).map fun (s, i) =>
      (s.setSta i { s.sta i with state := { authNull := true }, authSeq := 0 }, i)
  | some i =>
    if unguarded (s.sta i) ∧ i ∈ s.asocList then
      some ({ s with asocList := s.asocList.erase i, asocListCnt := s.asocListCnt - 1 }, i)
    else some (s, i)

def joinAuthList (s : StaPriv) (i : ℕ) : StaPriv :=
  if unguarded (s.sta i) ∧ i ∉ s.authList then
    { s with authList := s.authList ++ [i], authListCnt := s.authListCnt + 1 }
  else s

def startExpire (ad : Adapter) (sta : Sta) : Sta :=
  if sta.authSeq = 0 then { sta with expireTo := ad.authTo } else sta

def reportedSae (ad : Adapter) (f : RecvFrame) : Bool :=
  ad.cfg80211ReportAuth && authAlgorithm ad f = wlanAuthSae
    && authMode ad (authAlgorithm ad f) = .ieee8021X

def openSystem (ad : Adapter) (f : RecvFrame) : Prop :=
  authAlgorithm ad f = 0 ∧ authMode ad 0 ∈ [AuthAlgrthm.open, .ieee8021X, .auto]

instance (ad : Adapter) (f : RecvFrame) : Decidable (openSystem ad f) :=
  inferInstanceAs (Decidable (_ ∧ _))

def challengeAnswered (ad : Adapter) (sta : Sta) (f : RecvFrame) : Bool :=
  let ies := (authFrame ad f).1.drop (wlanHdrA3Len + 4 + 6)
  match rtwGetIe ies 16 (f.len - wlanHdrA3Len - 6 - 4) with
  | none => false
  | some p => byteAt ies (p + 1) ≠ 0 ∧ (ies.drop (p + 2)).take 128 = sta.chgTxt

def acceptOpen (ad : Adapter) (sta : Sta) (algorithm : ℕ) : Sta :=
  let sta :=
    if unguarded sta then
      { sta with
        state := { sta.state with authNull := false, authSuccess := true }
        expireTo := ad.assocTo }
    else sta
  { sta with authalg := algorithm }

def sendChallenge (sta : Sta) (algorithm : ℕ) : Sta :=
  let sta := { sta with chgTxt := List.replicate 128 78 }
  let sta :=
    if unguarded sta then
      { sta with state := { sta.state with authNull := false, authState := true } }
    else sta
  { sta with authalg := algorithm, authSeq := 2 }

def acceptAnswer (ad : Adapter) (sta : Sta) : Sta :=
  if unguarded sta then
    { sta with
      state := { sta.state with authState := false, authSuccess := true }
      expireTo := ad.assocTo }
  else sta

/-- From the sequence check to the answer; an error is a jump to `auth_fail`. -/
def authTransaction (ad : Adapter) (sta : Sta) (f : RecvFrame) : Except Status Sta :=
  let seq := authTransSeq ad f
  if sta.authSeq + 1 ≠ seq then .error .outOfAuthSeq
  else if openSystem ad f then
    if seq = 1 then .ok (acceptOpen ad sta (authAlgorithm ad f))
    else .error .outOfAuthSeq
  else if seq = 1 then .ok (sendChallenge sta (authAlgorithm ad f))
  else if seq = 3 then
    if challengeAnswered ad sta f then .ok (acceptAnswer ad sta)
    else .error .challengeFail
  else .error .outOfAuthSeq

def nextAuthSeq (sta : Sta) (seq : ℕ) : Sta :=
  { sta with authSeq := if sta.state.authSuccess ∨ sta.state.assocSuccess then 0 else seq + 1 }

def onAuth (ad : Adapter) (s : StaPriv) (f : RecvFrame) : Handled :=
  if ad.pmlmeinfoState % 4 ≠ 3 then ⟨s, [], false⟩
  else if ad.mlmeIsAsoc = false then ⟨s, [], true⟩
  else match rejectBeforeLookup ad f with
  | some status => ⟨s, [.auth (addr2 f) status], false⟩
  | none =>
    match authSta s (addr2 f) with
    | none => ⟨s, [.auth (addr2 f) .unableHandleSta], false⟩
    | some (s, i) =>
      let s := joinAuthList s i
      let s := s.setSta i (startExpire ad (s.sta i))
      if reportedSae ad f then
        ⟨s.setSta i { s.sta i with authalg := authAlgorithm ad f }, [.rxMframe f], true⟩
      else match authTransaction ad (s.sta i) f with
      | .error status => ⟨rtwFreeStainfo ad s i, [.auth (addr2 f) status], false⟩
      | .ok sta =>
        ⟨s.setSta i (nextAuthSeq sta (authTransSeq ad f)), [.auth (addr2 f) .successful], true⟩

/-! ## Association -/

def wifiAssocreq : ℕ := 0x00

def wifiReassocreq : ℕ := 0x20

def wifiAuth : ℕ := 0xb0

def ieOffset (f : RecvFrame) : ℕ := if getFrameSubType f = wifiAssocreq then 4 else 10

def findAid (s : StaPriv) : ℕ → ℕ → ℕ → ℕ
  | 0, _, _ => 0
  | fuel + 1, i, usedCnt =>
    let aid := (i + s.startedAid - 1) % s.maxAid + 1
    if s.staAid (aid - 1) = none then if s.maxNumSta ≤ usedCnt then 0 else aid
    else if s.maxNumSta ≤ usedCnt + 1 then 0
    else findAid s fuel (i + 1) (usedCnt + 1)

def rtwAidAlloc (s : StaPriv) (i : ℕ) (sta : Sta) : StaPriv × Sta :=
  let aid := findAid s s.maxAid 0 0
  if aid = 0 then (s, { sta with aid := 0 })
  else
    ({ s with
       staAid := Function.update s.staAid (aid - 1) (some i)
       startedAid := if s.rrAid then aid % s.maxAid + 1 else s.startedAid },
      { sta with aid })

def assignAid (s : StaPriv) (i : ℕ) (sta : Sta) : StaPriv × Sta :=
  if 0 < sta.aid then (s, sta) else rtwAidAlloc s i sta

/-- The check of the station state clears the flag it was passed on. -/
def enterAssocState (sta : Sta) : Sta :=
  if sta.state.authSuccess then
    { sta with state := { sta.state with authSuccess := false, assocState := true } }
  else { sta with state := { sta.state with assocSuccess := false, assocState := true } }

def joinAsocList (ad : Adapter) (s : StaPriv) (i : ℕ) (sta : Sta) : StaPriv × Sta :=
  let s := { s with
    authList := s.authList.erase i
    authListCnt := if i ∈ s.authList then s.authListCnt - 1 else s.authListCnt }
  if i ∈ s.asocList then (s, sta)
  else
    ({ s with asocList := s.asocList ++ [i], asocListCnt := s.asocListCnt + 1 },
      { sta with expireTo := ad.expireTo })

def acceptAssoc (ad : Adapter) (s : StaPriv) (i : ℕ) (sta : Sta) (f : RecvFrame) : Handled :=
  let sta := { sta with
    state := { sta.state with assocState := false, assocSuccess := true } }
  if unguarded sta then
    let (s, sta) := joinAsocList ad s i sta
    ⟨s.setSta i { ad.staInfoUpdate sta with assocReq := f.rxData },
      [.asocrsp (addr2 f) .successful, .staAddEvent sta.macAddr], true⟩
  else
    ⟨s.setSta i { sta with assocReq := f.rxData },
      [.asocrsp (addr2 f) .refusedTemporarily, .saQuery sta.macAddr], true⟩

def onAssocReqFail (s : StaPriv) (i : ℕ) (sta : Sta) (f : RecvFrame) (status : Status) :
    Handled :=
  ⟨s.setSta i { sta with aid := 0 }, [.asocrsp (addr2 f) status], false⟩

def onAssocReq (ad : Adapter) (s : StaPriv) (f : RecvFrame) : Handled :=
  if ad.pmlmeinfoState % 4 ≠ 3 then ⟨s, [], false⟩
  else if f.len < wlanHdrA3Len + ieOffset f then ⟨s, [], false⟩
  else match rtwGetStainfo s (addr2 f) with
  | none => ⟨s, [.deauth (addr2 f)], false⟩
  | some i =>
    let sta := s.sta i
    if sta.authalg = wlanAuthSae ∧ sta.state.authNull then ⟨s, [], true⟩
    else if sta.state.authSuccess = false ∧ sta.state.assocSuccess = false then
      ⟨s, [.deauth (addr2 f)], false⟩
    else
      let (sta, status) := checkAssocReq ad (enterAssocState sta) f (ieOffset f)
      if status ≠ .successful then onAssocReqFail s i sta f status
      else
        let (s, sta) := assignAid s i sta
        if sta.aid = 0 then onAssocReqFail s i sta f .unableHandleSta
        else acceptAssoc ad s i sta f

def onMgntFrame (ad : Adapter) (s : StaPriv) (f : RecvFrame) : StaPriv :=
  if getFrameSubType f = wifiAuth then (onAuth ad s f).priv
  else if getFrameSubType f = wifiAssocreq ∨ getFrameSubType f = wifiReassocreq then
    (onAssocReq ad s f).priv
  else s

/-! ## Stations under protection -/

/-- An associated station with frame protection and an installed pairwise key. -/
structure Protected (s : StaPriv) (i : ℕ) : Prop where
  hashed : i ∈ s.staHash
  allocated : i ∉ s.freeStaQueue
  onAsocList : i ∈ s.asocList
  assocSuccess : (s.sta i).state.assocSuccess = true
  aid_pos : 0 < (s.sta i).aid
  aidTable : s.staAid ((s.sta i).aid - 1) = some i
  mfp : (s.sta i).flags.mfp = true
  key : (s.sta i).bpairwiseKeyInstalled = true

/-- A station under protection in `s` is still associated in `t`. -/
structure Kept (s t : StaPriv) (i : ℕ) : Prop where
  hashed : i ∈ t.staHash
  allocated : i ∉ t.freeStaQueue
  onAsocList : i ∈ t.asocList
  assocSuccess : (t.sta i).state.assocSuccess = true
  aid : (t.sta i).aid = (s.sta i).aid
  aidTable : t.staAid ((s.sta i).aid - 1) = some i
  keys : (t.sta i).keys = (s.sta i).keys
  key : (t.sta i).bpairwiseKeyInstalled = true

theorem Protected.guarded {s : StaPriv} {i : ℕ} (h : Protected s i) :
    unguarded (s.sta i) = false := by
  simp only [unguarded, h.mfp, h.key, Bool.not_true, Bool.false_and, Bool.or_false]

structure SameStation (p q : Sta) : Prop where
  macAddr : q.macAddr = p.macAddr
  aid : q.aid = p.aid
  keys : q.keys = p.keys
  key : q.bpairwiseKeyInstalled = p.bpairwiseKeyInstalled
  mfp : p.flags.mfp = true → q.flags.mfp = true
  assocSuccess : p.state.assocSuccess = true → q.state.assocSuccess = true

theorem SameStation.refl (p : Sta) : SameStation p p := ⟨rfl, rfl, rfl, rfl, id, id⟩

theorem SameStation.trans {p q r : Sta} (hpq : SameStation p q) (hqr : SameStation q r) :
    SameStation p r where
  macAddr := hqr.macAddr.trans hpq.macAddr
  aid := hqr.aid.trans hpq.aid
  keys := hqr.keys.trans hpq.keys
  key := hqr.key.trans hpq.key
  mfp := fun h => hqr.mfp (hpq.mfp h)
  assocSuccess := fun h => hqr.assocSuccess (hpq.assocSuccess h)

/-- Neither the lists nor the AID table moved, and every station is the same. -/
structure Undisturbed (s t : StaPriv) : Prop where
  staHash : t.staHash = s.staHash
  freeStaQueue : t.freeStaQueue = s.freeStaQueue
  asocList : t.asocList = s.asocList
  staAid : t.staAid = s.staAid
  sta : ∀ i, SameStation (s.sta i) (t.sta i)

theorem Undisturbed.refl (s : StaPriv) : Undisturbed s s :=
  ⟨rfl, rfl, rfl, rfl, fun i => SameStation.refl (s.sta i)⟩

theorem Undisturbed.trans {s t u : StaPriv} (hst : Undisturbed s t) (htu : Undisturbed t u) :
    Undisturbed s u where
  staHash := htu.staHash.trans hst.staHash
  freeStaQueue := htu.freeStaQueue.trans hst.freeStaQueue
  asocList := htu.asocList.trans hst.asocList
  staAid := htu.staAid.trans hst.staAid
  sta := fun i => (hst.sta i).trans (htu.sta i)

theorem Undisturbed.setSta {s : StaPriv} {i : ℕ} {q : Sta} (h : SameStation (s.sta i) q) :
    Undisturbed s (s.setSta i q) := by
  refine ⟨rfl, rfl, rfl, rfl, ?_⟩
  intro k
  by_cases hk : k = i
  · subst hk
    rw [StaPriv.setSta_self]
    exact h
  · rw [StaPriv.setSta_of_ne s hk]
    exact SameStation.refl (s.sta k)

theorem Undisturbed.kept {s t : StaPriv} (h : Undisturbed s t) {i : ℕ} (hi : Protected s i) :
    Kept s t i where
  hashed := h.staHash ▸ hi.hashed
  allocated := h.freeStaQueue ▸ hi.allocated
  onAsocList := h.asocList ▸ hi.onAsocList
  assocSuccess := (h.sta i).assocSuccess hi.assocSuccess
  aid := (h.sta i).aid
  aidTable := by rw [h.staAid, hi.aidTable]
  keys := (h.sta i).keys
  key := (h.sta i).key.trans hi.key

theorem Undisturbed.protected {s t : StaPriv} (h : Undisturbed s t) {i : ℕ}
    (hi : Protected s i) : Protected t i where
  hashed := (h.kept hi).hashed
  allocated := (h.kept hi).allocated
  onAsocList := (h.kept hi).onAsocList
  assocSuccess := (h.kept hi).assocSuccess
  aid_pos := by
    rw [(h.sta i).aid]
    exact hi.aid_pos
  aidTable := by rw [(h.sta i).aid, h.staAid, hi.aidTable]
  mfp := (h.sta i).mfp hi.mfp
  key := (h.kept hi).key

theorem Undisturbed.rtwGetStainfo {s t : StaPriv} (h : Undisturbed s t) (hwaddr : MacAddr) :
    rtwGetStainfo t hwaddr = rtwGetStainfo s hwaddr := by
  simp only [MlmeProtect.rtwGetStainfo, h.staHash]
  congr 1
  funext i
  rw [(h.sta i).macAddr]

/-! ## Authentication frames -/

/-- The frame the transaction expects: the first one, or the third of shared key
authentication with the text answered. -/
def InSequence (ad : Adapter) (sta : Sta) (f : RecvFrame) : Prop :=
  authTransSeq ad f = sta.authSeq + 1
    ∧ (authTransSeq ad f = 1
      ∨ authTransSeq ad f = 3 ∧ ¬ openSystem ad f ∧ challengeAnswered ad sta f = true)

theorem authTransaction_ok_iff (ad : Adapter) (sta : Sta) (f : RecvFrame) :
    (∃ q, authTransaction ad sta f = .ok q) ↔ InSequence ad sta f := by
  simp only [authTransaction, InSequence]
  split_ifs with hseq hopen h1 h1 h3 hch
  · exact ⟨fun ⟨_, h⟩ => (nomatch h), fun h => absurd h.1.symm hseq⟩
  · exact ⟨fun _ => ⟨(not_not.mp hseq).symm, .inl h1⟩, fun _ => ⟨_, rfl⟩⟩
  · exact ⟨fun ⟨_, h⟩ => (nomatch h), fun h => (h.2.elim h1 fun h' => h'.2.1 hopen).elim⟩
  · exact ⟨fun _ => ⟨(not_not.mp hseq).symm, .inl h1⟩, fun _ => ⟨_, rfl⟩⟩
  · exact ⟨fun _ => ⟨(not_not.mp hseq).symm, .inr ⟨h3, hopen, hch⟩⟩, fun _ => ⟨_, rfl⟩⟩
  · exact ⟨fun ⟨_, h⟩ => (nomatch h), fun h => (h.2.elim h1 fun h' => hch h'.2.2).elim⟩
  · exact ⟨fun ⟨_, h⟩ => (nomatch h), fun h => (h.2.elim h1 fun h' => h3 h'.1).elim⟩

theorem acceptOpen_same {ad : Adapter} {sta : Sta} (h : unguarded sta = false)
    (algorithm : ℕ) : SameStation sta (acceptOpen ad sta algorithm) := by
  simp only [acceptOpen, h, Bool.false_eq_true, if_false]
  exact ⟨rfl, rfl, rfl, rfl, id, id⟩

theorem sendChallenge_same {sta : Sta} (h : unguarded sta = false) (algorithm : ℕ) :
    SameStation sta (sendChallenge sta algorithm) := by
  have h' : unguarded { sta with chgTxt := List.replicate 128 78 } = false := h
  simp only [sendChallenge, h', Bool.false_eq_true, if_false]
  exact ⟨rfl, rfl, rfl, rfl, id, id⟩

theorem acceptAnswer_of_guarded {ad : Adapter} {sta : Sta} (h : unguarded sta = false) :
    acceptAnswer ad sta = sta := by
  simp only [acceptAnswer, h, Bool.false_eq_true, if_false]

theorem authTransaction_same {ad : Adapter} {sta q : Sta} {f : RecvFrame}
    (hsta : unguarded sta = false) (h : authTransaction ad sta f = .ok q) :
    SameStation sta q := by
  simp only [authTransaction] at h
  split_ifs at h
  · obtain rfl := Except.ok.inj h
    exact acceptOpen_same hsta _
  · obtain rfl := Except.ok.inj h
    exact sendChallenge_same hsta _
  · obtain rfl := Except.ok.inj h
    rw [acceptAnswer_of_guarded hsta]
    exact SameStation.refl sta

theorem startExpire_same (ad : Adapter) (sta : Sta) : SameStation sta (startExpire ad sta) := by
  simp only [startExpire]
  split_ifs
  · exact ⟨rfl, rfl, rfl, rfl, id, id⟩
  · exact SameStation.refl sta

theorem startExpire_inSequence (ad : Adapter) (sta : Sta) (f : RecvFrame) :
    InSequence ad (startExpire ad sta) f ↔ InSequence ad sta f := by
  simp only [startExpire]
  split_ifs
  · exact Iff.rfl
  · exact Iff.rfl

/-- The frame ends before `auth_fail`, or the station has not been looked up there. -/
def AuthHarmless (ad : Adapter) (s : StaPriv) (f : RecvFrame) (i : ℕ) : Prop :=
  ad.pmlmeinfoState % 4 ≠ 3 ∨ ad.mlmeIsAsoc = false ∨ (rejectBeforeLookup ad f).isSome
    ∨ reportedSae ad f = true ∨ InSequence ad (s.sta i) f

theorem authSta_of_protected {s : StaPriv} {i : ℕ} {sa : MacAddr}
    (hsa : rtwGetStainfo s sa = some i) (hi : Protected s i) : authSta s sa = some (s, i) := by
  simp only [authSta, hsa, hi.guarded, Bool.false_eq_true, false_and, if_false]

theorem joinAuthList_of_protected {s : StaPriv} {i : ℕ} (hi : Protected s i) :
    joinAuthList s i = s := by
  simp only [joinAuthList, hi.guarded, Bool.false_eq_true, false_and, if_false]

theorem onAuth_of_protected (ad : Adapter) {s : StaPriv} {f : RecvFrame} {i : ℕ}
    (hsa : rtwGetStainfo s (addr2 f) = some i) (hi : Protected s i) :
    AuthHarmless ad s f i ∧ Undisturbed s (onAuth ad s f).priv ∨
      ¬ AuthHarmless ad s f i ∧ i ∈ (onAuth ad s f).priv.freeStaQueue := by
  by_cases hap : ad.pmlmeinfoState % 4 ≠ 3
  · rw [onAuth, if_pos hap]
    exact .inl ⟨.inl hap, Undisturbed.refl s⟩
  by_cases hasoc : ad.mlmeIsAsoc = false
  · rw [onAuth, if_neg hap, if_pos hasoc]
    exact .inl ⟨.inr (.inl hasoc), Undisturbed.refl s⟩
  rw [onAuth, if_neg hap, if_neg hasoc]
  cases hrej : rejectBeforeLookup ad f with
  | some status => exact .inl ⟨.inr (.inr (.inl (by rw [hrej]; rfl))), Undisturbed.refl s⟩
  | none =>
    have hexp : Undisturbed s (s.setSta i (startExpire ad (s.sta i))) :=
      .setSta (startExpire_same ad (s.sta i))
    simp only [authSta_of_protected hsa hi, joinAuthList_of_protected hi, StaPriv.setSta_self]
    split_ifs with hsae
    · refine .inl ⟨.inr (.inr (.inr (.inl hsae))), hexp.trans (.setSta ?_)⟩
      rw [StaPriv.setSta_self]
      exact ⟨rfl, rfl, rfl, rfl, id, id⟩
    have hseq : InSequence ad (s.sta i) f
        ↔ ∃ q, authTransaction ad (startExpire ad (s.sta i)) f = .ok q := by
      rw [authTransaction_ok_iff, startExpire_inSequence]
    cases htr : authTransaction ad (startExpire ad (s.sta i)) f with
    | ok q =>
      have hguard : unguarded (startExpire ad (s.sta i)) = false := by
        have := (hexp.protected hi).guarded
        rwa [StaPriv.setSta_self] at this
      refine .inl ⟨.inr (.inr (.inr (.inr (hseq.mpr ⟨q, htr⟩)))), hexp.trans (.setSta ?_)⟩
      rw [StaPriv.setSta_self]
      exact (authTransaction_same hguard htr).trans ⟨rfl, rfl, rfl, rfl, id, id⟩
    | error status =>
      refine .inr ⟨?_, List.mem_append_right _ (List.mem_singleton_self i)⟩
      rw [htr] at hseq
      rintro (h | h | h | h | h)
      · exact hap h
      · exact hasoc h
      · rw [hrej] at h
        exact Bool.false_ne_true h
      · exact hsae h
      · obtain ⟨q, hq⟩ := hseq.mp h
        nomatch hq

theorem onAuth_undisturbed {ad : Adapter} {s : StaPriv} {f : RecvFrame} {i : ℕ}
    (hsa : rtwGetStainfo s (addr2 f) = some i) (hi : Protected s i)
    (h : AuthHarmless ad s f i) : Undisturbed s (onAuth ad s f).priv := by
  rcases onAuth_of_protected ad hsa hi with hok | hbad
  · exact hok.2
  · exact absurd h hbad.1

/-! ## Association requests -/

/-- The request ends before the state changes, or nothing in it is refused. -/
def AssocHarmless (ad : Adapter) (s : StaPriv) (f : RecvFrame) (i : ℕ) : Prop :=
  ad.pmlmeinfoState % 4 ≠ 3 ∨ f.len < wlanHdrA3Len + ieOffset f
    ∨ ((s.sta i).authalg = wlanAuthSae ∧ (s.sta i).state.authNull = true)
    ∨ AssocReqAcceptable ad (s.sta i) f (ieOffset f)

theorem enterAssocState_acceptable (ad : Adapter) (sta : Sta) (f : RecvFrame) (off : ℕ) :
    AssocReqAcceptable ad (enterAssocState sta) f off ↔ AssocReqAcceptable ad sta f off := by
  have hcred : SameCredentials (enterAssocState sta) sta := by
    simp only [enterAssocState]
    split_ifs <;> exact ⟨rfl, rfl, rfl⟩
  simp only [AssocReqAcceptable, rtwApParseStaSecurityIe_congr ad hcred]

theorem enterAssocState_fields (sta : Sta) :
    (enterAssocState sta).macAddr = sta.macAddr ∧ (enterAssocState sta).aid = sta.aid
      ∧ (enterAssocState sta).keys = sta.keys
      ∧ (enterAssocState sta).bpairwiseKeyInstalled = sta.bpairwiseKeyInstalled
      ∧ (enterAssocState sta).flags = sta.flags := by
  simp only [enterAssocState]
  split_ifs <;> exact ⟨rfl, rfl, rfl, rfl, rfl⟩

theorem acceptAssoc_undisturbed (ad : Adapter) {s : StaPriv} {i : ℕ} {q : Sta} (f : RecvFrame)
    (hi : Protected s i) (hq : Keeps (enterAssocState (s.sta i)) q) :
    Undisturbed s (acceptAssoc ad s i q f).priv := by
  obtain ⟨hmac, haid, hkeys, hkey, hflags⟩ := enterAssocState_fields (s.sta i)
  have hmfp : q.flags.mfp = true := hq.mfp (by rw [hflags, hi.mfp])
  have hkey' : q.bpairwiseKeyInstalled = true := by
    rw [hq.bpairwiseKeyInstalled, hkey, hi.key]
  have hguard : unguarded { q with
      state := { q.state with assocState := false, assocSuccess := true } } = false := by
    simp only [unguarded, hmfp, hkey', Bool.not_true, Bool.false_and, Bool.or_false]
  rw [acceptAssoc, hguard, if_neg Bool.false_ne_true]
  apply Undisturbed.setSta
  exact ⟨hq.macAddr.trans hmac, hq.aid.trans haid, hq.keys.trans hkeys,
    hq.bpairwiseKeyInstalled.trans hkey, fun _ => hmfp, fun _ => rfl⟩

theorem onAssocReq_of_protected (ad : Adapter) {s : StaPriv} {f : RecvFrame} {i : ℕ}
    (hsa : rtwGetStainfo s (addr2 f) = some i) (hi : Protected s i) :
    AssocHarmless ad s f i ∧ Undisturbed s (onAssocReq ad s f).priv ∨
      ¬ AssocHarmless ad s f i ∧ ((onAssocReq ad s f).priv.sta i).aid = 0 := by
  by_cases hap : ad.pmlmeinfoState % 4 ≠ 3
  · rw [onAssocReq, if_pos hap]
    exact .inl ⟨.inl hap, Undisturbed.refl s⟩
  by_cases hlen : f.len < wlanHdrA3Len + ieOffset f
  · rw [onAssocReq, if_neg hap, if_pos hlen]
    exact .inl ⟨.inr (.inl hlen), Undisturbed.refl s⟩
  by_cases hsae : (s.sta i).authalg = wlanAuthSae ∧ (s.sta i).state.authNull = true
  · simp only [onAssocReq, if_neg hap, if_neg hlen, hsa, if_pos hsae]
    exact .inl ⟨.inr (.inr (.inl hsae)), Undisturbed.refl s⟩
  have hassoc : ¬ ((s.sta i).state.authSuccess = false ∧ (s.sta i).state.assocSuccess = false) :=
    fun h => Bool.false_ne_true (h.2.symm.trans hi.assocSuccess)
  have hkeeps := checkAssocReq_keeps ad (enterAssocState (s.sta i)) f (ieOffset f)
  have haid : (checkAssocReq ad (enterAssocState (s.sta i)) f (ieOffset f)).1.aid
      = (s.sta i).aid := hkeeps.aid.trans (enterAssocState_fields (s.sta i)).2.1
  have hpos := hi.aid_pos
  have hassign : assignAid s i (checkAssocReq ad (enterAssocState (s.sta i)) f (ieOffset f)).1
      = (s, (checkAssocReq ad (enterAssocState (s.sta i)) f (ieOffset f)).1) := by
    rw [assignAid, if_pos (by omega)]
  simp only [onAssocReq, if_neg hap, if_neg hlen, hsa, if_neg hsae, if_neg hassoc]
  split_ifs with hcheck hzero
  · refine .inr ⟨?_, by rw [onAssocReqFail, StaPriv.setSta_self]⟩
    rw [ne_eq, checkAssocReq_successful_iff, enterAssocState_acceptable] at hcheck
    rintro (h | h | h | h)
    · exact hap h
    · exact hlen h
    · exact hsae h
    · exact hcheck h
  · simp only [hassign, haid] at hzero
    omega
  · rw [hassign]
    rw [not_not, checkAssocReq_successful_iff, enterAssocState_acceptable] at hcheck
    exact .inl ⟨.inr (.inr (.inr hcheck)), acceptAssoc_undisturbed ad f hi hkeeps⟩

theorem onAssocReq_undisturbed {ad : Adapter} {s : StaPriv} {f : RecvFrame} {i : ℕ}
    (hsa : rtwGetStainfo s (addr2 f) = some i) (hi : Protected s i)
    (h : AssocHarmless ad s f i) : Undisturbed s (onAssocReq ad s f).priv := by
  rcases onAssocReq_of_protected ad hsa hi with hok | hbad
  · exact hok.2
  · exact absurd h hbad.1

/-! ## Runs -/

def FromProtected (s : StaPriv) (f : RecvFrame) : Prop :=
  ∃ i, rtwGetStainfo s (addr2 f) = some i ∧ Protected s i

/-- No failure exit of the two handlers is taken with the station at hand. -/
def Harmless (ad : Adapter) (s : StaPriv) (f : RecvFrame) : Prop :=
  ∀ i, rtwGetStainfo s (addr2 f) = some i →
    (getFrameSubType f = wifiAuth → AuthHarmless ad s f i)
      ∧ (getFrameSubType f = wifiAssocreq ∨ getFrameSubType f = wifiReassocreq →
        AssocHarmless ad s f i)

theorem onMgntFrame_undisturbed {ad : Adapter} {s : StaPriv} {f : RecvFrame}
    (hf : FromProtected s f) (h : Harmless ad s f) : Undisturbed s (onMgntFrame ad s f) := by
  obtain ⟨i, hsa, hi⟩ := hf
  rw [onMgntFrame]
  split_ifs with hauth hassoc
  · exact onAuth_undisturbed hsa hi ((h i hsa).1 hauth)
  · exact onAssocReq_undisturbed hsa hi ((h i hsa).2 hassoc)
  · exact Undisturbed.refl s

theorem onMgntFrame_kept_iff (ad : Adapter) {s : StaPriv} {f : RecvFrame} {i : ℕ}
    (hsa : rtwGetStainfo s (addr2 f) = some i) (hi : Protected s i) :
    Kept s (onMgntFrame ad s f) i ↔ Harmless ad s f := by
  constructor
  · intro hkept k hk
    obtain rfl : i = k := Option.some.inj (hsa.symm.trans hk)
    refine ⟨fun hauth => ?_, fun hassoc => ?_⟩
    · rw [onMgntFrame, if_pos hauth] at hkept
      rcases onAuth_of_protected ad hsa hi with hok | hbad
      · exact hok.1
      · exact absurd hbad.2 hkept.allocated
    · have hauth : getFrameSubType f ≠ wifiAuth := by
        rcases hassoc with h | h <;> rw [h] <;> decide
      rw [onMgntFrame, if_neg hauth, if_pos hassoc] at hkept
      rcases onAssocReq_of_protected ad hsa hi with hok | hbad
      · exact hok.1
      · have haid := hkept.aid
        have hpos := hi.aid_pos
        omega
  · intro h
    exact (onMgntFrame_undisturbed ⟨i, hsa, hi⟩ h).kept hi

def mgntFrame (subtype : UInt8) (body : List UInt8) : RecvFrame where
  rxData := [subtype, 0, 0, 0] ++ List.replicate 6 6 ++ [2, 0, 0, 0, 0, 1] ++
    List.replicate 6 6 ++ [0, 0] ++ body

def wpa2Ap : Adapter where
  ssid := [0x61]
  rtwWepDecrypt := id
  rtwParseWpa2Ie := fun _ => none
  rtwParseWpaIe := fun _ => none
  rtwCachedPmkid := fun _ => false
  rtwGetP2pIe := fun _ => false
  processAssocReqP2pIe := fun _ => 0
  staInfoUpdate := id

def oneStation : StaPriv where
  sta := fun _ =>
    { macAddr := macOf 2 0 0 0 0 1
      state := { linked := true, assocSuccess := true }
      flags := { mfp := true }
      aid := 1
      bpairwiseKeyInstalled := true }
  freeStaQueue := [1]
  staHash := [0]
  asocStaCount := 1
  asocList := [0]
  asocListCnt := 1
  authList := []
  authListCnt := 0
  staAid := fun k => if k = 0 then some 0 else none
  maxAid := 2
  maxNumSta := 2
  startedAid := 1
  rrAid := false

theorem oneStation_protected : Protected oneStation 0 := by
  constructor <;> decide

theorem fromOneStation (subtype : UInt8) (body : List UInt8) :
    rtwGetStainfo oneStation (addr2 (mgntFrame subtype body)) = some 0 := by
  have haddr : addr2 (mgntFrame subtype body) = #v[2, 0, 0, 0, 0, 1] := rfl
  rw [haddr]
  decide

end Rtl8189.MlmeProtect
