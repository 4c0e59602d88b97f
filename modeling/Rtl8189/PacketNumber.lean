import Mathlib.Algebra.Group.Int.Defs
import Rtl8189.EventRun
import Rtl8189.RecvFrame
import Rtl8189.ReplayGuard

/-!
# CCMP packet numbers

`validate_recv_data_frame` compares and stores the packet number of a data frame
before `decryptor` has looked at it. For unicast frames the outcome of the
comparison is ignored. The security type of the comparison comes from the
receive descriptor, that of the decryption from the keys.
-/
namespace Rtl8189.PacketNumber

open ReplayGuard EventRun

inductive AuthAlgrthm where
  | open
  | shared
  | ieee8021X
  | auto
  | wapi
  deriving DecidableEq

/-- The security state of the adapter and of the one station that sends. -/
structure SecurityPriv where
  stationState : Bool := true
  dot11AuthAlgrthm : AuthAlgrthm := .ieee8021X
  dot11PrivacyAlgrthm : Encrypt := .noPrivacy
  dot118021XGrpPrivacy : Encrypt := .aes
  dot118021XPrivacy : Encrypt := .aes
  aesDecrypt : RecvFrame → Bool
  tkipDecrypt : RecvFrame → Bool

/-- The caches of a station, by default as `rtw_alloc_stainfo` leaves them. `accepted` records the
frames that `decryptor` let through. -/
structure RxCache where
  tidRxseq : ℕ → ℕ := fun _ => 0xffff
  bmcTidRxseq : ℕ → ℕ := fun _ => 0xffff
  nonqosRxseq : ℕ := 0
  nonqosBmcRxseq : ℕ := 0
  iv : ℕ → ℕ := fun _ => 0
  lastTid : ℕ := 0
  ivSeq : ℕ → ℕ := fun _ => 0
  accepted : List RecvFrame := []

def ccmph2Pn (ch : ℕ) : ℕ := ch % 2 ^ 16 + 2 ^ 16 * (ch / 2 ^ 32 % 2 ^ 32)

def ccmph2Keyid (ch : ℕ) : ℕ := ch / 2 ^ 30 % 4

def pnLessChk (a b : ℕ) : Bool := 2 ^ 47 ≤ ((a : ℤ) - b) % 2 ^ 48

def validPnChk (new old : ℕ) : Bool := old = 0 ∨ pnLessChk old new

def ivHdr (f : RecvFrame) : ℕ := le64 f.view f.attrib.hdrlen

def seqCtrl (f : RecvFrame) : ℕ := f.attrib.seqNum * 16 + f.attrib.fragNum

/-- The cached sequence control that `recv_decache` compares. -/
def prxseq (s : RxCache) (f : RecvFrame) : ℕ :=
  match f.attrib.qos, isMcast f.attrib.ra with
  | true, true => s.bmcTidRxseq f.attrib.priority
  | true, false => s.tidRxseq f.attrib.priority
  | false, true => s.nonqosBmcRxseq
  | false, false => s.nonqosRxseq

def setPrxseq (s : RxCache) (f : RecvFrame) : RxCache :=
  match f.attrib.qos, isMcast f.attrib.ra with
  | true, true =>
    { s with bmcTidRxseq := Function.update s.bmcTidRxseq f.attrib.priority (seqCtrl f) }
  | true, false =>
    { s with tidRxseq := Function.update s.tidRxseq f.attrib.priority (seqCtrl f) }
  | false, true => { s with nonqosBmcRxseq := seqCtrl f }
  | false, false => { s with nonqosRxseq := seqCtrl f }

def recvDecache (s : RxCache) (f : RecvFrame) : Option RxCache :=
  if 15 < f.attrib.priority then none
  else if seqCtrl f = prxseq s f then none
  else some (setPrxseq s f)

def recvUcastPnDecache (s : RxCache) (f : RecvFrame) : Option RxCache :=
  let tid := f.attrib.priority
  if 15 < tid then none
  else if f.attrib.encrypt = .aes then
    if !validPnChk (ccmph2Pn (ivHdr f)) (ccmph2Pn (s.iv tid)) then some s -- `return _FAIL` is commented out
    else some { s with lastTid := tid, iv := Function.update s.iv tid (ivHdr f) }
  else some s

def recvBcastPnDecache (sec : SecurityPriv) (s : RxCache) (f : RecvFrame) : Option RxCache :=
  if f.attrib.encrypt = .aes ∧ sec.stationState then
    let keyId := ccmph2Keyid (ivHdr f)
    let pktPn := ccmph2Pn (ivHdr f)
    if !validPnChk pktPn (s.ivSeq keyId % 2 ^ 48) then none
    else some { s with ivSeq := Function.update s.ivSeq keyId pktPn }
  else some s

def pnDecache (sec : SecurityPriv) (s : RxCache) (f : RecvFrame) : Option RxCache :=
  if isMcast f.attrib.ra then recvBcastPnDecache sec s f else recvUcastPnDecache s f

def getEncryAlgo (sec : SecurityPriv) (bmcst : Bool) : Encrypt :=
  match sec.dot11AuthAlgrthm with
  | .open | .shared | .auto | .wapi => sec.dot11PrivacyAlgrthm
  | .ieee8021X => if bmcst then sec.dot118021XGrpPrivacy else sec.dot118021XPrivacy

def setEncrypt (sec : SecurityPriv) (f : RecvFrame) : RecvFrame :=
  let enc := if f.attrib.privacy then getEncryAlgo sec (isMcast f.attrib.ra) else .noPrivacy
  { f with attrib := { f.attrib with encrypt := enc, ivLen := enc.ivLen, icvLen := enc.icvLen } }

/-- Whether `decryptor` returns the frame. What the hardware has decrypted was
checked there; with an ICV error it does not come this far. -/
def decryptor (sec : SecurityPriv) (f : RecvFrame) : Bool :=
  if f.attrib.encrypt ≠ .noPrivacy ∧ f.attrib.bdecrypted = false then
    match f.attrib.encrypt with
    | .tkip => sec.tkipDecrypt f
    | .aes => sec.aesDecrypt f
    | _ => true
  else true

/-- A data frame on its way from `validate_recv_data_frame` through
`decryptor`. -/
def recvStep (sec : SecurityPriv) (s : RxCache) (f : RecvFrame) : RxCache :=
  match recvDecache s f with
  | none => s
  | some s₁ =>
    match pnDecache sec s₁ f with
    | none => s₁
    | some s₂ =>
      if decryptor sec (setEncrypt sec f) then { s₂ with accepted := s₂.accepted ++ [f] } else s₂

inductive PnKey where
  | ucast (tid : ℕ)
  | bcast (keyId : ℕ)
  deriving DecidableEq

def pnKey (f : RecvFrame) : PnKey :=
  if isMcast f.attrib.ra then .bcast (ccmph2Keyid (ivHdr f)) else .ucast f.attrib.priority

def pn (f : RecvFrame) : ℕ := ccmph2Pn (ivHdr f)

def remembered (s : RxCache) : PnKey → ℕ
  | .ucast tid => ccmph2Pn (s.iv tid)
  | .bcast keyId => s.ivSeq keyId % 2 ^ 48

def guard (s : RxCache) : Guard PnKey ℕ :=
  ⟨remembered s, s.accepted.map fun f => (pnKey f, pn f)⟩

def AesProtected (sec : SecurityPriv) (f : RecvFrame) : Prop :=
  f.attrib.privacy = true ∧ getEncryAlgo sec (isMcast f.attrib.ra) = .aes

def integrityOk (sec : SecurityPriv) (f : RecvFrame) : Bool :=
  f.attrib.bdecrypted || sec.aesDecrypt (setEncrypt sec f)

def Compared (sec : SecurityPriv) (f : RecvFrame) : Prop :=
  f.attrib.encrypt = .aes ∧ (isMcast f.attrib.ra = true → sec.stationState = true)

def Stores (sec : SecurityPriv) (s : RxCache) (f : RecvFrame) : Prop :=
  Compared sec f ∧ validPnChk (pn f) (remembered s (pnKey f)) = true

def Refused (sec : SecurityPriv) (s : RxCache) (f : RecvFrame) : Prop :=
  Compared sec f ∧ isMcast f.attrib.ra = true ∧ validPnChk (pn f) (remembered s (pnKey f)) = false

instance (sec : SecurityPriv) (f : RecvFrame) : Decidable (AesProtected sec f) :=
  inferInstanceAs (Decidable (_ ∧ _))

instance (sec : SecurityPriv) (f : RecvFrame) : Decidable (Compared sec f) :=
  inferInstanceAs (Decidable (_ ∧ _))

instance (sec : SecurityPriv) (s : RxCache) (f : RecvFrame) : Decidable (Stores sec s f) :=
  inferInstanceAs (Decidable (_ ∧ _))

instance (sec : SecurityPriv) (s : RxCache) (f : RecvFrame) : Decidable (Refused sec s f) :=
  inferInstanceAs (Decidable (_ ∧ _))

theorem ccmph2Pn_lt (ch : ℕ) : ccmph2Pn ch < 2 ^ 48 := by
  simp only [ccmph2Pn]
  omega

/-- In plain numbers: the wrapping comparison takes a number up to `2 ^ 47` above
the old one, and also one at least `2 ^ 47` below it. -/
theorem validPnChk_iff {new old : ℕ} (hnew : new < 2 ^ 48) (hold : old < 2 ^ 48) :
    validPnChk new old = true ↔
      old = 0 ∨ (old < new ∧ new ≤ old + 2 ^ 47) ∨ new + 2 ^ 47 ≤ old := by
  simp only [validPnChk, pnLessChk, decide_eq_true_eq]
  omega

theorem recvDecache_spec {s s₁ : RxCache} {f : RecvFrame} (h : recvDecache s f = some s₁) :
    f.attrib.priority ≤ 15 ∧ guard s₁ = guard s := by
  simp only [recvDecache] at h
  split_ifs at h with htid hseq
  obtain rfl := Option.some.inj h
  refine ⟨by omega, ?_⟩
  simp only [setPrxseq]
  split <;> rfl

theorem remembered_iv (s : RxCache) (tid v : ℕ) :
    remembered { s with lastTid := tid, iv := Function.update s.iv tid v } =
      Function.update (remembered s) (.ucast tid) (ccmph2Pn v) := by
  funext k
  cases k with
  | ucast t =>
    by_cases ht : t = tid
    · subst ht
      simp [remembered]
    · simp [remembered, ht]
  | bcast i => rfl

theorem remembered_ivSeq (s : RxCache) (i v : ℕ) (hv : v < 2 ^ 48) :
    remembered { s with ivSeq := Function.update s.ivSeq i v } =
      Function.update (remembered s) (.bcast i) v := by
  funext k
  cases k with
  | ucast t => rfl
  | bcast j =>
    by_cases hj : j = i
    · subst hj
      simp only [remembered, Function.update_self]
      exact Nat.mod_eq_of_lt hv
    · simp [remembered, hj]

theorem pnDecache_ucast {sec : SecurityPriv} {s : RxCache} {f : RecvFrame}
    (hcast : isMcast f.attrib.ra = false) (htid : f.attrib.priority ≤ 15) :
    pnDecache sec s f = some (if Stores sec s f then
      { s with lastTid := f.attrib.priority
               iv := Function.update s.iv f.attrib.priority (ivHdr f) } else s) := by
  have hle : ¬ 15 < f.attrib.priority := by omega
  simp only [pnDecache, hcast, Bool.false_eq_true, if_false, recvUcastPnDecache, hle, Stores,
    Compared, pn, pnKey, remembered, false_implies, and_true]
  by_cases henc : f.attrib.encrypt = .aes
  · cases hv : validPnChk (ccmph2Pn (ivHdr f)) (ccmph2Pn (s.iv f.attrib.priority)) <;>
      simp [henc]
  · simp [henc]

theorem pnDecache_bcast {sec : SecurityPriv} {s : RxCache} {f : RecvFrame}
    (hcast : isMcast f.attrib.ra = true) :
    pnDecache sec s f = if Refused sec s f then none else
      some (if Stores sec s f then
        { s with ivSeq := Function.update s.ivSeq (ccmph2Keyid (ivHdr f)) (pn f) } else s) := by
  simp only [pnDecache, hcast, if_true, recvBcastPnDecache, Refused, Stores, Compared, pn, pnKey,
    remembered, true_implies]
  by_cases hcmp : f.attrib.encrypt = .aes ∧ sec.stationState = true
  · cases hv : validPnChk (ccmph2Pn (ivHdr f)) (s.ivSeq (ccmph2Keyid (ivHdr f)) % 2 ^ 48) <;>
      simp [hcmp.1, hcmp.2]
  · simp only [hcmp, if_false, false_and]

theorem pnDecache_spec (sec : SecurityPriv) (s : RxCache) {f : RecvFrame}
    (htid : f.attrib.priority ≤ 15) :
    (Refused sec s f ∧ pnDecache sec s f = none) ∨
      ∃ s', ¬ Refused sec s f ∧ pnDecache sec s f = some s' ∧ s'.accepted = s.accepted ∧
        remembered s' = if Stores sec s f then
          Function.update (remembered s) (pnKey f) (pn f) else remembered s := by
  by_cases hcast : isMcast f.attrib.ra = true
  · rw [pnDecache_bcast hcast]
    by_cases href : Refused sec s f
    · exact Or.inl ⟨href, if_pos href⟩
    · refine Or.inr ⟨_, href, if_neg href, ?_, ?_⟩
      · split_ifs <;> rfl
      · split_ifs with hst
        · rw [remembered_ivSeq s (ccmph2Keyid (ivHdr f)) (pn f) (ccmph2Pn_lt (ivHdr f)), pnKey,
          if_pos hcast]
        · rfl
  · rw [pnDecache_ucast (by simpa using hcast) htid]
    refine Or.inr ⟨_, fun href => hcast href.2.1, rfl, ?_, ?_⟩
    · split_ifs <;> rfl
    · split_ifs with hst
      · rw [remembered_iv, pnKey, if_neg hcast]
        rfl
      · rfl

theorem decryptor_aes {sec : SecurityPriv} {f : RecvFrame} (haes : AesProtected sec f) :
    decryptor sec (setEncrypt sec f) = integrityOk sec f := by
  have henc : (setEncrypt sec f).attrib.encrypt = .aes := by
    simp only [setEncrypt, haes.1, haes.2, if_true]
  have hdec : (setEncrypt sec f).attrib.bdecrypted = f.attrib.bdecrypted := rfl
  simp only [decryptor, henc, hdec, integrityOk]
  cases f.attrib.bdecrypted <;> simp

theorem recvStep_guard {sec : SecurityPriv} {s : RxCache} {f : RecvFrame}
    (haes : AesProtected sec f) :
    guard (recvStep sec s f) =
      if recvDecache s f = none ∨ Refused sec s f then guard s
      else ⟨if Stores sec s f then Function.update (remembered s) (pnKey f) (pn f)
          else remembered s,
        if integrityOk sec f then (guard s).history ++ [(pnKey f, pn f)]
          else (guard s).history⟩ := by
  simp only [recvStep]
  cases hdec : recvDecache s f with
  | none => simp
  | some s₁ =>
    obtain ⟨htid, hguard⟩ := recvDecache_spec hdec
    have hrem : remembered s₁ = remembered s := congrArg Guard.last hguard
    have hhist : (guard s₁).history = (guard s).history := congrArg Guard.history hguard
    have hst : Stores sec s₁ f ↔ Stores sec s f := by simp only [Stores, hrem]
    have href : Refused sec s₁ f ↔ Refused sec s f := by simp only [Refused, hrem]
    have hspec := pnDecache_spec sec s₁ htid
    rw [href] at hspec
    rcases hspec with ⟨href, hpn⟩ | ⟨s₂, href, hpn, hacc, hrem₂⟩
    · simp only [hpn, href, or_true, if_true]
      exact hguard
    · have hhist₂ : (guard s₂).history = (guard s).history := by
        rw [← hhist]
        simp only [guard, hacc]
      rw [hrem, if_congr hst rfl rfl] at hrem₂
      simp only [hpn, href, decryptor_aes haes, reduceCtorEq, or_false, if_false, ← hrem₂, ← hhist₂]
      split_ifs
      · simp only [guard, List.map_append, List.map_cons, List.map_nil]
        rfl
      · rfl

/-- A frame that fails its integrity check is not stored. One that passes is
stored above the packet number remembered, or refused; only the first frame of
its key may come in below. Duplicates are dropped before. -/
def PnOk (sec : SecurityPriv) (s : RxCache) (f : RecvFrame) : Prop :=
  recvDecache s f ≠ none → if integrityOk sec f then
      Stores sec s f ∧ remembered s (pnKey f) < pn f ∨ Refused sec s f ∨
        (guard s).Fresh (pnKey f) ∧ pn f ≤ remembered s (pnKey f)
    else ¬ Stores sec s f

instance (sec : SecurityPriv) (s : RxCache) (f : RecvFrame) : Decidable (PnOk sec s f) :=
  have : Decidable ((guard s).Fresh (pnKey f)) := inferInstanceAs (Decidable (∀ x ∈ _, _))
  have : Decidable (recvDecache s f = none) := decidable_of_iff _ Option.isNone_iff_eq_none
  inferInstanceAs (Decidable (_ → ite _ _ _))

theorem recvStep_sound {sec : SecurityPriv} {s : RxCache} {f : RecvFrame}
    (hs : (guard s).Sound) (haes : AesProtected sec f) (hok : PnOk sec s f) :
    (guard (recvStep sec s f)).Sound := by
  rw [recvStep_guard haes]
  split_ifs with hdrop hst hint hint
  · exact hs
  · rw [not_or] at hdrop
    have hnew := hok hdrop.1
    simp only [hint, if_true, hst, true_and, hdrop.2, false_or] at hnew
    exact take_sound hs (hnew.imp id And.left)
  · rw [not_or] at hdrop
    have hnew := hok hdrop.1
    simp only [hint] at hnew
    exact absurd hst hnew
  · rw [not_or] at hdrop
    have hnew := hok hdrop.1
    simp only [hint, if_true, hst, false_and, hdrop.2, false_or] at hnew
    exact first_sound hs hnew.1 hnew.2
  · exact hs

theorem recvStep_genuine {sec : SecurityPriv} {s : RxCache} {f : RecvFrame}
    (haes : AesProtected sec f) (hok : PnOk sec s f)
    (hchanged : remembered (recvStep sec s f) ≠ remembered s) : integrityOk sec f = true := by
  by_contra hint
  have hguard := congrArg Guard.last (recvStep_guard (s := s) haes)
  apply hchanged
  split_ifs at hguard with hdrop hst
  · exact hguard
  · rw [not_or] at hdrop
    have hnew := hok hdrop.1
    simp only [hint] at hnew
    exact absurd hst hnew
  · exact hguard

/-- Along every run whose frames meet the condition, the accepted packet numbers
of a key increase and only genuine frames move what is remembered. -/
theorem run_replay_protected (sec : SecurityPriv) (s : RxCache) (fs : List RecvFrame)
    (hs : s.accepted = [])
    (hfs : Along (recvStep sec) (fun s f => AesProtected sec f ∧ PnOk sec s f) s fs) :
    (run (recvStep sec) s fs).accepted.Pairwise (fun f g => pnKey f = pnKey g → pn f < pn g) ∧
      Along (recvStep sec)
        (fun s f => remembered (recvStep sec s f) ≠ remembered s → integrityOk sec f = true)
        s fs := by
  constructor
  · have hstart : (guard s).Sound := by
      constructor <;> simp [guard, hs]
    have hend := run_spec _ (fun s => (guard s).Sound)
      (fun s f hs hf => recvStep_sound hs hf.1 hf.2) hstart hfs
    have hinc := hend.increasing
    simp only [guard, List.pairwise_map] at hinc
    exact hinc
  · apply hfs.imp
    intro s f hf hchanged
    exact recvStep_genuine hf.1 hf.2 hchanged

/-- A protected data frame with this packet number below `2 ^ 16`. -/
def aesFrame (ra : MacAddr) (seqNum : Fin 4096) (pktPn : ℕ) (bdecrypted : Bool) : RecvFrame where
  attrib := { seqNum := seqNum, ra := ra, privacy := true, bdecrypted := bdecrypted
              encrypt := .aes }
  rxData := 8 :: List.replicate 23 0 ++
    [UInt8.ofNat pktPn, UInt8.ofNat (pktPn / 256), 0, 0x20, 0, 0, 0, 0]

def hwKeys : SecurityPriv where
  aesDecrypt := fun _ => false
  tkipDecrypt := fun _ => false

theorem run_replay_protected_two :
    let me : MacAddr := Vector.replicate 6 0
    let all : MacAddr := Vector.replicate 6 0xff
    let fs := [aesFrame me 1 1 true, aesFrame all 1 7 true, aesFrame me 2 2 true,
      aesFrame all 2 7 true]
    (run (recvStep hwKeys) {} fs).accepted.length = 3 ∧
      (run (recvStep hwKeys) {} fs).accepted.Pairwise
        (fun f g => pnKey f = pnKey g → pn f < pn g) :=
  ⟨by decide, (run_replay_protected hwKeys {} _ rfl (by decide)).1⟩

/-- A unicast frame is accepted again under a new sequence number. A broadcast
frame that does not decrypt moves the packet number of its group key. -/
theorem replayed_and_forged :
    let me : MacAddr := Vector.replicate 6 0
    let forged := aesFrame (Vector.replicate 6 0xff) 3 900 false
    ¬ (run (recvStep hwKeys) {} [aesFrame me 1 5 true, aesFrame me 2 5 true]).accepted.Pairwise
        (fun f g => pnKey f = pnKey g → pn f < pn g) ∧
      AesProtected hwKeys forged ∧ integrityOk hwKeys forged = false ∧
      remembered (recvStep hwKeys {} forged) (.bcast 0) ≠ remembered {} (.bcast 0) := by
  decide

end Rtl8189.PacketNumber
