import Rtl8189.ConnectSettings

/-!
# Denials of power save

A request that needs the chip awake denies power save for its own reason part-way through,
and a connection also suppresses the reports of a disconnection. Both are marks that the
request takes back before it returns.
-/
namespace Rtl8189.PsDeny

open EventRun ConnectSettings

inductive PsDenyReason where
  | drvInitial
  | scan
  | join
  | disconnect
  | suspend
  | ioctl
  | mgntTx
  | monitorMode
  | beamforming
  | drvRemove
  | others
deriving DecidableEq

structure Marks where
  psDeny : PsDenyReason → Bool
  notIndicDisco : Bool

namespace Marks

def rtwPsDeny (reason : PsDenyReason) (m : Marks) : Marks :=
  { m with psDeny := Function.update m.psDeny reason true }

def rtwPsDenyCancel (reason : PsDenyReason) (m : Marks) : Marks :=
  { m with psDeny := Function.update m.psDeny reason false }

def setNotIndicDisco (v : Bool) (m : Marks) : Marks := { m with notIndicDisco := v }

def Clear (m : Marks) : Prop :=
  m.psDeny .join = false ∧ m.psDeny .scan = false ∧ m.psDeny .mgntTx = false ∧
    m.notIndicDisco = false

namespace Clear

variable {m : Marks}

theorem deny_cancel (hm : m.Clear) (reason : PsDenyReason) :
    ((m.rtwPsDeny reason).rtwPsDenyCancel reason).Clear := by
  obtain ⟨hj, hs, ht, hd⟩ := hm
  simp [Clear, rtwPsDenyCancel, rtwPsDeny, Function.update_apply, hj, hs, ht, hd]

theorem indicated {v : Bool} (hm : m.Clear) :
    ((m.setNotIndicDisco v).setNotIndicDisco false).Clear :=
  ⟨hm.1, hm.2.1, hm.2.2.1, rfl⟩

end Clear

end Marks

open Marks

/-! ## Connection -/

def connectExit (m : Marks) : Marks := m.setNotIndicDisco false

def connectCancel (m : Marks) : Marks := connectExit (m.rtwPsDenyCancel .join)

def setFirstCipher (k : Keys) : Option Suite → Keys × Bool
  | some cipher => k.setCipher cipher true
  | none => (k, true)

def connectSettings (storesWfd : Bool) (r : ConnectParams) (c : Circumstances) (s : State)
    (m : Marks) : Marks :=
  let keys := (({} : Keys).setWpaVersion r.wpaVersions).setAuthType r.authType
  let wpaIe := rtwCfg80211SetWpaIe storesWfd r c { s with keys := keys }
  let pairwise := setFirstCipher wpaIe.1.keys r.ciphersPairwise
  let wep := pairwise.1.setWep r c
  let group := wep.1.setCipher r.cipherGroup false
  if wpaIe.2 = false then connectCancel m
  else if pairwise.2 = false then connectCancel m
  else if wep.2 = false then connectCancel m
  -- the one failure that returns at once
  else if group.2 = false then m
  else connectCancel m

def cfg80211RtwConnect (storesWfd : Bool) (r : ConnectParams) (c : Circumstances) (s : State)
    (m : Marks) : Marks :=
  let m := m.setNotIndicDisco true
  if c.block then connectExit m
  else
    let s := prepared c s
    if r.ssidLen = 0 then connectExit m
    else if 32 < r.ssidLen then connectExit m
    else
      let m := m.rtwPsDeny .join
      if c.wakeupOk then connectSettings storesWfd r c s m else connectCancel m

/-- `cfg80211_rtw_join_ibss`; `ssidOk` is the result of `rtw_set_802_11_ssid`, with which the
call returns either way. -/
def cfg80211RtwJoinIbss (ssidLen : ℕ) (wakeupOk ssidOk : Bool) (m : Marks) : Marks × Bool :=
  if ssidLen = 0 then (m, false)
  else if 32 < ssidLen then (m, false)
  else
    let m := m.rtwPsDeny .join
    if wakeupOk then (m.rtwPsDenyCancel .join, ssidOk) else (m.rtwPsDenyCancel .join, false)

/-! ## Scan -/

inductive SscChk where
  | allow
  | denyMpMode
  | denyBlockScan
  | denyByDrv
  | denySelfApUnderWps
  | denySelfApUnderLinking
  | denySelfApUnderSurvey
  | denySelfStaUnderLinking
  | denySelfStaUnderSurvey
  | denyBusyTraffic
  | denyAdaptivity
  | unknown
deriving DecidableEq

/-- A request for a scan, and how it meets the system. -/
structure ScanRequest where
  /-- The wireless device has a network device. -/
  ndev : Bool
  sscChk : SscChk
  /-- P2P is driven by cfg80211, the SSID begins with "DIRECT-" and a P2P element is there. -/
  p2pSearch : Bool
  p2pStateNone : Bool
  p2pEnableOk : Bool
  wakeupOk : Bool
  sitesurveyOk : Bool

/-- Code 0, or the error. -/
abbrev Ret := ℤ

/-- From the label on, with `ps_denied`. -/
def checkNeedIndicateScanDone (psDenied : Bool) (ret : Ret) (m : Marks) : Marks × Ret :=
  (if psDenied then m.rtwPsDenyCancel .scan else m, ret)

def scanAllowed (q : ScanRequest) (m : Marks) : Marks × Ret :=
  let m := m.rtwPsDeny .scan
  if q.wakeupOk then checkNeedIndicateScanDone true (if q.sitesurveyOk then 0 else -1) m
  else checkNeedIndicateScanDone true 0 m

def cfg80211RtwScan (q : ScanRequest) (m : Marks) : Marks × Ret :=
  if q.ndev = false then (m, -22)
  else if q.sscChk ≠ .denyMpMode ∧ q.p2pSearch ∧ q.p2pStateNone ∧ q.p2pEnableOk = false then
    (m, -95)
  else
    match q.sscChk with
    | .allow => scanAllowed q m
    | .denyMpMode => (m, -1)
    | .denySelfStaUnderLinking => checkNeedIndicateScanDone false (-16) m
    | _ => checkNeedIndicateScanDone false 0 m

/-! ## Transmission of a management frame -/

inductive MgmtFrame where
  | probeResp
  /-- With the result of `rtw_sae_preprocess`. -/
  | auth (saePreprocess : ℤ)
  | notAction
  | p2p
  | gas
  | action
deriving DecidableEq

structure Attempt where
  ok : Bool
  passingMs : ℕ

def rtwMaxMgmtTxCnt : ℕ := 8
def rtwMaxMgmtTxMsGas : ℕ := 500

def MgmtFrame.dumpLimit : MgmtFrame → ℕ
  | .auth _ => 1
  | _ => rtwMaxMgmtTxCnt

def MgmtFrame.retryGuaranteeMs : MgmtFrame → ℕ
  | .gas => rtwMaxMgmtTxMsGas
  | _ => 0

def dumpLoop (f : MgmtFrame) : ℕ → List Attempt → Option ℕ
  | _, [] => none
  | dumpCnt, a :: as =>
    if a.ok ∨ f.dumpLimit ≤ dumpCnt + 1 ∧ f.retryGuaranteeMs ≤ a.passingMs then
      some (dumpCnt + 1)
    else dumpLoop f (dumpCnt + 1) as

/-- A request that returns: the attempts go on to one that ends the loop. -/
structure MgmtTx where
  ndev : Bool
  chan : Bool
  frame : MgmtFrame
  wakeupOk : Bool
  attempts : List Attempt
  ends : (dumpLoop frame 0 attempts).isSome

def dump (t : MgmtTx) (m : Marks) : Marks × Ret :=
  let m := m.rtwPsDeny .mgntTx
  if t.wakeupOk then (m.rtwPsDenyCancel .mgntTx, 0) else (m.rtwPsDenyCancel .mgntTx, -14)

def cfg80211RtwMgmtTx (t : MgmtTx) (m : Marks) : Marks × Ret :=
  if t.ndev = false then (m, -22)
  else if t.chan = false then (m, -22)
  else
    match t.frame with
    | .auth saePreprocess => if saePreprocess = 2 then (m, 0) else dump t m
    | .notAction => (m, 0)
    | _ => dump t m

/-! ## Histories -/

inductive Request where
  | connect (r : ConnectParams) (c : Circumstances) (s : State)
  | joinIbss (ssidLen : ℕ) (wakeupOk ssidOk : Bool)
  | scan (q : ScanRequest)
  | mgmtTx (t : MgmtTx)

def step (storesWfd : Bool) (m : Marks) : Request → Marks
  | .connect r c s => cfg80211RtwConnect storesWfd r c s m
  | .joinIbss ssidLen wakeupOk ssidOk => (cfg80211RtwJoinIbss ssidLen wakeupOk ssidOk m).1
  | .scan q => (cfg80211RtwScan q m).1
  | .mgmtTx t => (cfg80211RtwMgmtTx t m).1

/-- A connection that fails on its group cipher, and on nothing before. -/
structure GroupRefused (r : ConnectParams) (c : Circumstances) : Prop where
  unblocked : c.block = false
  named : r.ssidLen ≠ 0
  short : r.ssidLen ≤ 32
  awake : c.wakeupOk = true
  elements : r.ie = [] ∨
    4 ≤ r.ie.length ∧ r.ie.length ≤ 1024 ∧ c.bufOk = true ∧ r.mfpOpt ≠ .invalid
  pairwise : ∀ cipher ∈ r.ciphersPairwise, Keys.profile cipher ≠ none
  wep : r.keyLen = 0 ∨ r.keyIdx < 4 ∧ c.wepOk = true ∧ c.setKeyOk = true
  group : Keys.profile r.cipherGroup = none

def Balanced : Request → Prop
  | .connect r c _ => ¬ GroupRefused r c
  | _ => True

section Connect

variable {storesWfd : Bool} {r : ConnectParams} {c : Circumstances}

theorem setWpaIe_ok (s : State) : (rtwCfg80211SetWpaIe storesWfd r c s).2 = true ↔
    r.ie = [] ∨ 4 ≤ r.ie.length ∧ r.ie.length ≤ 1024 ∧ c.bufOk = true ∧ r.mfpOpt ≠ .invalid := by
  unfold rtwCfg80211SetWpaIe
  split_ifs with hnil hbad hmfp
  · simp [hnil]
  · simp only [hnil, false_or, false_iff, not_and]
    intro h4 h1024 hbuf
    simp [hbuf] at hbad
    omega
  · simp [hnil, hmfp]
  · simp only [hnil, false_or, true_iff]
    simp only [not_or, not_lt, not_not] at hbad
    exact ⟨hbad.2.2, hbad.1, hbad.2.1, hmfp⟩

theorem setCipher_ok (k : Keys) (cipher : Suite) (ucast : Bool) :
    (k.setCipher cipher ucast).2 = true ↔ Keys.profile cipher ≠ none := by
  cases cipher <;> cases ucast <;> simp [Keys.setCipher, Keys.profile]

theorem setWep_ok (k : Keys) : (k.setWep r c).2 = true ↔
    r.keyLen = 0 ∨ r.keyIdx < 4 ∧ c.wepOk = true ∧ c.setKeyOk = true := by
  unfold Keys.setWep
  by_cases h0 : r.keyLen = 0
  · simp [h0]
  by_cases h4 : r.keyIdx < 4
  · have hle : ¬ 4 ≤ r.keyIdx := not_le.2 h4
    have hlt : ¬ 4 < r.keyIdx := fun h => hle h.le
    cases hw : c.wepOk <;> simp [h0, h4, hle, hlt]
  · have hle : 4 ≤ r.keyIdx := not_lt.1 h4
    simp only [h0, hle, if_true, if_false, false_or, h4, false_and, iff_false]
    split_ifs <;> exact not_false

variable {m : Marks}

theorem setFirstCipher_ok (k : Keys) (o : Option Suite) :
    (setFirstCipher k o).2 = true ↔ ∀ cipher ∈ o, Keys.profile cipher ≠ none := by
  cases o with
  | none => simp [setFirstCipher]
  | some cipher => simpa [setFirstCipher] using setCipher_ok k cipher true

theorem connectCancel_clear (hm : m.Clear) :
    (connectCancel ((m.setNotIndicDisco true).rtwPsDeny .join)).Clear :=
  (hm.deny_cancel .join).indicated (v := true)

theorem psDeny_deny (reason : PsDenyReason) (m : Marks) :
    (m.rtwPsDeny reason).psDeny reason = true := by
  unfold Marks.rtwPsDeny
  exact Function.update_self ..

theorem not_clear_of_join (hm : m.psDeny .join = true) : ¬ m.Clear := by
  intro h
  rw [h.1] at hm
  exact absurd hm (by decide)

theorem connectSettings_clear (hm : m.Clear) (s : State) :
    (connectSettings storesWfd r c s ((m.setNotIndicDisco true).rtwPsDeny .join)).Clear ↔
      ¬ ((r.ie = [] ∨
          4 ≤ r.ie.length ∧ r.ie.length ≤ 1024 ∧ c.bufOk = true ∧ r.mfpOpt ≠ .invalid) ∧
        (∀ cipher ∈ r.ciphersPairwise, Keys.profile cipher ≠ none) ∧
        (r.keyLen = 0 ∨ r.keyIdx < 4 ∧ c.wepOk = true ∧ c.setKeyOk = true) ∧
        Keys.profile r.cipherGroup = none) := by
  have hcancel := connectCancel_clear hm
  unfold connectSettings
  simp only
  rw [← @setWpaIe_ok storesWfd]
  split_ifs with hie hpairwise hwep hgroup
  · exact iff_of_true hcancel fun h => absurd (hie.symm.trans h.1) (by decide)
  · rw [← setFirstCipher_ok]
    exact iff_of_true hcancel fun h => absurd (hpairwise.symm.trans h.2.1) (by decide)
  · rw [← setWep_ok]
    exact iff_of_true hcancel fun h => absurd (hwep.symm.trans h.2.2.1) (by decide)
  · refine iff_of_false (not_clear_of_join (psDeny_deny _ _)) (not_not_intro ⟨?_, ?_, ?_, ?_⟩)
    · simpa using hie
    · exact (setFirstCipher_ok _ _).1 (by simpa using hpairwise)
    · exact (setWep_ok _).1 (by simpa using hwep)
    · by_contra hne
      exact absurd (hgroup.symm.trans ((setCipher_ok _ _ false).2 hne)) (by decide)
  · refine iff_of_true hcancel fun h => ?_
    exact (setCipher_ok _ _ false).1 (by simpa using hgroup) h.2.2.2

theorem connect_clear (hm : m.Clear) (s : State) :
    (cfg80211RtwConnect storesWfd r c s m).Clear ↔ ¬ GroupRefused r c := by
  have hexit : (connectExit (m.setNotIndicDisco true)).Clear := hm.indicated
  unfold cfg80211RtwConnect
  simp only
  split_ifs with hblock h0 h32 hwake
  · exact iff_of_true hexit fun h => absurd (hblock.symm.trans h.unblocked) (by decide)
  · exact iff_of_true hexit fun h => h.named h0
  · exact iff_of_true hexit fun h => absurd h.short (not_le.2 h32)
  · rw [connectSettings_clear hm]
    refine not_congr ⟨fun h => ?_, fun h => ⟨h.elements, h.pairwise, h.wep, h.group⟩⟩
    exact ⟨by simpa using hblock, h0, not_lt.1 h32, hwake, h.1, h.2.1, h.2.2.1, h.2.2.2⟩
  · exact iff_of_true (connectCancel_clear hm) fun h => hwake h.awake

end Connect

section Others

variable {m : Marks}

theorem joinIbss_clear (hm : m.Clear) (ssidLen : ℕ) (wakeupOk ssidOk : Bool) :
    (cfg80211RtwJoinIbss ssidLen wakeupOk ssidOk m).1.Clear := by
  unfold cfg80211RtwJoinIbss
  split_ifs
  · exact hm
  · exact hm
  · exact hm.deny_cancel .join
  · exact hm.deny_cancel .join

theorem scanAllowed_clear (hm : m.Clear) (q : ScanRequest) : (scanAllowed q m).1.Clear := by
  unfold scanAllowed checkNeedIndicateScanDone
  simp only
  split_ifs <;> exact hm.deny_cancel .scan

theorem scan_clear (hm : m.Clear) (q : ScanRequest) : (cfg80211RtwScan q m).1.Clear := by
  unfold cfg80211RtwScan
  split_ifs
  · exact hm
  · exact hm
  · cases q.sscChk <;> first | exact hm | exact scanAllowed_clear hm q

theorem dump_clear (hm : m.Clear) (t : MgmtTx) : (dump t m).1.Clear := by
  unfold dump
  simp only
  split_ifs <;> exact hm.deny_cancel .mgntTx

theorem mgmtTx_clear (hm : m.Clear) (t : MgmtTx) : (cfg80211RtwMgmtTx t m).1.Clear := by
  unfold cfg80211RtwMgmtTx
  split_ifs
  · exact hm
  · exact hm
  · cases t.frame with
    | auth saePreprocess =>
      simp only
      split_ifs
      · exact hm
      · exact dump_clear hm t
    | notAction => exact hm
    | probeResp => exact dump_clear hm t
    | p2p => exact dump_clear hm t
    | gas => exact dump_clear hm t
    | action => exact dump_clear hm t

end Others

theorem step_clear {storesWfd : Bool} {m : Marks} (hm : m.Clear) (e : Request) :
    (step storesWfd m e).Clear ↔ Balanced e := by
  cases e with
  | connect r c s => exact connect_clear hm s
  | joinIbss ssidLen wakeupOk ssidOk =>
    exact iff_of_true (joinIbss_clear hm ssidLen wakeupOk ssidOk) trivial
  | scan q => exact iff_of_true (scan_clear hm q) trivial
  | mgmtTx t => exact iff_of_true (mgmtTx_clear hm t) trivial

/-- Every call returns with the marks cleared just when no connection of the run fails on its
group cipher. -/
theorem marks_cleared_iff (storesWfd : Bool) {m : Marks} (hm : m.Clear) (es : List Request) :
    (∀ n, (run (step storesWfd) m (es.take n)).Clear) ↔
      Along (step storesWfd) (fun _ e => Balanced e) m es :=
  (along_iff (P := Marks.Clear) (I := fun _ => True) (fun _ _ _ => trivial)
    (fun _ e _ hm => step_clear hm e) trivial hm es).symm

def unmarked : Marks := ⟨fun _ => false, false⟩

def unknownGroup : ConnectParams :=
  { ssidLen := 4
    cipherGroup := .other }

theorem marks_cleared_iff_unknownGroup :
    (∀ n, (run (step false) unmarked ([.connect unknownGroup {} {}].take n)).Clear) ↔
      Along (step false) (fun _ e => Balanced e) unmarked [.connect unknownGroup {} {}] :=
  marks_cleared_iff false ⟨rfl, rfl, rfl, rfl⟩ _

theorem unknownGroup_left_marked :
    ¬ ∀ n, (run (step false) unmarked ([.connect unknownGroup {} {}].take n)).Clear := by
  intro h
  exact absurd (h 1).1 (by decide)

end Rtl8189.PsDeny
