import Mathlib.Data.Int.Notation
import Rtl8189.EventRun
import Rtl8189.FieldWidths

/-!
# Site survey

`sitesurvey_cmd_hdl` is a state machine that runs from one `switch` case to the
next by `goto operation_by_state` and returns where it has set the survey timer.
A step below is one case, so that an abort request can fall between two cases.
With P2P off and no antenna diversity the remaining states are those of the
plain scan and of the back-op excursion.
-/
namespace Rtl8189.SiteSurvey

open Rtl8189.EventRun

inductive ScanState where
  | disable
  | start
  | psAnncWait
  | enter
  | process
  | backingOp
  | backOp
  | leavingOp
  | leaveOp
  | complete
  deriving DecidableEq

inductive OffchState where
  | none
  | leavingOp
  | leaveOp
  | backingOp
  deriving DecidableEq

structure Channel where
  hwValue : ℕ
  passiveScan : Bool
  hwValue_ne : hwValue ≠ 0

/-- What the command carries: the channels that `rtw_scan_ch_decision` leaves, and the gain of
the scan, 0 for the default. 0xff asks for the gain before the scan and is no gain. -/
structure SitesurveyParm where
  ch : List Channel
  igi : UInt8
  igi_ne : igi ≠ 0xff

structure Cfg where
  scanCntMax : ℕ
  backopMs : ℕ
  /-- `pmlmeinfo->state & 0x3` -/
  linkState : Fin 4
  /-- the channel of the link, or the one to go back to -/
  homeCh : ℕ
  adaptivityNeeded : Bool
  /-- `adapt_igi_up` where the limit is on -/
  igiUp : Option UInt8
  scanCntMax_pos : 0 < scanCntMax

structure Scan where
  state : ScanState
  nextState : ScanState
  ch : List Channel
  channelIdx : ℕ
  scanCnt : ℕ
  parmIgi : UInt8
  igiScan : UInt8
  igiBeforeScan : UInt8
  backopFlags : UInt8
  scanAbort : Bool
  offchState : OffchState
  -- hardware
  mlmeSitesurvey : Bool
  msr : Fin 4
  igi : UInt8
  rvrtIgi : UInt8
  digPaused : Bool
  lvDig : ℤ
  ability : BitVec 64
  rfAbility : BitVec 32
  bkAbility : BitVec 64
  bkRfAbility : BitVec 32
  macidSleep : Bool
  psAnnounced : Bool
  operCh : ℕ
  -- the command thread: inside an invocation, or waiting for the timer
  running : Bool
  timerSet : Bool
  -- what has happened since the scan began
  surveyed : List (ℕ × Bool)
  noticed : Bool
  invocations : ℕ
  waits : ℕ
  cases : ℕ

structure Env where
  /-- a station is associated to its AP, so `rtw_ps_annc` announces -/
  assoc : Bool
  /-- the value of `rtw_scan_backop_decision` -/
  backop : UInt8
  /-- time since `backop_time` -/
  passedMs : ℕ

namespace Scan

def setScanState (s : Scan) (st : ScanState) : Scan :=
  { s with
    state := st
    nextState := st
    offchState := match st with
      | .disable | .backOp => .none
      | .start | .leavingOp => .leavingOp
      | .enter | .leaveOp => .leaveOp
      | .complete | .backingOp => .backingOp
      | _ => s.offchState }

def rest (s : Scan) : Scan := { s with running := false, timerSet := true }

def rtwPsAnnc (s : Scan) (env : Env) (ps : Bool) : Scan :=
  { s with psAnnounced := if env.assoc then ps else false }

def odmWriteDig (cfg : Cfg) (s : Scan) (v : UInt8) : Scan :=
  { s with igi := match cfg.igiUp with
      | some up => if up < v then up else v
      | none => v }

/-- `odm_pause_dig` at level 0. -/
def pauseDig (cfg : Cfg) (s : Scan) (v : UInt8) : Scan :=
  if 0 ≤ s.lvDig then s
  else
    let s := if s.digPaused then s else { s with rvrtIgi := s.igi }
    { odmWriteDig cfg s v with digPaused := true, lvDig := 0 }

def resumeDig (cfg : Cfg) (s : Scan) : Scan :=
  if 0 < s.lvDig then s
  else if !s.digPaused then s
  else { odmWriteDig cfg s s.rvrtIgi with digPaused := false, lvDig := -1 }

def setInitialGain (cfg : Cfg) (s : Scan) (v : UInt8) : Scan :=
  if v = 0xff then resumeDig cfg s else pauseDig cfg s v

def sitesurveySetIgi (cfg : Cfg) (s : Scan) : Scan :=
  match s.state with
  | .enter =>
    let igi := if s.parmIgi = 0 then 0x1e else s.parmIgi
    setInitialGain cfg { s with igiScan := igi, igiBeforeScan := s.igi } igi
  | .complete => setInitialGain cfg s 0xff
  | .backingOp => odmWriteDig cfg s s.igiBeforeScan
  | .leaveOp => odmWriteDig cfg s s.igiScan
  | _ => s

def sitesurveySetMsr (cfg : Cfg) (s : Scan) (enter : Bool) : Scan :=
  { s with msr := if enter then 0 else cfg.linkState }

def phydmAbilityBackup (s : Scan) : Scan :=
  { s with bkAbility := s.ability, bkRfAbility := s.rfAbility }

def phydmAbilityRestore (s : Scan) : Scan :=
  { s with ability := s.bkAbility, rfAbility := s.bkRfAbility }

def phydmFuncForOffchannel (cfg : Cfg) (s : Scan) : Scan :=
  { s with ability := if cfg.adaptivityNeeded then 1#64 <<< 13 else 0, rfAbility := 0 }

def sitesurveyResReset (s : Scan) (parm : SitesurveyParm) : Scan :=
  { s with
    channelIdx := 0, igiScan := 0, igiBeforeScan := 0, scanCnt := 0
    ch := parm.ch, parmIgi := parm.igi
    surveyed := [], noticed := false, invocations := 1, waits := 0 }

def chkBackopFlags (s : Scan) (flags : UInt8) : Bool := s.backopFlags &&& flags != 0

/-- `SS_BACKOP_PS_ANNC` -/
def psAnncFlag : UInt8 := 0x10

def scanAbortHdl (s : Scan) : Scan :=
  if s.scanAbort then
    { s with channelIdx := s.ch.length, scanAbort := false, noticed := true }
  else s

/-- The next state, and the channel to survey with the type of the scan. -/
def sitesurveyPickChBehavior (cfg : Cfg) (s : Scan) (env : Env) :
    Scan × ScanState × ℕ × Bool :=
  let s := s.scanAbortHdl
  let (scanCh, active) := match s.ch[s.channelIdx]? with
    | some c => (c.hwValue, !c.passiveScan)
    | none => (0, false)
  let (s, next) :=
    if scanCh = 0 then (s, .complete)
    else if env.backop = 0 then (s, .process)
    else if s.scanCnt < cfg.scanCntMax then
      ({ s with scanCnt := s.scanCnt + 1 }, .process)
    else ({ s with backopFlags := env.backop }, ScanState.backingOp)
  (if next = .process then s else { s with scanCnt := 0 }, next, scanCh, active)

def siteSurvey (s : Scan) (scanCh : ℕ) (active : Bool) : Scan :=
  { s with operCh := scanCh, surveyed := s.surveyed ++ [(scanCh, active)] }

def caseDisable (parm : SitesurveyParm) (s : Scan) : Scan :=
  (s.sitesurveyResReset parm).setScanState .start

def caseStart (env : Env) (s : Scan) : Scan :=
  let s := { s with macidSleep := true }.rtwPsAnnc env true
  if env.assoc then { s.setScanState .psAnncWait with nextState := .enter }.rest
  else s.setScanState .enter

def caseEnter (cfg : Cfg) (s : Scan) : Scan :=
  let s := (s.phydmAbilityBackup.sitesurveySetIgi cfg).phydmFuncForOffchannel cfg
  { s.sitesurveySetMsr cfg true with mlmeSitesurvey := true }.setScanState .process

def caseProcess (cfg : Cfg) (env : Env) (s : Scan) : Scan :=
  let (s, next, scanCh, active) := s.sitesurveyPickChBehavior cfg env
  if next ≠ .process then s.setScanState next
  else (s.siteSurvey scanCh active).rest

def caseBackingOp (cfg : Cfg) (env : Env) (s : Scan) : Scan :=
  let s := { s with operCh := cfg.homeCh }.sitesurveySetMsr cfg false
  let s := { s with mlmeSitesurvey := false }
  let s := if s.chkBackopFlags psAnncFlag then
      { s.sitesurveySetIgi cfg with macidSleep := false }.rtwPsAnnc env false
    else s
  s.setScanState .backOp

def caseBackOp (cfg : Cfg) (env : Env) (s : Scan) : Scan :=
  if cfg.backopMs ≤ env.passedMs ∨ s.scanAbort then s.setScanState .leavingOp
  else { s with waits := s.waits + 1 }.rest

def caseLeavingOp (env : Env) (s : Scan) : Scan :=
  let s := { s with macidSleep := true }
  if s.chkBackopFlags psAnncFlag then
    let s := s.rtwPsAnnc env true
    if env.assoc then { s.setScanState .psAnncWait with nextState := .leaveOp }.rest
    else s.setScanState .leaveOp
  else s.setScanState .leaveOp

def caseLeaveOp (cfg : Cfg) (s : Scan) : Scan :=
  let s := if s.chkBackopFlags psAnncFlag then s.sitesurveySetIgi cfg else s
  { s.sitesurveySetMsr cfg true with mlmeSitesurvey := true }.setScanState .process

def caseComplete (cfg : Cfg) (env : Env) (s : Scan) : Scan :=
  let s := { s with operCh := cfg.homeCh }.sitesurveySetMsr cfg false
  let s := { s with mlmeSitesurvey := false }.phydmAbilityRestore.sitesurveySetIgi cfg
  let s := { s with macidSleep := false }.rtwPsAnnc env false
  { s.setScanState .disable with running := false }

def countCase (s : Scan) : Scan := { s with cases := s.cases + 1 }

/-- One round of `operation_by_state`. -/
def operationByState (cfg : Cfg) (parm : SitesurveyParm) (env : Env) (s : Scan) : Scan :=
  let s := s.countCase
  match s.state with
  | .disable => s.caseDisable parm
  | .start => s.caseStart env
  | .psAnncWait => { s with running := false }
  | .enter => s.caseEnter cfg
  | .process => s.caseProcess cfg env
  | .backingOp => s.caseBackingOp cfg env
  | .backOp => s.caseBackOp cfg env
  | .leavingOp => s.caseLeavingOp env
  | .leaveOp => s.caseLeaveOp cfg
  | .complete => s.caseComplete cfg env

def increaseChannelIdx (s : Scan) : Scan :=
  if s.state = .process then { s with channelIdx := s.channelIdx + 1 } else s

def updateScanState (s : Scan) : Scan :=
  if s.state ≠ s.nextState then s.setScanState s.nextState else s

/-- The head of `sitesurvey_cmd_hdl`, down to the label. -/
def sitesurveyCmdHdl (s : Scan) : Scan :=
  let s := s.increaseChannelIdx.updateScanState
  { s with
    running := true, timerSet := false, cases := 0, invocations := s.invocations + 1 }

end Scan

/-- A scan request runs the command in `SCAN_DISABLE`, the survey timer in the other states.
An abort request sets the flag, and one that has waited in vain clears it again. -/
inductive Event where
  | invoke
  | operation (parm : SitesurveyParm) (env : Env)
  | abort
  | abortGivenUp

def step (cfg : Cfg) (s : Scan) : Event → Scan
  | .invoke =>
    if !s.running && (s.state = .disable || s.timerSet) then s.sitesurveyCmdHdl else s
  | .operation parm env => if s.running then s.operationByState cfg parm env else s
  | .abort => { s with scanAbort := true }
  | .abortGivenUp => { s with scanAbort := false }

/-- What the hardware had before the first scan; `odm_write_dig` would write the gain as it is. -/
structure Base (cfg : Cfg) where
  gain : UInt8
  ability : BitVec 64
  rfAbility : BitVec 32
  gain_le : ∀ up, cfg.igiUp = some up → ¬ up < gain

namespace Scan

def planned (s : Scan) : List (ℕ × Bool) := s.ch.map fun c => (c.hwValue, !c.passiveScan)

structure Settled {cfg : Cfg} (b : Base cfg) (s : Scan) : Prop where
  survey : s.mlmeSitesurvey = false
  msr : s.msr = cfg.linkState
  igi : s.igi = b.gain
  digPaused : s.digPaused = false
  lvDig : s.lvDig = -1
  ability : s.ability = b.ability
  rfAbility : s.rfAbility = b.rfAbility

structure Saved {cfg : Cfg} (b : Base cfg) (s : Scan) : Prop where
  rvrtIgi : s.rvrtIgi = b.gain
  digPaused : s.digPaused = true
  lvDig : s.lvDig = 0
  bkAbility : s.bkAbility = b.ability
  bkRfAbility : s.bkRfAbility = b.rfAbility

structure OnChannel (cfg : Cfg) (s : Scan) : Prop where
  survey : s.mlmeSitesurvey = false
  msr : s.msr = cfg.linkState

structure Fresh (s : Scan) : Prop where
  channelIdx : s.channelIdx = 0
  scanCnt : s.scanCnt = 0
  surveyed : s.surveyed = []
  noticed : s.noticed = false
  parmIgi : s.parmIgi ≠ 0xff

/-- On a back-op excursion: the next channel is still to be surveyed. -/
structure Away (s : Scan) : Prop where
  scanCnt : s.scanCnt = 0
  channelIdx : s.channelIdx < s.ch.length
  surveyed : s.surveyed = s.planned.take s.channelIdx
  noticed : s.noticed = false

structure Done (s : Scan) : Prop where
  all : s.noticed = true ∨ s.surveyed = s.planned
  inOrder : s.surveyed <+: s.planned

def Inv {cfg : Cfg} (b : Base cfg) (s : Scan) : Prop :=
  match s.state with
  | .disable => s.Settled b ∧ s.psAnnounced = false ∧ s.macidSleep = false ∧ s.Done
  | .start | .enter => s.running = true ∧ s.Settled b ∧ s.Fresh
  | .psAnncWait => s.running = false ∧
      (s.nextState = .enter ∧ s.Settled b ∧ s.Fresh ∨
        s.nextState = .leaveOp ∧ s.Saved b ∧ s.OnChannel cfg ∧ s.Away)
  | .process => s.Saved b ∧ s.noticed = false ∧
      s.surveyed = s.planned.take (if s.running then s.channelIdx else s.channelIdx + 1) ∧
      (s.running = false → s.channelIdx < s.ch.length)
  | .backingOp => s.running = true ∧ s.Saved b ∧ s.Away
  | .backOp => s.Saved b ∧ s.OnChannel cfg ∧ s.Away
  | .leavingOp | .leaveOp => s.running = true ∧ s.Saved b ∧ s.OnChannel cfg ∧ s.Away
  | .complete => s.running = true ∧ s.Saved b ∧ s.Done

/-- Invocations still to come, the waits in `SCAN_BACK_OP` left out. -/
def rank (s : Scan) : ℕ :=
  match s.state with
  | .disable | .complete => 0
  | .start => 2 * s.ch.length + 1
  | .psAnncWait =>
    if s.nextState = .enter then 2 * s.ch.length + 1 else 2 * (s.ch.length - s.channelIdx)
  | .enter => 2 * s.ch.length
  | .process =>
    if s.running && s.scanCnt != 0 then 2 * (s.ch.length - s.channelIdx)
    else 2 * (s.ch.length - s.channelIdx) - 1
  | .backingOp | .leavingOp => 2 * (s.ch.length - s.channelIdx)
  | .backOp => 2 * (s.ch.length - s.channelIdx) + if s.running then 0 else 1
  | .leaveOp => 2 * (s.ch.length - s.channelIdx) - 1

/-- Cases still to come before the invocation returns. -/
def depth (s : Scan) : ℕ :=
  match s.state with
  | .disable => 9
  | .start => 8
  | .enter => 7
  | .process => if s.scanCnt = 0 then 1 else 6
  | .backingOp => 5
  | .backOp => 4
  | .leavingOp => 3
  | .leaveOp => 2
  | .psAnncWait | .complete => 0

structure Good {cfg : Cfg} (b : Base cfg) (s : Scan) : Prop where
  inv : s.Inv b
  bound : s.state ≠ .disable → s.invocations + s.rank ≤ s.waits + 2 * s.ch.length + 2
  ends : s.running = true → s.cases + s.depth ≤ 9
  timer : s.running = false → s.state ≠ .disable → s.timerSet = true
  settled : s.state ≠ .psAnncWait → s.nextState = s.state

variable {cfg : Cfg} {b : Base cfg} {s : Scan}

theorem odmWriteDig_gain (b : Base cfg) (s : Scan) : (s.odmWriteDig cfg b.gain).igi = b.gain := by
  simp only [odmWriteDig]
  cases hup : cfg.igiUp with
  | none => rfl
  | some up => exact if_neg (b.gain_le up hup)

theorem parm_igi_ne {s : Scan} (h : s.parmIgi ≠ 0xff) :
    (if s.parmIgi = 0 then (0x1e : UInt8) else s.parmIgi) ≠ 0xff := by
  split
  · decide
  · exact h

theorem sitesurveySetIgi_enter (cfg : Cfg) {s : Scan} (hst : s.state = .enter)
    (hparm : s.parmIgi ≠ 0xff) (hpaused : s.digPaused = false) (hlv : s.lvDig = -1) :
    ∃ igiScan igi, s.sitesurveySetIgi cfg =
      { s with igiScan := igiScan, igiBeforeScan := s.igi, rvrtIgi := s.igi, igi := igi,
               digPaused := true, lvDig := 0 } := by
  have hne := parm_igi_ne hparm
  generalize hv : (if s.parmIgi = 0 then (0x1e : UInt8) else s.parmIgi) = v at hne
  have hlv' : ¬ (0 : ℤ) ≤ -1 := by decide
  simp only [sitesurveySetIgi, hst, hv, setInitialGain, if_neg hne, pauseDig, hlv, hpaused,
    odmWriteDig, if_neg hlv', Bool.false_eq_true, if_false]
  exact ⟨_, _, rfl⟩

theorem sitesurveySetIgi_complete (b : Base cfg) {s : Scan} (hst : s.state = .complete)
    (hrvrt : s.rvrtIgi = b.gain) (hpaused : s.digPaused = true) (hlv : s.lvDig = 0) :
    s.sitesurveySetIgi cfg = { s with igi := b.gain, digPaused := false, lvDig := -1 } := by
  have hgain := odmWriteDig_gain b s
  simp only [odmWriteDig] at hgain
  simp only [sitesurveySetIgi, hst, setInitialGain, if_true, resumeDig, hlv, hpaused,
    Int.lt_irrefl, if_false, Bool.not_true, Bool.false_eq_true, odmWriteDig, hrvrt, hgain]

theorem Good.of_running (hinv : s.Inv b) (hrun : s.running = true)
    (hbound : s.invocations + s.rank ≤ s.waits + 2 * s.ch.length + 2)
    (hends : s.cases + s.depth ≤ 9) (hsettled : s.nextState = s.state) : Good b s where
  inv := hinv
  bound _ := hbound
  ends _ := hends
  timer hr := absurd (hrun.symm.trans hr) (by decide)
  settled _ := hsettled

theorem Good.of_rest (hinv : s.Inv b) (hrun : s.running = false)
    (hbound : s.state ≠ .disable → s.invocations + s.rank ≤ s.waits + 2 * s.ch.length + 2)
    (htimer : s.state ≠ .disable → s.timerSet = true)
    (hsettled : s.state ≠ .psAnncWait → s.nextState = s.state) : Good b s where
  inv := hinv
  bound := hbound
  ends hr := absurd (hrun.symm.trans hr) (by decide)
  timer _ := htimer
  settled := hsettled

theorem Settled.congr {t : Scan} (h : s.Settled b) (h₁ : t.mlmeSitesurvey = s.mlmeSitesurvey)
    (h₂ : t.msr = s.msr) (h₃ : t.igi = s.igi) (h₄ : t.digPaused = s.digPaused)
    (h₅ : t.lvDig = s.lvDig) (h₆ : t.ability = s.ability) (h₇ : t.rfAbility = s.rfAbility) :
    t.Settled b :=
  ⟨h₁.trans h.survey, h₂.trans h.msr, h₃.trans h.igi, h₄.trans h.digPaused, h₅.trans h.lvDig,
    h₆.trans h.ability, h₇.trans h.rfAbility⟩

theorem Saved.congr {t : Scan} (h : s.Saved b) (h₁ : t.rvrtIgi = s.rvrtIgi)
    (h₂ : t.digPaused = s.digPaused) (h₃ : t.lvDig = s.lvDig) (h₄ : t.bkAbility = s.bkAbility)
    (h₅ : t.bkRfAbility = s.bkRfAbility) : t.Saved b :=
  ⟨h₁.trans h.rvrtIgi, h₂.trans h.digPaused, h₃.trans h.lvDig, h₄.trans h.bkAbility,
    h₅.trans h.bkRfAbility⟩

theorem Fresh.congr {t : Scan} (h : s.Fresh) (h₁ : t.channelIdx = s.channelIdx)
    (h₂ : t.scanCnt = s.scanCnt) (h₃ : t.surveyed = s.surveyed) (h₄ : t.noticed = s.noticed)
    (h₅ : t.parmIgi = s.parmIgi) : t.Fresh :=
  ⟨h₁.trans h.channelIdx, h₂.trans h.scanCnt, h₃.trans h.surveyed, h₄.trans h.noticed,
    h₅ ▸ h.parmIgi⟩

theorem Away.congr {t : Scan} (h : s.Away) (h₁ : t.scanCnt = s.scanCnt)
    (h₂ : t.channelIdx = s.channelIdx) (h₃ : t.ch = s.ch) (h₄ : t.surveyed = s.surveyed)
    (h₅ : t.noticed = s.noticed) : t.Away := by
  refine ⟨h₁.trans h.scanCnt, ?_, ?_, h₅.trans h.noticed⟩
  · rw [h₂, h₃]
    exact h.channelIdx
  · rw [h₄, planned, h₂, h₃]
    exact h.surveyed

theorem OnChannel.congr {t : Scan} (h : s.OnChannel cfg)
    (h₁ : t.mlmeSitesurvey = s.mlmeSitesurvey) (h₂ : t.msr = s.msr) : t.OnChannel cfg :=
  ⟨h₁.trans h.survey, h₂.trans h.msr⟩

/-- The abort flag and the count of cases are read by no part of the invariant. -/
theorem Inv.frame (h : s.Inv b) {t : Scan} {a : Bool} {n : ℕ}
    (ht : t = { s with scanAbort := a, cases := n }) : t.Inv b := by
  have hstate : t.state = s.state := by rw [ht]
  have hnext : t.nextState = s.nextState := by rw [ht]
  have hrun : t.running = s.running := by rw [ht]
  have hsaved : s.Saved b → t.Saved b := fun hs => by subst ht; exact hs.congr rfl rfl rfl rfl rfl
  have hsettled : s.Settled b → t.Settled b := fun hs => by
    subst ht
    exact hs.congr rfl rfl rfl rfl rfl rfl rfl
  have hfresh : s.Fresh → t.Fresh := fun hf => by subst ht; exact hf.congr rfl rfl rfl rfl rfl
  have haway : s.Away → t.Away := fun ha => by subst ht; exact ha.congr rfl rfl rfl rfl rfl
  have hon : s.OnChannel cfg → t.OnChannel cfg := fun ho => by subst ht; exact ho.congr rfl rfl
  have hdone : s.Done → t.Done := fun hd => by subst ht; exact ⟨hd.all, hd.inOrder⟩
  unfold Inv at h ⊢
  cases hst : s.state <;> simp only [hst, hstate, hnext, hrun] at h ⊢
  case disable =>
    refine ⟨hsettled h.1, ?_, ?_, hdone h.2.2.2⟩
    · rw [ht]; exact h.2.1
    · rw [ht]; exact h.2.2.1
  case start => exact ⟨h.1, hsettled h.2.1, hfresh h.2.2⟩
  case psAnncWait =>
    refine ⟨h.1, h.2.imp ?_ ?_⟩
    · exact fun ⟨hn, hs, hf⟩ => ⟨hn, hsettled hs, hfresh hf⟩
    · exact fun ⟨hn, hs, ho, ha⟩ => ⟨hn, hsaved hs, hon ho, haway ha⟩
  case enter => exact ⟨h.1, hsettled h.2.1, hfresh h.2.2⟩
  case process =>
    refine ⟨hsaved h.1, ?_⟩
    rw [ht]
    exact h.2
  case backingOp => exact ⟨h.1, hsaved h.2.1, haway h.2.2⟩
  case backOp => exact ⟨hsaved h.1, hon h.2.1, haway h.2.2⟩
  case leavingOp => exact ⟨h.1, hsaved h.2.1, hon h.2.2.1, haway h.2.2.2⟩
  case leaveOp => exact ⟨h.1, hsaved h.2.1, hon h.2.2.1, haway h.2.2.2⟩
  case complete => exact ⟨h.1, hsaved h.2.1, hdone h.2.2⟩

structure Busy {cfg : Cfg} (b : Base cfg) (s : Scan) : Prop where
  inv : s.Inv b
  running : s.running = true
  bound : s.state ≠ .disable → s.invocations + s.rank ≤ s.waits + 2 * s.ch.length + 2
  ends : s.cases + s.depth ≤ 10
  settled : s.state ≠ .psAnncWait → s.nextState = s.state

theorem Good.busy (h : Good b s) (hrun : s.running = true) : Busy b s.countCase where
  inv := h.inv.frame rfl
  running := hrun
  bound := h.bound
  ends := by
    have := h.ends hrun
    change s.cases + 1 + s.depth ≤ 10
    omega
  settled := h.settled

theorem Busy.caseDisable (h : Busy b s) (hst : s.state = .disable) (parm : SitesurveyParm) :
    Good b (s.caseDisable parm) := by
  have hinv := h.inv
  have hends := h.ends
  simp only [Inv, hst] at hinv
  simp only [depth, hst] at hends
  obtain ⟨hset, -, -, -⟩ := hinv
  refine .of_running ⟨h.running, hset.congr rfl rfl rfl rfl rfl rfl rfl, rfl, rfl, rfl, rfl,
    parm.igi_ne⟩ h.running ?_ ?_ rfl
  · simp only [Scan.caseDisable, setScanState, sitesurveyResReset, rank]
    omega
  · simp only [Scan.caseDisable, setScanState, sitesurveyResReset, depth]
    omega

theorem Busy.caseStart (h : Busy b s) (hst : s.state = .start) (env : Env) :
    Good b (s.caseStart env) := by
  have hinv := h.inv
  have hbound := h.bound (by rw [hst]; decide)
  have hends := h.ends
  simp only [Inv, hst] at hinv
  simp only [rank, hst] at hbound
  simp only [depth, hst] at hends
  obtain ⟨hrun, hset, hfresh⟩ := hinv
  rw [Scan.caseStart]
  split
  · refine .of_rest ⟨rfl, .inl ⟨rfl, hset.congr rfl rfl rfl rfl rfl rfl rfl,
      hfresh.congr rfl rfl rfl rfl rfl⟩⟩ rfl (fun _ => ?_) (fun _ => rfl) (fun hne => ?_)
    · simp only [setScanState, rtwPsAnnc, rest, rank, if_true]
      omega
    · exact absurd rfl hne
  · refine .of_running ⟨hrun, hset.congr rfl rfl rfl rfl rfl rfl rfl,
      hfresh.congr rfl rfl rfl rfl rfl⟩ hrun ?_ ?_ rfl
    · simp only [setScanState, rtwPsAnnc, rank]
      omega
    · simp only [setScanState, rtwPsAnnc, depth]
      omega

theorem Busy.caseEnter (h : Busy b s) (hst : s.state = .enter) : Good b (s.caseEnter cfg) := by
  have hinv := h.inv
  have hbound := h.bound (by rw [hst]; decide)
  have hends := h.ends
  simp only [Inv, hst] at hinv
  simp only [rank, hst] at hbound
  simp only [depth, hst] at hends
  obtain ⟨hrun, hset, hfresh⟩ := hinv
  obtain ⟨igiScan, igi, heq⟩ := sitesurveySetIgi_enter cfg (s := s.phydmAbilityBackup) hst
    hfresh.parmIgi hset.digPaused hset.lvDig
  rw [Scan.caseEnter, heq]
  refine .of_running ⟨⟨hset.igi, rfl, rfl, hset.ability, hset.rfAbility⟩, hfresh.noticed, ?_, ?_⟩
    hrun ?_ ?_ rfl
  · change s.surveyed = s.planned.take (if s.running then s.channelIdx else s.channelIdx + 1)
    rw [hrun, hfresh.surveyed, if_pos rfl, hfresh.channelIdx, List.take_zero]
  · intro hr
    exact absurd (hrun.symm.trans hr) (by decide)
  · simp only [setScanState, phydmFuncForOffchannel, sitesurveySetMsr, phydmAbilityBackup, rank,
      hfresh.scanCnt, hfresh.channelIdx, bne_self_eq_false, Bool.and_false, Bool.false_eq_true,
      if_false]
    omega
  · simp only [setScanState, phydmFuncForOffchannel, sitesurveySetMsr, phydmAbilityBackup, depth,
      hfresh.scanCnt, if_true]
    omega

/-- What the chooser does: it ends the scan at the end of the list or at an abort request, it
leaves for the operating channel at the full count, and else gives the channel at the index. -/
theorem pick_cases (cfg : Cfg) (s : Scan) (env : Env) :
    (∃ t ch active, s.sitesurveyPickChBehavior cfg env = (t, .complete, ch, active) ∧
        t = { s.scanAbortHdl with scanCnt := 0 } ∧
        (s.scanAbort = true ∨ s.ch.length ≤ s.channelIdx)) ∨
    s.scanAbort = false ∧ ∃ c : Channel, s.ch[s.channelIdx]? = some c ∧
      ((∃ ch active, s.sitesurveyPickChBehavior cfg env =
          ({ s with scanCnt := 0, backopFlags := env.backop }, .backingOp, ch, active) ∧
          cfg.scanCntMax ≤ s.scanCnt) ∨
        ∃ n, s.sitesurveyPickChBehavior cfg env =
          ({ s with scanCnt := n }, .process, c.hwValue, !c.passiveScan)) := by
  by_cases habort : s.scanAbort = true
  · refine .inl ⟨_, 0, false, ?_, rfl, .inl habort⟩
    have hnone : s.ch[s.ch.length]? = none := List.getElem?_eq_none (Nat.le_refl _)
    simp only [sitesurveyPickChBehavior, scanAbortHdl, habort, if_true, hnone]
    rfl
  · have hfalse : s.scanAbort = false := eq_false_of_ne_true habort
    have hhdl : s.scanAbortHdl = s := if_neg habort
    cases hch : s.ch[s.channelIdx]? with
    | none =>
      refine .inl ⟨_, 0, false, ?_, rfl, .inr (List.getElem?_eq_none_iff.1 hch)⟩
      simp only [sitesurveyPickChBehavior, hhdl, hch, if_true]
      rfl
    | some c =>
      refine .inr ⟨hfalse, c, rfl, ?_⟩
      simp only [sitesurveyPickChBehavior, hhdl, hch, if_neg c.hwValue_ne]
      by_cases hop : env.backop = 0
      · exact .inr ⟨s.scanCnt, by simp only [hop, if_true]⟩
      · by_cases hcnt : s.scanCnt < cfg.scanCntMax
        · exact .inr ⟨s.scanCnt + 1, by simp only [hop, hcnt, if_true, if_false]⟩
        · refine .inl ⟨c.hwValue, !c.passiveScan, ?_, Nat.le_of_not_lt hcnt⟩
          simp only [hop, hcnt, if_false]
          rfl

theorem take_planned {s : Scan} {c : Channel} {i : ℕ} (h : s.ch[i]? = some c) :
    s.planned.take (i + 1) = s.planned.take i ++ [(c.hwValue, !c.passiveScan)] := by
  have hget : s.planned[i]? = some (c.hwValue, !c.passiveScan) := by
    simp only [planned, List.getElem?_map, h, Option.map_some]
  rw [List.take_add_one, hget, Option.toList_some]

theorem caseProcess_move {s t : Scan} {env : Env} {next : ScanState} {ch : ℕ} {active : Bool}
    (hpick : s.sitesurveyPickChBehavior cfg env = (t, next, ch, active)) (hne : next ≠ .process) :
    s.caseProcess cfg env = t.setScanState next := by
  simp only [caseProcess, hpick, if_pos hne]

theorem caseProcess_survey {s t : Scan} {env : Env} {ch : ℕ} {active : Bool}
    (hpick : s.sitesurveyPickChBehavior cfg env = (t, .process, ch, active)) :
    s.caseProcess cfg env = (t.siteSurvey ch active).rest := by
  simp only [caseProcess, hpick]
  exact if_neg (fun hne => hne rfl)

theorem Busy.caseProcess (h : Busy b s) (hst : s.state = .process) (env : Env) :
    Good b (s.caseProcess cfg env) := by
  have hinv := h.inv
  have hbound := h.bound (by rw [hst]; decide)
  have hends := h.ends
  simp only [Inv, hst, h.running, if_true] at hinv
  simp only [rank, hst, h.running, Bool.true_and] at hbound
  simp only [depth, hst] at hends
  obtain ⟨hsaved, hnoticed, hsurveyed, -⟩ := hinv
  rcases pick_cases cfg s env with
    ⟨t, ch, active, hpick, rfl, hwhy⟩ | ⟨habort, c, hc, ⟨ch, active, hpick, hcnt⟩ | ⟨n, hpick⟩⟩
  · -- the end of the list, or an abort request
    rw [caseProcess_move hpick (by decide)]
    have hdone : Done ((Scan.setScanState { s.scanAbortHdl with scanCnt := 0 } .complete)) := by
      rw [scanAbortHdl]
      split
      · exact ⟨.inl rfl, hsurveyed ▸ List.take_prefix s.channelIdx s.planned⟩
      · next hna =>
        have hlen : s.planned.length ≤ s.channelIdx := by
          rw [planned, List.length_map]
          exact hwhy.resolve_left hna
        have hall : s.surveyed = s.planned := by rw [hsurveyed, List.take_of_length_le hlen]
        exact ⟨.inr hall, hall ▸ List.prefix_refl _⟩
    have hhdl : ∀ t : Scan, t = s.scanAbortHdl → t.running = true ∧ t.Saved b ∧
        t.invocations = s.invocations ∧ t.waits = s.waits ∧ t.ch = s.ch ∧ t.cases = s.cases := by
      rintro t rfl
      rw [scanAbortHdl]
      split <;> exact ⟨h.running, hsaved.congr rfl rfl rfl rfl rfl, rfl, rfl, rfl, rfl⟩
    obtain ⟨hrun', hsaved', hi, hw, hch, hca⟩ := hhdl _ rfl
    refine .of_running ⟨hrun', hsaved'.congr rfl rfl rfl rfl rfl, hdone⟩ hrun' ?_ ?_ rfl
    · simp only [setScanState, rank, hi, hw, hch]
      split at hbound <;> omega
    · simp only [setScanState, depth, hca]
      split at hends <;> omega
  · -- back to the operating channel
    rw [caseProcess_move hpick (by decide)]
    have hlt : s.channelIdx < s.ch.length := (List.getElem?_eq_some_iff.1 hc).1
    have hpos := cfg.scanCntMax_pos
    have hne : s.scanCnt ≠ 0 := by omega
    rw [if_neg hne] at hends
    refine .of_running ⟨h.running, hsaved.congr rfl rfl rfl rfl rfl, rfl, hlt, hsurveyed, hnoticed⟩
      h.running ?_ ?_ rfl
    · simp only [setScanState, rank]
      rw [if_pos (by simpa using hne)] at hbound
      omega
    · simp only [setScanState, depth]
      omega
  · -- the channel is surveyed
    rw [caseProcess_survey hpick]
    have hlt : s.channelIdx < s.ch.length := (List.getElem?_eq_some_iff.1 hc).1
    refine .of_rest ?_ rfl (fun _ => ?_) (fun _ => rfl) (fun _ => h.settled (by rw [hst]; decide))
    · simp only [Inv, siteSurvey, rest, hst]
      refine ⟨hsaved.congr rfl rfl rfl rfl rfl, hnoticed, ?_, fun _ => hlt⟩
      change s.surveyed ++ [(c.hwValue, !c.passiveScan)] = s.planned.take (s.channelIdx + 1)
      rw [take_planned hc, hsurveyed]
    · simp only [siteSurvey, rest, rank, hst, Bool.false_and, Bool.false_eq_true, if_false]
      split at hbound <;> omega

theorem Busy.caseBackingOp (h : Busy b s) (hst : s.state = .backingOp) (env : Env) :
    Good b (s.caseBackingOp cfg env) := by
  have hinv := h.inv
  have hbound := h.bound (by rw [hst]; decide)
  have hends := h.ends
  simp only [Inv, hst] at hinv
  simp only [rank, hst] at hbound
  simp only [depth, hst] at hends
  obtain ⟨hrun, hsaved, haway⟩ := hinv
  have hgood : ∀ t : Scan, t.Saved b → t.OnChannel cfg → t.Away → t.running = true →
      t.invocations = s.invocations → t.waits = s.waits → t.ch = s.ch →
      t.channelIdx = s.channelIdx → t.cases = s.cases → Good b (t.setScanState .backOp) := by
    intro t hs ho ha hr hi hw hch hidx hca
    refine .of_running ⟨hs.congr rfl rfl rfl rfl rfl, ho.congr rfl rfl,
      ha.congr rfl rfl rfl rfl rfl⟩ hr ?_ ?_ rfl
    · simp only [setScanState, rank, hr, if_true, hi, hw, hch, hidx]
      omega
    · simp only [setScanState, depth, hca]
      omega
  simp only [Scan.caseBackingOp]
  split
  · refine hgood _ ?_ ?_ ?_ ?_ ?_ ?_ ?_ ?_ ?_ <;>
      simp only [sitesurveySetIgi, sitesurveySetMsr, hst, odmWriteDig, rtwPsAnnc]
    · exact hsaved.congr rfl rfl rfl rfl rfl
    · exact ⟨rfl, rfl⟩
    · exact haway.congr rfl rfl rfl rfl rfl
    · exact hrun
  · exact hgood _ (hsaved.congr rfl rfl rfl rfl rfl) ⟨rfl, rfl⟩
      (haway.congr rfl rfl rfl rfl rfl) hrun rfl rfl rfl rfl rfl

theorem Busy.caseBackOp (h : Busy b s) (hst : s.state = .backOp) (env : Env) :
    Good b (s.caseBackOp cfg env) := by
  have hinv := h.inv
  have hrun := h.running
  have hbound := h.bound (by rw [hst]; decide)
  have hends := h.ends
  simp only [Inv, hst] at hinv
  simp only [rank, hst, hrun, if_true] at hbound
  simp only [depth, hst] at hends
  obtain ⟨hsaved, hon, haway⟩ := hinv
  rw [Scan.caseBackOp]
  split
  · refine .of_running ⟨hrun, hsaved.congr rfl rfl rfl rfl rfl, hon.congr rfl rfl,
      haway.congr rfl rfl rfl rfl rfl⟩ hrun ?_ ?_ rfl
    · simp only [setScanState, rank]
      omega
    · simp only [setScanState, depth]
      omega
  · refine .of_rest ?_ rfl (fun _ => ?_) (fun _ => rfl) (fun _ => h.settled (by rw [hst]; decide))
    · simp only [Inv, rest, hst]
      exact ⟨hsaved.congr rfl rfl rfl rfl rfl, hon.congr rfl rfl, haway.congr rfl rfl rfl rfl rfl⟩
    · simp only [rest, rank, hst, Bool.false_eq_true, if_false]
      omega

theorem rank_psAnncWait {s : Scan} (hst : s.state = .psAnncWait) (hnext : s.nextState = .leaveOp) :
    s.rank = 2 * (s.ch.length - s.channelIdx) := by
  simp only [rank, hst, hnext, reduceCtorEq, if_false]

theorem Busy.caseLeavingOp (h : Busy b s) (hst : s.state = .leavingOp) (env : Env) :
    Good b (s.caseLeavingOp env) := by
  have hinv := h.inv
  have hbound := h.bound (by rw [hst]; decide)
  have hends := h.ends
  simp only [Inv, hst] at hinv
  simp only [rank, hst] at hbound
  simp only [depth, hst] at hends
  obtain ⟨hrun, hsaved, hon, haway⟩ := hinv
  have hlt := haway.channelIdx
  have hleave : ∀ t : Scan, t.Saved b → t.OnChannel cfg → t.Away → t.running = true →
      t.invocations = s.invocations → t.waits = s.waits → t.ch = s.ch →
      t.channelIdx = s.channelIdx → t.cases = s.cases → Good b (t.setScanState .leaveOp) := by
    intro t hs ho ha hr hi hw hch hidx hca
    refine .of_running ⟨hr, hs.congr rfl rfl rfl rfl rfl, ho.congr rfl rfl,
      ha.congr rfl rfl rfl rfl rfl⟩ hr ?_ ?_ rfl
    · simp only [setScanState, rank, hi, hw, hch, hidx]
      omega
    · simp only [setScanState, depth, hca]
      omega
  simp only [Scan.caseLeavingOp]
  split
  · split
    · refine .of_rest ⟨rfl, .inr ⟨rfl, hsaved.congr rfl rfl rfl rfl rfl, hon.congr rfl rfl,
        haway.congr rfl rfl rfl rfl rfl⟩⟩ rfl (fun _ => ?_) (fun _ => rfl)
        (fun hne => absurd rfl hne)
      rw [rank_psAnncWait rfl rfl]
      simp only [setScanState, rtwPsAnnc, rest]
      omega
    · exact hleave _ (hsaved.congr rfl rfl rfl rfl rfl) (hon.congr rfl rfl)
        (haway.congr rfl rfl rfl rfl rfl) hrun rfl rfl rfl rfl rfl
  · exact hleave _ (hsaved.congr rfl rfl rfl rfl rfl) (hon.congr rfl rfl)
      (haway.congr rfl rfl rfl rfl rfl) hrun rfl rfl rfl rfl rfl

theorem Busy.caseLeaveOp (h : Busy b s) (hst : s.state = .leaveOp) :
    Good b (s.caseLeaveOp cfg) := by
  have hinv := h.inv
  have hbound := h.bound (by rw [hst]; decide)
  have hends := h.ends
  simp only [Inv, hst] at hinv
  simp only [rank, hst] at hbound
  simp only [depth, hst] at hends
  obtain ⟨hrun, hsaved, hon, haway⟩ := hinv
  have hgood : ∀ t : Scan, t.Saved b → t.Away → t.running = true →
      t.invocations = s.invocations → t.waits = s.waits → t.ch = s.ch →
      t.channelIdx = s.channelIdx → t.cases = s.cases → Good b (t.setScanState .process) := by
    intro t hs ha hr hi hw hch hidx hca
    refine .of_running ⟨hs.congr rfl rfl rfl rfl rfl, ha.noticed, ?_, ?_⟩ hr ?_ ?_ rfl
    · change t.surveyed = t.planned.take (if t.running then t.channelIdx else t.channelIdx + 1)
      rw [hr, if_pos rfl, ha.surveyed]
    · intro hr'
      exact absurd (hr.symm.trans hr') (by decide)
    · simp only [setScanState, rank, ha.scanCnt, bne_self_eq_false, Bool.and_false,
        Bool.false_eq_true, if_false, hi, hw, hch, hidx]
      omega
    · simp only [setScanState, depth, ha.scanCnt, if_true, hca]
      omega
  simp only [Scan.caseLeaveOp]
  split
  · refine hgood _ ?_ ?_ ?_ ?_ ?_ ?_ ?_ ?_ <;>
      simp only [sitesurveySetIgi, sitesurveySetMsr, hst, odmWriteDig]
    · exact hsaved.congr rfl rfl rfl rfl rfl
    · exact haway.congr rfl rfl rfl rfl rfl
    · exact hrun
  · exact hgood _ (hsaved.congr rfl rfl rfl rfl rfl) (haway.congr rfl rfl rfl rfl rfl) hrun
      rfl rfl rfl rfl rfl

theorem Busy.caseComplete (h : Busy b s) (hst : s.state = .complete) (env : Env) :
    Good b (s.caseComplete cfg env) := by
  have hinv := h.inv
  simp only [Inv, hst] at hinv
  obtain ⟨hrun, hsaved, hdone⟩ := hinv
  have hgood : ∀ t : Scan, t.state = .complete → t.Saved b → t.OnChannel cfg →
      t.ability = b.ability → t.rfAbility = b.rfAbility → t.Done →
      Good b { ({ t.sitesurveySetIgi cfg with macidSleep := false }.rtwPsAnnc env false).setScanState
        .disable with running := false } := by
    intro t hst' hs ho hab hrf hd
    rw [sitesurveySetIgi_complete b hst' hs.rvrtIgi hs.digPaused hs.lvDig]
    refine .of_rest ⟨⟨ho.survey, ho.msr, rfl, rfl, rfl, hab, hrf⟩, ite_self false, rfl, hd.all,
      hd.inOrder⟩ rfl (fun hne => absurd rfl hne) (fun hne => absurd rfl hne) (fun _ => rfl)
  exact hgood _ hst (hsaved.congr rfl rfl rfl rfl rfl) ⟨rfl, rfl⟩ hsaved.bkAbility
    hsaved.bkRfAbility ⟨hdone.all, hdone.inOrder⟩

theorem Good.operationByState (h : Good b s) (hrun : s.running = true) (parm : SitesurveyParm)
    (env : Env) : Good b (s.operationByState cfg parm env) := by
  have hbusy := h.busy hrun
  generalize hc : s.countCase = t at hbusy
  simp only [Scan.operationByState, hc]
  cases hst : t.state with
  | disable => exact hbusy.caseDisable hst parm
  | start => exact hbusy.caseStart hst env
  | psAnncWait =>
    have hinv := hbusy.inv
    simp only [Inv, hst] at hinv
    exact absurd (hbusy.running.symm.trans hinv.1) (by decide)
  | enter => exact hbusy.caseEnter hst
  | process => exact hbusy.caseProcess hst env
  | backingOp => exact hbusy.caseBackingOp hst env
  | backOp => exact hbusy.caseBackOp hst env
  | leavingOp => exact hbusy.caseLeavingOp hst env
  | leaveOp => exact hbusy.caseLeaveOp hst
  | complete => exact hbusy.caseComplete hst env

theorem updateScanState_of_eq {s : Scan} (h : s.nextState = s.state) : s.updateScanState = s :=
  if_neg (fun hne => hne h.symm)

theorem increaseChannelIdx_of_ne {s : Scan} (h : s.state ≠ .process) : s.increaseChannelIdx = s :=
  if_neg h

theorem Good.sitesurveyCmdHdl (h : Good b s) (hrun : s.running = false) :
    Good b s.sitesurveyCmdHdl := by
  have hinv := h.inv
  have hbound := h.bound
  have hsettled := h.settled
  have hnot : s.running ≠ true := by rw [hrun]; decide
  cases hst : s.state <;> simp only [Inv, rank, hst, hrun] at hinv hbound hsettled
  case start | enter | backingOp | leavingOp | leaveOp | complete =>
    exact absurd hinv.1 (by decide)
  case disable =>
    have heq : s.sitesurveyCmdHdl = { s with
        running := true, timerSet := false, cases := 0, invocations := s.invocations + 1 } := by
      rw [Scan.sitesurveyCmdHdl, increaseChannelIdx_of_ne (by rw [hst]; decide),
        updateScanState_of_eq ((hsettled (by decide)).trans hst.symm)]
    rw [heq]
    refine ⟨?_, fun hne => absurd hst hne, fun _ => ?_, nofun, fun _ => ?_⟩
    · simp only [Inv, hst]
      exact ⟨hinv.1.congr rfl rfl rfl rfl rfl rfl rfl, hinv.2.1, hinv.2.2.1, hinv.2.2.2.all,
        hinv.2.2.2.inOrder⟩
    · simp only [depth, hst]
      omega
    · exact (hsettled (by decide)).trans hst.symm
  case process =>
    have heq : s.sitesurveyCmdHdl = { s with
        channelIdx := s.channelIdx + 1
        running := true, timerSet := false, cases := 0, invocations := s.invocations + 1 } := by
      have hinc : s.increaseChannelIdx = { s with channelIdx := s.channelIdx + 1 } := if_pos hst
      have hup : Scan.updateScanState { s with channelIdx := s.channelIdx + 1 } =
          { s with channelIdx := s.channelIdx + 1 } :=
        updateScanState_of_eq ((hsettled (by decide)).trans hst.symm)
      rw [Scan.sitesurveyCmdHdl, hinc, hup]
    obtain ⟨hsaved, hnoticed, hsurveyed, hlt⟩ := hinv
    have hlt' := hlt trivial
    rw [heq]
    refine .of_running ?_ rfl ?_ ?_ ((hsettled (by decide)).trans hst.symm)
    · simp only [Inv, hst, if_true]
      exact ⟨hsaved.congr rfl rfl rfl rfl rfl, hnoticed, hsurveyed, fun hr => by cases hr⟩
    · have hb := hbound (by decide)
      simp only [rank, hst, Bool.true_and]
      simp only [Bool.false_and, Bool.false_eq_true, if_false] at hb
      split <;> omega
    · simp only [depth, hst]
      split <;> omega
  case backOp =>
    have heq : s.sitesurveyCmdHdl = { s with
        running := true, timerSet := false, cases := 0, invocations := s.invocations + 1 } := by
      rw [Scan.sitesurveyCmdHdl, increaseChannelIdx_of_ne (by rw [hst]; decide),
        updateScanState_of_eq ((hsettled (by decide)).trans hst.symm)]
    rw [heq]
    refine .of_running ?_ rfl ?_ ?_ ((hsettled (by decide)).trans hst.symm)
    · simp only [Inv, hst]
      exact ⟨hinv.1.congr rfl rfl rfl rfl rfl, hinv.2.1.congr rfl rfl,
        hinv.2.2.congr rfl rfl rfl rfl rfl⟩
    · have hb := hbound (by decide)
      simp only [rank, hst, if_true]
      simp only [Bool.false_eq_true, if_false] at hb
      omega
    · simp only [depth, hst]
      omega
  case psAnncWait =>
    have heq : s.sitesurveyCmdHdl = { s.setScanState s.nextState with
        running := true, timerSet := false, cases := 0, invocations := s.invocations + 1 } := by
      have hne : s.state ≠ s.nextState := by
        rcases hinv.2 with ⟨hn, -⟩ | ⟨hn, -⟩ <;> rw [hst, hn] <;> decide
      rw [Scan.sitesurveyCmdHdl, increaseChannelIdx_of_ne (by rw [hst]; decide), updateScanState,
        if_pos hne]
      rfl
    have hb := hbound (by decide)
    rw [heq]
    rcases hinv.2 with ⟨hn, hset, hfresh⟩ | ⟨hn, hsaved, hon, haway⟩
    · simp only [hn, if_true] at hb ⊢
      refine .of_running ⟨rfl, hset.congr rfl rfl rfl rfl rfl rfl rfl,
        hfresh.congr rfl rfl rfl rfl rfl⟩ rfl ?_ ?_ rfl
      · simp only [setScanState, rank]
        omega
      · simp only [setScanState, depth]
        omega
    · simp only [hn, reduceCtorEq, if_false] at hb ⊢
      have hlt := haway.channelIdx
      refine .of_running ⟨rfl, hsaved.congr rfl rfl rfl rfl rfl, hon.congr rfl rfl,
        haway.congr rfl rfl rfl rfl rfl⟩ rfl ?_ ?_ rfl
      · simp only [setScanState, rank]
        omega
      · simp only [setScanState, depth]
        omega

theorem Good.step (h : Good b s) (e : Event) : Good b (step cfg s e) := by
  cases e with
  | invoke =>
    rw [SiteSurvey.step]
    split
    · next hcond =>
      simp only [Bool.and_eq_true, Bool.not_eq_true'] at hcond
      exact h.sitesurveyCmdHdl hcond.1
    · exact h
  | operation parm env =>
    rw [SiteSurvey.step]
    split
    · next hrun => exact h.operationByState hrun parm env
    · exact h
  | abort => exact ⟨h.inv.frame rfl, h.bound, h.ends, h.timer, h.settled⟩
  | abortGivenUp => exact ⟨h.inv.frame rfl, h.bound, h.ends, h.timer, h.settled⟩

theorem Good.planned (h : Good b s) : s.surveyed <+: s.planned := by
  have hinv := h.inv
  cases hst : s.state <;> simp only [Inv, hst] at hinv
  case disable => exact hinv.2.2.2.inOrder
  case start | enter => exact hinv.2.2.surveyed ▸ List.nil_prefix
  case psAnncWait =>
    rcases hinv.2 with ⟨-, -, hf⟩ | ⟨-, -, -, ha⟩
    · exact hf.surveyed ▸ List.nil_prefix
    · exact ha.surveyed ▸ List.take_prefix s.channelIdx s.planned
  case process => exact hinv.2.2.1 ▸ List.take_prefix _ s.planned
  case backingOp => exact hinv.2.2.surveyed ▸ List.take_prefix s.channelIdx s.planned
  case backOp => exact hinv.2.2.surveyed ▸ List.take_prefix s.channelIdx s.planned
  case leavingOp | leaveOp =>
    exact hinv.2.2.2.surveyed ▸ List.take_prefix s.channelIdx s.planned
  case complete => exact hinv.2.2.inOrder

theorem Good.noticed_state (h : Good b s) (hn : s.noticed = true) :
    s.state = .disable ∨ s.state = .complete ∧ s.running = true ∧ s.Saved b := by
  have hinv := h.inv
  cases hst : s.state <;> simp only [Inv, hst] at hinv
  case disable => exact .inl rfl
  case complete => exact .inr ⟨rfl, hinv.1, hinv.2.1⟩
  case start | enter => exact absurd (hn.symm.trans hinv.2.2.noticed) (by decide)
  case psAnncWait =>
    rcases hinv.2 with ⟨-, -, hf⟩ | ⟨-, -, -, ha⟩
    · exact absurd (hn.symm.trans hf.noticed) (by decide)
    · exact absurd (hn.symm.trans ha.noticed) (by decide)
  case process => exact absurd (hn.symm.trans hinv.2.1) (by decide)
  case backingOp => exact absurd (hn.symm.trans hinv.2.2.noticed) (by decide)
  case backOp => exact absurd (hn.symm.trans hinv.2.2.noticed) (by decide)
  case leavingOp | leaveOp => exact absurd (hn.symm.trans hinv.2.2.2.noticed) (by decide)

theorem Good.noticed_step (h : Good b s) (hn : s.noticed = true) (hne : s.state ≠ .disable)
    (e : Event) : (SiteSurvey.step cfg s e).surveyed = s.surveyed := by
  obtain ⟨hst, hrun, hsaved⟩ := (h.noticed_state hn).resolve_left hne
  cases e with
  | invoke =>
    rw [SiteSurvey.step, if_neg (by rw [hrun]; exact fun hc => absurd hc (by simp))]
  | operation parm env =>
    have hcase : ∀ t : Scan, t.state = .complete → t.Saved b →
        (t.sitesurveySetIgi cfg).surveyed = t.surveyed := by
      intro t ht hs
      rw [sitesurveySetIgi_complete b ht hs.rvrtIgi hs.digPaused hs.lvDig]
    rw [SiteSurvey.step, if_pos hrun]
    have hbody : s.operationByState cfg parm env = s.countCase.caseComplete cfg env := by
      generalize hc : s.countCase = t
      have ht : t.state = .complete := by rw [← hc]; exact hst
      simp only [Scan.operationByState, hc, ht]
    rw [hbody]
    exact hcase _ hst (hsaved.congr rfl rfl rfl rfl rfl)
  | abort => rfl
  | abortGivenUp => rfl

end Scan

/-- The driver before a scan request: nothing has been asked of the machine yet. -/
structure Idle {cfg : Cfg} (b : Base cfg) (s : Scan) : Prop where
  state : s.state = .disable ∧ s.nextState = .disable
  running : s.running = false
  settled : s.Settled b
  power : s.psAnnounced = false ∧ s.macidSleep = false
  surveyed : s.surveyed = s.planned

theorem Idle.good {cfg : Cfg} {b : Base cfg} {s : Scan} (h : Idle b s) : Scan.Good b s := by
  refine ⟨?_, fun hne => absurd h.state.1 hne, fun hr => ?_, fun _ hne => absurd h.state.1 hne,
    fun _ => h.state.2.trans h.state.1.symm⟩
  · simp only [Scan.Inv, h.state.1]
    exact ⟨h.settled, h.power.1, h.power.2, .inr h.surveyed, h.surveyed ▸ List.prefix_refl _⟩
  · exact absurd (h.running.symm.trans hr) (by decide)

/-- Over every run from `SCAN_DISABLE`: the channels surveyed so far are the first ones of the
list, all of it when the scan is over and no abort request was taken; after one was taken no
channel is surveyed; on the operating channel and after the scan the hardware is back; and the
scan is over after boundedly many invocations that are no waits in `SCAN_BACK_OP`, each of at
most ten cases and each followed by the timer of the next. -/
theorem scan_sound (cfg : Cfg) (b : Base cfg) {s₀ : Scan} (h₀ : Idle b s₀) (es : List Event)
    (s : Scan) (hs : s = run (step cfg) s₀ es) :
    s.surveyed <+: s.planned ∧
      (s.state = .disable → (s.noticed = false → s.surveyed = s.planned) ∧ s.Settled b ∧
        s.psAnnounced = false) ∧
      (s.state = .backOp → s.mlmeSitesurvey = false ∧ s.msr = cfg.linkState) ∧
      (s.noticed = true → s.state ≠ .disable → ∀ e, (step cfg s e).surveyed = s.surveyed) ∧
      (s.state ≠ .disable → s.invocations ≤ s.waits + 2 * s.ch.length + 2) ∧
      (s.running = true → s.cases ≤ 9) ∧
      (s.running = false → s.state ≠ .disable → s.timerSet = true) := by
  have hgood : Scan.Good b s := by
    rw [hs]
    exact run_invariant (fun t => Scan.Good b t) (fun t e ht => ht.step e) h₀.good es
  refine ⟨hgood.planned, ?_, ?_, fun hn hne e => hgood.noticed_step hn hne e, ?_, ?_, hgood.timer⟩
  · intro hst
    have hinv := hgood.inv
    simp only [Scan.Inv, hst] at hinv
    refine ⟨fun hn => hinv.2.2.2.all.resolve_left ?_, hinv.1, hinv.2.1⟩
    rw [hn]
    decide
  · intro hst
    have hinv := hgood.inv
    simp only [Scan.Inv, hst] at hinv
    exact ⟨hinv.2.1.survey, hinv.2.1.msr⟩
  · intro hne
    have := hgood.bound hne
    omega
  · intro hr
    have := hgood.ends hr
    omega

def demoCfg : Cfg where
  scanCntMax := 1
  backopMs := 100
  linkState := 2
  homeCh := 11
  adaptivityNeeded := false
  igiUp := some 0x40
  scanCntMax_pos := by decide

def demoBase : Base demoCfg where
  gain := 0x24
  ability := 0xff
  rfAbility := 0x7
  gain_le := by
    intro up hup
    cases hup
    decide

def demoIdle : Scan where
  state := .disable
  nextState := .disable
  ch := []
  channelIdx := 0
  scanCnt := 0
  parmIgi := 0
  igiScan := 0
  igiBeforeScan := 0
  backopFlags := 0
  scanAbort := false
  offchState := .none
  mlmeSitesurvey := false
  msr := 2
  igi := 0x24
  rvrtIgi := 0
  digPaused := false
  lvDig := -1
  ability := 0xff
  rfAbility := 0x7
  bkAbility := 0
  bkRfAbility := 0
  macidSleep := false
  psAnnounced := false
  operCh := 11
  running := false
  timerSet := false
  surveyed := []
  noticed := false
  invocations := 0
  waits := 0
  cases := 0

/-- Two channels, with an excursion to the operating channel between them. -/
def demoRun : List Event :=
  let parm : SitesurveyParm := ⟨[⟨1, false, by decide⟩, ⟨6, true, by decide⟩], 0, by decide⟩
  let op (ms : ℕ) : Event := .operation parm ⟨true, 0x11, ms⟩
  [.invoke, op 0, op 0, .invoke, op 0, op 0, .invoke, op 0, op 0, op 0, .invoke, op 100, op 0,
    .invoke, op 0, op 0, .invoke, op 0, op 0]

theorem scan_sound_excursion :
    (run (step demoCfg) demoIdle demoRun).surveyed = [(1, true), (6, false)] ∧
      (run (step demoCfg) demoIdle demoRun).igi = 0x24 := by
  have hidle : Idle demoBase demoIdle :=
    ⟨⟨rfl, rfl⟩, rfl, ⟨rfl, rfl, rfl, rfl, rfl, rfl, rfl⟩, ⟨rfl, rfl⟩, rfl⟩
  have hstate : (run (step demoCfg) demoIdle demoRun).state = .disable := by decide +kernel
  have hover := (scan_sound demoCfg demoBase hidle demoRun _ rfl).2.1 hstate
  refine ⟨?_, hover.2.1.igi⟩
  rw [hover.1 (by decide +kernel)]
  decide +kernel

end Rtl8189.SiteSurvey
