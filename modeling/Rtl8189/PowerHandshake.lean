import Mathlib.Data.BitVec
import Mathlib.Tactic.SplitIfs
import Rtl8189.EventRun

/-!
# The power-state handshake with the firmware

A task of the driver that needs the chip marks itself alive and asks the firmware
to wake; the firmware answers with a CPWM interrupt, which posts the semaphores of
the waiting threads. Every operation runs under the power lock, so a run of the
system is a list of whole operations.
-/
namespace Rtl8189.PowerHandshake

def psStateS0 : ℕ := 1
def psStateS2 : ℕ := 2
def psStateS4 : ℕ := 12

/-- `PS_STATE`: the low four bits. -/
def psState (x : ℕ) : ℕ := x % 16

inductive LpsLevel
  | normal
  | lclk
  | pg
  deriving DecidableEq

structure Adapter where
  surpriseRemoved : Bool := false
  hwInitCompleted : Bool := true
  drvStopped : Bool := false
  lpsLevel : LpsLevel := .lclk

/-- A bit of the alive mask. -/
abbrev Task := Fin 32

def xmitAlive : Task := 0
def cmdAlive : Task := 2
def btcoexAlive : Task := 4

structure PwrCtrl where
  rpwm : ℕ := 0
  cpwm : ℕ := psStateS4
  tog : Bool := true
  alives : BitVec 32 := 0
  bFwCurrentInPSMode : Bool := false
  pwrMode : ℕ := 0
  smartPs : ℕ := 0
  bcnAntMode : ℕ := 0

def PwrCtrl.alive (p : PwrCtrl) (t : Task) : Bool := p.alives.getLsbD t

structure Rpwm where
  pslv : ℕ
  ack : Bool
  tog : Bool

/-- Nothing is written when the request is found redundant. -/
def rtwSetRpwm (c : Adapter) (p : PwrCtrl) (pslv : ℕ) : PwrCtrl × Option Rpwm :=
  let pslv := psState pslv
  if p.rpwm = pslv ∨ (psStateS2 ≤ p.rpwm ∧ psStateS2 ≤ pslv) ∨ c.lpsLevel = .normal then
    (p, none)
  else if c.surpriseRemoved ∨ ¬ c.hwInitCompleted then
    ({ p with cpwm := psStateS4 }, none)
  else if c.drvStopped ∧ pslv < psStateS2 then
    (p, none)
  else
    let ack := decide (p.cpwm < psStateS2 ∧ psStateS2 ≤ pslv)
    -- with an acknowledgement asked for, `cpwm` waits for the interrupt
    ({ p with rpwm := pslv, tog := !p.tog, cpwm := if ack then p.cpwm else pslv },
      some { pslv := pslv, ack := ack, tog := p.tog })

structure Registered where
  pwr : PwrCtrl
  success : Bool
  write : Option Rpwm

/-- The common body of the three register calls. -/
def registerAlive (c : Adapter) (p : PwrCtrl) (t : Task) : Registered :=
  let p := { p with alives := p.alives ||| BitVec.twoPow 32 t }
  if p.bFwCurrentInPSMode ∧ p.cpwm < psStateS2 then
    if p.rpwm < psStateS2 then
      let r := rtwSetRpwm c p psStateS2
      { pwr := r.1, success := false, write := r.2 }
    else
      { pwr := p, success := false, write := none }
  else
    { pwr := p, success := true, write := none }

def rtwRegisterTaskAlive (c : Adapter) (p : PwrCtrl) (task : Task) : Registered :=
  registerAlive c p task

def rtwRegisterTxAlive (c : Adapter) (p : PwrCtrl) : Registered := registerAlive c p xmitAlive

def rtwRegisterCmdAlive (c : Adapter) (p : PwrCtrl) : Registered := registerAlive c p cmdAlive

def unregisterAlive (c : Adapter) (p : PwrCtrl) (pslv : ℕ) (t : Task) : PwrCtrl × Option Rpwm :=
  let p := { p with alives := p.alives &&& ~~~ BitVec.twoPow 32 t }
  if p.pwrMode ≠ 0 ∧ p.bFwCurrentInPSMode ∧ pslv < p.cpwm ∧ (psStateS2 ≤ pslv ∨ p.alives = 0) then
    rtwSetRpwm c p pslv
  else
    (p, none)

structure Iface where
  up : Bool
  p2pPsMode : ℕ

/-- An interface in P2P power save keeps the firmware from the lowest state. -/
def restState (ifaces : List Iface) : ℕ :=
  if ifaces.any fun i => i.up && decide (0 < i.p2pPsMode) then psStateS2 else psStateS0

def rtwUnregisterTaskAlive (c : Adapter) (p : PwrCtrl) (task : Task) : PwrCtrl × Option Rpwm :=
  unregisterAlive c p psStateS0 task

def rtwUnregisterTxAlive (c : Adapter) (ifaces : List Iface) (p : PwrCtrl) :
    PwrCtrl × Option Rpwm :=
  unregisterAlive c p (restState ifaces) xmitAlive

def rtwUnregisterCmdAlive (c : Adapter) (ifaces : List Iface) (p : PwrCtrl) :
    PwrCtrl × Option Rpwm :=
  unregisterAlive c p (restState ifaces) cmdAlive

/-- The arguments of `rtw_set_ps_mode` and the state of the link it looks at. -/
structure PsRequest where
  psMode : ℕ
  smartPs : ℕ := 0
  bcnAntMode : ℕ := 0
  oppPs : ℕ := 0
  ready : Bool := true
  asoc : Bool := true

def pmCardDisable : ℕ := 10

def rtwSetPsMode (c : Adapter) (p : PwrCtrl) (r : PsRequest) : PwrCtrl × Option Rpwm :=
  if pmCardDisable < r.psMode then (p, none)
  else if p.pwrMode = r.psMode ∧
      (r.psMode = 0 ∨ (p.smartPs = r.smartPs ∧ p.bcnAntMode = r.bcnAntMode)) then (p, none)
  else if r.psMode = 0 then
    if r.oppPs = 0 then
      let w := rtwSetRpwm c { p with pwrMode := r.psMode } psStateS4
      -- the flag is cleared whether or not the firmware has answered
      ({ w.1 with bFwCurrentInPSMode := false }, w.2)
    else (p, none)
  else if r.ready ∧ r.asoc then
    rtwSetRpwm c
      { p with
        bFwCurrentInPSMode := true
        pwrMode := r.psMode
        smartPs := r.smartPs
        bcnAntMode := r.bcnAntMode }
      (if p.alives = 0 then psStateS0 else psStateS2)
  else (p, none)

structure Wakes where
  cmdQueueSema : Bool := false
  xmitSema : Bool := false

def cpwmIntHdl (c : Adapter) (p : PwrCtrl) (state : ℕ) : PwrCtrl × Wakes :=
  if c.surpriseRemoved ∨ c.drvStopped then (p, {})
  else
    let p := { p with cpwm := psState state }
    if psStateS2 ≤ p.cpwm then
      (p, { cmdQueueSema := p.alive cmdAlive, xmitSema := p.alive xmitAlive })
    else (p, {})

def cpwmEventCallback (c : Adapter) (p : PwrCtrl) : PwrCtrl × Wakes := cpwmIntHdl c p psStateS2

/-! ## Runs -/

inductive Act
  | rpwm (w : Rpwm)
  | cpwmInt

/-- The power state with what was said to the firmware, latest first, the posts of
the two semaphores, and what the register calls have returned to each task since it
last unregistered: success, or failure with the posts of its semaphore at that time. -/
structure Sys where
  pwr : PwrCtrl := {}
  log : List Act := []
  cmdQueueSema : ℕ := 0
  xmitSema : ℕ := 0
  granted : Task → Bool := fun _ => false
  failed : Task → Option ℕ := fun _ => none

def Sys.posts (s : Sys) (t : Task) : ℕ :=
  if t = cmdAlive then s.cmdQueueSema else if t = xmitAlive then s.xmitSema else 0

def HasSema (t : Task) : Prop := t = cmdAlive ∨ t = xmitAlive

instance (t : Task) : Decidable (HasSema t) := inferInstanceAs (Decidable (_ ∨ _))

def Sys.wrote (s : Sys) (r : PwrCtrl × Option Rpwm) : Sys :=
  { s with
    pwr := r.1
    log := match r.2 with
      | none => s.log
      | some w => .rpwm w :: s.log }

def Sys.registered (s : Sys) (t : Task) (r : Registered) : Sys :=
  let s' := s.wrote (r.pwr, r.write)
  if r.success then { s' with granted := Function.update s.granted t true }
  else { s' with failed := Function.update s.failed t (some (s.posts t)) }

def Sys.unregistered (s : Sys) (t : Task) (r : PwrCtrl × Option Rpwm) : Sys :=
  { s.wrote r with
    granted := Function.update s.granted t false
    failed := Function.update s.failed t none }

inductive Event
  | registerTask (t : Task)
  | registerTx
  | registerCmd
  | unregisterTask (t : Task)
  | unregisterTx (ifaces : List Iface)
  | unregisterCmd (ifaces : List Iface)
  | setPsMode (r : PsRequest)
  | cpwmInt

def step (c : Adapter) (s : Sys) : Event → Sys
  | .registerTask t => s.registered t (rtwRegisterTaskAlive c s.pwr t)
  | .registerTx => s.registered xmitAlive (rtwRegisterTxAlive c s.pwr)
  | .registerCmd => s.registered cmdAlive (rtwRegisterCmdAlive c s.pwr)
  | .unregisterTask t => s.unregistered t (rtwUnregisterTaskAlive c s.pwr t)
  | .unregisterTx ifaces => s.unregistered xmitAlive (rtwUnregisterTxAlive c ifaces s.pwr)
  | .unregisterCmd ifaces => s.unregistered cmdAlive (rtwUnregisterCmdAlive c ifaces s.pwr)
  | .setPsMode r => s.wrote (rtwSetPsMode c s.pwr r)
  | .cpwmInt =>
    -- a driver that is stopped or removed does not take the interrupt
    if c.surpriseRemoved ∨ c.drvStopped then s
    else
      let r := cpwmEventCallback c s.pwr
      { s with
        pwr := r.1
        log := .cpwmInt :: s.log
        cmdQueueSema := s.cmdQueueSema + r.2.cmdQueueSema.toNat
        xmitSema := s.xmitSema + r.2.xmitSema.toNat }

def Act.written : Act → Option ℕ
  | .rpwm w => some w.pslv
  | .cpwmInt => none

def Sys.lastState (s : Sys) : Option ℕ := s.log.findSome? Act.written

def Sys.ToldToSleep (s : Sys) : Prop := ∃ v, s.lastState = some v ∧ v < psStateS2

def Sys.Outstanding (s : Sys) : Prop :=
  ∃ w, s.log.head? = some (.rpwm w) ∧ w.ack = true ∧ psStateS2 ≤ w.pslv

def IoSafe (s : Sys) : Prop :=
  ∀ t, s.granted t = true → psStateS2 ≤ s.pwr.cpwm ∧ ¬ s.ToldToSleep

def NoLostWakeup (s : Sys) (t : Task) : Prop :=
  ∀ n, s.failed t = some n → s.Outstanding ∨ n < s.posts t

/-- A register call finds the flag of the firmware's power save cleared only when the
firmware has answered; an interrupt is handled only while the firmware has not been
told to sleep again, and while every task that was refused has a semaphore. -/
def InStep (s : Sys) : Event → Prop
  | .registerTask _ | .registerTx | .registerCmd =>
    s.pwr.bFwCurrentInPSMode = false → psStateS2 ≤ s.pwr.cpwm
  | .cpwmInt => ¬ s.ToldToSleep ∧ ∀ t, ¬ HasSema t → s.failed t = none
  | _ => True

/-- No power state is written to a card that is gone or not initialised. -/
def Adapter.Absent (c : Adapter) : Prop := c.surpriseRemoved = true ∨ ¬ c.hwInitCompleted = true

instance (c : Adapter) : Decidable c.Absent := inferInstanceAs (Decidable (_ ∨ _))

/-- The driver runs and leaves the firmware's power save enabled. -/
structure Adapter.Running (c : Adapter) : Prop where
  present : ¬ c.Absent
  going : c.drvStopped = false
  level : c.lpsLevel ≠ .normal

/-- Awake, with nothing alive and nothing said to the firmware yet. -/
structure Awake (s : Sys) : Prop where
  flag : s.pwr.bFwCurrentInPSMode = false
  cpwm : psStateS2 ≤ s.pwr.cpwm
  alives : s.pwr.alives = 0
  log : s.log = []
  granted : s.granted = fun _ => false
  failed : s.failed = fun _ => none

/-! ## What one operation does to the power state -/

@[simp] theorem alive_register (p : PwrCtrl) (t u : Task) :
    PwrCtrl.alive { p with alives := p.alives ||| BitVec.twoPow 32 t } u =
      (p.alive u || decide (u = t)) := by
  simp [PwrCtrl.alive, Fin.ext_iff]

@[simp] theorem alive_unregister (p : PwrCtrl) (t u : Task) :
    PwrCtrl.alive { p with alives := p.alives &&& ~~~ BitVec.twoPow 32 t } u =
      (p.alive u && !decide (u = t)) := by
  simp [PwrCtrl.alive, Fin.ext_iff]

theorem PwrCtrl.not_alive {p : PwrCtrl} (h : p.alives = 0) (t : Task) : p.alive t = false := by
  rw [PwrCtrl.alive, h]
  exact BitVec.getLsbD_zero

/-- All that a request to `rtw_set_rpwm` can do: nothing; nothing but to count the
firmware as awake; a wake request, whose answer is awaited; or a state that holds at once,
which is a sleeping one only when nothing is alive. -/
inductive Requests (absent : Prop) (p p' : PwrCtrl) : Option Rpwm → Prop
  | dropped (hr : p'.rpwm = p.rpwm) (hc : p'.cpwm = p.cpwm) : Requests absent p p' none
  | absent (ha : absent) (hr : p'.rpwm = p.rpwm) (hc : p'.cpwm = psStateS4) :
      Requests absent p p' none
  | wake (w : Rpwm) (hcpwm : p.cpwm < psStateS2) (hw : psStateS2 ≤ w.pslv) (hack : w.ack = true)
      (hr : p'.rpwm = w.pslv) (hc : p'.cpwm = p.cpwm) : Requests absent p p' (some w)
  | awake (w : Rpwm) (hcpwm : psStateS2 ≤ p.cpwm) (hrpwm : p.rpwm < psStateS2)
      (hw : psStateS2 ≤ w.pslv) (hr : p'.rpwm = w.pslv) (hc : p'.cpwm = w.pslv) :
      Requests absent p p' (some w)
  | sleep (w : Rpwm) (hw : w.pslv < psStateS2) (halive : ∀ t, p'.alive t = false)
      (hr : p'.rpwm = w.pslv) (hc : p'.cpwm = w.pslv) : Requests absent p p' (some w)

variable {c : Adapter} {s : Sys} {p p' : PwrCtrl} {t u : Task} {v : ℕ} {absent : Prop}

theorem rtwSetRpwm_keeps (c : Adapter) (p : PwrCtrl) (v : ℕ) :
    (rtwSetRpwm c p v).1.alives = p.alives := by
  simp only [rtwSetRpwm]
  split_ifs <;> rfl

theorem setRpwm_requests (hc : c.lpsLevel ≠ .normal) (p : PwrCtrl)
    (hv : psState v < psStateS2 → p.alives = 0) :
    Requests c.Absent p (rtwSetRpwm c p v).1 (rtwSetRpwm c p v).2 := by
  have halives := rtwSetRpwm_keeps c p v
  simp only [rtwSetRpwm, hc, or_false] at halives ⊢
  by_cases hdrop : p.rpwm = psState v ∨ (psStateS2 ≤ p.rpwm ∧ psStateS2 ≤ psState v)
  · rw [if_pos hdrop]
    exact .dropped rfl rfl
  rw [if_neg hdrop] at halives ⊢
  by_cases habsent : c.surpriseRemoved = true ∨ ¬ c.hwInitCompleted = true
  · rw [if_pos habsent]
    exact .absent habsent rfl rfl
  rw [if_neg habsent] at halives ⊢
  by_cases hstop : c.drvStopped = true ∧ psState v < psStateS2
  · rw [if_pos hstop]
    exact .dropped rfl rfl
  rw [if_neg hstop] at halives ⊢
  by_cases hack : p.cpwm < psStateS2 ∧ psStateS2 ≤ psState v
  · refine .wake _ hack.1 hack.2 (decide_eq_true hack) rfl ?_
    exact if_pos (decide_eq_true hack)
  · have hcpwm : (if decide (p.cpwm < psStateS2 ∧ psStateS2 ≤ psState v) = true then p.cpwm
        else psState v) = psState v := if_neg (by simpa only [decide_eq_true_eq] using hack)
    by_cases hlow : psState v < psStateS2
    · refine .sleep _ hlow (fun t => PwrCtrl.not_alive ?_ t) rfl hcpwm
      exact halives.trans (hv hlow)
    · have hhigh := Nat.le_of_not_lt hlow
      refine .awake _ (Nat.le_of_not_lt fun h => hack ⟨h, hhigh⟩) ?_ hhigh rfl hcpwm
      exact Nat.lt_of_not_le fun h => hdrop (Or.inr ⟨h, hhigh⟩)

theorem setRpwm_wakes (hc : c.lpsLevel ≠ .normal) (habsent : ¬ c.Absent)
    (hcpwm : p.cpwm < psStateS2) (hrpwm : p.rpwm < psStateS2) :
    ∃ w, (rtwSetRpwm c p psStateS2).2 = some w ∧ w.ack = true ∧ psStateS2 ≤ w.pslv := by
  have hwake : psStateS2 ≤ psState psStateS2 := by decide
  have hdrop : ¬ (p.rpwm = psState psStateS2 ∨ (psStateS2 ≤ p.rpwm ∧
      psStateS2 ≤ psState psStateS2) ∨ c.lpsLevel = .normal) := by
    rintro (h | ⟨h, -⟩ | h)
    · exact absurd (h ▸ hrpwm) (by decide)
    · exact absurd h (Nat.not_le_of_lt hrpwm)
    · exact hc h
  have hstop : ¬ (c.drvStopped = true ∧ psState psStateS2 < psStateS2) :=
    fun h => absurd h.2 (Nat.not_lt_of_le hwake)
  have hpresent : ¬ (c.surpriseRemoved = true ∨ ¬ c.hwInitCompleted = true) := habsent
  simp only [rtwSetRpwm]
  rw [if_neg hdrop, if_neg hpresent, if_neg hstop]
  exact ⟨_, rfl, decide_eq_true ⟨hcpwm, hwake⟩, hwake⟩

theorem Requests.congr {q q' : PwrCtrl} {w : Option Rpwm} (h : Requests absent q q' w)
    (hr : q.rpwm = p.rpwm) (hc : q.cpwm = p.cpwm) (hr' : p'.rpwm = q'.rpwm)
    (hc' : p'.cpwm = q'.cpwm) (ha : p'.alives = q'.alives) : Requests absent p p' w := by
  cases h with
  | dropped h₁ h₂ => exact .dropped (by rw [hr', h₁, hr]) (by rw [hc', h₂, hc])
  | absent habsent h₁ h₂ => exact .absent habsent (by rw [hr', h₁, hr]) (hc'.trans h₂)
  | wake w hcpwm hw hack h₁ h₂ =>
    exact .wake w (hc ▸ hcpwm) hw hack (hr'.trans h₁) (by rw [hc', h₂, hc])
  | awake w hcpwm hrpwm hw h₁ h₂ =>
    exact .awake w (hc ▸ hcpwm) (hr ▸ hrpwm) hw (hr'.trans h₁) (hc'.trans h₂)
  | sleep w hw halive h₁ h₂ =>
    refine .sleep w hw (fun t => ?_) (hr'.trans h₁) (hc'.trans h₂)
    rw [PwrCtrl.alive, ha]
    exact halive t

/-- A call that is refused leaves a wake request behind, its own or an earlier one,
unless the card is absent. -/
structure RegisterSpec (absent : Prop) (p : PwrCtrl) (t : Task) (r : Registered) : Prop where
  requests : Requests absent p r.pwr r.write
  alive : ∀ u, r.pwr.alive u = (p.alive u || decide (u = t))
  success : r.success = true →
    r.pwr.cpwm = p.cpwm ∧ r.write = none ∧
      (p.bFwCurrentInPSMode = false ∨ psStateS2 ≤ p.cpwm)
  fail : r.success = false → ¬ absent → p.cpwm < psStateS2 ∧
    ((r.write = none ∧ psStateS2 ≤ p.rpwm) ∨
      ∃ w, r.write = some w ∧ w.ack = true ∧ psStateS2 ≤ w.pslv)

theorem registerAlive_spec (hc : c.lpsLevel ≠ .normal) (p : PwrCtrl) (t : Task) :
    RegisterSpec c.Absent p t (registerAlive c p t) := by
  simp only [registerAlive]
  split_ifs with hsleep hrpwm
  · refine ⟨?_, fun u => ?_, nofun, fun _ ha => ⟨hsleep.2, Or.inr ?_⟩⟩
    · exact (setRpwm_requests hc _ (fun h => absurd h (by decide))).congr rfl rfl rfl rfl rfl
    · rw [← alive_register]
      exact congrArg (·.getLsbD u) (rtwSetRpwm_keeps c _ psStateS2)
    · exact setRpwm_wakes hc ha hsleep.2 hrpwm
  · refine ⟨.dropped rfl rfl, alive_register p t, nofun, fun _ _ => ⟨hsleep.2, Or.inl ⟨rfl, ?_⟩⟩⟩
    exact Nat.le_of_not_lt hrpwm
  · refine ⟨.dropped rfl rfl, alive_register p t, fun _ => ⟨rfl, rfl, ?_⟩, nofun⟩
    rcases Classical.em (p.bFwCurrentInPSMode = true) with hflag | hflag
    · exact Or.inr (Nat.le_of_not_lt fun h => hsleep ⟨hflag, h⟩)
    · exact Or.inl (Bool.eq_false_of_not_eq_true hflag)

theorem unregisterAlive_spec (hc : c.lpsLevel ≠ .normal) (p : PwrCtrl) {v : ℕ}
    (hv : psState v = v) (t : Task) :
    let r := unregisterAlive c p v t
    Requests c.Absent p r.1 r.2 ∧ ∀ u, r.1.alive u = (p.alive u && !decide (u = t)) := by
  simp only [unregisterAlive]
  split_ifs with hrest
  · refine ⟨?_, fun u => ?_⟩
    · refine (setRpwm_requests hc _ fun h => ?_).congr rfl rfl rfl rfl rfl
      exact hrest.2.2.2.resolve_left (Nat.not_le_of_lt (hv ▸ h))
    · rw [← alive_unregister]
      exact congrArg (·.getLsbD u) (rtwSetRpwm_keeps c _ v)
  · exact ⟨.dropped rfl rfl, alive_unregister p t⟩

theorem psState_restState (ifaces : List Iface) : psState (restState ifaces) = restState ifaces := by
  rw [restState]
  split <;> rfl

theorem rtwSetPsMode_spec (hc : c.lpsLevel ≠ .normal) (p : PwrCtrl) (r : PsRequest) :
    Requests c.Absent p (rtwSetPsMode c p r).1 (rtwSetPsMode c p r).2 ∧
      ∀ u, (rtwSetPsMode c p r).1.alive u = p.alive u := by
  simp only [rtwSetPsMode]
  split_ifs with _ _ _ _ hready halives
  · exact ⟨.dropped rfl rfl, fun _ => rfl⟩
  · exact ⟨.dropped rfl rfl, fun _ => rfl⟩
  · refine ⟨?_, fun u => congrArg (·.getLsbD u) (rtwSetRpwm_keeps c _ psStateS4)⟩
    exact (setRpwm_requests hc _ (fun h => absurd h (by decide))).congr rfl rfl rfl rfl rfl
  · exact ⟨.dropped rfl rfl, fun _ => rfl⟩
  · refine ⟨?_, fun u => congrArg (·.getLsbD u) (rtwSetRpwm_keeps c _ psStateS0)⟩
    refine (setRpwm_requests hc _ fun _ => ?_).congr rfl rfl rfl rfl rfl
    exact halives
  · refine ⟨?_, fun u => congrArg (·.getLsbD u) (rtwSetRpwm_keeps c _ psStateS2)⟩
    exact (setRpwm_requests hc _ (fun h => absurd h (by decide))).congr rfl rfl rfl rfl rfl
  · exact ⟨.dropped rfl rfl, fun _ => rfl⟩

theorem cpwmInt_ignored (h : c.surpriseRemoved = true ∨ c.drvStopped = true) :
    step c s .cpwmInt = s := if_pos h

theorem cpwmInt_taken (h : ¬ (c.surpriseRemoved = true ∨ c.drvStopped = true)) :
    step c s .cpwmInt = { s with
      pwr := { s.pwr with cpwm := psStateS2 }
      log := .cpwmInt :: s.log
      cmdQueueSema := s.cmdQueueSema + (s.pwr.alive cmdAlive).toNat
      xmitSema := s.xmitSema + (s.pwr.alive xmitAlive).toNat } := by
  have hback : cpwmEventCallback c s.pwr = ({ s.pwr with cpwm := psStateS2 },
      { cmdQueueSema := s.pwr.alive cmdAlive, xmitSema := s.pwr.alive xmitAlive }) := by
    simp only [cpwmEventCallback, cpwmIntHdl, if_neg h]
    exact if_pos (Nat.le_refl 2)
  simp only [step, if_neg h, hback]

/-! ## What was said to the firmware -/

section Said

variable {w : Option Rpwm} {T : Task → Prop}

theorem lastState_wrote_some (s : Sys) (p' : PwrCtrl) (w : Rpwm) :
    (s.wrote (p', some w)).lastState = some w.pslv := rfl

theorem outstanding_wrote_some {w : Rpwm} :
    (s.wrote (p', some w)).Outstanding ↔ w.ack = true ∧ psStateS2 ≤ w.pslv := by
  constructor
  · rintro ⟨w', heq, h⟩
    injection heq with heq
    injection heq with heq
    exact heq ▸ h
  · exact fun h => ⟨w, rfl, h⟩

theorem not_toldToSleep_wrote {w : Rpwm} (hw : psStateS2 ≤ w.pslv) :
    ¬ (s.wrote (p', some w)).ToldToSleep := by
  rintro ⟨v, hlast, hv⟩
  rw [lastState_wrote_some] at hlast
  injection hlast with hlast
  exact absurd (hlast ▸ hv) (Nat.not_lt_of_le hw)

structure Spoken (s : Sys) : Prop where
  fresh : s.lastState = none → psStateS2 ≤ s.pwr.cpwm
  last : ∀ v, s.lastState = some v → s.pwr.rpwm = v
  asked : s.pwr.cpwm < psStateS2 → psStateS2 ≤ s.pwr.rpwm → s.Outstanding

theorem Spoken.rpwm_of_outstanding (h : Spoken s) (ho : s.Outstanding) :
    psStateS2 ≤ s.pwr.rpwm := by
  obtain ⟨w, hw, -, hhigh⟩ := ho
  have hlast : s.lastState = some w.pslv := by
    obtain ⟨rest, hlog⟩ := List.head?_eq_some_iff.mp hw
    rw [Sys.lastState, hlog]
    rfl
  exact (h.last _ hlast).symm ▸ hhigh

theorem Spoken.wrote (h : Spoken s) (hreq : Requests absent s.pwr p' w) :
    Spoken (s.wrote (p', w)) := by
  cases hreq with
  | dropped hr hc =>
    refine ⟨fun hn => ?_, fun v hv => hr.trans (h.last v hv), fun hlow hhigh => ?_⟩
    · exact hc ▸ h.fresh hn
    · exact h.asked (hc ▸ hlow) (hr ▸ hhigh)
  | absent ha hr hc =>
    have hhigh : psStateS2 ≤ p'.cpwm := hc ▸ (by decide)
    refine ⟨fun _ => hhigh, fun v hv => hr.trans (h.last v hv), fun hlow => ?_⟩
    exact absurd hlow (Nat.not_lt_of_le hhigh)
  | wake w hcpwm hw hack hr hc =>
    refine ⟨nofun, ?_, fun _ _ => outstanding_wrote_some.mpr ⟨hack, hw⟩⟩
    rintro v ⟨⟩
    exact hr
  | awake w hcpwm hrpwm hw hr hc =>
    have hhigh : psStateS2 ≤ p'.cpwm := hc ▸ hw
    refine ⟨nofun, ?_, fun hlow => absurd hlow (Nat.not_lt_of_le hhigh)⟩
    rintro v ⟨⟩
    exact hr
  | sleep w hw halive hr hc =>
    refine ⟨nofun, ?_, fun _ hhigh => absurd hhigh (Nat.not_le_of_lt (hr ▸ hw))⟩
    rintro v ⟨⟩
    exact hr

theorem Spoken.outstanding_wrote (h : Spoken s) (hreq : Requests absent s.pwr p' w)
    (halive : p'.alive t = true) (ho : s.Outstanding) : (s.wrote (p', w)).Outstanding := by
  cases hreq with
  | dropped hr hc => exact ho
  | absent ha hr hc => exact ho
  | wake w hcpwm hw hack hr hc => exact outstanding_wrote_some.mpr ⟨hack, hw⟩
  | awake w hcpwm hrpwm hw hr hc =>
    exact absurd (h.rpwm_of_outstanding ho) (Nat.not_le_of_lt hrpwm)
  | sleep w hw hnone hr hc => exact absurd halive (Bool.eq_false_iff.mp (hnone t))

theorem awake_wrote (hreq : Requests absent s.pwr p' w) (halive : p'.alive t = true)
    (hcpwm : psStateS2 ≤ s.pwr.cpwm) (hn : ¬ s.ToldToSleep) :
    psStateS2 ≤ p'.cpwm ∧ ¬ (s.wrote (p', w)).ToldToSleep := by
  cases hreq with
  | dropped hr hc => exact ⟨hc ▸ hcpwm, hn⟩
  | absent ha hr hc => exact ⟨hc ▸ (by decide), hn⟩
  | wake w hlow hw hack hr hc => exact absurd hlow (Nat.not_lt_of_le hcpwm)
  | awake w _ hrpwm hw hr hc => exact ⟨hc ▸ hw, not_toldToSleep_wrote hw⟩
  | sleep w hw hnone hr hc => exact absurd halive (Bool.eq_false_iff.mp (hnone t))

theorem asleep_wrote (hreq : Requests absent s.pwr p' w) (habsent : ¬ absent)
    (h : s.ToldToSleep → s.pwr.cpwm < psStateS2) (ht : (s.wrote (p', w)).ToldToSleep) :
    p'.cpwm < psStateS2 := by
  cases hreq with
  | dropped hr hc => exact Nat.lt_of_le_of_lt (Nat.le_of_eq hc) (h ht)
  | absent ha hr hc => exact absurd ha habsent
  | wake w hlow hw hack hr hc => exact absurd ht (not_toldToSleep_wrote hw)
  | awake w _ hrpwm hw hr hc => exact absurd ht (not_toldToSleep_wrote hw)
  | sleep w hw hnone hr hc => exact Nat.lt_of_le_of_lt (Nat.le_of_eq hc) hw

theorem failed_registered (s : Sys) {r : Registered} (hne : u ≠ t) :
    (s.registered t r).failed u = s.failed u := by
  rw [Sys.registered]
  split
  · rfl
  · exact Function.update_of_ne hne _ _

theorem failed_registered_self (s : Sys) (t : Task) {r : Registered} (h : r.success = false) :
    (s.registered t r).failed t = some (s.posts t) := by
  rw [Sys.registered, if_neg (Bool.eq_false_iff.mp h)]
  exact Function.update_self _ _ _

theorem cmdQueueSema_registered (s : Sys) (t : Task) (r : Registered) :
    (s.registered t r).cmdQueueSema = s.cmdQueueSema := by
  rw [Sys.registered]
  split <;> rfl

theorem failed_unregistered (s : Sys) {r : PwrCtrl × Option Rpwm} (hne : u ≠ t) :
    (s.unregistered t r).failed u = s.failed u := Function.update_of_ne hne _ _

/-! ## No lost wake-up -/

/-- The tasks of `T` that were refused are alive, and are waited for or were woken. -/
structure Waits (T : Task → Prop) (s : Sys) : Prop extends Spoken s where
  alive : ∀ t n, s.failed t = some n → s.pwr.alive t = true
  posted : ∀ t n, s.failed t = some n → n ≤ s.posts t
  woken : ∀ t, T t → NoLostWakeup s t

theorem Waits.wrote (h : Waits T s) (hreq : Requests absent s.pwr p' w)
    (halive : ∀ t n, s.failed t = some n → p'.alive t = true) : Waits T (s.wrote (p', w)) := by
  refine ⟨h.toSpoken.wrote hreq, halive, h.posted, fun t ht n hn => ?_⟩
  rcases h.woken t ht n hn with ho | hpost
  · exact Or.inl (h.outstanding_wrote hreq (halive t n hn) ho)
  · exact Or.inr hpost

theorem Waits.registered (h : Waits T s) {r : Registered} (hr : RegisterSpec absent s.pwr t r)
    (habsent : T t → r.success = false → ¬ absent) : Waits T (s.registered t r) := by
  have hw : Waits T (s.wrote (r.pwr, r.write)) := by
    refine h.wrote hr.requests fun u n hn => ?_
    rw [hr.alive, h.alive u n hn, Bool.true_or]
  rw [Sys.registered]
  split_ifs with hs
  · exact ⟨⟨hw.fresh, hw.last, hw.asked⟩, hw.alive, hw.posted, hw.woken⟩
  · have hfalse := Bool.eq_false_of_not_eq_true hs
    refine ⟨⟨hw.fresh, hw.last, hw.asked⟩, fun u n hn => ?_, fun u n hn => ?_, fun u hu n hn => ?_⟩
    · rcases eq_or_ne u t with rfl | hne
      · exact (hr.alive u).trans (by rw [decide_eq_true rfl, Bool.or_true])
      · exact hw.alive u n ((Function.update_of_ne hne _ _).symm.trans hn)
    · rcases eq_or_ne u t with rfl | hne
      · have heq := (Function.update_self u (some (s.posts u)) s.failed).symm.trans hn
        injection heq with heq
        exact Nat.le_of_eq heq.symm
      · exact hw.posted u n ((Function.update_of_ne hne _ _).symm.trans hn)
    · rcases eq_or_ne u t with rfl | hne
      · have ho : (s.wrote (r.pwr, r.write)).Outstanding := by
          obtain ⟨hlow, ⟨hnone, hhigh⟩ | ⟨w, hsome, hwake⟩⟩ := hr.fail hfalse (habsent hu hfalse)
          · rw [hnone]
            exact h.asked hlow hhigh
          · rw [hsome]
            exact outstanding_wrote_some.mpr hwake
        exact Or.inl ho
      · exact hw.woken u hu n ((Function.update_of_ne hne _ _).symm.trans hn)

theorem Waits.unregistered (h : Waits T s) {r : PwrCtrl × Option Rpwm}
    (hreq : Requests absent s.pwr r.1 r.2)
    (halive : ∀ u, r.1.alive u = (s.pwr.alive u && !decide (u = t))) :
    Waits T (s.unregistered t r) := by
  have hforget : ∀ u n, Function.update s.failed t none u = some n →
      u ≠ t ∧ s.failed u = some n := by
    intro u n hn
    rcases eq_or_ne u t with rfl | hne
    · rw [Function.update_self] at hn
      cases hn
    · exact ⟨hne, (Function.update_of_ne hne _ _).symm.trans hn⟩
  have hwait : Waits T { s with
      granted := Function.update s.granted t false, failed := Function.update s.failed t none } := by
    refine ⟨⟨h.fresh, h.last, h.asked⟩, ?_, ?_, ?_⟩
    · exact fun u n hn => h.alive u n (hforget u n hn).2
    · exact fun u n hn => h.posted u n (hforget u n hn).2
    · exact fun u hu n hn => h.woken u hu n (hforget u n hn).2
  refine hwait.wrote hreq fun u n hn => ?_
  obtain ⟨hne, hf⟩ := hforget u n hn
  refine (halive u).trans ?_
  rw [h.alive u n hf, decide_eq_false hne]
  rfl

theorem Waits.cpwmInt (h : Waits T s)
    (hT : ∀ t, T t → ¬ HasSema t → s.failed t = none) : Waits T (step c s .cpwmInt) := by
  by_cases hrun : c.surpriseRemoved = true ∨ c.drvStopped = true
  · rw [cpwmInt_ignored hrun]
    exact h
  rw [cpwmInt_taken hrun]
  refine ⟨⟨fun _ => Nat.le_refl 2, h.last, fun hlow => absurd hlow (Nat.lt_irrefl 2)⟩,
    h.alive, fun t n hn => ?_, fun t ht n hn => Or.inr ?_⟩
  · have hle := h.posted t n hn
    simp only [Sys.posts] at hle ⊢
    split_ifs at hle ⊢ <;> omega
  · have hle := h.posted t n hn
    have halive := h.alive t n hn
    have hsema : HasSema t := by
      by_contra hno
      exact absurd ((hT t ht hno).symm.trans hn) (Option.some_ne_none n).symm
    simp only [Sys.posts] at hle ⊢
    rcases hsema with rfl | rfl
    · rw [if_pos rfl] at hle
      rw [if_pos rfl, halive]
      exact Nat.lt_succ_of_le hle
    · rw [if_neg (by decide), if_pos rfl] at hle
      rw [if_neg (by decide), if_pos rfl, halive]
      exact Nat.lt_succ_of_le hle

def Event.registers : Event → Option Task
  | .registerTask t => some t
  | .registerTx => some xmitAlive
  | .registerCmd => some cmdAlive
  | _ => none

theorem Waits.step (h : Waits T s) (hc : c.lpsLevel ≠ .normal) {e : Event}
    (habsent : ∀ t, e.registers = some t → T t → (registerAlive c s.pwr t).success = false →
      ¬ c.Absent)
    (hT : e = .cpwmInt → ∀ t, T t → ¬ HasSema t → s.failed t = none) :
    Waits T (step c s e) := by
  cases e with
  | registerTask t => exact h.registered (registerAlive_spec hc s.pwr t) (habsent t rfl)
  | registerTx => exact h.registered (registerAlive_spec hc s.pwr xmitAlive) (habsent _ rfl)
  | registerCmd => exact h.registered (registerAlive_spec hc s.pwr cmdAlive) (habsent _ rfl)
  | unregisterTask t =>
    obtain ⟨hreq, halive⟩ := unregisterAlive_spec hc s.pwr (v := psStateS0) rfl t
    exact h.unregistered hreq halive
  | unregisterTx ifaces =>
    obtain ⟨hreq, halive⟩ := unregisterAlive_spec hc s.pwr (psState_restState ifaces) xmitAlive
    exact h.unregistered hreq halive
  | unregisterCmd ifaces =>
    obtain ⟨hreq, halive⟩ := unregisterAlive_spec hc s.pwr (psState_restState ifaces) cmdAlive
    exact h.unregistered hreq halive
  | setPsMode r =>
    obtain ⟨hreq, halive⟩ := rtwSetPsMode_spec hc s.pwr r
    exact h.wrote hreq fun t n hn => (halive t).trans (h.alive t n hn)
  | cpwmInt => exact h.cpwmInt (hT rfl)

/-! ## I/O only while the firmware is awake -/

/-- A task that was let through is alive and finds the firmware awake. -/
structure Safe (s : Sys) : Prop where
  asleep : s.ToldToSleep → s.pwr.cpwm < psStateS2
  alive : ∀ t, s.granted t = true → s.pwr.alive t = true
  ioSafe : IoSafe s

theorem Safe.wrote (h : Safe s) (hreq : Requests absent s.pwr p' w) (habsent : ¬ absent)
    (halive : ∀ t, s.granted t = true → p'.alive t = true) : Safe (s.wrote (p', w)) := by
  refine ⟨asleep_wrote hreq habsent h.asleep, halive, fun t ht => ?_⟩
  obtain ⟨hcpwm, hn⟩ := h.ioSafe t ht
  exact awake_wrote hreq (halive t ht) hcpwm hn

theorem Safe.registered (h : Safe s) {r : Registered} (hr : RegisterSpec absent s.pwr t r)
    (habsent : ¬ absent) (hin : s.pwr.bFwCurrentInPSMode = false → psStateS2 ≤ s.pwr.cpwm) :
    Safe (s.registered t r) := by
  have hw : Safe (s.wrote (r.pwr, r.write)) := by
    refine h.wrote hr.requests habsent fun u hu => ?_
    rw [hr.alive, h.alive u hu, Bool.true_or]
  rw [Sys.registered]
  split_ifs with hs
  · obtain ⟨hcpwm, hnone, hawake⟩ := hr.success hs
    have hhigh : psStateS2 ≤ s.pwr.cpwm := hawake.elim hin id
    have hsaid : psStateS2 ≤ r.pwr.cpwm ∧ ¬ (s.wrote (r.pwr, r.write)).ToldToSleep := by
      rw [hcpwm, hnone]
      exact ⟨hhigh, fun ht => absurd (h.asleep ht) (Nat.not_lt_of_le hhigh)⟩
    refine ⟨hw.asleep, fun u hu => ?_, fun _ _ => hsaid⟩
    rcases eq_or_ne u t with rfl | hne
    · exact (hr.alive u).trans (by rw [decide_eq_true rfl, Bool.or_true])
    · exact hw.alive u ((Function.update_of_ne hne _ _).symm.trans hu)
  · exact ⟨hw.asleep, hw.alive, hw.ioSafe⟩

theorem Safe.unregistered (h : Safe s) {r : PwrCtrl × Option Rpwm}
    (hreq : Requests absent s.pwr r.1 r.2) (habsent : ¬ absent)
    (halive : ∀ u, r.1.alive u = (s.pwr.alive u && !decide (u = t))) :
    Safe (s.unregistered t r) := by
  have hforget : ∀ u, Function.update s.granted t false u = true → u ≠ t ∧ s.granted u = true := by
    intro u hu
    rcases eq_or_ne u t with rfl | hne
    · rw [Function.update_self] at hu
      cases hu
    · exact ⟨hne, (Function.update_of_ne hne _ _).symm.trans hu⟩
  have hsafe : Safe { s with
      granted := Function.update s.granted t false, failed := Function.update s.failed t none } := by
    refine ⟨h.asleep, fun u hu => h.alive u (hforget u hu).2, fun u hu => ?_⟩
    exact h.ioSafe u (hforget u hu).2
  refine hsafe.wrote hreq habsent fun u hu => ?_
  obtain ⟨hne, hg⟩ := hforget u hu
  refine (halive u).trans ?_
  rw [h.alive u hg, decide_eq_false hne]
  rfl

theorem Safe.step (h : Safe s) (hc : c.Running) {e : Event} (he : InStep s e) :
    Safe (step c s e) := by
  cases e with
  | registerTask t => exact h.registered (registerAlive_spec hc.level s.pwr t) hc.present he
  | registerTx => exact h.registered (registerAlive_spec hc.level s.pwr xmitAlive) hc.present he
  | registerCmd => exact h.registered (registerAlive_spec hc.level s.pwr cmdAlive) hc.present he
  | unregisterTask t =>
    obtain ⟨hreq, halive⟩ := unregisterAlive_spec hc.level s.pwr (v := psStateS0) rfl t
    exact h.unregistered hreq hc.present halive
  | unregisterTx ifaces =>
    obtain ⟨hreq, halive⟩ :=
      unregisterAlive_spec hc.level s.pwr (psState_restState ifaces) xmitAlive
    exact h.unregistered hreq hc.present halive
  | unregisterCmd ifaces =>
    obtain ⟨hreq, halive⟩ :=
      unregisterAlive_spec hc.level s.pwr (psState_restState ifaces) cmdAlive
    exact h.unregistered hreq hc.present halive
  | setPsMode r =>
    obtain ⟨hreq, halive⟩ := rtwSetPsMode_spec hc.level s.pwr r
    exact h.wrote hreq hc.present fun t ht => (halive t).trans (h.alive t ht)
  | cpwmInt =>
    by_cases hrun : c.surpriseRemoved = true ∨ c.drvStopped = true
    · rw [cpwmInt_ignored hrun]
      exact h
    rw [cpwmInt_taken hrun]
    exact ⟨fun ht => absurd ht he.1, h.alive, fun _ _ => ⟨Nat.le_refl 2, he.1⟩⟩

end Said

/-! ## Runs from the awake state -/

theorem Awake.spoken (h : Awake s) : Spoken s := by
  refine ⟨fun _ => h.cpwm, fun v hv => ?_, fun hlow => absurd hlow (Nat.not_lt_of_le h.cpwm)⟩
  rw [Sys.lastState, h.log] at hv
  cases hv

theorem Awake.waits (h : Awake s) (T : Task → Prop) : Waits T s := by
  have hnone : ∀ t n, s.failed t ≠ some n := fun t n hn => by
    rw [h.failed] at hn
    cases hn
  refine ⟨h.spoken, ?_, ?_, ?_⟩
  · exact fun t n hn => absurd hn (hnone t n)
  · exact fun t n hn => absurd hn (hnone t n)
  · exact fun t _ n hn => absurd hn (hnone t n)

theorem Awake.safe (h : Awake s) : Safe s := by
  have hnot : ∀ t, s.granted t ≠ true := fun t ht => by
    rw [h.granted] at ht
    cases ht
  refine ⟨?_, fun t ht => absurd ht (hnot t), fun t ht => absurd ht (hnot t)⟩
  rintro ⟨v, hv, -⟩
  rw [Sys.lastState, h.log] at hv
  cases hv

open EventRun in
/-- A task with a semaphore never loses its wake-up; when every step meets the
condition, no task does, and a task that was let through finds the firmware awake. -/
theorem handshake_sound (hc : c.Running) (hs : Awake s) (es : List Event) :
    (∀ t, HasSema t → NoLostWakeup (run (step c) s es) t) ∧
    (Along (step c) InStep s es →
      IoSafe (run (step c) s es) ∧ ∀ t, NoLostWakeup (run (step c) s es) t) := by
  constructor
  · intro t ht
    have hw : Waits HasSema (run (step c) s es) :=
      run_invariant _ (fun s e h => h.step hc.level (fun _ _ _ _ => hc.present)
        fun _ t ht hn => absurd ht hn) (hs.waits _) es
    exact hw.woken t ht
  · intro hes
    have hboth : Safe (run (step c) s es) ∧ Waits (fun _ => True) (run (step c) s es) := by
      refine run_spec InStep (fun s => Safe s ∧ Waits (fun _ => True) s) ?_
        ⟨hs.safe, hs.waits _⟩ hes
      rintro s e ⟨hsafe, hwait⟩ he
      refine ⟨hsafe.step hc he, hwait.step hc.level (fun _ _ _ _ => hc.present) ?_⟩
      rintro rfl t - hn
      exact he.2 t hn
    exact ⟨hboth.1.ioSafe, fun t => hboth.2.woken t trivial⟩

theorem awake_init : Awake {} := ⟨rfl, by decide, rfl, rfl, rfl, rfl⟩

theorem running_init : Adapter.Running {} := ⟨by decide, rfl, nofun⟩

/-- The power save is entered; the command thread is refused, woken by the interrupt
and let through. -/
def wokenRun : List Event := [.setPsMode { psMode := 2 }, .registerCmd, .cpwmInt, .registerCmd]

theorem handshake_sound_woken :
    (EventRun.run (step {}) {} wokenRun).granted cmdAlive = true ∧
    IoSafe (EventRun.run (step {}) {} wokenRun) ∧
    NoLostWakeup (EventRun.run (step {}) {} wokenRun) cmdAlive := by
  have h := handshake_sound running_init awake_init wokenRun
  have hin : EventRun.Along (step {}) InStep {} wokenRun := by
    refine ⟨trivial, nofun, ⟨?_, fun t ht => ?_⟩, nofun, trivial⟩
    · rintro ⟨v, hv, hlow⟩
      have hlast : some psStateS2 = some v := hv
      injection hlast with hlast
      exact absurd (hlast ▸ hlow) (Nat.lt_irrefl psStateS2)
    · exact Function.update_of_ne (fun h => ht (Or.inl h)) _ _
  exact ⟨by decide, (h.2 hin).1, h.1 cmdAlive (Or.inl rfl)⟩

/-- Leaving the power save clears the flag before the firmware answers, and the answer
to a withdrawn request is taken for awake; a task without a semaphore is not woken. -/
theorem handshake_broken :
    ¬ IoSafe (EventRun.run (step {}) {}
      [.setPsMode { psMode := 2 }, .setPsMode { psMode := 0 }, .registerCmd]) ∧
    ¬ IoSafe (EventRun.run (step {}) {}
      [.setPsMode { psMode := 2 }, .setPsMode { psMode := 0 }, .setPsMode { psMode := 2 },
        .cpwmInt, .registerCmd]) ∧
    ¬ NoLostWakeup (EventRun.run (step {}) {}
      [.setPsMode { psMode := 2 }, .registerTask btcoexAlive, .cpwmInt]) btcoexAlive := by
  refine ⟨fun h => ?_, fun h => ?_, fun h => ?_⟩
  · exact absurd (h cmdAlive (by decide)).1 (by decide)
  · exact (h cmdAlive (by decide)).2 ⟨1, by decide, by decide⟩
  · rcases h 0 (by decide) with ⟨w, hw, -⟩ | hpost
    · injection hw with hw
      cases hw
    · exact absurd hpost (by decide)

end Rtl8189.PowerHandshake
