import Mathlib.Data.Nat.Basic
import Rtl8189.EventRun

/-!
# Joining a network as a client

A join waits for a beacon, authenticates and associates. Each of the three waits has the
link timer, which repeats the request or gives up, and each join is to be answered by one
call of `report_join_res`. External authentication, fast transition and WAPI are left out,
and of the frames sent nothing is kept. The frames received are those for which the filters
in front of the handlers let the driver see them; who sent them is not asked.
-/
namespace Rtl8189.ClientJoin

open EventRun

inductive HwState where
  | nolink
  | adhoc
  | station
  | ap
  deriving DecidableEq

inductive AuthAlgrthm where
  | opn
  | shared
  | ieee8021X
  | auto
  deriving DecidableEq

structure FwState where
  hw : HwState := .nolink
  authNull : Bool := false
  authState : Bool := false
  authSuccess : Bool := false
  assocState : Bool := false
  assocSuccess : Bool := false
  deriving DecidableEq

/-- `WIFI_FW_LINKING_STATE` -/
def FwState.linkingState (s : FwState) : Bool :=
  s.authNull || s.authState || s.authSuccess || s.assocState

structure Mlme where
  state : FwState := {}
  authAlgo : AuthAlgrthm := .opn
  authSeq : ℕ := 0
  authStatus : ℕ := 0
  reauthCount : ℕ := 0
  reassocCount : ℕ := 0
  joinAbort : Bool := false
  /-- `link_timer` is pending. -/
  linkTimer : Bool := false
  deriving DecidableEq

structure Result where
  res : ℤ
  status : ℕ
  deriving DecidableEq

def wlanStatusUnspecifiedFailure : ℕ := 1

def reauthLimit : ℕ := 4

def reassocLimit : ℕ := 4

def maxIeSz : ℕ := 768

/-- What of the network matters to a join. `chOk` is the answer of
`rtw_chk_start_clnt_join`. -/
structure Network where
  ieLength : ℕ
  ess : Bool
  ibss : Bool
  chOk : Bool
  deriving DecidableEq

structure AuthFrame where
  toMe : Bool
  seq : ℕ
  status : ℕ
  /-- A challenge text is found behind the fixed fields. -/
  challenge : Bool
  deriving DecidableEq

structure AssocRsp where
  toMe : Bool
  status : ℕ
  aid : ℕ
  deriving DecidableEq

namespace Mlme

def startClntJoin (m : Mlme) (net : Network) : Mlme × Option Result :=
  if net.ess then
    ({ m with state := { hw := .station, authNull := true }, linkTimer := true }, none)
  else if net.ibss then ({ m with state := { hw := .adhoc } }, some ⟨1, 0⟩)
  else (m, none)

/-- A link is given up before the parameters of the join are looked at. -/
def leaveLink (m : Mlme) : Mlme :=
  if m.state.assocSuccess then { m with state := {}, linkTimer := false } else m

def joinCmdHdl (m : Mlme) (net : Network) : Mlme × Option Result :=
  let m := m.leaveLink
  if maxIeSz < net.ieLength then (m, none)
  else if net.ieLength < 2 then (m, some ⟨-4, wlanStatusUnspecifiedFailure⟩)
  else if net.chOk = false then (m, some ⟨-4, wlanStatusUnspecifiedFailure⟩)
  else startClntJoin { m with linkTimer := false } net

def startClntAuth (m : Mlme) : Mlme :=
  { m with
    state := { m.state with authNull := false, authState := true }
    authSeq := 1
    reauthCount := 0
    reassocCount := 0
    linkTimer := true }

def startClntAssoc (m : Mlme) : Mlme :=
  { m with
    state := { m.state with authNull := false, authState := false, authSuccess := true,
                            assocState := true }
    linkTimer := true }

/-- `OnBeacon` for a beacon of the network that is joined. -/
def onBeacon (m : Mlme) : Mlme :=
  if m.state.authNull then
    if m.joinAbort then { m with linkTimer := true } else m.startClntAuth
  else m

def onAuthClient (m : Mlme) (f : AuthFrame) : Mlme :=
  if f.toMe = false then m
  else if m.state.authState = false ∨ m.joinAbort then m
  else if f.status ≠ 0 then
    { m with
      authAlgo := if f.status = 13 then if m.authAlgo = .shared then .opn else .shared
        else m.authAlgo
      authStatus := f.status
      linkTimer := true }
  else if f.seq = 2 then
    if m.authAlgo = .shared then
      if f.challenge then { m with authSeq := 3, linkTimer := true } else m
    else m.startClntAssoc
  else if f.seq = 4 then if m.authAlgo = .shared then m.startClntAssoc else m
  else m

def onAssocRsp (m : Mlme) (f : AssocRsp) : Mlme × Option Result :=
  if f.toMe = false then (m, none)
  else if (m.state.authSuccess || m.state.assocState) = false ∨ m.joinAbort then (m, none)
  else if m.state.assocSuccess then (m, none)
  else
    let m := { m with linkTimer := false }
    let aid : ℕ := f.aid % 0x4000
    if 0 < f.status then ({ m with state := {} }, some ⟨-4, f.status⟩)
    else if aid < 1 ∨ 2007 < aid then ({ m with state := {} }, some ⟨-4, f.status⟩)
    else ({ m with state := { m.state with assocState := false, assocSuccess := true } },
      some ⟨(aid : ℤ), f.status⟩)

/-- With the address of the network. Where the report finds no memory the state stays, and
the join goes on. -/
def receiveDisconnect (m : Mlme) (reason : ℕ) (mem : Bool) : Mlme × Option Result :=
  if m.state.hw = .station then
    if m.state.assocSuccess then (if mem then { m with state := {} } else m, none)
    else if m.state.linkingState then
      if mem then ({ m with state := {} }, some ⟨-2, reason⟩) else (m, none)
    else (m, none)
  else (m, none)

/-- `WLAN_REASON_CLASS2_FRAME_FROM_NONAUTH_STA` and `WLAN_REASON_PREV_AUTH_NOT_VALID` are not
for a client that is about to authenticate or to associate. -/
def onDeAuth (m : Mlme) (reason : ℕ) (mem : Bool) : Mlme × Option Result :=
  if (m.state.authState || m.state.assocState) && (reason = 6 || reason = 2) then (m, none)
  else m.receiveDisconnect reason mem

/-- `link_timer_hdl`, once the timer is not pending any more. -/
def linkTimerHdl (m : Mlme) : Mlme × Option Result :=
  if m.joinAbort ∧ m.state ≠ {} then
    ({ m with state := {} }, some ⟨-4, wlanStatusUnspecifiedFailure⟩)
  else if m.state.authNull then
    ({ m with state := {} }, some ⟨-3, wlanStatusUnspecifiedFailure⟩)
  else if m.state.authState then
    let m := { m with reauthCount := m.reauthCount + 1 }
    if reauthLimit < m.reauthCount then
      if m.authStatus ≠ 0 then ({ m with state := {}, authStatus := 0 }, some ⟨-1, m.authStatus⟩)
      else ({ m with state := {} }, some ⟨-1, wlanStatusUnspecifiedFailure⟩)
    else ({ m with authSeq := 1, linkTimer := true }, none)
  else if m.state.assocState then
    let m := { m with reassocCount := m.reassocCount + 1 }
    if reassocLimit < m.reassocCount then
      ({ m with state := {} }, some ⟨-2, wlanStatusUnspecifiedFailure⟩)
    else ({ m with linkTimer := true }, none)
  else (m, none)

/-- `rtw_mlmeext_disconnect` -/
def disconnect (m : Mlme) : Mlme := { m with state := {}, linkTimer := false }

end Mlme

inductive Event where
  | join (net : Network)
  | beacon
  | auth (f : AuthFrame)
  | assocRsp (f : AssocRsp)
  | deauth (reason : ℕ)
  | disassoc (reason : ℕ)
  | timer
  | abort
  | abortEnd
  | disconnect
  deriving DecidableEq

def Mlme.handle (m : Mlme) (mem : Bool) : Event → Mlme × Option Result
  | .join net => m.joinCmdHdl net
  | .beacon => (m.onBeacon, none)
  | .auth f => (m.onAuthClient f, none)
  | .assocRsp f => m.onAssocRsp f
  | .deauth reason => m.onDeAuth reason mem
  | .disassoc reason => m.receiveDisconnect reason mem
  | .timer => if m.linkTimer then { m with linkTimer := false }.linkTimerHdl else (m, none)
  | .abort => ({ m with joinAbort := true, linkTimer := true }, none)
  | .abortEnd => ({ m with joinAbort := false }, none)
  | .disconnect => (m.disconnect, none)

/-! ## What is counted along a run -/

/-- What was received, whether or not anything was done with it, since a join was started. -/
structure Heard where
  beacon : Bool := false
  auth : Bool := false
  adhoc : Bool := false
  deriving DecidableEq

structure Report where
  result : Result
  heard : Heard
  deriving DecidableEq

structure Ledger where
  joins : ℕ := 0
  reports : List Report := []
  /-- Reports for which there was no memory. -/
  lost : ℕ := 0
  /-- Joins that were under way when a disconnection or another join came. -/
  dropped : ℕ := 0
  unanswered : ℕ := 0
  /-- How often the link timer fired since a join was started. -/
  expiries : ℕ := 0
  heard : Heard := {}
  deriving DecidableEq

/-- The join comes as far as `start_clnt_join`. -/
def Network.reached (net : Network) : Bool := net.ieLength ≤ maxIeSz ∧ 2 ≤ net.ieLength ∧ net.chOk

def Network.started (net : Network) : Bool := net.reached && (net.ess || net.ibss)

def Network.unanswered (net : Network) : Bool :=
  maxIeSz < net.ieLength || (net.reached && !(net.ess || net.ibss))

def Mlme.linking (m : Mlme) : Bool := m.state.linkingState && !m.state.assocSuccess

namespace Ledger

def listen (l : Ledger) : Event → Ledger
  | .join net =>
    if net.started then { l with expiries := 0, heard := { adhoc := !net.ess } } else l
  | .beacon => { l with heard := { l.heard with beacon := true } }
  | .auth f =>
    if f.toMe ∧ f.status = 0 ∧ (f.seq = 2 ∨ f.seq = 4) then
      { l with heard := { l.heard with auth := true } }
    else l
  | .timer => { l with expiries := l.expiries + 1 }
  | _ => l

def count (l : Ledger) (m : Mlme) : Event → Ledger
  | .join net =>
    { l with
      joins := l.joins + 1
      dropped := l.dropped + if net.started && m.linking then 1 else 0
      unanswered := l.unanswered + if net.unanswered then 1 else 0 }
  | .disconnect => { l with dropped := l.dropped + if m.linking then 1 else 0 }
  | _ => l

def report (l : Ledger) (mem : Bool) : Option Result → Ledger
  | none => l
  | some r =>
    if mem then { l with reports := ⟨r, l.heard⟩ :: l.reports } else { l with lost := l.lost + 1 }

end Ledger

structure Sys where
  mlme : Mlme := {}
  ledger : Ledger := {}
  deriving DecidableEq

/-- An event, and whether there is memory for a report. The timer fires only if it is
pending. -/
def step (s : Sys) (e : Event × Bool) : Sys :=
  if e.1 = .timer ∧ s.mlme.linkTimer = false then s
  else
    let h := s.mlme.handle e.2 e.1
    ⟨h.1, ((s.ledger.listen e.1).count s.mlme e.1).report e.2 h.2⟩

/-! ## Every join is answered -/

inductive Phase where
  | idle
  | waiting
  | authenticating
  | associating
  | associated
  | adhoc
  deriving DecidableEq

namespace Phase

def state : Phase → FwState
  | .idle => {}
  | .waiting => { hw := .station, authNull := true }
  | .authenticating => { hw := .station, authState := true }
  | .associating => { hw := .station, authSuccess := true, assocState := true }
  | .associated => { hw := .station, authSuccess := true, assocSuccess := true }
  | .adhoc => { hw := .adhoc }

def linking : Phase → Bool
  | .waiting | .authenticating | .associating => true
  | _ => false

def Waits (p : Phase) (m : Mlme) (l : Ledger) : Prop :=
  match p with
  | .waiting => l.expiries = 0
  | .authenticating => l.heard.beacon = true ∧ l.expiries ≤ m.reauthCount ∧
      m.reauthCount ≤ reauthLimit ∧ m.reassocCount = 0
  | .associating => l.heard.beacon = true ∧ l.heard.auth = true ∧
      l.expiries ≤ m.reauthCount + m.reassocCount ∧ m.reauthCount ≤ reauthLimit ∧
      m.reassocCount ≤ reassocLimit
  | _ => True

end Phase

def Ledger.answered (l : Ledger) : ℕ := l.reports.length + l.lost + l.dropped + l.unanswered

/-- A success stands for a network of its own or follows a beacon, an authentication and an
association that was granted. -/
def Report.Honest (r : Report) : Prop :=
  0 < r.result.res → r.result.res ≤ 2007 ∧ r.result.status = 0 ∧
    (r.heard.adhoc = true ∨ r.heard.beacon = true ∧ r.heard.auth = true)

structure Inv (s : Sys) (p : Phase) : Prop where
  state : s.mlme.state = p.state
  armed : p.linking = true → s.mlme.linkTimer = true
  counted : s.ledger.joins = s.ledger.answered + p.linking.toNat
  waits : p.Waits s.mlme s.ledger
  honest : ∀ r ∈ s.ledger.reports, r.Honest

structure Sound (s : Sys) : Prop where
  armed : s.mlme.linking = true → s.mlme.linkTimer = true
  counted : s.ledger.joins = s.ledger.answered + s.mlme.linking.toNat
  bounded : s.mlme.linking = true → s.ledger.expiries ≤ reauthLimit + reassocLimit
  honest : ∀ r ∈ s.ledger.reports, r.Honest

/-- A network that is neither of an access point nor a peer-to-peer one does not get in the
way of a join, and an abort does not come after it. -/
def Clean (s : Sys) (e : Event × Bool) : Prop :=
  match e.1 with
  | .join net => net.reached = true → (net.ess || net.ibss) = true ∨ s.mlme.linking = false
  | .timer => s.mlme.linkTimer = true → s.mlme.joinAbort = true →
      s.mlme.state = {} ∨ s.mlme.linking = true
  | _ => True

section Steps

variable {s : Sys} {p : Phase} {m m' : Mlme} {l l' : Ledger} {mem : Bool} {r : Option Result}

theorem linking_eq (h : m.state = p.state) : m.linking = p.linking := by
  rw [Mlme.linking, h]
  cases p <;> rfl

theorem Inv.sound (h : Inv s p) : Sound s := by
  have hlink := linking_eq h.state
  refine ⟨fun hl => h.armed (hlink ▸ hl), hlink ▸ h.counted, fun hl => ?_, h.honest⟩
  have hwaits := h.waits
  rw [hlink] at hl
  cases p with
  | idle | associated | adhoc => cases hl
  | waiting =>
    have hzero : s.ledger.expiries = 0 := hwaits
    omega
  | authenticating =>
    obtain ⟨-, hexp, hre, -⟩ := hwaits
    omega
  | associating =>
    obtain ⟨-, -, hexp, hre, hass⟩ := hwaits
    omega

theorem Inv.heard (h : Inv ⟨m, l⟩ p) (hjoins : l'.joins = l.joins)
    (hreports : l'.reports = l.reports) (hlost : l'.lost = l.lost)
    (hdropped : l'.dropped = l.dropped) (hun : l'.unanswered = l.unanswered)
    (hexp : l'.expiries = l.expiries)
    (hbeacon : l.heard.beacon = true → l'.heard.beacon = true)
    (hauth : l.heard.auth = true → l'.heard.auth = true) : Inv ⟨m, l'⟩ p := by
  refine ⟨h.state, h.armed, ?_, ?_, hreports ▸ h.honest⟩
  · have hcounted := h.counted
    simp only [Ledger.answered] at hcounted ⊢
    rw [hjoins, hreports, hlost, hdropped, hun, hcounted]
  · have hwaits := h.waits
    cases p with
    | idle | associated | adhoc => trivial
    | waiting => exact hexp.trans hwaits
    | authenticating =>
      obtain ⟨hb, hrest⟩ := hwaits
      refine ⟨hbeacon hb, ?_⟩
      rw [hexp]
      exact hrest
    | associating =>
      obtain ⟨hb, ha, hrest⟩ := hwaits
      refine ⟨hbeacon hb, hauth ha, ?_⟩
      rw [hexp]
      exact hrest

theorem Inv.answer {x : Result} (hstate : m.state = p.state)
    (harmed : p.linking = true → m.linkTimer = true)
    (hcounted : l.joins = l.answered + 1 + p.linking.toNat) (hwaits : p.Waits m l)
    (hhonest : ∀ r ∈ l.reports, r.Honest) (hx : Report.Honest ⟨x, l.heard⟩) :
    Inv ⟨m, l.report mem (some x)⟩ p := by
  cases mem with
  | false =>
    refine ⟨hstate, harmed, ?_, hwaits, hhonest⟩
    simp only [Ledger.report, Ledger.answered, Bool.false_eq_true, if_false] at hcounted ⊢
    omega
  | true =>
    refine ⟨hstate, harmed, ?_, hwaits, ?_⟩
    · simp only [Ledger.report, Ledger.answered, if_true, List.length_cons] at hcounted ⊢
      omega
    · intro r hr
      cases hr with
      | head => exact hx
      | tail _ hr => exact hhonest r hr

theorem failure_honest {x : Result} {hd : Heard} (h : x.res ≤ 0) : Report.Honest ⟨x, hd⟩ :=
  fun hpos => absurd hpos (Int.not_lt.2 h)

theorem Inv.leaveLink (h : Inv s p) :
    ∃ q, Inv ⟨s.mlme.leaveLink, s.ledger⟩ q ∧ s.mlme.leaveLink.linking = s.mlme.linking := by
  rw [Mlme.leaveLink]
  by_cases ha : s.mlme.state.assocSuccess = true
  · rw [if_pos ha]
    have hcounted := h.counted
    cases p with
    | associated =>
      refine ⟨.idle, ⟨rfl, fun hl => (by cases hl), hcounted, trivial, h.honest⟩, ?_⟩
      rw [linking_eq h.state]
      rfl
    | idle | waiting | authenticating | associating | adhoc =>
      rw [h.state] at ha
      cases ha
  · rw [if_neg ha]
    exact ⟨p, h, rfl⟩

theorem Inv.join (h : Inv s p) {net : Network} (hc : Clean s (.join net, mem)) :
    ∃ q, Inv (step s (.join net, mem)) q := by
  obtain ⟨q, hq, hlink⟩ := h.leaveLink
  have hcounted := hq.counted
  have hl := linking_eq hq.state
  have hstep : step s (.join net, mem) = ⟨(s.mlme.joinCmdHdl net).1,
      ((s.ledger.listen (.join net)).count s.mlme (.join net)).report mem
        (s.mlme.joinCmdHdl net).2⟩ := rfl
  have hclean : net.reached = true → (net.ess || net.ibss) = true ∨ s.mlme.linking = false := hc
  rw [hstep, Mlme.joinCmdHdl, Ledger.listen, Ledger.count]
  rw [← hlink] at hclean ⊢
  generalize s.mlme.leaveLink = m at hq hlink hl hclean
  simp only [Ledger.answered] at hcounted
  by_cases hr : net.reached = true
  · obtain ⟨hmax, hmin, hch⟩ : net.ieLength ≤ maxIeSz ∧ 2 ≤ net.ieLength ∧ net.chOk = true :=
      of_decide_eq_true hr
    have hover : decide (maxIeSz < net.ieLength) = false := decide_eq_false (Nat.not_lt.2 hmax)
    rw [if_neg (Nat.not_lt.2 hmax), if_neg (Nat.not_lt.2 hmin), if_neg (by rw [hch]; decide),
      Mlme.startClntJoin, Network.started, Network.unanswered, hr, hover, Bool.true_and,
      Bool.false_or, Bool.true_and]
    by_cases hess : net.ess = true
    · rw [if_pos hess, hess]
      refine ⟨.waiting, rfl, fun _ => rfl, ?_, rfl, hq.honest⟩
      have hone : Phase.waiting.linking = true := rfl
      rw [hone, hl]
      cases hlq : q.linking <;> rw [hlq] at hcounted <;>
        simp [Ledger.report, Ledger.answered] at hcounted ⊢ <;> omega
    · rw [if_neg hess, Bool.eq_false_iff.2 hess, Bool.false_or]
      by_cases hibss : net.ibss = true
      · rw [if_pos hibss, hibss]
        refine ⟨.adhoc, Inv.answer rfl (fun hl => (by cases hl)) ?_ trivial hq.honest ?_⟩
        · have hzero : Phase.adhoc.linking = false := rfl
          rw [hzero, hl]
          cases hlq : q.linking <;> rw [hlq] at hcounted <;>
            simp [Ledger.answered] at hcounted ⊢ <;> omega
        · intro _
          exact ⟨show (1 : ℤ) ≤ 2007 by decide, rfl, .inl rfl⟩
      · have hnot : q.linking = false := by
          have hor := hclean hr
          rw [Bool.eq_false_iff.2 hess, Bool.eq_false_iff.2 hibss, hl] at hor
          exact hor.resolve_left (by decide)
        rw [if_neg hibss, Bool.eq_false_iff.2 hibss]
        refine ⟨q, hq.state, fun hl => absurd hl (by rw [hnot]; decide), ?_, ?_, hq.honest⟩
        · simp [Ledger.report, Ledger.answered] at hcounted ⊢
          omega
        · have hwaits := hq.waits
          cases q with
          | idle | associated | adhoc => trivial
          | waiting | authenticating | associating => cases hnot
  · rw [Network.started, Network.unanswered, Bool.eq_false_iff.2 hr]
    by_cases hmax : maxIeSz < net.ieLength
    · rw [if_pos hmax, decide_eq_true hmax]
      refine ⟨q, hq.state, hq.armed, ?_, hq.waits, hq.honest⟩
      simp [Ledger.report, Ledger.answered] at hcounted ⊢
      omega
    · have hshort : net.ieLength < 2 ∨ net.chOk = false := by
        by_contra hnot
        obtain ⟨hmin, hch⟩ := not_or.1 hnot
        exact hr (decide_eq_true
          ⟨Nat.not_lt.1 hmax, Nat.not_lt.1 hmin, Bool.not_eq_false _ ▸ hch⟩)
      have hfail : ∀ x : Mlme × Option Result,
          (if net.ieLength < 2 then (m, some ⟨-4, wlanStatusUnspecifiedFailure⟩)
          else if net.chOk = false then (m, some ⟨-4, wlanStatusUnspecifiedFailure⟩) else x) =
            (m, some ⟨-4, wlanStatusUnspecifiedFailure⟩) := by
        intro x
        split_ifs with hmin hch
        · rfl
        · rfl
        · exact absurd hshort (not_or.2 ⟨hmin, hch⟩)
      rw [if_neg hmax, decide_eq_false hmax, hfail]
      refine ⟨q, Inv.answer hq.state hq.armed ?_ hq.waits hq.honest ?_⟩
      · simp [Ledger.answered] at hcounted ⊢
        omega
      · exact failure_honest (show (-4 : ℤ) ≤ 0 by decide)

theorem Inv.disconnect (h : Inv s p) : Inv (step s (.disconnect, mem)) .idle := by
  have hcounted := h.counted
  have hl := linking_eq h.state
  have hstep : step s (.disconnect, mem) =
      ⟨s.mlme.disconnect, s.ledger.count s.mlme .disconnect⟩ := rfl
  rw [hstep, Ledger.count, hl]
  refine ⟨rfl, fun hl => (by cases hl), ?_, trivial, h.honest⟩
  have hzero : Phase.idle.linking = false := rfl
  rw [hzero]
  simp only [Ledger.answered] at hcounted ⊢
  cases hp : p.linking <;> rw [hp] at hcounted <;> simp at hcounted ⊢ <;> omega

theorem Inv.rearm (h : Inv ⟨m, l⟩ p) (hstate : m'.state = m.state) (harmed : m'.linkTimer = true)
    (hre : m'.reauthCount = m.reauthCount) (hass : m'.reassocCount = m.reassocCount) :
    Inv ⟨m', l⟩ p := by
  refine ⟨hstate.trans h.state, fun _ => harmed, h.counted, ?_, h.honest⟩
  have hwaits := h.waits
  cases p with
  | idle | associated | adhoc => trivial
  | waiting => exact hwaits
  | authenticating =>
    simp only [Phase.Waits, hre, hass]
    exact hwaits
  | associating =>
    simp only [Phase.Waits, hre, hass]
    exact hwaits

theorem Inv.abortEnd (h : Inv s p) : Inv (step s (.abortEnd, mem)) p := by
  refine ⟨h.state, h.armed, h.counted, ?_, h.honest⟩
  have hwaits := h.waits
  cases p with
  | idle | associated | adhoc => trivial
  | waiting | authenticating | associating => exact hwaits

theorem Inv.beacon (h : Inv s p) : ∃ q, Inv (step s (.beacon, mem)) q := by
  have hheard : Inv ⟨s.mlme, s.ledger.listen .beacon⟩ p :=
    h.heard rfl rfl rfl rfl rfl rfl (fun _ => rfl) id
  have hstep : step s (.beacon, mem) = ⟨s.mlme.onBeacon, s.ledger.listen .beacon⟩ := rfl
  rw [hstep, Mlme.onBeacon]
  split_ifs with hnull habort
  · exact ⟨p, hheard.rearm rfl rfl rfl rfl⟩
  · have hp : p = .waiting := by
      rw [h.state] at hnull
      cases p with
      | waiting => rfl
      | idle | authenticating | associating | associated | adhoc => cases hnull
    subst hp
    have hexp : s.ledger.expiries = 0 := h.waits
    refine ⟨.authenticating, ?_, fun _ => rfl, hheard.counted,
      ⟨rfl, Nat.le_of_eq hexp, Nat.zero_le _, rfl⟩, h.honest⟩
    rw [Mlme.startClntAuth, h.state]
    rfl
  · exact ⟨p, hheard⟩

theorem Inv.startAssoc (h : Inv ⟨m, l⟩ .authenticating) (hauth : l.heard.auth = true) :
    Inv ⟨m.startClntAssoc, l⟩ .associating := by
  obtain ⟨hbeacon, hexp, hre, hass⟩ := h.waits
  have hstate : m.state = Phase.authenticating.state := h.state
  refine ⟨?_, fun _ => rfl, h.counted, ⟨hbeacon, hauth, ?_, hre, ?_⟩, h.honest⟩
  · rw [Mlme.startClntAssoc, hstate]
    rfl
  · exact Nat.le_trans hexp (Nat.le_add_right _ _)
  · exact Nat.le_trans (Nat.le_of_eq hass) (Nat.zero_le _)

theorem Inv.auth (h : Inv s p) (f : AuthFrame) : ∃ q, Inv (step s (.auth f, mem)) q := by
  have hheard : Inv ⟨s.mlme, s.ledger.listen (.auth f)⟩ p := by
    rw [Ledger.listen]
    split_ifs
    · exact h.heard rfl rfl rfl rfl rfl rfl id (fun _ => rfl)
    · exact h
  have hstep : step s (.auth f, mem) = ⟨s.mlme.onAuthClient f, s.ledger.listen (.auth f)⟩ := rfl
  rw [hstep, Mlme.onAuthClient]
  by_cases hme : f.toMe = false
  · rw [if_pos hme]
    exact ⟨p, hheard⟩
  · rw [if_neg hme]
    by_cases hoff : s.mlme.state.authState = false ∨ s.mlme.joinAbort = true
    · rw [if_pos hoff]
      exact ⟨p, hheard⟩
    · obtain ⟨hstate, -⟩ := not_or.1 hoff
      have hp : p = .authenticating := by
        rw [h.state] at hstate
        cases p with
        | authenticating => rfl
        | idle | waiting | associating | associated | adhoc => exact absurd rfl hstate
      subst hp
      rw [if_neg hoff]
      by_cases hstatus : f.status ≠ 0
      · rw [if_pos hstatus]
        exact ⟨_, hheard.rearm rfl rfl rfl rfl⟩
      · have hok : f.seq = 2 ∨ f.seq = 4 → (s.ledger.listen (.auth f)).heard.auth = true := by
          intro hseq
          rw [Ledger.listen, if_pos ⟨(Bool.eq_false_or_eq_true _).resolve_right hme,
            not_not.1 hstatus, hseq⟩]
        rw [if_neg hstatus]
        split_ifs with h2 hsh hch h4 hsh
        · exact ⟨_, hheard.rearm rfl rfl rfl rfl⟩
        · exact ⟨_, hheard⟩
        · exact ⟨_, hheard.startAssoc (hok (.inl h2))⟩
        · exact ⟨_, hheard.startAssoc (hok (.inr h4))⟩
        · exact ⟨_, hheard⟩
        · exact ⟨_, hheard⟩

theorem Inv.finish {x : Result} (h : Inv ⟨m, l⟩ p) (hp : p.linking = true) {q : Phase}
    (hstate : m'.state = q.state) (hq : q.linking = false) (hx : Report.Honest ⟨x, l.heard⟩) :
    Inv ⟨m', l.report mem (some x)⟩ q := by
  refine Inv.answer hstate (fun hl => absurd hl (by rw [hq]; decide)) ?_ ?_ h.honest hx
  · have hcounted : l.joins = l.answered + p.linking.toNat := h.counted
    rw [hcounted, hp, hq]
    rfl
  · cases q with
    | idle | associated | adhoc => trivial
    | waiting | authenticating | associating => cases hq

theorem Inv.assocRsp (h : Inv s p) (f : AssocRsp) : ∃ q, Inv (step s (.assocRsp f, mem)) q := by
  have hstep : step s (.assocRsp f, mem) =
      ⟨(s.mlme.onAssocRsp f).1, s.ledger.report mem (s.mlme.onAssocRsp f).2⟩ := rfl
  rw [hstep, Mlme.onAssocRsp]
  by_cases hme : f.toMe = false
  · rw [if_pos hme]
    exact ⟨p, h⟩
  · rw [if_neg hme]
    by_cases hoff : (s.mlme.state.authSuccess || s.mlme.state.assocState) = false ∨
        s.mlme.joinAbort = true
    · rw [if_pos hoff]
      exact ⟨p, h⟩
    · rw [if_neg hoff]
      obtain ⟨hstate, -⟩ := not_or.1 hoff
      by_cases hdone : s.mlme.state.assocSuccess = true
      · rw [if_pos hdone]
        exact ⟨p, h⟩
      · have hp : p = .associating := by
          rw [h.state] at hstate hdone
          cases p with
          | associating => rfl
          | associated => exact absurd rfl hdone
          | idle | waiting | authenticating | adhoc => exact absurd rfl hstate
        subst hp
        obtain ⟨hbeacon, hauth, -⟩ := h.waits
        rw [if_neg hdone]
        dsimp only
        split_ifs with hstatus haid
        · exact ⟨.idle, h.finish rfl rfl rfl (failure_honest (show (-4 : ℤ) ≤ 0 by decide))⟩
        · exact ⟨.idle, h.finish rfl rfl rfl (failure_honest (show (-4 : ℤ) ≤ 0 by decide))⟩
        · refine ⟨.associated, h.finish rfl ?_ rfl ?_⟩
          · simp only [h.state]
            rfl
          · intro _
            refine ⟨?_, Nat.eq_zero_of_not_pos hstatus, .inr ⟨hbeacon, hauth⟩⟩
            simp only
            omega

theorem Inv.receiveDisconnect (h : Inv s p) (reason : ℕ) :
    ∃ q, Inv ⟨(s.mlme.receiveDisconnect reason mem).1,
      s.ledger.report mem (s.mlme.receiveDisconnect reason mem).2⟩ q := by
  rw [Mlme.receiveDisconnect]
  by_cases hhw : s.mlme.state.hw = .station
  · rw [if_pos hhw]
    by_cases hdone : s.mlme.state.assocSuccess = true
    · have hp : p = .associated := by
        rw [h.state] at hdone
        cases p with
        | associated => rfl
        | idle | waiting | authenticating | associating | adhoc => cases hdone
      subst hp
      rw [if_pos hdone]
      cases mem with
      | false => exact ⟨_, h⟩
      | true => exact ⟨.idle, rfl, fun hl => (by cases hl), h.counted, trivial, h.honest⟩
    · rw [if_neg hdone]
      by_cases hlinking : s.mlme.state.linkingState = true
      · have hp : p.linking = true := by
          rw [h.state] at hdone hlinking
          cases p with
          | waiting | authenticating | associating => rfl
          | idle | adhoc => cases hlinking
          | associated => exact absurd rfl hdone
        rw [if_pos hlinking]
        cases mem with
        | false => exact ⟨p, h⟩
        | true =>
          exact ⟨.idle, h.finish hp rfl rfl (failure_honest (show (-2 : ℤ) ≤ 0 by decide))⟩
      · rw [if_neg hlinking]
        exact ⟨p, h⟩
  · rw [if_neg hhw]
    exact ⟨p, h⟩

theorem Inv.deauth (h : Inv s p) (reason : ℕ) : ∃ q, Inv (step s (.deauth reason, mem)) q := by
  have hstep : step s (.deauth reason, mem) = ⟨(s.mlme.onDeAuth reason mem).1,
      s.ledger.report mem (s.mlme.onDeAuth reason mem).2⟩ := rfl
  rw [hstep, Mlme.onDeAuth]
  split_ifs
  · exact ⟨p, h⟩
  · exact h.receiveDisconnect reason

theorem Inv.retry (h : Inv s p) (hoff : ¬ (s.mlme.joinAbort = true ∧ s.mlme.state ≠ {})) :
    ∃ q, Inv ⟨({ s.mlme with linkTimer := false } : Mlme).linkTimerHdl.1,
      ({ s.ledger with expiries := s.ledger.expiries + 1 } : Ledger).report mem
        ({ s.mlme with linkTimer := false } : Mlme).linkTimerHdl.2⟩ q := by
  have hstate := h.state
  have hwaits := h.waits
  have hquiet : p.linking = false → Inv ⟨{ s.mlme with linkTimer := false },
      { s.ledger with expiries := s.ledger.expiries + 1 }⟩ p := by
    intro hp
    refine ⟨hstate, fun hl => absurd hl (by rw [hp]; decide), h.counted, ?_, h.honest⟩
    cases p with
    | idle | associated | adhoc => trivial
    | waiting | authenticating | associating => cases hp
  rw [Mlme.linkTimerHdl, if_neg hoff]
  cases p with
  | idle | associated | adhoc =>
    have hnull : ¬ s.mlme.state.authNull = true := by rw [hstate]; decide
    have hauth : ¬ s.mlme.state.authState = true := by rw [hstate]; decide
    have hassoc : ¬ s.mlme.state.assocState = true := by rw [hstate]; decide
    rw [if_neg hnull, if_neg hauth, if_neg hassoc]
    exact ⟨_, hquiet rfl⟩
  | waiting =>
    have hnull : s.mlme.state.authNull = true := by rw [hstate]; rfl
    rw [if_pos hnull]
    exact ⟨.idle, Inv.answer rfl (fun hl => (by cases hl)) h.counted trivial h.honest
      (failure_honest (show (-3 : ℤ) ≤ 0 by decide))⟩
  | authenticating =>
    obtain ⟨hbeacon, hexp, hre, hass⟩ := hwaits
    have hnull : ¬ s.mlme.state.authNull = true := by rw [hstate]; decide
    have hauth : s.mlme.state.authState = true := by rw [hstate]; rfl
    have hend : ∀ (x : Result) (m' : Mlme), x.res = -1 → m'.state = {} →
        Inv ⟨m', ({ s.ledger with expiries := s.ledger.expiries + 1 } : Ledger).report mem
          (some x)⟩ .idle := by
      intro x m' hx hm
      refine Inv.answer hm (fun hl => (by cases hl)) h.counted trivial h.honest (failure_honest ?_)
      rw [hx]
      decide
    rw [if_neg hnull, if_pos hauth]
    dsimp only
    split_ifs with hlimit hstatus
    · exact ⟨.idle, hend _ _ rfl rfl⟩
    · exact ⟨.idle, hend _ _ rfl rfl⟩
    · refine ⟨.authenticating, hstate, fun _ => rfl, h.counted,
        ⟨hbeacon, Nat.succ_le_succ hexp, Nat.not_lt.1 hlimit, hass⟩, h.honest⟩
  | associating =>
    obtain ⟨hbeacon, hheard, hexp, hre, hass⟩ := hwaits
    have hnull : ¬ s.mlme.state.authNull = true := by rw [hstate]; decide
    have hauth : ¬ s.mlme.state.authState = true := by rw [hstate]; decide
    have hassoc : s.mlme.state.assocState = true := by rw [hstate]; rfl
    rw [if_neg hnull, if_neg hauth, if_pos hassoc]
    dsimp only
    split_ifs with hlimit
    · exact ⟨.idle, Inv.answer rfl (fun hl => (by cases hl)) h.counted trivial h.honest
        (failure_honest (show (-2 : ℤ) ≤ 0 by decide))⟩
    · refine ⟨.associating, hstate, fun _ => rfl, h.counted,
        ⟨hbeacon, hheard, Nat.succ_le_succ hexp, hre, Nat.not_lt.1 hlimit⟩, h.honest⟩

theorem Inv.timer (h : Inv s p) (hc : Clean s (.timer, mem)) :
    ∃ q, Inv (step s (.timer, mem)) q := by
  by_cases hpending : s.mlme.linkTimer = true
  · have hstep : step s (.timer, mem) = ⟨({ s.mlme with linkTimer := false } : Mlme).linkTimerHdl.1,
        ({ s.ledger with expiries := s.ledger.expiries + 1 } : Ledger).report mem
          ({ s.mlme with linkTimer := false } : Mlme).linkTimerHdl.2⟩ := by
      rw [step, if_neg (by simp [hpending]), Mlme.handle, if_pos hpending]
      rfl
    rw [hstep]
    by_cases habort : s.mlme.joinAbort = true ∧ s.mlme.state ≠ {}
    · have hlink : s.mlme.linking = true := (hc hpending habort.1).resolve_left habort.2
      have hcounted := h.counted
      rw [← linking_eq h.state, hlink] at hcounted
      rw [Mlme.linkTimerHdl, if_pos habort]
      exact ⟨.idle, Inv.answer rfl (fun hl => (by cases hl)) hcounted trivial h.honest
        (failure_honest (show (-4 : ℤ) ≤ 0 by decide))⟩
    · exact h.retry habort
  · rw [step, if_pos ⟨rfl, Bool.eq_false_iff.2 hpending⟩]
    exact ⟨p, h⟩

theorem Inv.kept (h : Inv s p) {e : Event × Bool} (hc : Clean s e) : ∃ q, Inv (step s e) q := by
  obtain ⟨e, mem⟩ := e
  cases e with
  | join net => exact h.join hc
  | beacon => exact h.beacon
  | auth f => exact h.auth f
  | assocRsp f => exact h.assocRsp f
  | deauth reason => exact h.deauth reason
  | disassoc reason => exact h.receiveDisconnect reason
  | timer => exact h.timer hc
  | abort => exact ⟨p, h.rearm rfl rfl rfl rfl⟩
  | abortEnd => exact ⟨p, h.abortEnd⟩
  | disconnect => exact ⟨.idle, h.disconnect⟩

/-- Without the condition the timer is lost, or a report is made for no join. -/
theorem Inv.clean (h : Inv s p) {e : Event × Bool} (hs : Sound (step s e)) : Clean s e := by
  obtain ⟨e, mem⟩ := e
  cases e with
  | beacon | auth | assocRsp | deauth | disassoc | abort | abortEnd | disconnect => trivial
  | join net =>
    intro hr
    by_contra hnot
    obtain ⟨hnet, hlink⟩ := not_or.1 hnot
    obtain ⟨hess, hibss⟩ := (Bool.or_eq_false_iff.1 (Bool.eq_false_iff.2 hnet))
    obtain ⟨hmax, hmin, hch⟩ : net.ieLength ≤ maxIeSz ∧ 2 ≤ net.ieLength ∧ net.chOk = true :=
      of_decide_eq_true hr
    have hkeep : s.mlme.leaveLink = s.mlme := by
      rw [Mlme.leaveLink, if_neg]
      intro hdone
      exact hlink (by rw [Mlme.linking, hdone, Bool.not_true, Bool.and_false])
    have hstep : (step s (.join net, mem)).mlme = { s.mlme with linkTimer := false } := by
      have hmlme : (step s (.join net, mem)).mlme = (s.mlme.joinCmdHdl net).1 := rfl
      rw [hmlme, Mlme.joinCmdHdl, hkeep]
      simp only
      rw [if_neg (Nat.not_lt.2 hmax), if_neg (Nat.not_lt.2 hmin), if_neg (by rw [hch]; decide),
        Mlme.startClntJoin, if_neg (by rw [hess]; decide), if_neg (by rw [hibss]; decide)]
    have harmed := hs.armed
    rw [hstep] at harmed
    cases harmed ((Bool.not_eq_false _).mp hlink)
  | timer =>
    intro hpending habort
    by_contra hnot
    obtain ⟨hstate, hlink⟩ := not_or.1 hnot
    have hstep : step s (.timer, mem) = ⟨{ s.mlme with linkTimer := false, state := {} },
        ({ s.ledger with expiries := s.ledger.expiries + 1 } : Ledger).report mem
          (some ⟨-4, wlanStatusUnspecifiedFailure⟩)⟩ := by
      rw [step, if_neg (by simp [hpending]), Mlme.handle, if_pos hpending, Mlme.linkTimerHdl,
        if_pos ⟨habort, hstate⟩]
      rfl
    have hcounted := h.counted
    have hafter := hs.counted
    rw [← linking_eq h.state, Bool.eq_false_iff.2 hlink] at hcounted
    rw [hstep] at hafter
    cases mem <;>
      simp [Ledger.report, Ledger.answered, Mlme.linking, FwState.linkingState]
        at hcounted hafter <;> omega

end Steps

instance decidableClean (s : Sys) : ∀ e, Decidable (Clean s e)
  | (.join net, _) => inferInstanceAs
      (Decidable (net.reached = true → (net.ess || net.ibss) = true ∨ s.mlme.linking = false))
  | (.timer, _) => inferInstanceAs (Decidable (s.mlme.linkTimer = true → s.mlme.joinAbort = true →
      s.mlme.state = {} ∨ s.mlme.linking = true))
  | (.beacon, _) | (.auth _, _) | (.assocRsp _, _) | (.deauth _, _) | (.disassoc _, _)
  | (.abort, _) | (.abortEnd, _) | (.disconnect, _) => inferInstanceAs (Decidable True)

/-- Shared key authentication after it was refused in the open, and an association that had
to be asked for twice; later the network goes away. -/
def visit : List (Event × Bool) :=
  [(.join ⟨100, true, false, true⟩, true), (.beacon, true), (.auth ⟨true, 2, 13, false⟩, true),
    (.timer, true), (.auth ⟨true, 2, 0, true⟩, true), (.auth ⟨true, 4, 0, false⟩, true),
    (.timer, true), (.assocRsp ⟨true, 0, 0xc001⟩, true), (.deauth 6, true),
    (.join ⟨100, true, false, true⟩, true), (.disconnect, true)]

example : Along step Clean {} visit ∧
    (run step {} visit).ledger.reports = [⟨⟨1, 0⟩, ⟨true, true, false⟩⟩] := by
  decide +kernel

end Rtl8189.ClientJoin
