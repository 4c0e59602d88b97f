import Mathlib.Data.List.Nodup
import Rtl8189.EventRun

/-!
# Remaining on a channel

A request to remain on a channel writes its cookie, its device and the channel to come
back to into one record, and queues a command that changes the channel and starts a
timer. The timer, a cancelling call and the next request queue a command that ends what
the record says at the moment it is executed.
-/
namespace Rtl8189.RemainOnChannel

open EventRun

/-- `P2P_STATE_NONE`, `P2P_STATE_IDLE`, `P2P_STATE_LISTEN` and the states behind them. -/
inductive P2pState where
  | none
  | idle
  | listen
  | other (n : ℕ)
  deriving DecidableEq

structure Req where
  wdev : ℕ
  ch : ℕ
  cookie : ℕ
  /-- Another request was outstanding when this one came. -/
  overlaps : Bool := false
  deriving DecidableEq

/-- Where the thread stands that calls into cfg80211; it makes one call at a time. -/
inductive Pc where
  | idle
  | remain (r : Req)
  | remainCancelling (r : Req)
  | remainSetup (r : Req)
  | remainWait (r : Req)
  | remainReady (r : Req)
  | cancel (wdev cookie : ℕ)
  | cancelWait
  deriving DecidableEq

def Pc.acked : Pc → Pc
  | .remainCancelling r => .remainSetup r
  | .remainWait r => .remainReady r
  | .cancelWait => .idle
  | pc => pc

/-- Who asked for the end, with the cookie the timer was set for or the caller named. -/
inductive Origin where
  | timer (cookie : ℕ)
  | call (cookie : ℕ)
  | request
  deriving DecidableEq

/-- `P2P_RO_CH_WK` and `P2P_CANCEL_RO_CH_WK`; with `acks` the caller waits. -/
inductive Cmd where
  | roch (r : Req) (acks : Bool)
  | cancel (origin : Origin) (acks : Bool)
  deriving DecidableEq

/-- Nobody waits any more. -/
def Cmd.unacked : Cmd → Cmd
  | .roch r _ => .roch r false
  | .cancel origin _ => .cancel origin false

inductive Kind where
  | ready
  | expired
  deriving DecidableEq

structure Report where
  kind : Kind
  wdev : Option ℕ
  cookie : ℕ
  deriving DecidableEq

/-- `cancel_ro_ch_handler` between the end it makes and the report of it. -/
structure Handler where
  wdev : Option ℕ
  acks : Bool
  deriving DecidableEq

/-- What does not change: the channels that are allowed, the channel of the links there
are, and whether a link or a handshake keeps the radio where it is. -/
structure Env where
  chset : List ℕ
  pos : 0 ∉ chset
  /-- `rtw_mi_get_ch_setting_union` -/
  chSettingUnion : Option ℕ
  /-- `roch_stay_in_cur_chan`, with `rtw_mi_get_union_chan` -/
  stayInCurChan : Option ℕ
  linked : Bool

structure State where
  roChCookieGen : ℕ := 0
  isRoch : Bool := false
  roChWdev : Option ℕ := none
  remainOnChCookie : ℕ := 0
  restoreChannel : ℕ := 0
  /-- `remain_on_ch_timer`, with the cookie it was set for. -/
  timer : Option ℕ := none
  operCh : ℕ
  listenChannel : ℕ
  p2pEnabled : Bool
  p2pState : P2pState
  preP2pState : P2pState
  cmdQueue : List Cmd := []
  handler : Option Handler := none
  pc : Pc := .idle
  log : List Report := []
  /-- The cookies whose settings were written, and those returned with 0. -/
  begun : List ℕ := []
  returned : List ℕ := []
  ended : List (ℕ × Origin) := []
  /-- Channel and P2P state before the first of the overlapping requests. -/
  baseCh : ℕ := 0
  baseP2p : P2pState := .none

namespace State

/-- `_p2p_roch_cmd`, where there is memory and the queue takes the command. -/
def enqueue (s : State) (cmd : Cmd) : State := { s with cmdQueue := s.cmdQueue ++ [cmd] }

def ack (s : State) : State := { s with pc := s.pc.acked }

def ackIf (s : State) (acks : Bool) : State := if acks then s.ack else s

/-- The P2P part of `cfg80211_rtw_remain_on_channel`; `recent` says that the probe
response elements were set less than 50 ms ago. `rtw_p2p_enable` writes `LISTEN` to both
states. -/
def listen (s : State) (ch : ℕ) (recent : Bool) : State :=
  if s.p2pState = .none then
    { s with p2pEnabled := true, listenChannel := ch, preP2pState := .listen, p2pState := .listen }
  else if s.p2pState = .listen ∧ recent then { s with listenChannel := ch }
  else { s with preP2pState := s.p2pState, p2pState := .listen }

def setRoch (s : State) (r : Req) : State :=
  { s with
    isRoch := true
    roChWdev := some r.wdev
    remainOnChCookie := r.cookie
    restoreChannel := s.operCh
    begun := s.begun ++ [r.cookie] }

/-- Channel and P2P state are noted, unless the request came over another one; then the
idle device state stands for no P2P. -/
def note (s : State) (r : Req) : State :=
  if r.overlaps then s
  else
    { s with
      baseCh := s.operCh
      baseP2p := if s.p2pState = .none then .idle else s.p2pState }

/-- The next step of the caller; `ok` says that the command is allocated and enqueued. -/
def caller (s : State) (ok recent : Bool) : State :=
  match s.pc with
  | .remain r =>
    if s.isRoch then
      let r := { r with overlaps := true }
      let s := { s with timer := none }
      if ok then { s.enqueue (.cancel .request true) with pc := .remainCancelling r }
      else { s with pc := .remainSetup r }
    else { s with pc := .remainSetup r }
  | .remainSetup r =>
    let s := ((s.note r).listen r.ch recent).setRoch r
    if ok then { s.enqueue (.roch r true) with pc := .remainWait r }
    else { s with pc := .remainReady r }
  | .remainReady r =>
    { s with
      log := s.log ++ [⟨.ready, some r.wdev, r.cookie⟩]
      returned := s.returned ++ [r.cookie]
      pc := .idle }
  | .cancel _ cookie =>
    if s.isRoch then
      let s := { s with timer := none }
      if ok then { s.enqueue (.cancel (.call cookie) true) with pc := .cancelWait }
      else { s with pc := .idle }
    else { s with pc := .idle }
  | _ => s

/-- `ro_ch_timer_process` -/
def timerFires (s : State) (ok : Bool) : State :=
  match s.timer with
  | none => s
  | some cookie =>
    let s := { s with timer := none }
    if ok then s.enqueue (.cancel (.timer cookie) false) else s

def roChHandler (e : Env) (s : State) (r : Req) : State :=
  if s.isRoch = false then s
  else
    let remainCh := e.stayInCurChan.getD r.ch
    { s with
      operCh := if remainCh ≠ s.operCh ∧ e.linked = false then remainCh else s.operCh
      timer := some r.cookie }

def backCh (e : Env) (s : State) (restore : ℕ) : ℕ :=
  e.chSettingUnion.getD (if s.p2pEnabled ∧ s.listenChannel ≠ 0 then s.listenChannel else restore)

/-- `cancel_ro_ch_handler` up to the flag. -/
def cancelRoChBegin (e : Env) (s : State) (origin : Origin) (acks : Bool) : State :=
  { s with
    operCh := s.backCh e s.restoreChannel
    p2pState := s.preP2pState
    isRoch := false
    handler := some ⟨s.roChWdev, acks⟩
    ended := s.ended ++ [(s.remainOnChCookie, origin)] }

/-- The rest of it, with the cookie that stands in the record now. -/
def cancelRoChEnd (s : State) (h : Handler) : State :=
  ackIf { s with
    roChWdev := none
    handler := none
    log := s.log ++ [⟨.expired, h.wdev, s.remainOnChCookie⟩] } h.acks

def cmdThread (e : Env) (s : State) : State :=
  match s.handler, s.cmdQueue with
  | some h, _ => s.cancelRoChEnd h
  | none, [] => s
  | none, .roch r acks :: q => (roChHandler e { s with cmdQueue := q } r).ackIf acks
  | none, .cancel origin acks :: q =>
    let s := { s with cmdQueue := q }
    if s.isRoch then s.cancelRoChBegin e origin acks else s.ackIf acks

/-- `rtw_sctx_wait` gives up. -/
def timedOut (s : State) : State :=
  { s.ack with
    cmdQueue := s.cmdQueue.map Cmd.unacked
    handler := s.handler.map fun h => { h with acks := false } }

end State

inductive Event where
  /-- `up`: the device is not in MP mode, and it wakes up. -/
  | remain (wdev ch : ℕ) (up : Bool)
  | cancel (wdev cookie : ℕ)
  | caller (ok recent : Bool)
  | timerFires (ok : Bool)
  | cmdThread
  | timedOut

def step (e : Env) (s : State) : Event → State
  | .remain wdev ch up =>
    if s.pc = .idle then
      let cookie := s.roChCookieGen + 1
      let s := { s with roChCookieGen := cookie }
      if ch ∈ e.chset ∧ up then { s with pc := .remain { wdev, ch, cookie } } else s
    else s
  | .cancel wdev cookie => if s.pc = .idle then { s with pc := .cancel wdev cookie } else s
  | .caller ok recent => s.caller ok recent
  | .timerFires ok => s.timerFires ok
  | .cmdThread => s.cmdThread e
  | .timedOut => s.timedOut

/-! ## What a request can rely on -/

def reportsOf (c : ℕ) (log : List Report) : List Kind :=
  (log.filter (·.cookie = c)).map (·.kind)

def Origin.Ends (c : ℕ) : Origin → Prop
  | .timer k => k = c
  | .call k => k = c
  | .request => True

instance (c : ℕ) : (o : Origin) → Decidable (o.Ends c)
  | .timer k => inferInstanceAs (Decidable (k = c))
  | .call k => inferInstanceAs (Decidable (k = c))
  | .request => inferInstanceAs (Decidable True)

def Cmd.Ends (c : ℕ) : Cmd → Prop
  | .roch _ _ => False
  | .cancel o _ => o.Ends c

instance (c : ℕ) : (cmd : Cmd) → Decidable (cmd.Ends c)
  | .roch _ _ => inferInstanceAs (Decidable False)
  | .cancel o _ => inferInstanceAs (Decidable (o.Ends c))

namespace State

def endedCookies (s : State) : List ℕ := s.ended.map (·.1)

def Outstanding (s : State) (c : ℕ) : Prop := c ∈ s.begun ∧ c ∉ s.endedCookies

instance (s : State) (c : ℕ) : Decidable (s.Outstanding c) := inferInstanceAs (Decidable (_ ∧ _))

structure Sound (e : Env) (s : State) : Prop where
  silent : ∀ c ∉ s.returned, reportsOf c s.log = []
  /-- Until the handler is through with it, an ended request is not reported. -/
  reported : ∀ c ∈ s.returned,
    reportsOf c s.log = [.ready, .expired] ∧ ¬ s.Outstanding c ∨
      reportsOf c s.log = [.ready] ∧ (s.Outstanding c ∨ s.handler.isSome)
  ends : ∀ p ∈ s.ended, p.2.Ends p.1
  onItsWay : ∀ c ∈ s.returned, s.Outstanding c →
    s.timer = some c ∨ ∃ cmd ∈ s.cmdQueue, cmd.Ends c
  flag : s.isRoch = true ↔ ∃ c, s.Outstanding c
  single : ∀ c d, s.Outstanding c → s.Outstanding d → c = d
  back : s.ended ≠ [] → s.isRoch = false →
    s.operCh = s.backCh e s.baseCh ∧ s.p2pState = s.baseP2p

end State

/-! ## Where the commands stand -/

namespace Pc

def coming : Pc → Option Req
  | remain r | remainCancelling r | remainSetup r => some r
  | _ => none

def preparing : Pc → Option Req
  | remainWait r | remainReady r => some r
  | _ => none

def Waits : Pc → Prop
  | remainCancelling _ | remainWait _ | cancelWait => True
  | _ => False

instance : DecidablePred Waits := fun pc => by
  unfold Waits
  split <;> infer_instance

end Pc

/-- The condition on a step: commands are enqueued, a cancelling call names the cookie of
the record, settings are written with P2P on and while no handler is about to report, no
request is ended before it is reported ready, and no wait is given up. -/
def Ok (s : State) : Event → Prop
  | .caller ok recent =>
    match s.pc with
    | .remain _ => s.isRoch = true → ok = true
    | .remainSetup _ => ok = true ∧ s.handler = none ∧ s.p2pState ≠ .none ∧
        (s.p2pState = .listen → recent = true → s.preP2pState = .listen)
    | .cancel _ cookie => s.isRoch = true → ok = true ∧ cookie = s.remainOnChCookie
    | _ => True
  | .timerFires ok => s.timer.isSome = true → ok = true
  | .cmdThread =>
    match s.cmdQueue with
    | .cancel _ _ :: _ => s.isRoch = true → s.pc.preparing = none
    | _ => True
  | .timedOut => ¬ s.pc.Waits
  | _ => True

instance (s : State) (ev : Event) : Decidable (Ok s ev) := by
  unfold Ok
  split <;> try infer_instance
  · split <;> infer_instance
  · split <;> infer_instance

namespace State

/-- Its timer runs, or the command is queued that the timer asked for. -/
def AtRest (s : State) : Prop :=
  if s.isRoch then
    s.timer = some s.remainOnChCookie ∧ s.cmdQueue = [] ∨
      s.timer = none ∧ s.cmdQueue = [.cancel (.timer s.remainOnChCookie) false]
  else s.timer = none ∧ s.cmdQueue = []

def acks (s : State) : Bool := s.handler.any (·.acks)

/-- A caller waits for the command `.cancel o true`; that of the timer may be before it. -/
def Cancelling (s : State) : Prop :=
  s.timer = none ∧
    (s.acks = true ∧ s.cmdQueue = [] ∨
      s.acks = false ∧ ∃ o, (s.isRoch = true → o.Ends s.remainOnChCookie) ∧
        (s.cmdQueue = [.cancel o true] ∨ s.isRoch = true ∧
          s.cmdQueue = [.cancel (.timer s.remainOnChCookie) false, .cancel o true]))

def Course (s : State) : Prop :=
  match s.pc with
  | .idle | .remain _ | .cancel _ _ => s.AtRest ∧ s.acks = false
  | .remainCancelling _ | .cancelWait => s.Cancelling
  | .remainSetup _ => s.isRoch = false ∧ s.AtRest ∧ s.acks = false
  | .remainWait r => s.isRoch = true ∧ s.remainOnChCookie = r.cookie ∧ s.timer = none ∧
      s.cmdQueue = [.roch r true]
  | .remainReady r => s.isRoch = true ∧ s.remainOnChCookie = r.cookie ∧ s.AtRest

def Reporting (s : State) (c : ℕ) : Prop := s.handler.isSome = true ∧ c = s.remainOnChCookie

instance (s : State) (c : ℕ) : Decidable (s.Reporting c) := inferInstanceAs (Decidable (_ ∧ _))

structure Inv (e : Env) (s : State) : Prop where
  le : ∀ c ∈ s.begun, c ≤ s.roChCookieGen
  nodup : s.begun.Nodup
  coming : ∀ r, s.pc.coming = some r →
    r.cookie ∉ s.begun ∧ r.cookie ≤ s.roChCookieGen ∧ r.ch ≠ 0
  begun : s.begun = s.endedCookies ++ if s.isRoch then [s.remainOnChCookie] else []
  returned : s.begun = s.returned ++ (s.pc.preparing.map (·.cookie)).toList
  log : ∀ c, reportsOf c s.log =
    if c ∈ s.returned then
      .ready :: (if c ∈ s.endedCookies ∧ ¬ s.Reporting c then [.expired] else [])
    else []
  handler : s.handler.isSome = true → s.isRoch = false ∧ s.remainOnChCookie ∈ s.endedCookies
  course : s.Course
  ends : ∀ p ∈ s.ended, p.2.Ends p.1
  base : s.isRoch = true →
    s.preP2pState = s.baseP2p ∧ s.backCh e s.restoreChannel = s.backCh e s.baseCh
  back : s.ended ≠ [] → s.isRoch = false →
    s.operCh = s.backCh e s.baseCh ∧ s.p2pState = s.baseP2p
  overlaps : ∀ r, s.pc.coming = some r → r.overlaps = true → s.isRoch = true ∨ s.ended ≠ []

end State

theorem reportsOf_append (c : ℕ) (log : List Report) (r : Report) :
    reportsOf c (log ++ [r]) = reportsOf c log ++ if r.cookie = c then [r.kind] else [] := by
  rw [reportsOf, List.filter_append, List.map_append]
  by_cases h : r.cookie = c
  · rw [if_pos h, List.filter_singleton, decide_eq_true h]
    rfl
  · rw [if_neg h, List.filter_singleton, decide_eq_false h]
    rfl

section Steps

variable {e : Env} {s : State}

theorem State.Inv.ended_sub (h : s.Inv e) {c : ℕ} (hc : c ∈ s.endedCookies) : c ∈ s.begun := by
  rw [h.begun]
  exact List.mem_append_left _ hc

theorem State.Inv.current (h : s.Inv e) (hr : s.isRoch = true) :
    s.remainOnChCookie ∈ s.begun ∧ s.remainOnChCookie ∉ s.endedCookies := by
  have hb := h.begun
  rw [if_pos hr] at hb
  have hnd := h.nodup
  rw [hb] at hnd ⊢
  refine ⟨List.mem_append_right _ List.mem_cons_self, fun hmem => ?_⟩
  exact (List.nodup_append.mp hnd).2.2 _ hmem _ List.mem_cons_self rfl

theorem State.Inv.outstanding_iff (h : s.Inv e) (c : ℕ) :
    s.Outstanding c ↔ s.isRoch = true ∧ c = s.remainOnChCookie := by
  constructor
  · rintro ⟨hb, he⟩
    rw [h.begun, List.mem_append] at hb
    have hmem := hb.resolve_left he
    by_cases hr : s.isRoch = true
    · rw [if_pos hr] at hmem
      exact ⟨hr, List.mem_singleton.mp hmem⟩
    · rw [if_neg hr] at hmem
      exact nomatch hmem
  · rintro ⟨hr, rfl⟩
    exact h.current hr

theorem State.Inv.stands (h : s.Inv e) :
    ¬ s.pc.Waits ∧ s.AtRest ∧ s.acks = false ∨
      s.Cancelling ∧ ((∃ r, s.pc = .remainCancelling r) ∨ s.pc = .cancelWait) ∨
      ∃ r, s.pc = .remainWait r ∧ s.isRoch = true ∧ s.remainOnChCookie = r.cookie ∧
        s.timer = none ∧ s.cmdQueue = [.roch r true] := by
  have hcourse := h.course
  rw [State.Course] at hcourse
  split at hcourse
  · next hpc => exact .inl ⟨by rw [hpc]; exact id, hcourse⟩
  · next hpc => exact .inl ⟨by rw [hpc]; exact id, hcourse⟩
  · next hpc => exact .inl ⟨by rw [hpc]; exact id, hcourse⟩
  · next r hpc => exact .inr (.inl ⟨hcourse, .inl ⟨r, hpc⟩⟩)
  · next hpc => exact .inr (.inl ⟨hcourse, .inr hpc⟩)
  · next hpc => exact .inl ⟨by rw [hpc]; exact id, hcourse.2⟩
  · next r hpc => exact .inr (.inr ⟨r, hpc, hcourse⟩)
  · next hpc =>
    refine .inl ⟨by rw [hpc]; exact id, hcourse.2.2, ?_⟩
    rw [State.acks]
    cases hh : s.handler with
    | none => rfl
    | some k =>
      have hroch := (h.handler (by rw [hh]; rfl)).1
      rw [hcourse.1] at hroch
      exact nomatch hroch

theorem atRest_of_armed {s : State} (hr : s.isRoch = true) (hat : s.AtRest) :
    s.timer = some s.remainOnChCookie ∧ s.cmdQueue = [] ∨
      s.timer = none ∧ s.cmdQueue = [.cancel (.timer s.remainOnChCookie) false] := by
  rwa [State.AtRest, if_pos hr] at hat

theorem atRest_of_none {s : State} (hr : s.isRoch = false) (hat : s.AtRest) :
    s.timer = none ∧ s.cmdQueue = [] := by
  rwa [State.AtRest, if_neg (by rw [hr]; decide)] at hat

/-- Between two steps of the callers the invariant says all that a request relies on. -/
theorem State.Inv.sound (h : s.Inv e) : s.Sound e := by
  refine ⟨?_, ?_, h.ends, ?_, ?_, ?_, h.back⟩
  · intro c hc
    rw [h.log, if_neg hc]
  · intro c hc
    rw [h.log, if_pos hc, h.outstanding_iff]
    by_cases hend : c ∈ s.endedCookies
    · have hnot : ¬ (s.isRoch = true ∧ c = s.remainOnChCookie) := by
        rintro ⟨hr, rfl⟩
        exact (h.current hr).2 hend
      by_cases hrep : s.Reporting c
      · rw [if_neg (fun hn => hn.2 hrep)]
        exact .inr ⟨rfl, .inr hrep.1⟩
      · rw [if_pos ⟨hend, hrep⟩]
        exact .inl ⟨rfl, hnot⟩
    · rw [if_neg (fun hn => hend hn.1)]
      have hb : c ∈ s.begun := by
        rw [h.returned]
        exact List.mem_append_left _ hc
      exact .inr ⟨rfl, .inl ((h.outstanding_iff c).mp ⟨hb, hend⟩)⟩
  · intro c hc hout
    obtain ⟨hr, rfl⟩ := (h.outstanding_iff c).mp hout
    obtain ⟨-, hat, -⟩ | ⟨⟨-, hcanc⟩, -⟩ | ⟨r, hpc, -, hcookie, -⟩ := h.stands
    · obtain ⟨ht, -⟩ | ⟨-, hq⟩ := atRest_of_armed hr hat
      · exact .inl ht
      · rw [hq]
        exact .inr ⟨_, List.mem_cons_self, rfl⟩
    · obtain ⟨hacks, -⟩ | ⟨-, o, ho, hq | ⟨-, hq⟩⟩ := hcanc
      · have hsome : s.handler.isSome = true := by
          rw [State.acks] at hacks
          cases hh : s.handler with
          | none =>
            rw [hh] at hacks
            exact nomatch hacks
          | some => rfl
        rw [(h.handler hsome).1] at hr
        exact nomatch hr
      · rw [hq]
        exact .inr ⟨_, List.mem_cons_self, ho hr⟩
      · rw [hq]
        exact .inr ⟨_, List.mem_cons_self, rfl⟩
    · have hret := h.returned
      have hnd := h.nodup
      rw [hpc] at hret
      rw [hret] at hnd
      rw [hcookie] at hc
      exact absurd rfl ((List.nodup_append.mp hnd).2.2 _ hc _ List.mem_cons_self)
  · constructor
    · intro hr
      exact ⟨_, (h.outstanding_iff _).mpr ⟨hr, rfl⟩⟩
    · rintro ⟨c, hc⟩
      exact ((h.outstanding_iff c).mp hc).1
  · intro c d hc hd
    rw [((h.outstanding_iff c).mp hc).2, ((h.outstanding_iff d).mp hd).2]

structure State.Coming (s : State) (r : Req) : Prop where
  new : r.cookie ∉ s.begun
  le : r.cookie ≤ s.roChCookieGen
  ch : r.ch ≠ 0
  overlaps : r.overlaps = true → s.isRoch = true ∨ s.ended ≠ []

theorem State.Inv.comes (h : s.Inv e) {r : Req} (hr : s.pc.coming = some r) : s.Coming r :=
  ⟨(h.coming r hr).1, (h.coming r hr).2.1, (h.coming r hr).2.2, h.overlaps r hr⟩

theorem State.Inv.move (h : s.Inv e) {t : Option ℕ} {q : List Cmd} {pc : Pc} {ch : ℕ}
    (hprep : pc.preparing = s.pc.preparing) (hcoming : ∀ r, pc.coming = some r → s.Coming r)
    (hch : s.isRoch = false → ch = s.operCh)
    (hcourse : State.Course { s with timer := t, cmdQueue := q, pc := pc, operCh := ch }) :
    State.Inv e { s with timer := t, cmdQueue := q, pc := pc, operCh := ch } where
  le := h.le
  nodup := h.nodup
  coming r hr := ⟨(hcoming r hr).new, (hcoming r hr).le, (hcoming r hr).ch⟩
  begun := h.begun
  returned := by
    change s.begun = s.returned ++ (pc.preparing.map (·.cookie)).toList
    rw [hprep]
    exact h.returned
  log := h.log
  handler := h.handler
  course := hcourse
  ends := h.ends
  base := h.base
  back hne hr := ⟨(hch hr).trans (h.back hne hr).1, (h.back hne hr).2⟩
  overlaps r hr := (hcoming r hr).overlaps

theorem cancelling_of_atRest {s : State} (hr : s.isRoch = true) (hat : s.AtRest)
    (hacks : s.acks = false) {o : Origin} (ho : o.Ends s.remainOnChCookie) (pc : Pc) :
    State.Cancelling { s with
      timer := none, cmdQueue := s.cmdQueue ++ [.cancel o true], pc := pc } := by
  refine ⟨rfl, .inr ⟨hacks, o, fun _ => ho, ?_⟩⟩
  obtain ⟨-, hq⟩ | ⟨-, hq⟩ := atRest_of_armed hr hat
  · exact .inl (by rw [hq]; rfl)
  · exact .inr ⟨hr, by rw [hq]; rfl⟩

theorem inv_remain (h : s.Inv e) (wdev ch : ℕ) (up : Bool) :
    (step e s (.remain wdev ch up)).Inv e := by
  by_cases hpc : s.pc = .idle
  · have hcourse := h.course
    rw [State.Course, hpc] at hcourse
    have hnew : State.Inv e { s with roChCookieGen := s.roChCookieGen + 1 } :=
      { h with
        le := fun c hc => Nat.le_succ_of_le (h.le c hc)
        coming := fun r hr => ⟨(h.coming r hr).1, Nat.le_succ_of_le (h.coming r hr).2.1,
          (h.coming r hr).2.2⟩ }
    by_cases hok : ch ∈ e.chset ∧ up
    · have hstep : step e s (.remain wdev ch up) =
          { s with
            roChCookieGen := s.roChCookieGen + 1
            pc := .remain { wdev, ch, cookie := s.roChCookieGen + 1 } } := by
        simp only [step, if_pos hpc, if_pos hok]
      rw [hstep]
      refine hnew.move (t := s.timer) (q := s.cmdQueue) ?_ ?_ (fun _ => rfl) hcourse
      · rw [hpc]
        rfl
      · intro r hr
        obtain rfl := Option.some.inj hr
        refine ⟨fun hmem => ?_, Nat.le_refl _, fun h0 => e.pos (h0 ▸ hok.1), nofun⟩
        exact absurd (h.le _ hmem) (Nat.not_succ_le_self _)
    · have hstep : step e s (.remain wdev ch up) =
          { s with roChCookieGen := s.roChCookieGen + 1 } := by
        simp only [step, if_pos hpc, if_neg hok]
      rw [hstep]
      exact hnew
  · rw [step, if_neg hpc]
    exact h

theorem inv_cancel (h : s.Inv e) (wdev cookie : ℕ) : (step e s (.cancel wdev cookie)).Inv e := by
  by_cases hpc : s.pc = .idle
  · have hcourse := h.course
    rw [State.Course, hpc] at hcourse
    rw [step, if_pos hpc]
    refine h.move (t := s.timer) (q := s.cmdQueue) ?_ nofun (fun _ => rfl) hcourse
    rw [hpc]
    rfl
  · rw [step, if_neg hpc]
    exact h

theorem inv_check (h : s.Inv e) {r : Req} (hpc : s.pc = .remain r) {ok : Bool} (recent : Bool)
    (hok : s.isRoch = true → ok = true) : (s.caller ok recent).Inv e := by
  have hcourse := h.course
  rw [State.Course, hpc] at hcourse
  obtain ⟨hat, hacks⟩ := hcourse
  have hr := h.comes (r := r) (by rw [hpc]; rfl)
  have hprep : s.pc.preparing = none := by rw [hpc]; rfl
  cases hroch : s.isRoch with
  | true =>
    have hstep : s.caller ok recent =
        { s with
          timer := none
          cmdQueue := s.cmdQueue ++ [.cancel .request true]
          pc := .remainCancelling { r with overlaps := true } } := by
      simp only [State.caller, hpc, hroch, hok hroch, if_true, State.enqueue]
    rw [hstep]
    refine h.move hprep.symm ?_ (fun _ => rfl)
      (cancelling_of_atRest (o := .request) hroch hat hacks trivial _)
    intro r' hr'
    obtain rfl := Option.some.inj hr'
    exact ⟨hr.new, hr.le, hr.ch, fun _ => .inl hroch⟩
  | false =>
    have hstep : s.caller ok recent = { s with pc := .remainSetup r } := by
      simp only [State.caller, hpc, hroch, Bool.false_eq_true, if_false]
    rw [hstep]
    refine h.move (t := s.timer) (q := s.cmdQueue) hprep.symm ?_ (fun _ => rfl)
      ⟨hroch, hat, hacks⟩
    intro r' hr'
    obtain rfl := Option.some.inj hr'
    exact hr

theorem inv_cancelCheck (h : s.Inv e) {wdev cookie : ℕ} (hpc : s.pc = .cancel wdev cookie)
    {ok : Bool} (recent : Bool)
    (hok : s.isRoch = true → ok = true ∧ cookie = s.remainOnChCookie) :
    (s.caller ok recent).Inv e := by
  have hcourse := h.course
  rw [State.Course, hpc] at hcourse
  obtain ⟨hat, hacks⟩ := hcourse
  have hprep : s.pc.preparing = none := by rw [hpc]; rfl
  cases hroch : s.isRoch with
  | true =>
    obtain ⟨rfl, rfl⟩ := hok hroch
    have hstep : s.caller true recent =
        { s with
          timer := none
          cmdQueue := s.cmdQueue ++ [.cancel (.call s.remainOnChCookie) true]
          pc := .cancelWait } := by
      simp only [State.caller, hpc, hroch, if_true, State.enqueue]
    rw [hstep]
    exact h.move hprep.symm nofun (fun _ => rfl)
      (cancelling_of_atRest (o := .call _) hroch hat hacks rfl _)
  | false =>
    have hstep : s.caller ok recent = { s with pc := .idle } := by
      simp only [State.caller, hpc, hroch, Bool.false_eq_true, if_false]
    rw [hstep]
    exact h.move (t := s.timer) (q := s.cmdQueue) hprep.symm nofun (fun _ => rfl)
      ⟨hat, hacks⟩

theorem listen_frame (s : State) (ch : ℕ) (recent : Bool) :
    s.listen ch recent =
      { s with
        p2pEnabled := (s.listen ch recent).p2pEnabled
        listenChannel := (s.listen ch recent).listenChannel
        preP2pState := (s.listen ch recent).preP2pState
        p2pState := (s.listen ch recent).p2pState } := by
  unfold State.listen
  split
  · rfl
  · split <;> rfl

theorem listen_on (s : State) (ch : ℕ) {recent : Bool} (hon : s.p2pState ≠ .none)
    (hpre : s.p2pState = .listen → recent = true → s.preP2pState = .listen) :
    (s.listen ch recent).preP2pState = s.p2pState ∧
      (s.listen ch recent).p2pEnabled = s.p2pEnabled ∧
      ((s.listen ch recent).listenChannel = s.listenChannel ∨
        (s.listen ch recent).listenChannel = ch) := by
  unfold State.listen
  rw [if_neg hon]
  by_cases hl : s.p2pState = .listen ∧ recent = true
  · rw [if_pos hl]
    exact ⟨(hpre hl.1 hl.2).trans hl.1.symm, rfl, .inr rfl⟩
  · rw [if_neg hl]
    exact ⟨rfl, rfl, .inl rfl⟩

theorem backCh_back {e : Env} {s t : State} {base : ℕ} (hen : t.p2pEnabled = s.p2pEnabled)
    (hlisten : t.listenChannel = s.listenChannel ∨ t.listenChannel ≠ 0) :
    t.backCh e (s.backCh e base) = t.backCh e base := by
  unfold State.backCh
  cases e.chSettingUnion with
  | some u => rfl
  | none =>
    rw [Option.getD_none, Option.getD_none, Option.getD_none, hen]
    by_cases hp : s.p2pEnabled = true ∧ t.listenChannel ≠ 0
    · rw [if_pos hp, if_pos hp]
    · have hs : ¬ (s.p2pEnabled = true ∧ s.listenChannel ≠ 0) := by
        rintro ⟨hp1, hp2⟩
        obtain hl | hl := hlisten
        · exact hp ⟨hp1, hl ▸ hp2⟩
        · exact hp ⟨hp1, hl⟩
      rw [if_neg hp, if_neg hp, if_neg hs]

theorem inv_setup (h : s.Inv e) {r : Req} (hpc : s.pc = .remainSetup r) {ok recent : Bool}
    (hok : ok = true) (hnone : s.handler = none) (hon : s.p2pState ≠ .none)
    (hpre : s.p2pState = .listen → recent = true → s.preP2pState = .listen) :
    (s.caller ok recent).Inv e := by
  obtain ⟨hroch, hat, hacks⟩ : s.isRoch = false ∧ s.AtRest ∧ s.acks = false := by
    have hcourse := h.course
    rwa [State.Course, hpc] at hcourse
  obtain ⟨htimer, hqueue⟩ := atRest_of_none hroch hat
  obtain ⟨hnew, hle, hch, hover⟩ := h.comes (r := r) (by rw [hpc]; rfl)
  have hbegun : s.begun = s.endedCookies := by
    rw [h.begun, if_neg (by rw [hroch]; decide), List.append_nil]
  have hreturned : s.begun = s.returned := by
    have hret := h.returned
    rw [hpc] at hret
    rw [hret]
    exact List.append_nil _
  have hn : (s.note r).p2pState = s.p2pState ∧ (s.note r).preP2pState = s.preP2pState ∧
      (s.note r).p2pEnabled = s.p2pEnabled ∧ (s.note r).listenChannel = s.listenChannel := by
    unfold State.note
    split <;> exact ⟨rfl, rfl, rfl, rfl⟩
  obtain ⟨hlpre, hlen, hlch⟩ := listen_on (s.note r) r.ch
    (by rwa [hn.1]) (by rw [hn.1, hn.2.1]; exact hpre)
  rw [hn.1] at hlpre
  rw [hn.2.2.1] at hlen
  rw [hn.2.2.2] at hlch
  -- the notes are those of the first request, or the radio is back where they say
  have hbase : (s.note r).baseP2p = s.p2pState ∧
      (s.operCh = (s.note r).baseCh ∨ s.operCh = s.backCh e (s.note r).baseCh) := by
    unfold State.note
    cases ho : r.overlaps with
    | false =>
      rw [if_neg Bool.false_ne_true]
      exact ⟨if_neg hon, .inl rfl⟩
    | true =>
      rw [if_pos rfl]
      have hended : s.ended ≠ [] :=
        (hover ho).resolve_left (by rw [hroch]; exact Bool.false_ne_true)
      obtain ⟨hb1, hb2⟩ := h.back hended hroch
      exact ⟨hb2.symm, .inr hb1⟩
  generalize hl : (s.note r).listen r.ch recent = l at hlpre hlen hlch
  have hframe : s.caller ok recent =
      { s with
        p2pEnabled := l.p2pEnabled
        listenChannel := l.listenChannel
        preP2pState := l.preP2pState
        p2pState := l.p2pState
        baseCh := (s.note r).baseCh
        baseP2p := (s.note r).baseP2p
        isRoch := true
        roChWdev := some r.wdev
        remainOnChCookie := r.cookie
        restoreChannel := s.operCh
        begun := s.begun ++ [r.cookie]
        cmdQueue := [.roch r true]
        pc := .remainWait r } := by
    have hcaller : s.caller ok recent =
        { (l.setRoch r).enqueue (.roch r true) with pc := .remainWait r } := by
      simp only [State.caller, hpc, hok, if_true, hl]
    have hframe := listen_frame (s.note r) r.ch recent
    rw [hl] at hframe
    rw [hcaller, hframe]
    unfold State.note
    split
    · simp only [State.setRoch, State.enqueue, hqueue, List.nil_append]
    · simp only [State.setRoch, State.enqueue, hqueue, List.nil_append]
  rw [hframe]
  refine ⟨?_, ?_, nofun, ?_, ?_, ?_, ?_, ?_, h.ends, ?_, nofun, nofun⟩
  · intro c hc
    obtain hc | hc := List.mem_append.mp hc
    · exact h.le c hc
    · rw [List.mem_singleton.mp hc]
      exact hle
  · refine List.nodup_append.mpr ⟨h.nodup, List.nodup_singleton _, ?_⟩
    intro c hc d hd hcd
    rw [List.mem_singleton.mp hd] at hcd
    exact hnew (hcd ▸ hc)
  · change s.begun ++ [r.cookie] = s.endedCookies ++ [r.cookie]
    rw [hbegun]
  · change s.begun ++ [r.cookie] = s.returned ++ [r.cookie]
    rw [hreturned]
  · intro c
    have hlog := h.log c
    simp only [State.Reporting, State.endedCookies, hnone, Option.isSome_none,
      Bool.false_eq_true, false_and, not_false_eq_true, and_true] at hlog ⊢
    exact hlog
  · intro hsome
    change s.handler.isSome = true at hsome
    rw [hnone] at hsome
    exact nomatch hsome
  · exact ⟨rfl, rfl, htimer, rfl⟩
  · intro _
    refine ⟨hlpre.trans hbase.1.symm, ?_⟩
    obtain hb | hb := hbase.2
    · rw [hb]
    · rw [hb]
      refine backCh_back hlen ?_
      obtain hlc | hlc := hlch
      · exact .inl hlc
      · exact .inr (by rw [hlc]; exact hch)

theorem inv_ready (h : s.Inv e) {r : Req} (hpc : s.pc = .remainReady r) (ok recent : Bool) :
    (s.caller ok recent).Inv e := by
  obtain ⟨hroch, hcookie, hat⟩ : s.isRoch = true ∧ s.remainOnChCookie = r.cookie ∧ s.AtRest := by
    have hcourse := h.course
    rwa [State.Course, hpc] at hcourse
  have hnone : s.handler = none := by
    cases hh : s.handler with
    | none => rfl
    | some k =>
      have hend := (h.handler (by rw [hh]; rfl)).1
      rw [hroch] at hend
      exact nomatch hend
  have hret : s.begun = s.returned ++ [r.cookie] := by
    have hret := h.returned
    rwa [hpc] at hret
  have hcurrent := h.current hroch
  have hfresh : r.cookie ∉ s.returned := by
    intro hmem
    have hnd := h.nodup
    rw [hret] at hnd
    exact (List.nodup_append.mp hnd).2.2 _ hmem _ List.mem_cons_self rfl
  have hstep : s.caller ok recent =
      { s with
        log := s.log ++ [⟨.ready, some r.wdev, r.cookie⟩]
        returned := s.returned ++ [r.cookie]
        pc := .idle } := by
    simp only [State.caller, hpc]
  rw [hstep]
  refine ⟨h.le, h.nodup, nofun, h.begun, ?_, ?_, h.handler, ?_, h.ends, h.base, h.back, nofun⟩
  · change s.begun = s.returned ++ [r.cookie] ++ []
    rw [hret, List.append_nil]
  · intro c
    change reportsOf c (s.log ++ [⟨.ready, some r.wdev, r.cookie⟩]) =
      if c ∈ s.returned ++ [r.cookie] then _ else _
    rw [reportsOf_append, h.log]
    by_cases hc : r.cookie = c
    · subst hc
      rw [if_pos rfl, if_neg hfresh, if_pos (List.mem_append_right _ List.mem_cons_self)]
      rw [hcookie] at hcurrent
      have hno : ¬ (r.cookie ∈ s.endedCookies ∧ ¬ s.Reporting r.cookie) :=
        fun hh => hcurrent.2 hh.1
      exact congrArg (Kind.ready :: ·) (if_neg hno).symm
    · have hiff : c ∈ s.returned ++ [r.cookie] ↔ c ∈ s.returned := by
        rw [List.mem_append, List.mem_singleton]
        exact or_iff_left (Ne.symm hc)
      rw [if_neg hc, List.append_nil]
      simp only [hiff]
      rfl
  · refine ⟨hat, ?_⟩
    change s.handler.any (·.acks) = false
    rw [hnone]
    rfl

theorem inv_caller (h : s.Inv e) (ok recent : Bool) (hok : Ok s (.caller ok recent)) :
    (s.caller ok recent).Inv e := by
  rw [Ok] at hok
  split at hok
  · next r hpc => exact inv_check h hpc recent hok
  · next r hpc => exact inv_setup h hpc hok.1 hok.2.1 hok.2.2.1 hok.2.2.2
  · next wdev cookie hpc => exact inv_cancelCheck h hpc recent hok
  · next h1 h2 h3 =>
    cases hpc : s.pc with
    | remainReady r => exact inv_ready h hpc ok recent
    | remain r => exact absurd hpc (h1 r)
    | remainSetup r => exact absurd hpc (h2 r)
    | cancel wdev cookie => exact absurd hpc (h3 wdev cookie)
    | _ =>
      simp only [State.caller, hpc]
      exact h

theorem timer_armed (h : s.Inv e) {c : ℕ} (ht : s.timer = some c) :
    s.isRoch = true ∧ c = s.remainOnChCookie ∧ s.cmdQueue = [] ∧ ¬ s.pc.Waits := by
  have hno : s.timer ≠ none := by
    rw [ht]
    exact Option.some_ne_none c
  obtain ⟨hwait, hat, -⟩ | ⟨⟨ht', -⟩, -⟩ | ⟨-, -, -, -, ht', -⟩ := h.stands
  · cases hroch : s.isRoch with
    | true =>
      obtain ⟨ht', hq⟩ | ⟨ht', -⟩ := atRest_of_armed hroch hat
      · rw [ht] at ht'
        exact ⟨rfl, Option.some.inj ht', hq, hwait⟩
      · exact absurd ht' hno
    | false => exact absurd (atRest_of_none hroch hat).1 hno
  · exact absurd ht' hno
  · exact absurd ht' hno

theorem State.Course.rest {s t : State} (hc : s.Course) (hwait : ¬ s.pc.Waits)
    (hpc : t.pc = s.pc) (hroch : t.isRoch = s.isRoch)
    (hcookie : t.remainOnChCookie = s.remainOnChCookie) (hat : s.AtRest → t.AtRest)
    (hacks : s.acks = false → t.acks = false) : t.Course := by
  rw [State.Course] at hc ⊢
  rw [hpc]
  cases hp : s.pc with
  | remainCancelling r => exact absurd (by rw [hp]; trivial) hwait
  | cancelWait => exact absurd (by rw [hp]; trivial) hwait
  | remainWait r => exact absurd (by rw [hp]; trivial) hwait
  | remainSetup r =>
    rw [hp] at hc
    exact ⟨hroch.trans hc.1, hat hc.2.1, hacks hc.2.2⟩
  | remainReady r =>
    rw [hp] at hc
    exact ⟨hroch.trans hc.1, hcookie.trans hc.2.1, hat hc.2.2⟩
  | _ =>
    rw [hp] at hc
    exact ⟨hat hc.1, hacks hc.2⟩

theorem inv_timerFires (h : s.Inv e) {ok : Bool} (hok : s.timer.isSome = true → ok = true) :
    (s.timerFires ok).Inv e := by
  cases ht : s.timer with
  | none =>
    rw [State.timerFires, ht]
    exact h
  | some c =>
    obtain ⟨hroch, rfl, hqueue, hwait⟩ := timer_armed h ht
    have hstep : s.timerFires ok =
        { s with timer := none, cmdQueue := [.cancel (.timer s.remainOnChCookie) false] } := by
      have hok' := hok (by rw [ht]; rfl)
      simp only [State.timerFires, ht, hok', if_true, State.enqueue, hqueue, List.nil_append]
    rw [hstep]
    refine h.move rfl (fun r hr => h.comes hr) (fun _ => rfl)
      (h.course.rest hwait rfl rfl rfl (fun _ => ?_) id)
    rw [State.AtRest, if_pos hroch]
    exact .inr ⟨rfl, rfl⟩

/-! ### The command thread -/

theorem State.Inv.ended (h : s.Inv e) (hroch : s.isRoch = true) {o : Origin}
    (ho : o.Ends s.remainOnChCookie) {q : List Cmd} {acks : Bool}
    (hcourse : State.Course (State.cancelRoChBegin e { s with cmdQueue := q } o acks)) :
    State.Inv e (State.cancelRoChBegin e { s with cmdQueue := q } o acks) := by
  have hb := h.base hroch
  refine ⟨h.le, h.nodup, h.coming, ?_, h.returned, ?_, ?_, hcourse, ?_, nofun, ?_, ?_⟩
  · have hbegun := h.begun
    rw [if_pos hroch] at hbegun
    change s.begun = (s.ended ++ [(s.remainOnChCookie, o)]).map (·.1) ++ []
    rw [hbegun, List.map_append, List.append_nil]
    rfl
  · intro c
    have hlog := h.log c
    have hnone : s.handler.isSome ≠ true := by
      intro hsome
      rw [(h.handler hsome).1] at hroch
      exact nomatch hroch
    have hiff : (c ∈ (s.ended ++ [(s.remainOnChCookie, o)]).map (·.1) ∧
        ¬ (true = true ∧ c = s.remainOnChCookie)) ↔ c ∈ s.endedCookies ∧ ¬ s.Reporting c := by
      rw [List.map_append, List.mem_append]
      constructor
      · rintro ⟨hmem, hne⟩
        refine ⟨hmem.resolve_right fun hc => ?_, fun hrep => hnone hrep.1⟩
        exact hne ⟨rfl, List.mem_singleton.mp hc⟩
      · rintro ⟨hmem, -⟩
        refine ⟨.inl hmem, fun hc => ?_⟩
        rw [hc.2] at hmem
        exact (h.current hroch).2 hmem
    change reportsOf c s.log = if c ∈ s.returned then _ :: ite _ _ _ else _
    rw [hlog]
    by_cases hc : c ∈ s.returned
    · rw [if_pos hc, if_pos hc]
      exact congrArg (Kind.ready :: ·) (if_congr hiff.symm rfl rfl)
    · rw [if_neg hc, if_neg hc]
  · intro _
    refine ⟨rfl, ?_⟩
    change s.remainOnChCookie ∈ (s.ended ++ [(s.remainOnChCookie, o)]).map (·.1)
    rw [List.map_append]
    exact List.mem_append_right _ List.mem_cons_self
  · intro p hp
    obtain hp | hp := List.mem_append.mp hp
    · exact h.ends p hp
    · rw [List.mem_singleton.mp hp]
      exact ho
  · intro _ _
    exact ⟨hb.2, hb.1⟩
  · intro r hr hov
    refine .inr fun hnil => ?_
    exact absurd hnil (List.append_ne_nil_of_right_ne_nil _ (List.cons_ne_nil _ _))

/-- The expiry is reported with the cookie of the request that was ended. -/
theorem State.Inv.reportEnd (h : s.Inv e) {k : Handler} (hk : s.handler = some k) {pc : Pc}
    (hprep : pc.preparing = s.pc.preparing) (hcoming : ∀ r, pc.coming = some r → s.Coming r)
    (hcourse : State.Course { s with
      roChWdev := none
      handler := none
      log := s.log ++ [⟨.expired, k.wdev, s.remainOnChCookie⟩]
      pc := pc }) :
    State.Inv e { s with
      roChWdev := none
      handler := none
      log := s.log ++ [⟨.expired, k.wdev, s.remainOnChCookie⟩]
      pc := pc } := by
  have hsome : s.handler.isSome = true := by
    rw [hk]
    rfl
  obtain ⟨hroch, hended⟩ := h.handler hsome
  have hnotprep : s.pc.preparing = none := by
    have hc := h.course
    cases hpc : s.pc with
    | remainWait r =>
      rw [State.Course, hpc] at hc
      rw [hc.1] at hroch
      exact nomatch hroch
    | remainReady r =>
      rw [State.Course, hpc] at hc
      rw [hc.1] at hroch
      exact nomatch hroch
    | _ => rfl
  have hret : s.remainOnChCookie ∈ s.returned := by
    have hb := h.ended_sub hended
    rw [h.returned, hnotprep] at hb
    exact (List.append_nil s.returned) ▸ hb
  refine ⟨h.le, h.nodup, ?_, h.begun, ?_, ?_, nofun, hcourse, h.ends, h.base, h.back, ?_⟩
  · intro r hr
    exact ⟨(hcoming r hr).new, (hcoming r hr).le, (hcoming r hr).ch⟩
  · change s.begun = s.returned ++ (pc.preparing.map (·.cookie)).toList
    rw [hprep]
    exact h.returned
  · intro c
    change reportsOf c (s.log ++ [⟨.expired, k.wdev, s.remainOnChCookie⟩]) =
      if c ∈ s.returned then .ready ::
        (if c ∈ s.endedCookies ∧ ¬ (false = true ∧ c = s.remainOnChCookie) then [.expired]
          else []) else []
    rw [reportsOf_append, h.log]
    by_cases hc : s.remainOnChCookie = c
    · subst hc
      have hrep : ¬ (s.remainOnChCookie ∈ s.endedCookies ∧ ¬ s.Reporting s.remainOnChCookie) :=
        fun hh => hh.2 ⟨hsome, rfl⟩
      rw [if_pos hret, if_neg hrep, if_pos rfl, if_pos hret,
        if_pos ⟨hended, fun hh => nomatch hh.1⟩]
      rfl
    · have hiff : (c ∈ s.endedCookies ∧ ¬ s.Reporting c) ↔
          (c ∈ s.endedCookies ∧ ¬ (false = true ∧ c = s.remainOnChCookie)) :=
        and_congr_right fun _ => iff_of_true (fun hh => hc hh.2.symm) (fun hh => nomatch hh.1)
      rw [if_neg hc, List.append_nil, if_congr hiff rfl rfl]
  · intro r hr
    exact (hcoming r hr).overlaps

theorem acks_of_none (hnone : s.handler = none) : s.acks = false := by
  rw [State.acks, hnone]
  rfl

theorem inv_reported (h : s.Inv e) {k : Handler} (hk : s.handler = some k) :
    (s.cancelRoChEnd k).Inv e := by
  have hroch := (h.handler (by rw [hk]; rfl)).1
  have hacks : s.acks = k.acks := by
    rw [State.acks, hk]
    rfl
  have hstay (hk0 : s.acks = false) (hc : State.Course { s with
      roChWdev := none
      handler := none
      log := s.log ++ [⟨.expired, k.wdev, s.remainOnChCookie⟩] }) :
      (s.cancelRoChEnd k).Inv e := by
    rw [State.cancelRoChEnd, State.ackIf, ← hacks, hk0, if_neg Bool.false_ne_true]
    exact h.reportEnd hk rfl (fun r hr => h.comes hr) hc
  obtain ⟨hwait, -, hk0⟩ | ⟨⟨ht, ⟨hk1, hq⟩ | ⟨hk0, hcanc⟩⟩, hpc⟩ | ⟨-, -, hroch', -⟩ := h.stands
  · exact hstay hk0 (h.course.rest hwait rfl rfl rfl id fun _ => rfl)
  · have hrest (pc : Pc) : State.AtRest { s with
        roChWdev := none
        handler := none
        log := s.log ++ [⟨.expired, k.wdev, s.remainOnChCookie⟩]
        pc := pc } := by
      rw [State.AtRest, hroch]
      exact ⟨ht, hq⟩
    rw [State.cancelRoChEnd, State.ackIf, ← hacks, hk1, if_pos rfl]
    dsimp only [State.ack]
    obtain ⟨r, hpc⟩ | hpc := hpc
    · have hcomes := h.comes (r := r) (by rw [hpc]; rfl)
      rw [hpc]
      refine h.reportEnd hk (by rw [hpc]; rfl) ?_ ⟨hroch, hrest _, rfl⟩
      intro r' hr'
      obtain rfl := Option.some.inj hr'
      exact hcomes
    · rw [hpc]
      exact h.reportEnd hk (by rw [hpc]; rfl) nofun ⟨hrest _, rfl⟩
  · refine hstay hk0 ?_
    obtain ⟨r, hpc⟩ | hpc := hpc
    · rw [State.Course, hpc]
      exact ⟨ht, .inr ⟨rfl, hcanc⟩⟩
    · rw [State.Course, hpc]
      exact ⟨ht, .inr ⟨rfl, hcanc⟩⟩
  · rw [hroch] at hroch'
    exact nomatch hroch'

/-- The command `roch` is queued only while its caller waits for it. -/
theorem roch_queued (h : s.Inv e) {r : Req} {acks : Bool} {q : List Cmd}
    (hq : s.cmdQueue = .roch r acks :: q) :
    s.pc = .remainWait r ∧ acks = true ∧ q = [] ∧ s.isRoch = true ∧
      s.remainOnChCookie = r.cookie := by
  obtain ⟨-, hat, -⟩ | ⟨⟨-, hcanc⟩, -⟩ | ⟨r', hpc, hroch, hcookie, -, hq'⟩ := h.stands
  · cases hroch : s.isRoch with
    | true =>
      obtain ⟨-, hq'⟩ | ⟨-, hq'⟩ := atRest_of_armed hroch hat
      · rw [hq] at hq'
        exact nomatch hq'
      · rw [hq] at hq'
        exact nomatch hq'
    | false =>
      have hq' := (atRest_of_none hroch hat).2
      rw [hq] at hq'
      exact nomatch hq'
  · obtain ⟨-, hq'⟩ | ⟨-, o, -, hq' | ⟨-, hq'⟩⟩ := hcanc
    all_goals
      rw [hq] at hq'
      exact nomatch hq'
  · rw [hq] at hq'
    obtain ⟨hhead, rfl⟩ := List.cons_eq_cons.mp hq'
    obtain ⟨rfl, rfl⟩ := Cmd.roch.inj hhead
    exact ⟨hpc, rfl, rfl, hroch, hcookie⟩

theorem inv_roch (h : s.Inv e) {r : Req} {acks : Bool} {q : List Cmd}
    (hq : s.cmdQueue = .roch r acks :: q) :
    ((State.roChHandler e { s with cmdQueue := q } r).ackIf acks).Inv e := by
  obtain ⟨hpc, rfl, rfl, hroch, hcookie⟩ := roch_queued h hq
  have hstep : (State.roChHandler e { s with cmdQueue := [] } r).ackIf true = { s with
      cmdQueue := []
      operCh := (State.roChHandler e { s with cmdQueue := [] } r).operCh
      timer := some r.cookie
      pc := .remainReady r } := by
    simp only [State.roChHandler, hroch, Bool.true_eq_false, if_false, State.ackIf, if_true,
      State.ack, hpc, Pc.acked]
  rw [hstep]
  refine h.move (by rw [hpc]; rfl) nofun ?_ ⟨hroch, hcookie, ?_⟩
  · rw [hroch]
    exact nofun
  · rw [State.AtRest, if_pos hroch]
    exact .inl ⟨congrArg some hcookie.symm, rfl⟩

theorem inv_begins (h : s.Inv e) (hnone : s.handler = none) (hroch : s.isRoch = true)
    (hprep : s.pc.preparing = none) {o : Origin} {acks : Bool} {q : List Cmd}
    (hq : s.cmdQueue = .cancel o acks :: q) :
    (State.cancelRoChBegin e { s with cmdQueue := q } o acks).Inv e := by
  have hrest (hat : s.AtRest) :
      s.timer = none ∧ o.Ends s.remainOnChCookie ∧ acks = false ∧ q = [] := by
    obtain ⟨-, hq'⟩ | ⟨ht, hq'⟩ := atRest_of_armed hroch hat
    · rw [hq] at hq'
      exact nomatch hq'
    · rw [hq] at hq'
      obtain ⟨hhead, rfl⟩ := List.cons_eq_cons.mp hq'
      obtain ⟨rfl, rfl⟩ := Cmd.cancel.inj hhead
      exact ⟨ht, rfl, rfl, rfl⟩
  have hcanc (hc : s.Cancelling) : o.Ends s.remainOnChCookie ∧
      (State.cancelRoChBegin e { s with cmdQueue := q } o acks).Cancelling := by
    obtain ⟨ht, ⟨hacks, -⟩ | ⟨-, o', ho', hq' | ⟨-, hq'⟩⟩⟩ := hc
    · rw [acks_of_none hnone] at hacks
      exact nomatch hacks
    · rw [hq] at hq'
      obtain ⟨hhead, rfl⟩ := List.cons_eq_cons.mp hq'
      obtain ⟨rfl, rfl⟩ := Cmd.cancel.inj hhead
      exact ⟨ho' hroch, ht, .inl ⟨rfl, rfl⟩⟩
    · rw [hq] at hq'
      obtain ⟨hhead, rfl⟩ := List.cons_eq_cons.mp hq'
      obtain ⟨rfl, rfl⟩ := Cmd.cancel.inj hhead
      exact ⟨rfl, ht, .inr ⟨rfl, o', nofun, .inl rfl⟩⟩
  suffices hs : o.Ends s.remainOnChCookie ∧
      (State.cancelRoChBegin e { s with cmdQueue := q } o acks).Course from h.ended hroch hs.1 hs.2
  have hcourse := h.course
  cases hpc : s.pc with
  | remainWait r =>
    rw [hpc] at hprep
    exact nomatch hprep
  | remainReady r =>
    rw [hpc] at hprep
    exact nomatch hprep
  | remainSetup r =>
    rw [State.Course, hpc] at hcourse
    rw [hcourse.1] at hroch
    exact nomatch hroch
  | remainCancelling r =>
    rw [State.Course, hpc] at hcourse
    exact hcanc hcourse
  | cancelWait =>
    rw [State.Course, hpc] at hcourse
    exact hcanc hcourse
  | _ =>
    rw [State.Course, hpc] at hcourse
    obtain ⟨ht, ho, rfl, rfl⟩ := hrest hcourse.1
    exact ⟨ho, ⟨ht, rfl⟩, rfl⟩

/-- A command that comes when the request is over does nothing but wake its caller. -/
theorem inv_late (h : s.Inv e) (hroch : s.isRoch = false) (hnone : s.handler = none)
    {o : Origin} {acks : Bool} {q : List Cmd} (hq : s.cmdQueue = .cancel o acks :: q) :
    (State.ackIf { s with cmdQueue := q } acks).Inv e := by
  obtain ⟨-, hat, -⟩ | ⟨⟨ht, hcanc⟩, hpc⟩ | ⟨-, -, hroch', -⟩ := h.stands
  · have hq' := (atRest_of_none hroch hat).2
    rw [hq] at hq'
    exact nomatch hq'
  · obtain ⟨rfl, rfl⟩ : acks = true ∧ q = [] := by
      obtain ⟨hacks, -⟩ | ⟨-, o', -, hq' | ⟨hroch', -⟩⟩ := hcanc
      · rw [acks_of_none hnone] at hacks
        exact nomatch hacks
      · rw [hq] at hq'
        obtain ⟨hhead, rfl⟩ := List.cons_eq_cons.mp hq'
        exact ⟨(Cmd.cancel.inj hhead).2, rfl⟩
      · rw [hroch] at hroch'
        exact nomatch hroch'
    have hrest (pc : Pc) : State.AtRest { s with cmdQueue := [], pc := pc } := by
      rw [State.AtRest, hroch]
      exact ⟨ht, rfl⟩
    have hstep : State.ackIf { s with cmdQueue := [] } true =
        { s with cmdQueue := [], pc := s.pc.acked } := rfl
    rw [hstep]
    obtain ⟨r, hpc⟩ | hpc := hpc
    · have hcomes := h.comes (r := r) (by rw [hpc]; rfl)
      rw [hpc]
      refine h.move (by rw [hpc]; rfl) ?_ (fun _ => rfl) ⟨hroch, hrest _, acks_of_none hnone⟩
      intro r' hr'
      obtain rfl := Option.some.inj hr'
      exact hcomes
    · rw [hpc]
      exact h.move (by rw [hpc]; rfl) nofun (fun _ => rfl) ⟨hrest _, acks_of_none hnone⟩
  · rw [hroch] at hroch'
    exact nomatch hroch'

theorem inv_cmdThread (h : s.Inv e) (hok : Ok s .cmdThread) : (s.cmdThread e).Inv e := by
  rw [State.cmdThread]
  split
  · next k hk => exact inv_reported h hk
  · exact h
  · next r acks q hnone hq => exact inv_roch h hq
  · next o acks q hnone hq =>
    have hprep : s.isRoch = true → s.pc.preparing = none := by
      rwa [Ok, hq] at hok
    dsimp only
    split
    · next hroch => exact inv_begins h hnone hroch (hprep hroch) hq
    · next hroch => exact inv_late h (Bool.not_eq_true _ ▸ hroch) hnone hq

theorem inv_timedOut (h : s.Inv e) (hwait : ¬ s.pc.Waits) : s.timedOut.Inv e := by
  obtain ⟨-, hat, hacks⟩ | ⟨-, ⟨r, hpc⟩ | hpc⟩ | ⟨r, hpc, -⟩ := h.stands
  · have hpc : s.pc.acked = s.pc := by
      cases hpc : s.pc with
      | remainCancelling r => exact absurd (by rw [hpc]; trivial) hwait
      | cancelWait => exact absurd (by rw [hpc]; trivial) hwait
      | remainWait r => exact absurd (by rw [hpc]; trivial) hwait
      | _ => rfl
    have hcmds : ∀ cmd ∈ s.cmdQueue, cmd.unacked = cmd := by
      cases hroch : s.isRoch with
      | true =>
        obtain ⟨-, hq⟩ | ⟨-, hq⟩ := atRest_of_armed hroch hat
        · rw [hq]
          exact nofun
        · rw [hq]
          intro cmd hcmd
          rw [List.mem_singleton.mp hcmd]
          rfl
      | false =>
        rw [(atRest_of_none hroch hat).2]
        exact nofun
    have hqueue : s.cmdQueue.map Cmd.unacked = s.cmdQueue :=
      (List.map_congr_left hcmds).trans (List.map_id _)
    have hhandler : (s.handler.map fun k => { k with acks := false }) = s.handler := by
      rw [State.acks] at hacks
      cases hh : s.handler with
      | none => rfl
      | some k =>
        rw [hh] at hacks
        obtain ⟨wdev, acks⟩ := k
        obtain rfl : acks = false := hacks
        rfl
    have hsame : s.timedOut = s := by
      rw [State.timedOut, hqueue, hhandler, State.ack, hpc]
    rw [hsame]
    exact h
  · exact absurd (by rw [hpc]; trivial) hwait
  · exact absurd (by rw [hpc]; trivial) hwait
  · exact absurd (by rw [hpc]; trivial) hwait

theorem step_inv (h : s.Inv e) {ev : Event} (hok : Ok s ev) : (step e s ev).Inv e := by
  cases ev with
  | remain wdev ch up => exact inv_remain h wdev ch up
  | cancel wdev cookie => exact inv_cancel h wdev cookie
  | caller ok recent => exact inv_caller h ok recent hok
  | timerFires ok => exact inv_timerFires h hok
  | cmdThread => exact inv_cmdThread h hok
  | timedOut => exact inv_timedOut h hok

end Steps

/-! ## Every run -/

/-- No request was made yet; channel, P2P and cookies are whatever they are. -/
structure Start (s : State) : Prop where
  isRoch : s.isRoch = false
  timer : s.timer = none
  cmdQueue : s.cmdQueue = []
  handler : s.handler = none
  pc : s.pc = .idle
  log : s.log = []
  begun : s.begun = []
  returned : s.returned = []
  ended : s.ended = []

theorem Start.inv {e : Env} {s : State} (hs : Start s) : s.Inv e where
  le := by rw [hs.begun]; exact nofun
  nodup := by rw [hs.begun]; exact List.nodup_nil
  coming := by rw [hs.pc]; exact nofun
  begun := by rw [hs.begun, State.endedCookies, hs.ended, hs.isRoch]; rfl
  returned := by rw [hs.begun, hs.returned, hs.pc]; rfl
  log c := by rw [hs.log, hs.returned]; rfl
  handler := by rw [hs.handler]; exact nofun
  course := by
    rw [State.Course, hs.pc, State.AtRest, State.acks, hs.isRoch, hs.handler]
    exact ⟨⟨hs.timer, hs.cmdQueue⟩, rfl⟩
  ends := by rw [hs.ended]; exact nofun
  base := by rw [hs.isRoch]; exact nofun
  back hne := absurd hs.ended hne
  overlaps := by rw [hs.pc]; exact nofun

/-- In every run whose steps meet the condition, requests are reported, ended and left
behind as they should be. -/
theorem roch_run (e : Env) {s : State} (hs : Start s) {es : List Event}
    (hes : Along (step e) Ok s es) : State.Sound e (run (step e) s es) :=
  (run_spec Ok (State.Inv e) (fun _ _ h hok => step_inv h hok) hs.inv hes).sound

def alone : Env where
  chset := [1, 6, 11]
  pos := by decide
  chSettingUnion := none
  stayInCurChan := none
  linked := false

def onChannel6 : State where
  operCh := 6
  listenChannel := 11
  p2pEnabled := true
  p2pState := .idle
  preP2pState := .none

def p2pOff : State := { onChannel6 with p2pEnabled := false, p2pState := .none }

theorem onChannel6_start : Start onChannel6 := by constructor <;> rfl

def readyOn (ch : ℕ) (ok : Bool) : List Event :=
  [.remain 1 ch true, .caller true false, .caller ok false, .cmdThread, .caller true false]

/-- One request ends by its timer, one by the next, and that one by a call. -/
def threeRequests : List Event :=
  readyOn 11 true ++ ([.timerFires true, .cmdThread, .cmdThread] : List Event) ++ readyOn 1 true ++
    ([.remain 2 6 true, .caller true false, .cmdThread, .cmdThread, .caller true false, .cmdThread,
      .caller true false, .cancel 2 3, .caller true false, .cmdThread, .cmdThread] : List Event)

theorem roch_run_three :
    State.Sound alone (run (step alone) onChannel6 threeRequests) :=
  roch_run alone onChannel6_start (by decide +kernel)

/-- The command is lost, a call names another cookie, P2P was off, the timer comes before
the report. -/
theorem roch_lost :
    ¬ State.Sound alone (run (step alone) onChannel6 (readyOn 11 false)) ∧
      ¬ State.Sound alone (run (step alone) onChannel6
        (readyOn 11 true ++ [.cancel 2 7, .caller true false, .cmdThread])) ∧
      ¬ State.Sound alone (run (step alone) p2pOff
        (readyOn 11 true ++ [.timerFires true, .cmdThread, .cmdThread])) ∧
      ¬ State.Sound alone (run (step alone) onChannel6
        ((readyOn 11 true).dropLast ++ [.timerFires true, .cmdThread, .cmdThread])) :=
  ⟨fun h => absurd (h.onItsWay 1 (by decide +kernel) (by decide +kernel)) (by decide +kernel),
    fun h => absurd (h.ends (1, .call 7) (by decide +kernel)) (by decide +kernel),
    fun h => absurd (h.back (by decide +kernel) (by decide +kernel)) (by decide +kernel),
    fun h => absurd (h.silent 1 (by decide +kernel)) (by decide +kernel)⟩

end Rtl8189.RemainOnChannel
