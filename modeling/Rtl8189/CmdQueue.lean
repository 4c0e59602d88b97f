import Mathlib.Data.List.Count
import Mathlib.Data.List.Nodup
import Mathlib.Data.List.Perm.Basic
import Mathlib.Data.List.Sublists
import Rtl8189.PowerHandshake

/-!
# The command queue and its thread

Callers put command objects into a queue and post a semaphore; one thread takes
them out, executes them and frees them. A command that needs the chip while the
firmware sleeps goes back to the head of the queue, and the thread waits for the
post of the CPWM interrupt. The steps of a caller and of the thread are taken apart
where they touch shared state.
-/
namespace Rtl8189.CmdQueue

open PowerHandshake (Adapter Iface psStateS2 cmdAlive)

def maxCmdsz : ℕ := 1024

def h2cSuccess : ℕ := 0
def h2cDropped : ℕ := 3
def h2cParametersError : ℕ := 4

def disConnect : ℕ := 15
def setChannelPlan : ℕ := 59

/-- The codes with a handler in `wlancmds`; for 1 to 5 it is `NULL_hdl`. -/
def wlancmds : List ℕ :=
  [0, 1, 2, 3, 4, 5, 14, disConnect, 16, 17, 18, 19, 20, 21, 45, 46, 55, 56, 57, 58,
    setChannelPlan, 60, 61, 62, 63, 64, 65, 66]

def wlancmdsSize : ℕ := 67

structure Cmd where
  id : ℕ
  cmdcode : ℕ
  cmdsz : ℕ := 0
  noIo : Bool := false
  parmbuf : Bool := true
  rsp : Bool := false
  sctx : Bool := false
  deriving DecidableEq, Repr

/-- A command object that was freed, and which of its buffers with it. -/
structure Freed where
  cmd : Cmd
  parmbuf : Bool
  rsp : Bool
  deriving DecidableEq, Repr

def rtwFreeCmdObj (pcmd : Cmd) : Freed :=
  { cmd := pcmd, parmbuf := pcmd.parmbuf, rsp := pcmd.rsp }

def rtwGetbbrfregCmdrspCallback (pcmd : Cmd) : Freed :=
  { cmd := pcmd, parmbuf := pcmd.parmbuf, rsp := false }

/-- A disconnect that did not succeed is not freed. -/
def rtwDisassocCmdCallback (pcmd : Cmd) (res : ℕ) : Option Freed :=
  if res ≠ h2cSuccess then none else some (rtwFreeCmdObj pcmd)

/-- `rtw_cmd_callback`: what frees the object after the command; the callbacks of the
other codes end with `rtw_free_cmd_obj`, as does a command without one. -/
def rtwCmdCallback (pcmd : Cmd) (res : ℕ) : Option Freed :=
  if pcmd.cmdcode = disConnect then rtwDisassocCmdCallback pcmd res
  else if pcmd.cmdcode = 2 ∨ pcmd.cmdcode = 4 then some (rtwGetbbrfregCmdrspCallback pcmd)
  else some (rtwFreeCmdObj pcmd)

def rtwCmdFilter (hwInitCompleted cmdthdRunning : Bool) (pcmd : Cmd) : Bool :=
  let bAllow := decide (pcmd.cmdcode = setChannelPlan) || pcmd.noIo
  !((!hwInitCompleted && !bAllow) || !cmdthdRunning)

/-- Where the thread is: waiting for its semaphore, before the test for an empty queue,
at `_next`, about to go to sleep with an empty queue, with a command in hand, or on its
way out. -/
inductive Pc
  | down
  | woken
  | next
  | idle
  | got (pcmd : Cmd)
  | enqHead (pcmd : Cmd)
  | execute (pcmd : Cmd)
  | postProcess (pcmd : Cmd) (res : ℕ)
  | leave
  | stopping
  | drain
  | gone
  deriving DecidableEq, Repr

inductive Fate
  | executed
  | dropped
  deriving DecidableEq, Repr

/-- The queue, its semaphore and thread, the callers inside `rtw_enqueue_cmd`, the power
state, and the history of the command objects. -/
structure Sys where
  adapter : Adapter
  power : PowerHandshake.Sys
  queue : List Cmd := []
  sema : ℕ := 0
  cmdthdRunning : Bool := true
  pc : Pc := .down
  /-- Past the filter and not in the queue yet. -/
  callers : List Cmd := []
  /-- In the queue, their post still to come. -/
  posting : ℕ := 0
  stopCalled : Bool := false
  nextId : ℕ := 0
  refused : List Freed := []
  enqueued : List Cmd := []
  settled : List (Cmd × Fate) := []
  completed : List Cmd := []
  freed : List Freed := []

def Sys.cannotRun (s : Sys) : Bool := s.adapter.surpriseRemoved || s.adapter.drvStopped

def Sys.withPower (s : Sys) (e : PowerHandshake.Event) : Sys :=
  let p := PowerHandshake.step s.adapter s.power e
  { s with power := p, sema := s.sema + (p.cmdQueueSema - s.power.cmdQueueSema) }

def Sys.sctxDone (s : Sys) (pcmd : Cmd) : Sys :=
  if pcmd.sctx then { s with completed := s.completed ++ [pcmd] } else s

def Sys.settle (s : Sys) (pcmd : Cmd) (fate : Fate) (res : ℕ) : Sys :=
  { s with settled := s.settled ++ [(pcmd, fate)], pc := .postProcess pcmd res }

def Sys.drop (s : Sys) (pcmd : Cmd) : Sys :=
  let s := ({ s with settled := s.settled ++ [(pcmd, .dropped)] } : Sys).sctxDone pcmd
  { s with freed := s.freed ++ [rtwFreeCmdObj pcmd] }

/-- What one step of the thread meets: the result of the handler and the interfaces. -/
structure Env where
  ret : ℕ := h2cSuccess
  ifaces : List Iface := []

def Sys.check (env : Env) (s : Sys) (pcmd : Cmd) : Sys :=
  if maxCmdsz < pcmd.cmdsz ∨ wlancmdsSize ≤ pcmd.cmdcode ∨ pcmd.cmdcode ∉ wlancmds then
    s.settle pcmd .dropped h2cParametersError
  else if rtwCmdFilter s.adapter.hwInitCompleted s.cmdthdRunning pcmd = false then
    s.settle pcmd .dropped h2cDropped
  else if pcmd.noIo then
    { s.withPower (.unregisterCmd env.ifaces) with pc := .execute pcmd }
  else if (PowerHandshake.rtwRegisterCmdAlive s.adapter s.power.pwr).success then
    { s.withPower .registerCmd with pc := .execute pcmd }
  else
    { s.withPower .registerCmd with pc := .enqHead pcmd }

/-- One step of `rtw_cmd_thread`. -/
def Sys.thread (env : Env) (s : Sys) : Sys :=
  match s.pc with
  | .down => if s.sema = 0 then s else { s with sema := s.sema - 1, pc := .woken }
  | .woken =>
    if s.cannotRun then { s with pc := .leave }
    else if s.queue = [] then { s with pc := .down }
    else { s with pc := .next }
  | .next =>
    if s.cannotRun then { s with pc := .leave }
    else
      match s.queue with
      | [] => { s with pc := .idle }
      | pcmd :: rest => { s with queue := rest, pc := .got pcmd }
  | .idle => { s.withPower (.unregisterCmd env.ifaces) with pc := .down }
  | .got pcmd => s.check env pcmd
  | .enqHead pcmd => { s with queue := pcmd :: s.queue, pc := .down }
  | .execute pcmd => s.settle pcmd .executed env.ret
  | .postProcess pcmd res =>
    let s := s.sctxDone pcmd
    { s with freed := s.freed ++ (rtwCmdCallback pcmd res).toList, pc := .next }
  | .leave => { s.withPower (.unregisterCmd env.ifaces) with pc := .stopping }
  | .stopping => { s with cmdthdRunning := false, pc := .drain }
  | .drain =>
    match s.queue with
    | [] => { s with pc := .gone }
    | pcmd :: rest => ({ s with queue := rest } : Sys).drop pcmd
  | .gone => s

/-- The operations of the other tasks; the thread alone registers as the command task. -/
inductive Other
  | registerTask (t : PowerHandshake.Task) (h : t ≠ cmdAlive)
  | registerTx
  | unregisterTask (t : PowerHandshake.Task) (h : t ≠ cmdAlive)
  | unregisterTx (ifaces : List Iface)
  | setPsMode (r : PowerHandshake.PsRequest)
  | cpwmInt

def Other.event : Other → PowerHandshake.Event
  | .registerTask t _ => .registerTask t
  | .registerTx => .registerTx
  | .unregisterTask t _ => .unregisterTask t
  | .unregisterTx ifaces => .unregisterTx ifaces
  | .setPsMode r => .setPsMode r
  | .cpwmInt => .cpwmInt

/-- The three parts of `rtw_enqueue_cmd`, for any number of callers; the thread, which a
signal can take out of its wait; the power state; and the driver's start and stop. -/
inductive Event
  | filter (cmd : Cmd)
  | insert (k : ℕ)
  | post
  | thread (env : Env)
  | signal
  | power (o : Other)
  | hwInit (b : Bool)
  | drvStop
  | stopCmdThread

def step (s : Sys) : Event → Sys
  | .filter cmd =>
    let pcmd := { cmd with id := s.nextId }
    let s := { s with nextId := s.nextId + 1 }
    if rtwCmdFilter s.adapter.hwInitCompleted s.cmdthdRunning pcmd = false ∨
        maxCmdsz < pcmd.cmdsz then
      { s with refused := s.refused ++ [rtwFreeCmdObj pcmd] }
    else { s with callers := s.callers ++ [pcmd] }
  | .insert k =>
    match s.callers[k]? with
    | none => s
    | some pcmd =>
      { s with
        callers := s.callers.eraseIdx k
        queue := s.queue ++ [pcmd]
        enqueued := s.enqueued ++ [pcmd]
        posting := s.posting + 1 }
  | .post => if s.posting = 0 then s else { s with posting := s.posting - 1, sema := s.sema + 1 }
  | .thread env => s.thread env
  | .signal => if s.pc = .down then { s with pc := .leave } else s
  | .power o => s.withPower o.event
  | .hwInit b => { s with adapter := { s.adapter with hwInitCompleted := b } }
  | .drvStop => { s with adapter := { s.adapter with drvStopped := true } }
  | .stopCmdThread =>
    -- `rtw_stop_cmd_thread` is called once the driver is marked as stopped
    if s.adapter.drvStopped then { s with sema := s.sema + 1, stopCalled := true } else s

def Pc.inHand : Pc → List Cmd
  | .got pcmd | .enqHead pcmd | .execute pcmd => [pcmd]
  | _ => []

def Pc.inPost : Pc → List Cmd
  | .postProcess pcmd _ => [pcmd]
  | _ => []

def Sys.settledCmds (s : Sys) : List Cmd := s.settled.map Prod.fst

def Sys.executed (s : Sys) : List Cmd :=
  (s.settled.filter fun x => decide (x.2 = .executed)).map Prod.fst

def Sys.pending (s : Sys) : List Cmd := s.pc.inHand ++ s.queue

/-! ## What the claims about a state are -/

/-- A command is executed once or dropped once, unless it is still pending; nothing is
pending when the thread is gone. -/
def EachOnce (s : Sys) : Prop :=
  (∀ c ∈ s.enqueued, s.settledCmds.count c + s.pending.count c = 1) ∧
  (s.pc = .gone → s.pending = [])

/-- The commands are settled, and hence executed, in the order of the queue. -/
def InOrder (s : Sys) : Prop :=
  s.settledCmds ++ s.pending = s.enqueued ∧ s.executed.Sublist s.enqueued

/-- A command is freed once, with its parameter buffer, when it is settled. -/
def FreedOnce (s : Sys) : Prop :=
  (∀ c ∈ s.enqueued, (s.freed.map Freed.cmd).count c + s.pc.inPost.count c =
    s.settledCmds.count c) ∧
  ∀ f ∈ s.freed, f.parmbuf = f.cmd.parmbuf

/-- A waiting context is completed once, when its command is settled. -/
def CompletedOnce (s : Sys) : Prop :=
  ∀ c ∈ s.enqueued, c.sctx = true →
    s.completed.count c + s.pc.inPost.count c = s.settledCmds.count c

/-- A thread that waits while there are commands has a post, or one will come: from a
caller, from the answer to a wake request, or from the stop that has begun. -/
def NoLostPost (s : Sys) : Prop :=
  s.pc = .down → s.queue ≠ [] →
    0 < s.sema ∨ 0 < s.posting ∨
    (s.adapter.drvStopped = false ∧ s.power.Outstanding ∧ s.power.pwr.alive cmdAlive = true) ∨
    (s.adapter.drvStopped = true ∧ s.stopCalled = false)

/-- No command comes in after the thread has gone; a disconnect that reaches its callback
has succeeded; and a channel plan that needs the chip does not find the firmware asleep
while the hardware is not initialised. -/
def InStep (s : Sys) : Event → Prop
  | .insert _ => s.pc ≠ .gone
  | .thread _ =>
    match s.pc with
    | .postProcess pcmd res => pcmd.cmdcode = disConnect → res = h2cSuccess
    | .got pcmd =>
      s.adapter.hwInitCompleted = false → pcmd.cmdcode = setChannelPlan → pcmd.noIo = false →
        s.power.pwr.bFwCurrentInPSMode = false ∨ psStateS2 ≤ s.power.pwr.cpwm
    | _ => True
  | _ => True

structure Start (s : Sys) : Prop where
  fresh : s = { adapter := s.adapter, power := s.power }
  present : s.adapter.surpriseRemoved = false
  level : s.adapter.lpsLevel ≠ .normal
  awake : PowerHandshake.Awake s.power

/-! ## The history of the commands -/

variable {s : Sys} {env : Env} {pcmd : Cmd}

theorem check_cases (env : Env) (s : Sys) (pcmd : Cmd) :
    (∃ res, s.check env pcmd = s.settle pcmd .dropped res) ∨
    (∃ e, s.check env pcmd = { s.withPower e with pc := .execute pcmd } ∧
      (e = .unregisterCmd env.ifaces ∨ (e = .registerCmd ∧
        (PowerHandshake.rtwRegisterCmdAlive s.adapter s.power.pwr).success = true))) ∨
    (s.check env pcmd = { s.withPower .registerCmd with pc := .enqHead pcmd } ∧
      (PowerHandshake.rtwRegisterCmdAlive s.adapter s.power.pwr).success = false ∧
      rtwCmdFilter s.adapter.hwInitCompleted s.cmdthdRunning pcmd = true ∧ pcmd.noIo = false) := by
  simp only [Sys.check]
  split_ifs with hbad hfilter hio hreg
  · exact Or.inl ⟨_, rfl⟩
  · exact Or.inl ⟨_, rfl⟩
  · exact Or.inr (Or.inl ⟨_, rfl, Or.inl rfl⟩)
  · exact Or.inr (Or.inl ⟨_, rfl, Or.inr ⟨rfl, hreg⟩⟩)
  · exact Or.inr (Or.inr ⟨rfl, Bool.eq_false_of_not_eq_true hreg,
      Bool.eq_true_of_not_eq_false hfilter, Bool.eq_false_of_not_eq_true hio⟩)

theorem sctxDone_eq (s : Sys) (pcmd : Cmd) :
    s.sctxDone pcmd = { s with completed := s.completed ++ [pcmd].filter (·.sctx) } := by
  rw [Sys.sctxDone]
  split_ifs with h
  · rw [List.filter_cons_of_pos h, List.filter_nil]
  · rw [List.filter_cons_of_neg h, List.filter_nil, List.append_nil]

theorem drop_eq (s : Sys) (pcmd : Cmd) :
    s.drop pcmd = { s with
      settled := s.settled ++ [(pcmd, .dropped)]
      completed := s.completed ++ [pcmd].filter (·.sctx)
      freed := s.freed ++ [rtwFreeCmdObj pcmd] } := by
  rw [Sys.drop, sctxDone_eq]

/-- All that a step can do to the history of the commands. -/
inductive Moves (s t : Sys) : Prop
  | keep (hs : t.settled = s.settled) (hp : t.pending = s.pending)
      (hpost : t.pc.inPost = s.pc.inPost) (hc : t.completed = s.completed)
      (hf : t.freed = s.freed) (he : t.enqueued = s.enqueued)
  | settle (pcmd : Cmd) (fate : Fate) (hs : t.settled = s.settled ++ [(pcmd, fate)])
      (hp : s.pending = pcmd :: t.pending) (hpost : s.pc.inPost = [])
      (hpost' : t.pc.inPost = [pcmd]) (hc : t.completed = s.completed) (hf : t.freed = s.freed)
      (he : t.enqueued = s.enqueued)
  | done (pcmd : Cmd) (res : ℕ) (hpc : s.pc = .postProcess pcmd res) (hs : t.settled = s.settled)
      (hp : t.pending = s.pending) (hpost' : t.pc.inPost = [])
      (hc : t.completed = s.completed ++ [pcmd].filter (·.sctx))
      (hf : t.freed = s.freed ++ (rtwCmdCallback pcmd res).toList) (he : t.enqueued = s.enqueued)
  | drop (pcmd : Cmd) (hs : t.settled = s.settled ++ [(pcmd, .dropped)])
      (hp : s.pending = pcmd :: t.pending) (hpost : s.pc.inPost = []) (hpost' : t.pc.inPost = [])
      (hc : t.completed = s.completed ++ [pcmd].filter (·.sctx))
      (hf : t.freed = s.freed ++ [rtwFreeCmdObj pcmd]) (he : t.enqueued = s.enqueued)
  | enqueue (pcmd : Cmd) (hs : t.settled = s.settled) (hp : t.pending = s.pending ++ [pcmd])
      (hpost : t.pc.inPost = s.pc.inPost) (hc : t.completed = s.completed)
      (hf : t.freed = s.freed) (he : t.enqueued = s.enqueued ++ [pcmd])

theorem Moves.of_pc {t : Sys} {pc : Pc} (hpc : s.pc = pc) (hs : t.settled = s.settled)
    (hp : t.pending = pc.inHand ++ s.queue) (hpost : t.pc.inPost = pc.inPost)
    (hc : t.completed = s.completed) (hf : t.freed = s.freed) (he : t.enqueued = s.enqueued) :
    Moves s t :=
  .keep hs (by rw [hp, Sys.pending, hpc]) (by rw [hpost, hpc]) hc hf he

theorem moves_settle (hpc : s.pc.inHand = [pcmd]) (hpost : s.pc.inPost = []) (fate : Fate)
    (res : ℕ) : Moves s (s.settle pcmd fate res) :=
  .settle pcmd fate rfl (by rw [Sys.pending, hpc]; rfl) hpost rfl rfl rfl rfl

theorem moves_check (hpc : s.pc = .got pcmd) : Moves s (s.check env pcmd) := by
  rcases check_cases env s pcmd with ⟨res, heq⟩ | ⟨e, heq, -⟩ | ⟨heq, -⟩
  · rw [heq]
    exact moves_settle (by rw [hpc]; rfl) (by rw [hpc]; rfl) .dropped res
  · rw [heq]
    exact .of_pc hpc rfl rfl rfl rfl rfl rfl
  · rw [heq]
    exact .of_pc hpc rfl rfl rfl rfl rfl rfl

theorem moves_thread (env : Env) (s : Sys) : Moves s (s.thread env) := by
  cases hpc : s.pc with
  | down =>
    simp only [Sys.thread, hpc]
    split
    · exact .keep rfl rfl rfl rfl rfl rfl
    · exact .of_pc hpc rfl rfl rfl rfl rfl rfl
  | woken =>
    simp only [Sys.thread, hpc]
    split_ifs
    · exact .of_pc hpc rfl rfl rfl rfl rfl rfl
    · exact .of_pc hpc rfl rfl rfl rfl rfl rfl
    · exact .of_pc hpc rfl rfl rfl rfl rfl rfl
  | next =>
    simp only [Sys.thread, hpc]
    split
    · exact .of_pc hpc rfl rfl rfl rfl rfl rfl
    · split
      · exact .of_pc hpc rfl rfl rfl rfl rfl rfl
      · next pcmd rest hq => exact .of_pc hpc rfl hq.symm rfl rfl rfl rfl
  | idle =>
    simp only [Sys.thread, hpc]
    exact .of_pc hpc rfl rfl rfl rfl rfl rfl
  | got pcmd =>
    simp only [Sys.thread, hpc]
    exact moves_check hpc
  | enqHead pcmd =>
    simp only [Sys.thread, hpc]
    exact .of_pc hpc rfl rfl rfl rfl rfl rfl
  | execute pcmd =>
    simp only [Sys.thread, hpc]
    exact moves_settle (by rw [hpc]; rfl) (by rw [hpc]; rfl) .executed env.ret
  | postProcess pcmd res =>
    simp only [Sys.thread, hpc, sctxDone_eq]
    exact .done pcmd res hpc rfl (by rw [Sys.pending, Sys.pending, hpc]; rfl) rfl rfl rfl rfl
  | leave =>
    simp only [Sys.thread, hpc]
    exact .of_pc hpc rfl rfl rfl rfl rfl rfl
  | stopping =>
    simp only [Sys.thread, hpc]
    exact .of_pc hpc rfl rfl rfl rfl rfl rfl
  | drain =>
    simp only [Sys.thread, hpc]
    split
    · exact .of_pc hpc rfl rfl rfl rfl rfl rfl
    · next pcmd rest hq =>
      rw [drop_eq]
      refine .drop pcmd rfl ?_ (by rw [hpc]; rfl) rfl rfl rfl rfl
      simp only [Sys.pending, hpc, hq, Pc.inHand, List.nil_append]
  | gone =>
    simp only [Sys.thread, hpc]
    exact .keep rfl rfl rfl rfl rfl rfl

theorem step_moves (s : Sys) (e : Event) : Moves s (step s e) := by
  cases e with
  | filter cmd =>
    simp only [step]
    split <;> exact .keep rfl rfl rfl rfl rfl rfl
  | insert k =>
    simp only [step]
    split
    · exact .keep rfl rfl rfl rfl rfl rfl
    · next pcmd hk => exact .enqueue pcmd rfl (List.append_assoc _ _ _).symm rfl rfl rfl rfl
  | post =>
    simp only [step]
    split <;> exact .keep rfl rfl rfl rfl rfl rfl
  | thread env => exact moves_thread env s
  | signal =>
    simp only [step]
    split
    · next hpc => exact .of_pc hpc rfl rfl rfl rfl rfl rfl
    · exact .keep rfl rfl rfl rfl rfl rfl
  | power o => exact .keep rfl rfl rfl rfl rfl rfl
  | hwInit b => exact .keep rfl rfl rfl rfl rfl rfl
  | drvStop => exact .keep rfl rfl rfl rfl rfl rfl
  | stopCmdThread =>
    simp only [step]
    split <;> exact .keep rfl rfl rfl rfl rfl rfl

/-- What was settled, followed by what is pending, is what was enqueued, and the contexts
completed are those of the settled commands. -/
structure History (s : Sys) : Prop where
  order : s.settledCmds ++ s.pending = s.enqueued
  completed : s.completed ++ s.pc.inPost.filter (·.sctx) = s.settledCmds.filter (·.sctx)

theorem settledCmds_append {t : Sys} {fate : Fate}
    (hs : t.settled = s.settled ++ [(pcmd, fate)]) : t.settledCmds = s.settledCmds ++ [pcmd] := by
  rw [Sys.settledCmds, hs, List.map_append, List.map_singleton]
  rfl

theorem settledCmds_congr {t : Sys} (hs : t.settled = s.settled) :
    t.settledCmds = s.settledCmds :=
  congrArg (List.map Prod.fst) hs

theorem History.moves (h : History s) {t : Sys} (hm : Moves s t) : History t := by
  obtain ⟨horder, hdone⟩ := h
  cases hm with
  | keep hs hp hpost hc hf he =>
    refine ⟨?_, ?_⟩
    · rw [settledCmds_congr hs, hp, he, horder]
    · rw [settledCmds_congr hs, hc, hpost, hdone]
  | settle pcmd fate hs hp hpost hpost' hc hf he =>
    refine ⟨?_, ?_⟩
    · rw [settledCmds_append hs, he, ← horder, hp, List.append_assoc, List.singleton_append]
    · rw [hpost, List.filter_nil, List.append_nil] at hdone
      rw [settledCmds_append hs, hc, hpost', List.filter_append, hdone]
  | done pcmd res hpc hs hp hpost' hc hf he =>
    refine ⟨?_, ?_⟩
    · rw [settledCmds_congr hs, hp, he, horder]
    · rw [settledCmds_congr hs, hc, hpost', List.filter_nil, List.append_nil, ← hdone, hpc]
      rfl
  | drop pcmd hs hp hpost hpost' hc hf he =>
    refine ⟨?_, ?_⟩
    · rw [settledCmds_append hs, he, ← horder, hp, List.append_assoc, List.singleton_append]
    · rw [hpost, List.filter_nil, List.append_nil] at hdone
      rw [settledCmds_append hs, hc, hpost', List.filter_nil, List.append_nil,
        List.filter_append, hdone]
  | enqueue pcmd hs hp hpost hc hf he =>
    refine ⟨?_, ?_⟩
    · rw [settledCmds_congr hs, hp, he, ← horder, List.append_assoc]
    · rw [settledCmds_congr hs, hc, hpost, hdone]

/-- Every settled command past its callback is freed, with its parameter buffer. -/
structure Frees (s : Sys) : Prop where
  cmds : s.freed.map Freed.cmd ++ s.pc.inPost = s.settledCmds
  parmbuf : ∀ f ∈ s.freed, f.parmbuf = f.cmd.parmbuf

theorem rtwCmdCallback_frees {res : ℕ} (h : pcmd.cmdcode = disConnect → res = h2cSuccess) :
    ∃ f, rtwCmdCallback pcmd res = some f ∧ f.cmd = pcmd ∧ f.parmbuf = pcmd.parmbuf := by
  simp only [rtwCmdCallback, rtwDisassocCmdCallback]
  split_ifs with hcode hres
  · exact absurd (h hcode) hres
  · exact ⟨_, rfl, rfl, rfl⟩
  · exact ⟨_, rfl, rfl, rfl⟩
  · exact ⟨_, rfl, rfl, rfl⟩

theorem Frees.append (h : Frees s) {t : Sys} {f : Freed} (hf : t.freed = s.freed ++ [f])
    (hparm : f.parmbuf = f.cmd.parmbuf)
    (hcmds : s.freed.map Freed.cmd ++ [f.cmd] ++ t.pc.inPost = t.settledCmds) : Frees t := by
  refine ⟨?_, fun g hg => ?_⟩
  · rw [hf, List.map_append, List.map_singleton]
    exact hcmds
  · rw [hf] at hg
    rcases List.mem_append.mp hg with hold | hnew
    · exact h.parmbuf g hold
    · rw [List.mem_singleton.mp hnew]
      exact hparm

theorem Frees.moves (h : Frees s) {t : Sys} (hm : Moves s t)
    (hdis : ∀ pcmd res, s.pc = .postProcess pcmd res → t.pc.inPost = [] →
      pcmd.cmdcode = disConnect → res = h2cSuccess) : Frees t := by
  have hcmds := h.cmds
  cases hm with
  | keep hs hp hpost hc hf he =>
    refine ⟨?_, hf ▸ h.parmbuf⟩
    rw [settledCmds_congr hs, hf, hpost, hcmds]
  | settle pcmd fate hs hp hpost hpost' hc hf he =>
    refine ⟨?_, hf ▸ h.parmbuf⟩
    rw [hpost, List.append_nil] at hcmds
    rw [settledCmds_append hs, hf, hpost', hcmds]
  | done pcmd res hpc hs hp hpost' hc hf he =>
    obtain ⟨f, hsome, hcmd, hparm⟩ := rtwCmdCallback_frees (hdis pcmd res hpc hpost')
    rw [hsome] at hf
    refine h.append hf (hcmd ▸ hparm) ?_
    rw [settledCmds_congr hs, hpost', List.append_nil, hcmd, ← hcmds, hpc]
    rfl
  | drop pcmd hs hp hpost hpost' hc hf he =>
    rw [hpost, List.append_nil] at hcmds
    refine h.append hf rfl ?_
    rw [settledCmds_append hs, hpost', List.append_nil, hcmds]
    rfl
  | enqueue pcmd hs hp hpost hc hf he =>
    refine ⟨?_, hf ▸ h.parmbuf⟩
    rw [settledCmds_congr hs, hf, hpost, hcmds]

theorem Frees.step (h : Frees s) {e : Event} (hin : InStep s e) : Frees (step s e) := by
  refine h.moves (step_moves s e) fun pcmd res hpc hpost => ?_
  -- only the thread gets past the callback
  have hstays : (CmdQueue.step s e).pc = s.pc → pcmd.cmdcode = disConnect → res = h2cSuccess := by
    intro hsame
    rw [hsame, hpc] at hpost
    cases hpost
  cases e with
  | thread env =>
    simp only [InStep, hpc] at hin
    exact hin
  | filter cmd =>
    refine hstays ?_
    simp only [CmdQueue.step]
    split <;> rfl
  | insert k =>
    refine hstays ?_
    simp only [CmdQueue.step]
    split <;> rfl
  | post =>
    refine hstays ?_
    simp only [CmdQueue.step]
    split <;> rfl
  | signal =>
    refine hstays ?_
    simp only [CmdQueue.step]
    exact congrArg Sys.pc (if_neg (by rw [hpc]; exact nofun))
  | power o => exact hstays rfl
  | hwInit b => exact hstays rfl
  | drvStop => exact hstays rfl
  | stopCmdThread =>
    refine hstays ?_
    simp only [CmdQueue.step]
    split <;> rfl

structure Distinct (s : Sys) : Prop where
  ids : ((s.enqueued ++ s.callers).map Cmd.id).Nodup
  fresh : ∀ c ∈ s.enqueued ++ s.callers, c.id < s.nextId

theorem Distinct.congr (h : Distinct s) {t : Sys} (he : t.enqueued = s.enqueued)
    (hc : t.callers = s.callers) (hn : s.nextId ≤ t.nextId) : Distinct t := by
  refine ⟨?_, fun c hmem => ?_⟩
  · rw [he, hc]
    exact h.ids
  · rw [he, hc] at hmem
    exact Nat.lt_of_lt_of_le (h.fresh c hmem) hn

/-- The thread leaves the callers and what they put into the queue alone. -/
theorem thread_callers (env : Env) (s : Sys) : (s.thread env).enqueued = s.enqueued ∧
    (s.thread env).callers = s.callers ∧ (s.thread env).nextId = s.nextId := by
  cases hpc : s.pc with
  | got pcmd =>
    simp only [Sys.thread, hpc]
    rcases check_cases env s pcmd with ⟨res, heq⟩ | ⟨e, heq, -⟩ | ⟨heq, -⟩
    · rw [heq]
      exact ⟨rfl, rfl, rfl⟩
    · rw [heq]
      exact ⟨rfl, rfl, rfl⟩
    · rw [heq]
      exact ⟨rfl, rfl, rfl⟩
  | down =>
    simp only [Sys.thread, hpc]
    split <;> exact ⟨rfl, rfl, rfl⟩
  | woken =>
    simp only [Sys.thread, hpc]
    split_ifs <;> exact ⟨rfl, rfl, rfl⟩
  | next =>
    simp only [Sys.thread, hpc]
    split
    · exact ⟨rfl, rfl, rfl⟩
    · split <;> exact ⟨rfl, rfl, rfl⟩
  | drain =>
    simp only [Sys.thread, hpc]
    split
    · exact ⟨rfl, rfl, rfl⟩
    · rw [drop_eq]
      exact ⟨rfl, rfl, rfl⟩
  | postProcess pcmd res => simp [Sys.thread, hpc, sctxDone_eq]
  | idle | enqHead _ | execute _ | leave | stopping | gone =>
    simp [Sys.thread, hpc, Sys.withPower, Sys.settle]

theorem Distinct.step (h : Distinct s) (e : Event) : Distinct (step s e) := by
  cases e with
  | filter cmd =>
    simp only [CmdQueue.step]
    split
    · exact h.congr rfl rfl (Nat.le_succ _)
    · have hnot : ∀ c ∈ s.enqueued ++ s.callers, c.id ≠ s.nextId :=
        fun c hc => Nat.ne_of_lt (h.fresh c hc)
      refine ⟨?_, fun c hc => ?_⟩
      · simp only [← List.append_assoc, List.map_append, List.map_singleton] at hnot ⊢
        refine List.nodup_append.mpr ⟨?_, List.nodup_singleton _, ?_⟩
        · rw [← List.map_append]
          exact h.ids
        · intro i hi j hj
          rw [← List.map_append] at hi
          obtain ⟨c, hc, rfl⟩ := List.mem_map.mp hi
          rw [List.mem_singleton.mp hj]
          exact hnot c hc
      · rw [← List.append_assoc] at hc
        rcases List.mem_append.mp hc with hold | hnew
        · exact Nat.lt_succ_of_lt (h.fresh c hold)
        · rw [List.mem_singleton.mp hnew]
          exact Nat.lt_succ_self _
  | insert k =>
    simp only [CmdQueue.step]
    split
    · exact h
    · next pcmd hk =>
      obtain ⟨hlt, hget⟩ := List.getElem?_eq_some_iff.mp hk
      have hperm : (s.enqueued ++ [pcmd] ++ s.callers.eraseIdx k).Perm
          (s.enqueued ++ s.callers) := by
        rw [List.append_assoc, List.singleton_append, ← hget]
        exact (List.getElem_cons_eraseIdx_perm hlt).append_left _
      exact ⟨(hperm.map Cmd.id).nodup_iff.mpr h.ids, fun c hc => h.fresh c (hperm.mem_iff.mp hc)⟩
  | post =>
    simp only [CmdQueue.step]
    split <;> exact h.congr rfl rfl le_rfl
  | thread env =>
    obtain ⟨he, hc, hn⟩ := thread_callers env s
    exact h.congr he hc hn.ge
  | signal =>
    simp only [CmdQueue.step]
    split <;> exact h.congr rfl rfl le_rfl
  | power o => exact h.congr rfl rfl le_rfl
  | hwInit b => exact h.congr rfl rfl le_rfl
  | drvStop => exact h.congr rfl rfl le_rfl
  | stopCmdThread =>
    simp only [CmdQueue.step]
    split <;> exact h.congr rfl rfl le_rfl

/-! ## Wake-ups -/

/-- The registration was refused, and every post that came since is still in the
semaphore. -/
def Refused (s : Sys) : Prop :=
  ∃ n, s.power.failed cmdAlive = some n ∧ s.power.cmdQueueSema ≤ n + s.sema

def Pc.busy : Pc → Bool
  | .down | .idle | .enqHead _ | .gone => false
  | _ => true

def Pc.leaving : Pc → Bool
  | .woken | .leave | .stopping | .drain | .gone => true
  | _ => false

structure Wakes (s : Sys) : Prop where
  present : s.adapter.surpriseRemoved = false
  level : s.adapter.lpsLevel ≠ .normal
  waits : PowerHandshake.Waits (· = cmdAlive) s.power
  down : s.pc = .down → s.queue ≠ [] → 0 < s.sema ∨ 0 < s.posting ∨ Refused s
  idle : s.pc = .idle → s.queue ≠ [] → 0 < s.sema ∨ 0 < s.posting
  enqHead : ∀ pcmd, s.pc = .enqHead pcmd → Refused s
  gone : s.pc = .gone → s.queue = []
  stopped : s.stopCalled = true →
    s.adapter.drvStopped = true ∧ (0 < s.sema ∨ s.pc.leaving = true)

theorem Wakes.cannotRun (h : Wakes s) (hs : s.stopCalled = true) : s.cannotRun = true := by
  rw [Sys.cannotRun, (h.stopped hs).1, Bool.or_true]

theorem Wakes.sema_pos (h : Wakes s) (hpc : s.pc.leaving = false) (hs : s.stopCalled = true) :
    0 < s.sema :=
  (h.stopped hs).2.resolve_right (Bool.eq_false_iff.mp hpc)

theorem Wakes.noLostPost (h : Wakes s) : NoLostPost s := by
  intro hpc hq
  by_cases hstop : s.adapter.drvStopped = true
  · cases hcalled : s.stopCalled with
    | false => exact Or.inr (Or.inr (Or.inr ⟨hstop, rfl⟩))
    | true => exact Or.inl (h.sema_pos (by rw [hpc]; rfl) hcalled)
  · rcases h.down hpc hq with hsema | hpost | ⟨n, hn, hle⟩
    · exact Or.inl hsema
    · exact Or.inr (Or.inl hpost)
    · rcases h.waits.woken cmdAlive rfl n hn with ho | hlt
      · exact Or.inr (Or.inr (Or.inl
          ⟨Bool.eq_false_of_not_eq_true hstop, ho, h.waits.alive cmdAlive n hn⟩))
      · have hposts : n < s.power.cmdQueueSema := hlt
        exact Or.inl (by omega)

theorem Wakes.busy (h : Wakes s) {t : Sys} (ha : t.adapter = s.adapter)
    (hw : PowerHandshake.Waits (· = cmdAlive) t.power) (hpc : t.pc.busy = true)
    (hcalled : t.stopCalled = s.stopCalled)
    (hstop : s.stopCalled = true → 0 < t.sema ∨ t.pc.leaving = true) : Wakes t := by
  refine ⟨ha ▸ h.present, ha ▸ h.level, hw, fun hd => ?_, fun hd => ?_, fun c hd => ?_,
    fun hd => ?_, fun hs => ?_⟩
  · rw [hd] at hpc
    cases hpc
  · rw [hd] at hpc
    cases hpc
  · rw [hd] at hpc
    cases hpc
  · rw [hd] at hpc
    cases hpc
  · rw [hcalled] at hs
    exact ⟨ha ▸ (h.stopped hs).1, hstop hs⟩

theorem Wakes.unregisterCmd (h : Wakes s) (ifaces : List Iface) :
    PowerHandshake.Waits (· = cmdAlive) (s.withPower (.unregisterCmd ifaces)).power :=
  h.waits.step (e := .unregisterCmd ifaces) h.level (fun _ ht => nomatch ht) fun he => nomatch he

theorem Wakes.registerCmd (h : Wakes s)
    (habsent : (PowerHandshake.registerAlive s.adapter s.power.pwr cmdAlive).success = false →
      ¬ s.adapter.Absent) :
    PowerHandshake.Waits (· = cmdAlive) (s.withPower .registerCmd).power := by
  refine h.waits.step (e := .registerCmd) h.level ?_ fun he => nomatch he
  rintro t ht - hfail
  injection ht with ht
  exact habsent (ht ▸ hfail)

theorem refused_registerCmd
    (h : (PowerHandshake.rtwRegisterCmdAlive s.adapter s.power.pwr).success = false) :
    Refused (s.withPower .registerCmd) := by
  refine ⟨s.power.cmdQueueSema, PowerHandshake.failed_registered_self s.power cmdAlive h, ?_⟩
  have hposts := PowerHandshake.cmdQueueSema_registered s.power cmdAlive
    (PowerHandshake.rtwRegisterCmdAlive s.adapter s.power.pwr)
  exact Nat.le_add_right_of_le hposts.le

theorem failed_other (c : Adapter) (p : PowerHandshake.Sys) (o : Other) :
    (PowerHandshake.step c p o.event).failed cmdAlive = p.failed cmdAlive := by
  cases o with
  | registerTask t ht => exact PowerHandshake.failed_registered p ht.symm
  | registerTx => exact PowerHandshake.failed_registered p (by decide)
  | unregisterTask t ht => exact PowerHandshake.failed_unregistered p ht.symm
  | unregisterTx ifaces => exact PowerHandshake.failed_unregistered p (by decide)
  | setPsMode r => rfl
  | cpwmInt =>
    simp only [Other.event, PowerHandshake.step]
    split <;> rfl

theorem Refused.other (h : Refused s) (o : Other) : Refused (s.withPower o.event) := by
  obtain ⟨n, hn, hle⟩ := h
  refine ⟨n, (failed_other _ _ o).trans hn, ?_⟩
  simp only [Sys.withPower]
  omega

theorem Refused.congr (h : Refused s) {t : Sys} (hp : t.power = s.power)
    (hsema : s.sema ≤ t.sema) : Refused t := by
  obtain ⟨n, hn, hle⟩ := h
  exact ⟨n, hp ▸ hn, by rw [hp]; omega⟩

theorem filter_passed {hwInit running : Bool} (h : rtwCmdFilter hwInit running pcmd = true)
    (hinit : hwInit = false) (hio : pcmd.noIo = false) : pcmd.cmdcode = setChannelPlan := by
  have hboth : pcmd.cmdcode = setChannelPlan ∧ running = true := by
    simpa [rtwCmdFilter, hinit, hio] using h
  exact hboth.1

theorem Wakes.check (h : Wakes s) (hpc : s.pc = .got pcmd)
    (hin : InStep s (.thread env)) : Wakes (s.check env pcmd) := by
  have hstop : s.stopCalled = true → 0 < s.sema := h.sema_pos (by rw [hpc]; rfl)
  have hrefused : (PowerHandshake.rtwRegisterCmdAlive s.adapter s.power.pwr).success = false →
      rtwCmdFilter s.adapter.hwInitCompleted s.cmdthdRunning pcmd = true → pcmd.noIo = false →
      ¬ s.adapter.Absent := by
    rintro hfail hfilter hio (hgone | hinit)
    · exact absurd (h.present.symm.trans hgone) Bool.false_ne_true
    · have hinit' := Bool.eq_false_of_not_eq_true hinit
      have hplan := filter_passed hfilter hinit' hio
      simp only [InStep, hpc] at hin
      have hawake := hin hinit' hplan hio
      simp only [PowerHandshake.rtwRegisterCmdAlive, PowerHandshake.registerAlive] at hfail
      rw [if_neg] at hfail
      · cases hfail
      · rintro ⟨hflag, hlow⟩
        rcases hawake with hoff | hhigh
        · exact absurd (hoff.symm.trans hflag) Bool.false_ne_true
        · exact absurd hlow (Nat.not_lt_of_le hhigh)
  rcases check_cases env s pcmd with ⟨res, heq⟩ | ⟨e, heq, he⟩ | ⟨heq, hfail, hfilter, hio⟩
  · rw [heq]
    exact h.busy rfl h.waits rfl rfl fun hs => Or.inl (hstop hs)
  · rw [heq]
    refine h.busy rfl ?_ rfl rfl fun hs => Or.inl (Nat.lt_of_lt_of_le (hstop hs) ?_)
    · rcases he with rfl | ⟨rfl, hok⟩
      · exact h.unregisterCmd env.ifaces
      · exact h.registerCmd fun hfail => absurd (hok.symm.trans hfail) (Bool.false_ne_true ∘ Eq.symm)
    · exact Nat.le_add_right _ _
  · rw [heq]
    refine ⟨h.present, h.level, h.registerCmd fun hf => hrefused hf hfilter hio, ?_, ?_,
      fun c _ => (refused_registerCmd hfail).congr rfl le_rfl, ?_, fun hs => ?_⟩
    any_goals rintro ⟨⟩
    exact ⟨(h.stopped hs).1, Or.inl (Nat.lt_of_lt_of_le (hstop hs) (Nat.le_add_right _ _))⟩

theorem Wakes.thread (h : Wakes s) (hin : InStep s (.thread env)) : Wakes (s.thread env) := by
  have hrun : s.cannotRun ≠ true → s.stopCalled ≠ true := fun hr hs => hr (h.cannotRun hs)
  cases hpc : s.pc with
  | down =>
    simp only [Sys.thread, hpc]
    split
    · exact h
    · exact h.busy rfl h.waits rfl rfl fun _ => Or.inr rfl
  | woken =>
    simp only [Sys.thread, hpc]
    split_ifs with hrun' hq
    · exact h.busy rfl h.waits rfl rfl fun _ => Or.inr rfl
    · exact ⟨h.present, h.level, h.waits, fun _ hne => absurd hq hne, nofun, nofun, nofun,
        fun hs => absurd hs (hrun hrun')⟩
    · exact h.busy rfl h.waits rfl rfl fun hs => absurd hs (hrun hrun')
  | next =>
    simp only [Sys.thread, hpc]
    split_ifs with hrun'
    · exact h.busy rfl h.waits rfl rfl fun _ => Or.inr rfl
    · split
      · next hq =>
        exact ⟨h.present, h.level, h.waits, nofun, fun _ hne => absurd hq hne, nofun, nofun,
          fun hs => absurd hs (hrun hrun')⟩
      · exact h.busy rfl h.waits rfl rfl fun hs => absurd hs (hrun hrun')
  | idle =>
    simp only [Sys.thread, hpc]
    have hsema : s.sema ≤ (s.withPower (.unregisterCmd env.ifaces)).sema := Nat.le_add_right _ _
    refine ⟨h.present, h.level, h.unregisterCmd env.ifaces, fun _ hne => ?_, nofun, nofun, nofun,
      fun hs => ⟨(h.stopped hs).1, Or.inl ?_⟩⟩
    · rcases h.idle hpc hne with hlt | hpost
      · exact Or.inl (Nat.lt_of_lt_of_le hlt hsema)
      · exact Or.inr (Or.inl hpost)
    · exact Nat.lt_of_lt_of_le (h.sema_pos (by rw [hpc]; rfl) hs) hsema
  | got pcmd =>
    simp only [Sys.thread, hpc]
    exact h.check hpc hin
  | enqHead pcmd =>
    simp only [Sys.thread, hpc]
    have hrefused := h.enqHead pcmd hpc
    refine ⟨h.present, h.level, h.waits, fun _ _ => Or.inr (Or.inr (hrefused.congr rfl le_rfl)),
      nofun, nofun, nofun, fun hs => ⟨(h.stopped hs).1, Or.inl ?_⟩⟩
    exact h.sema_pos (by rw [hpc]; rfl) hs
  | execute pcmd =>
    simp only [Sys.thread, hpc]
    refine h.busy rfl h.waits rfl rfl fun hs => Or.inl ?_
    exact h.sema_pos (by rw [hpc]; rfl) hs
  | postProcess pcmd res =>
    simp only [Sys.thread, hpc, sctxDone_eq]
    refine h.busy rfl h.waits rfl rfl fun hs => Or.inl ?_
    exact h.sema_pos (by rw [hpc]; rfl) hs
  | leave =>
    simp only [Sys.thread, hpc]
    exact h.busy rfl (h.unregisterCmd env.ifaces) rfl rfl fun _ => Or.inr rfl
  | stopping =>
    simp only [Sys.thread, hpc]
    exact h.busy rfl h.waits rfl rfl fun _ => Or.inr rfl
  | drain =>
    simp only [Sys.thread, hpc]
    split
    · next hq =>
      exact ⟨h.present, h.level, h.waits, nofun, nofun, nofun, fun _ => hq,
        fun hs => ⟨(h.stopped hs).1, Or.inr rfl⟩⟩
    · rw [drop_eq]
      exact h.busy rfl h.waits rfl rfl fun _ => Or.inr rfl
  | gone =>
    simp only [Sys.thread, hpc]
    exact h

theorem Wakes.step (h : Wakes s) {e : Event} (hin : InStep s e) : Wakes (step s e) := by
  cases e with
  | filter cmd =>
    simp only [CmdQueue.step]
    split <;>
      exact ⟨h.present, h.level, h.waits, h.down, h.idle, h.enqHead, h.gone, h.stopped⟩
  | insert k =>
    simp only [CmdQueue.step]
    split
    · exact h
    · have hpost : 0 < s.posting + 1 := Nat.succ_pos _
      exact ⟨h.present, h.level, h.waits, fun _ _ => Or.inr (Or.inl hpost),
        fun _ _ => Or.inr hpost, h.enqHead, fun hpc => absurd hpc hin, h.stopped⟩
  | post =>
    simp only [CmdQueue.step]
    split
    · exact h
    · have hsema : 0 < s.sema + 1 := Nat.succ_pos _
      exact ⟨h.present, h.level, h.waits, fun _ _ => Or.inl hsema, fun _ _ => Or.inl hsema,
        fun c hc => (h.enqHead c hc).congr rfl (Nat.le_succ _), h.gone,
        fun hs => ⟨(h.stopped hs).1, Or.inl hsema⟩⟩
  | thread env => exact h.thread hin
  | signal =>
    simp only [CmdQueue.step]
    split
    · exact h.busy rfl h.waits rfl rfl fun _ => Or.inr rfl
    · exact h
  | power o =>
    have hsema : s.sema ≤ (s.withPower o.event).sema := Nat.le_add_right _ _
    refine ⟨h.present, h.level, h.waits.step h.level ?_ ?_, fun hpc hq => ?_, fun hpc hq => ?_,
      fun c hc => (h.enqHead c hc).other o, h.gone, fun hs => ⟨(h.stopped hs).1, ?_⟩⟩
    · rintro t ht rfl
      cases o with
      | registerTask t hne =>
        injection ht with ht
        exact absurd ht hne
      | registerTx =>
        injection ht with ht
        exact absurd ht (by decide)
      | unregisterTask | unregisterTx | setPsMode | cpwmInt => cases ht
    · rintro - t rfl hno
      exact absurd (Or.inl rfl) hno
    · rcases h.down hpc hq with hlt | hpost | hrefused
      · exact Or.inl (Nat.lt_of_lt_of_le hlt hsema)
      · exact Or.inr (Or.inl hpost)
      · exact Or.inr (Or.inr (hrefused.other o))
    · exact (h.idle hpc hq).imp (fun hlt => Nat.lt_of_lt_of_le hlt hsema) id
    · exact (h.stopped hs).2.imp (fun hlt => Nat.lt_of_lt_of_le hlt hsema) id
  | hwInit b => exact ⟨h.present, h.level, h.waits, h.down, h.idle, h.enqHead, h.gone, h.stopped⟩
  | drvStop =>
    exact ⟨h.present, h.level, h.waits, h.down, h.idle, h.enqHead, h.gone,
      fun hs => ⟨rfl, (h.stopped hs).2⟩⟩
  | stopCmdThread =>
    simp only [CmdQueue.step]
    split
    · next hstop =>
      have hsema : 0 < s.sema + 1 := Nat.succ_pos _
      exact ⟨h.present, h.level, h.waits, fun _ _ => Or.inl hsema, fun _ _ => Or.inl hsema,
        fun c hc => (h.enqHead c hc).congr rfl (Nat.le_succ _), h.gone,
        fun _ => ⟨hstop, Or.inl hsema⟩⟩
    · exact h

/-! ## Runs -/

theorem Start.history (h : Start s) : History s := by
  rw [h.fresh]
  exact ⟨rfl, rfl⟩

theorem Start.frees (h : Start s) : Frees s := by
  rw [h.fresh]
  exact ⟨rfl, nofun⟩

theorem Start.distinct (h : Start s) : Distinct s := by
  rw [h.fresh]
  exact ⟨List.nodup_nil, nofun⟩

theorem Start.wakes (h : Start s) : Wakes s := by
  have hw := h.awake.waits (· = cmdAlive)
  have hp := h.present
  have hl := h.level
  rw [h.fresh]
  exact ⟨hp, hl, hw, fun _ hne => absurd rfl hne, nofun, nofun, nofun, nofun⟩

theorem History.inOrder (h : History s) : InOrder s := by
  refine ⟨h.order, ?_⟩
  have hsettled : s.executed.Sublist s.settledCmds := List.filter_sublist.map Prod.fst
  exact h.order ▸ hsettled.trans (List.sublist_append_left _ _)

theorem History.completedOnce (h : History s) : CompletedOnce s := by
  intro c _ hsctx
  have hcount := congrArg (List.count c) h.completed
  rw [List.count_append, List.count_filter hsctx, List.count_filter hsctx] at hcount
  exact hcount

theorem History.eachOnce (h : History s) (hd : Distinct s) (hg : s.pc = .gone → s.queue = []) :
    EachOnce s := by
  refine ⟨fun c hc => ?_, fun hpc => ?_⟩
  · have hnodup : s.enqueued.Nodup := (List.nodup_append.mp hd.ids.of_map).1
    rw [← List.count_append, h.order]
    exact List.count_eq_one_of_mem hnodup hc
  · rw [Sys.pending, hg hpc, hpc]
    rfl

theorem Frees.freedOnce (h : Frees s) : FreedOnce s := by
  refine ⟨fun c _ => ?_, h.parmbuf⟩
  rw [← List.count_append, h.cmds]

open EventRun in
/-- In every run the commands are settled in the order of the queue, each waiting context
completed once; when every step meets the condition, each command is settled once, each
object freed once, and no post of the semaphore is lost. -/
theorem cmdQueue_sound (hs : Start s) (es : List Event) :
    InOrder (run step s es) ∧ CompletedOnce (run step s es) ∧
    (Along step InStep s es →
      EachOnce (run step s es) ∧ FreedOnce (run step s es) ∧ NoLostPost (run step s es)) := by
  have hhist : History (run step s es) :=
    run_invariant _ (fun s e h => h.moves (step_moves s e)) hs.history es
  have hdist : Distinct (run step s es) := run_invariant _ (fun _ e h => h.step e) hs.distinct es
  refine ⟨hhist.inOrder, hhist.completedOnce, fun hes => ?_⟩
  have hboth : Frees (run step s es) ∧ Wakes (run step s es) := by
    refine run_spec InStep (fun s => Frees s ∧ Wakes s) ?_ ⟨hs.frees, hs.wakes⟩ hes
    rintro s e ⟨hfrees, hwakes⟩ hin
    exact ⟨hfrees.step hin, hwakes.step hin⟩
  exact ⟨hhist.eachOnce hdist hboth.2.gone, hboth.1.freedOnce, hboth.2.noLostPost⟩

def init : Sys := { adapter := {}, power := {} }

theorem start_init : Start init := ⟨rfl, rfl, nofun, PowerHandshake.awake_init⟩

def servedRun : List Event :=
  [.filter { id := 0, cmdcode := 57, sctx := true }, .insert 0, .post, .thread {}, .thread {},
    .thread {}, .thread {}, .thread {}, .thread {}]

theorem cmdQueue_sound_served :
    (EventRun.run step init servedRun).executed = [{ id := 0, cmdcode := 57, sctx := true }] ∧
    EachOnce (EventRun.run step init servedRun) ∧ FreedOnce (EventRun.run step init servedRun) ∧
    NoLostPost (EventRun.run step init servedRun) := by
  have hin : EventRun.Along step InStep init servedRun :=
    ⟨trivial, nofun, trivial, trivial, trivial, trivial, nofun, trivial, nofun, trivial⟩
  exact ⟨rfl, (cmdQueue_sound start_init servedRun).2.2 hin⟩

def droppedDisconnect : List Event :=
  [.filter { id := 0, cmdcode := disConnect }, .insert 0, .post, .hwInit false, .thread {},
    .thread {}, .thread {}, .thread {}, .thread {}]

def lateInsert : List Event :=
  [.filter { id := 0, cmdcode := 57 }, .drvStop, .stopCmdThread, .thread {}, .thread {},
    .thread {}, .thread {}, .thread {}, .insert 0]

/-- A channel plan needs the chip while the hardware is down and the firmware asleep. -/
def sleepingPlan : List Event :=
  [.power (.setPsMode { psMode := 2 }), .filter { id := 0, cmdcode := setChannelPlan },
    .insert 0, .post, .hwInit false, .thread {}, .thread {}, .thread {}, .thread {}, .thread {}]

theorem dropped_disconnect_leaks :
    ¬ FreedOnce (EventRun.run step init droppedDisconnect) ∧
    ¬ EachOnce (EventRun.run step init lateInsert) ∧
    ¬ NoLostPost (EventRun.run step init sleepingPlan) := by
  refine ⟨fun h => ?_, fun h => ?_, fun h => ?_⟩
  · have hfreed := h.1 { id := 0, cmdcode := disConnect } (by decide)
    exact absurd hfreed (by decide)
  · have hpending := h.2 rfl
    exact absurd hpending (by decide)
  · rcases h rfl (by decide) with hsema | hpost | ⟨-, ⟨w, hw, hack, -⟩, -⟩ | ⟨hstop, -⟩
    · exact absurd hsema (by decide)
    · exact absurd hpost (by decide)
    · injection hw with hw
      injection hw with hw
      rw [← hw] at hack
      cases hack
    · cases hstop

end Rtl8189.CmdQueue
