import Rtl8189.EventRun
import Rtl8189.SdioRecv

/-!
# Receive buffers between the interrupt handler and the tasklet

The loop of `sd_int_dpc` takes a buffer of the free queue, fills it from the RX
FIFO and queues it for the tasklet, which parses it and gives it back. The two
run side by side: a step of a run is one step of either, from one queue operation
or answer of the bus to the next.
-/
namespace Rtl8189.RecvBufPool

open EventRun SdioRecv

structure RecvBuf where
  id : ℕ
  pskb : Bool
  len : ℕ := 0
  pdata : List UInt8 := []

def nrRecvbuff : ℕ := 8

/-- Where `sd_int_dpc` stands, and the buffer in its hands. -/
inductive Dpc where
  | idle
  | poll
  | dequeue
  | alloc (precvbuf : RecvBuf)
  | readPort (precvbuf : RecvBuf)
  | enqueue (precvbuf : RecvBuf)
  | schedule

/-- Where `rtl8188es_recv_tasklet` stands, and the buffer in its hands. -/
inductive Tasklet where
  | idle
  | loop
  | parse (precvbuf : RecvBuf)
  | schedule

def Dpc.held : Dpc → List RecvBuf
  | .alloc b | .readPort b | .enqueue b => [b]
  | _ => []

def Tasklet.held : Tasklet → List RecvBuf
  | .parse b => [b]
  | _ => []

structure RecvPriv where
  freeRecvBufQueue : List RecvBuf
  recvBufPendingQueue : List RecvBuf := []
  sdioRxFifoSize : UInt16 := 0
  dpc : Dpc := .idle
  tasklet : Tasklet := .idle
  /-- The recv tasklet is scheduled. -/
  scheduled : Bool := false

/-- What the bus and the allocator answer to a step of `sd_int_dpc`: the length
register, whether there is memory for a socket buffer, and what the port read
brings. -/
structure DpcEnv where
  rx0ReqLen : UInt16 := 0
  skbAlloc : Bool := true
  readPort : Option (List UInt8) := some []

structure TaskletEnv where
  cannotRun : Bool := false
  rcr : Rcr := {}
  mem : Memory := {}

/-- After `rtl8188es_init_recv_priv`: a buffer whose socket buffer could not be
allocated waits without one. -/
def initRecvPriv (skbAlloc : ℕ → Bool) : RecvPriv :=
  { freeRecvBufQueue := (List.range nrRecvbuff).map fun i => ⟨i, skbAlloc i, 0, []⟩ }

/-- One step of the loop in `sd_int_dpc`, with `sd_recv_rxfifo` and `sd_rxhandler`.
When `sd_recv_rxfifo` gives no buffer the loop ends. -/
def sdIntDpc (env : DpcEnv) (s : RecvPriv) : RecvPriv :=
  match s.dpc with
  | .idle => s
  | .poll =>
    let size := if s.sdioRxFifoSize = 0 then env.rx0ReqLen else s.sdioRxFifoSize
    { s with sdioRxFifoSize := size, dpc := if size = 0 then .idle else .dequeue }
  | .dequeue =>
    match s.freeRecvBufQueue with
    | [] => { s with sdioRxFifoSize := 0, dpc := .idle }
    | b :: q =>
      { s with freeRecvBufQueue := q, dpc := if b.pskb then .readPort b else .alloc b }
  | .alloc b =>
    if env.skbAlloc then { s with dpc := .readPort { b with pskb := true, len := 0 } }
    -- return NULL, with the buffer in no queue
    else { s with sdioRxFifoSize := 0, dpc := .idle }
  | .readPort b =>
    match env.readPort with
    | none => { s with sdioRxFifoSize := 0, dpc := .idle }
    | some bytes =>
      { s with sdioRxFifoSize := 0
               dpc := .enqueue { b with pdata := bytes, len := s.sdioRxFifoSize.toNat } }
  | .enqueue b => { s with recvBufPendingQueue := s.recvBufPendingQueue ++ [b], dpc := .schedule }
  | .schedule => { s with scheduled := true, dpc := .poll }

/-- One step of `rtl8188es_recv_tasklet`. -/
def recvTasklet (env : TaskletEnv) (s : RecvPriv) : RecvPriv :=
  match s.tasklet with
  | .idle => if s.scheduled then { s with scheduled := false, tasklet := .loop } else s
  | .loop =>
    if env.cannotRun then { s with tasklet := .idle }
    else match s.recvBufPendingQueue with
      | [] => { s with tasklet := .idle }
      | b :: q => { s with recvBufPendingQueue := q, tasklet := .parse b }
  | .parse b =>
    if (recvBuf env.rcr env.mem (b.pdata.take b.len)).requeued then
      { s with recvBufPendingQueue := b :: s.recvBufPendingQueue, tasklet := .schedule }
    else
      { s with freeRecvBufQueue := s.freeRecvBufQueue ++ [{ b with len := 0 }], tasklet := .loop }
  | .schedule => { s with scheduled := true, tasklet := .idle }

inductive RxEvent where
  | interrupt (size : UInt16)
  | dpc (env : DpcEnv)
  | tasklet (env : TaskletEnv)

/-- An interrupt is not taken up before the handler of the last one is done. -/
def rxStep (s : RecvPriv) : RxEvent → RecvPriv
  | .interrupt size =>
    match s.dpc with
    | .idle => { s with sdioRxFifoSize := size, dpc := .poll }
    | _ => s
  | .dpc env => sdIntDpc env s
  | .tasklet env => recvTasklet env s

def idCount (q : List RecvBuf) (i : ℕ) : ℕ := (q.map RecvBuf.id).count i

/-- How often buffer `i` is found in the queues and in the calls in progress. -/
def RecvPriv.places (s : RecvPriv) (i : ℕ) : ℕ :=
  idCount s.freeRecvBufQueue i + idCount s.recvBufPendingQueue i + idCount s.dpc.held i +
    idCount s.tasklet.held i

def RecvPriv.Conserved (s : RecvPriv) : Prop :=
  ∀ i, s.places i = if i < nrRecvbuff then 1 else 0

def RecvPriv.Recovers (s : RecvPriv) : Prop :=
  ∃ es, (run rxStep s es).freeRecvBufQueue ≠ []

/-- The buffer that `sd_recv_rxfifo` drops in this step. -/
def lost (s : RecvPriv) : RxEvent → List RecvBuf
  | .dpc env =>
    match s.dpc with
    | .alloc b => if env.skbAlloc then [] else [b]
    | .readPort b => if env.readPort.isNone then [b] else []
    | _ => []
  | _ => []

/-- No allocation and no read fails with a buffer in hand. -/
def Returns (s : RecvPriv) (e : RxEvent) : Prop := lost s e = []

def Runs (s : RecvPriv) : RxEvent → Prop
  | .tasklet env =>
    match s.tasklet with
    | .loop => env.cannotRun = false
    | _ => True
  | _ => True

/-! ## Conservation -/

@[simp] theorem idCount_nil (i : ℕ) : idCount [] i = 0 := rfl

@[simp] theorem idCount_cons (b : RecvBuf) (q : List RecvBuf) (i : ℕ) :
    idCount (b :: q) i = idCount q i + if b.id = i then 1 else 0 := by
  simp only [idCount, List.map_cons, List.count_cons, beq_iff_eq]

@[simp] theorem idCount_append (q r : List RecvBuf) (i : ℕ) :
    idCount (q ++ r) i = idCount q i + idCount r i := by
  simp only [idCount, List.map_append, List.count_append]

theorem sdIntDpc_places (env : DpcEnv) (s : RecvPriv) (i : ℕ) :
    (sdIntDpc env s).places i + idCount (lost s (.dpc env)) i = s.places i := by
  cases hd : s.dpc with
  | idle => simp [sdIntDpc, lost, hd]
  | poll =>
    simp only [sdIntDpc, lost, RecvPriv.places, hd]
    split_ifs <;> rfl
  | dequeue =>
    cases hq : s.freeRecvBufQueue with
    | nil => simp [sdIntDpc, lost, RecvPriv.places, hd, hq, Dpc.held]
    | cons b q =>
      simp only [sdIntDpc, lost, RecvPriv.places, hd, hq]
      split_ifs <;> simp [Dpc.held] <;> omega
  | alloc b =>
    simp only [sdIntDpc, lost, RecvPriv.places, hd]
    split_ifs
    · simp [Dpc.held]
    · simp [Dpc.held]; omega
  | readPort b =>
    cases hr : env.readPort with
    | none => simp [sdIntDpc, lost, RecvPriv.places, hd, hr, Dpc.held]; omega
    | some bytes => simp [sdIntDpc, lost, RecvPriv.places, hd, hr, Dpc.held]
  | enqueue b => simp [sdIntDpc, lost, RecvPriv.places, hd, Dpc.held]; omega
  | schedule => simp [sdIntDpc, lost, RecvPriv.places, hd, Dpc.held]

theorem recvTasklet_places (env : TaskletEnv) (s : RecvPriv) (i : ℕ) :
    (recvTasklet env s).places i = s.places i := by
  cases ht : s.tasklet with
  | idle =>
    simp only [recvTasklet, ht]
    split_ifs
    · simp [RecvPriv.places, ht, Tasklet.held]
    · rfl
  | loop =>
    simp only [recvTasklet, ht]
    split_ifs
    · simp [RecvPriv.places, ht, Tasklet.held]
    · cases hq : s.recvBufPendingQueue with
      | nil => simp [RecvPriv.places, ht, hq, Tasklet.held]
      | cons b q => simp [RecvPriv.places, ht, hq, Tasklet.held]; omega
  | parse b =>
    simp only [recvTasklet, ht]
    split_ifs <;> simp [RecvPriv.places, ht, Tasklet.held] <;> omega
  | schedule => simp [recvTasklet, RecvPriv.places, ht, Tasklet.held]

theorem rxStep_places (s : RecvPriv) (e : RxEvent) (i : ℕ) :
    (rxStep s e).places i + idCount (lost s e) i = s.places i := by
  cases e with
  | interrupt size =>
    simp only [rxStep, lost, idCount_nil]
    split
    · next hd => simp [RecvPriv.places, hd, Dpc.held]
    · rfl
  | dpc env => exact sdIntDpc_places env s i
  | tasklet env => exact recvTasklet_places env s i

theorem conserved_step {s : RecvPriv} (hs : s.Conserved) (e : RxEvent) :
    (rxStep s e).Conserved ↔ Returns s e := by
  constructor
  · intro hs'
    cases hl : lost s e with
    | nil => exact hl
    | cons b q =>
      have hb := rxStep_places s e b.id
      rw [hs' b.id, hs b.id, hl, idCount_cons, if_pos rfl] at hb
      omega
  · intro hr i
    have hi := rxStep_places s e i
    rw [hr, idCount_nil, hs i] at hi
    exact hi

theorem initRecvPriv_conserved (skbAlloc : ℕ → Bool) : (initRecvPriv skbAlloc).Conserved := by
  intro i
  have hid : (initRecvPriv skbAlloc).freeRecvBufQueue.map RecvBuf.id = List.range nrRecvbuff := by
    simp [initRecvPriv, Function.comp_def]
  change ((initRecvPriv skbAlloc).freeRecvBufQueue.map RecvBuf.id).count i + 0 + 0 + 0 = _
  rw [hid, List.nodup_range.count]
  simp only [List.mem_range, Nat.add_zero]

theorem run_conserved {s : RecvPriv} (hs : s.Conserved) (es : List RxEvent) :
    (∀ fs, fs <+: es → (run rxStep s fs).Conserved) ↔ Along rxStep Returns s es := by
  induction es generalizing s with
  | nil => simpa [Along] using hs
  | cons e es ih =>
    constructor
    · intro h
      have he : (rxStep s e).Conserved := h [e] (List.prefix_append [e] es)
      refine ⟨(conserved_step hs e).mp he, (ih he).mp ?_⟩
      intro fs hfs
      exact h (e :: fs) ((List.prefix_cons_inj e).mpr hfs)
    · rintro ⟨hr, hes⟩ fs hfs
      cases fs with
      | nil => exact hs
      | cons f fs =>
        obtain ⟨rfl, hpre⟩ := List.cons_prefix_cons.mp hfs
        exact (ih ((conserved_step hs f).mpr hr)).mpr hes fs hpre

/-! ## A buffer comes back -/

def RecvPriv.Armed (s : RecvPriv) : Prop :=
  s.scheduled = true ∨ s.dpc = .schedule ∨ s.tasklet ≠ .idle

/-- No buffer waits for a tasklet that nobody scheduled. -/
def RecvPriv.Awake (s : RecvPriv) : Prop := s.recvBufPendingQueue ≠ [] → s.Armed

theorem recvBuf_requeued (rcr : Rcr) (pdata : List UInt8) :
    (recvBuf rcr {} pdata).requeued = false := by
  suffices h : ∀ fuel n data, (recvBufLoop rcr {} fuel n data).requeued = false from h _ _ _
  intro fuel
  induction fuel with
  | zero => intro n data; rfl
  | succ fuel ih =>
    intro n data
    simp only [recvBufLoop, Bool.true_eq_false, if_false]
    split_ifs <;> first | rfl | exact ih _ _

theorem RecvPriv.Recovers.of_step {s : RecvPriv} {e : RxEvent} (h : (rxStep s e).Recovers) :
    s.Recovers := by
  obtain ⟨es, hes⟩ := h
  exact ⟨e :: es, hes⟩

theorem recovers_parse {s : RecvPriv} {b : RecvBuf} (ht : s.tasklet = .parse b) :
    s.Recovers := by
  refine ⟨[.tasklet {}], ?_⟩
  simp [rxStep, recvTasklet, ht, recvBuf_requeued]

theorem recovers_loop {s : RecvPriv} (ht : s.tasklet = .loop)
    (hp : s.recvBufPendingQueue ≠ []) : s.Recovers := by
  obtain ⟨b, q, hq⟩ := List.exists_cons_of_ne_nil hp
  have hstep : (rxStep s (.tasklet {})).tasklet = .parse b := by
    simp [rxStep, recvTasklet, ht, hq]
  exact (recovers_parse hstep).of_step

theorem recovers_idle {s : RecvPriv} (ht : s.tasklet = .idle) (hs : s.scheduled = true)
    (hp : s.recvBufPendingQueue ≠ []) : s.Recovers := by
  have hstep : rxStep s (.tasklet {}) = { s with scheduled := false, tasklet := .loop } := by
    simp [rxStep, recvTasklet, ht, hs]
  have hloop : (rxStep s (.tasklet {})).Recovers := by
    rw [hstep]
    exact recovers_loop rfl hp
  exact hloop.of_step

theorem recovers_armed {s : RecvPriv} (ha : s.Armed) (hp : s.recvBufPendingQueue ≠ []) :
    s.Recovers := by
  cases ht : s.tasklet with
  | idle =>
    obtain hs | hd | ht' := ha
    · exact recovers_idle ht hs hp
    · have hstep : rxStep s (.dpc {}) = { s with scheduled := true, dpc := .poll } := by
        simp [rxStep, sdIntDpc, hd]
      have hidle : (rxStep s (.dpc {})).Recovers := by
        rw [hstep]
        exact recovers_idle ht rfl hp
      exact hidle.of_step
    · exact absurd ht ht'
  | loop => exact recovers_loop ht hp
  | parse b => exact recovers_parse ht
  | schedule =>
    have hstep : rxStep s (.tasklet {}) = { s with scheduled := true, tasklet := .idle } := by
      simp [rxStep, recvTasklet, ht]
    have hidle : (rxStep s (.tasklet {})).Recovers := by
      rw [hstep]
      exact recovers_idle rfl rfl hp
    exact hidle.of_step

theorem recovers_enqueue {s : RecvPriv} {b : RecvBuf} (hd : s.dpc = .enqueue b) :
    s.Recovers := by
  have harmed : (rxStep s (.dpc {})).Armed := by
    simp [rxStep, sdIntDpc, hd, RecvPriv.Armed]
  have hp : (rxStep s (.dpc {})).recvBufPendingQueue ≠ [] := by
    simp [rxStep, sdIntDpc, hd]
  exact (recovers_armed harmed hp).of_step

theorem recovers_readPort {s : RecvPriv} {b : RecvBuf} (hd : s.dpc = .readPort b) :
    s.Recovers := by
  have hstep : (rxStep s (.dpc {})).dpc =
      .enqueue { b with pdata := [], len := s.sdioRxFifoSize.toNat } := by
    simp [rxStep, sdIntDpc, hd]
  exact (recovers_enqueue hstep).of_step

theorem recovers_alloc {s : RecvPriv} {b : RecvBuf} (hd : s.dpc = .alloc b) : s.Recovers := by
  have hstep : (rxStep s (.dpc {})).dpc = .readPort { b with pskb := true, len := 0 } := by
    simp [rxStep, sdIntDpc, hd]
  exact (recovers_readPort hstep).of_step

theorem RecvPriv.Conserved.recovers {s : RecvPriv} (hs : s.Conserved) (ha : s.Awake) :
    s.Recovers := by
  cases hd : s.dpc with
  | alloc b => exact recovers_alloc hd
  | readPort b => exact recovers_readPort hd
  | enqueue b => exact recovers_enqueue hd
  | _ =>
    by_cases hf : s.freeRecvBufQueue = []
    · by_cases hp : s.recvBufPendingQueue = []
      · cases ht : s.tasklet with
        | parse b => exact recovers_parse ht
        | _ =>
          have h := hs 0
          simp [RecvPriv.places, hf, hp, hd, ht, Dpc.held, Tasklet.held, nrRecvbuff] at h
      · exact recovers_armed (ha hp) hp
    · exact ⟨[], hf⟩

theorem sdIntDpc_frame (env : DpcEnv) {s : RecvPriv} (he : ∀ b, s.dpc ≠ .enqueue b)
    (hs : s.dpc ≠ .schedule) :
    (sdIntDpc env s).recvBufPendingQueue = s.recvBufPendingQueue ∧
      (sdIntDpc env s).scheduled = s.scheduled ∧ (sdIntDpc env s).tasklet = s.tasklet := by
  cases hd : s.dpc with
  | idle => simp only [sdIntDpc, hd, and_self]
  | poll => simp only [sdIntDpc, hd, and_self]
  | dequeue =>
    cases hq : s.freeRecvBufQueue with
    | nil => simp only [sdIntDpc, hd, hq, and_self]
    | cons b q => simp only [sdIntDpc, hd, hq, and_self]
  | alloc b =>
    simp only [sdIntDpc, hd]
    split_ifs <;> exact ⟨rfl, rfl, rfl⟩
  | readPort b =>
    cases hr : env.readPort with
    | none => simp only [sdIntDpc, hd, hr, and_self]
    | some bytes => simp only [sdIntDpc, hd, hr, and_self]
  | enqueue b => exact absurd hd (he b)
  | schedule => exact absurd hd hs

theorem awake_sdIntDpc {s : RecvPriv} (env : DpcEnv) (hs : s.Awake) :
    (sdIntDpc env s).Awake := by
  by_cases he : ∃ b, s.dpc = .enqueue b
  · obtain ⟨b, hb⟩ := he
    intro _
    exact Or.inr (Or.inl (by simp only [sdIntDpc, hb]))
  · by_cases hd : s.dpc = .schedule
    · intro _
      exact Or.inl (by simp only [sdIntDpc, hd])
    · obtain ⟨hpend, hsched, htask⟩ := sdIntDpc_frame env (fun b hb => he ⟨b, hb⟩) hd
      intro hp
      rw [hpend] at hp
      obtain h | h | h := hs hp
      · exact Or.inl (hsched.trans h)
      · exact absurd h hd
      · exact Or.inr (Or.inr (htask ▸ h))

theorem awake_recvTasklet {s : RecvPriv} {env : TaskletEnv} (hs : s.Awake)
    (he : Runs s (.tasklet env)) : (recvTasklet env s).Awake := by
  intro hp
  cases ht : s.tasklet with
  | idle =>
    by_cases hsched : s.scheduled = true
    · exact Or.inr (Or.inr (by simp [recvTasklet, ht, hsched]))
    · have hstay : recvTasklet env s = s := by simp [recvTasklet, ht, hsched]
      rw [hstay] at hp ⊢
      exact hs hp
  | loop =>
    have hrun : env.cannotRun = false := by simpa only [Runs, ht] using he
    cases hq : s.recvBufPendingQueue with
    | nil => simp [recvTasklet, ht, hrun, hq] at hp
    | cons b q => exact Or.inr (Or.inr (by simp [recvTasklet, ht, hrun, hq]))
  | parse b =>
    refine Or.inr (Or.inr ?_)
    simp only [recvTasklet, ht]
    split_ifs <;> simp
  | schedule => exact Or.inl (by simp only [recvTasklet, ht])

theorem awake_step {s : RecvPriv} {e : RxEvent} (hs : s.Awake) (he : Runs s e) :
    (rxStep s e).Awake := by
  cases e with
  | interrupt size =>
    simp only [rxStep]
    split
    · next hd =>
      intro hp
      have h := hs hp
      simpa [RecvPriv.Armed, hd] using h
    · exact hs
  | dpc env => exact awake_sdIntDpc env hs
  | tasklet env => exact awake_recvTasklet hs he

/-- Buffers are neither lost nor doubled exactly while no allocation and no read
fails with a buffer in hand, and the receiver then gets one back after every
run. -/
theorem receive_buffers (skbAlloc : ℕ → Bool) (es : List RxEvent) :
    ((∀ fs, fs <+: es → (run rxStep (initRecvPriv skbAlloc) fs).Conserved) ↔
      Along rxStep Returns (initRecvPriv skbAlloc) es) ∧
    (Along rxStep (fun s e => Returns s e ∧ Runs s e) (initRecvPriv skbAlloc) es →
      (run rxStep (initRecvPriv skbAlloc) es).Recovers) := by
  have hinit := initRecvPriv_conserved skbAlloc
  refine ⟨run_conserved hinit es, ?_⟩
  intro hes
  have hawake : (initRecvPriv skbAlloc).Awake := fun hp => absurd rfl hp
  have hend : (run rxStep (initRecvPriv skbAlloc) es).Conserved ∧
      (run rxStep (initRecvPriv skbAlloc) es).Awake := by
    refine run_spec (fun s e => Returns s e ∧ Runs s e) (fun s => s.Conserved ∧ s.Awake) ?_
      ⟨hinit, hawake⟩ hes
    rintro s e ⟨hc, ha⟩ ⟨hr, hruns⟩
    exact ⟨(conserved_step hc e).mpr hr, awake_step ha hruns⟩
  exact hend.1.recovers hend.2

/-! ## Losing them all -/

theorem run_places_le (s : RecvPriv) (es : List RxEvent) (i : ℕ) :
    (run rxStep s es).places i ≤ s.places i := by
  refine run_invariant (fun t : RecvPriv => t.places i ≤ s.places i) ?_ (Nat.le_refl _) es
  intro t e ht
  have h := rxStep_places t e i
  omega

theorem not_recovers {s : RecvPriv} (hs : ∀ i, s.places i = 0) : ¬s.Recovers := by
  rintro ⟨es, hes⟩
  obtain ⟨b, q, hq⟩ := List.exists_cons_of_ne_nil hes
  have hle := run_places_le s es b.id
  rw [hs b.id] at hle
  simp only [RecvPriv.places, hq, idCount_cons, if_pos] at hle
  omega

def failedRead : List RxEvent :=
  [.interrupt 1500, .dpc {}, .dpc {}, .dpc { readPort := none }]

theorem failed_reads_starve :
    ¬(run rxStep (initRecvPriv fun _ => true) failedRead).Conserved ∧
    ¬(run rxStep (initRecvPriv fun _ => true) (List.replicate 8 failedRead).flatten).Recovers := by
  constructor
  · intro h
    exact absurd (h 0) (by decide)
  · apply not_recovers
    intro i
    rfl

end Rtl8189.RecvBufPool
