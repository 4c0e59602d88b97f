import Mathlib.Algebra.Order.Group.Multiset
import Mathlib.Data.Multiset.UnionInter
import Rtl8189.EventRun
import Rtl8189.FreeList
import Rtl8189.Semaphore

/-!
# Transmit buffers and the semaphore of the free ones

The frame thread fills data buffers and puts them on the pending queue, the write
thread writes them to the FIFO and frees them, management frames have buffers of
their own. `sdio_free_xmitbuf_sema` follows the free data buffers: the write
thread posts it after each free, the frame thread makes up for its allocations at
the end of each access category, and waits on it when an allocation failed.
-/
namespace Rtl8189.XmitBufSema

/-- A buffer on the pending queue, numbered when it is first put there. -/
structure XmitBuf where
  id : ℕ
  mgnt : Bool
  serial : ℕ
  deriving DecidableEq

/-- Where the frame thread is. The buffer in its hand comes with whether something
was coalesced into it (`len > 0`). -/
inductive FramePc where
  | idle
  | between
  | running (pxmitbuf : Option (ℕ × Bool)) (consume : ℕ)
  | closing (pxmitbuf : Option (ℕ × Bool)) (consume : ℕ)
  /-- An empty buffer was freed at the end of the access category. -/
  | upDue
  /-- `RTW_XBUF_UNAVAIL`: after `consume` more times, the semaphore is taken once to wait. -/
  | short (consume : ℕ)
  | waitUp
  | ended
  deriving DecidableEq

inductive WriterPc where
  | idle
  | dequeue
  | extMissed
  | holding (b : XmitBuf) (wrote : Bool)
  | upDue
  | ended
  deriving DecidableEq

inductive Stopper where
  | idle
  | downDue
  | done
  deriving DecidableEq

inductive Party where
  | frame
  | stopper
  deriving DecidableEq

structure State where
  freeXmitbuf : FreeList ℕ := {}
  freeExtbuf : FreeList ℕ := {}
  pending : List XmitBuf := []
  frame : FramePc := .idle
  writer : WriterPc := .idle
  /-- Management buffers in the hands of the senders. -/
  senders : List ℕ := []
  stopper : Stopper := .idle
  driverStopped : Bool := false
  sema : Semaphore Party
  next : ℕ := 0
  /-- Numbers of the data buffers written to the FIFO. -/
  written : List ℕ := []

def boot (free ext : List ℕ) : State where
  freeXmitbuf := ⟨free, free.length⟩
  freeExtbuf := ⟨ext, ext.length⟩
  sema := { count := free.length }

def FramePc.granted : FramePc → FramePc
  | .closing b (c + 1) => .closing b c
  | .short (c + 1) => .short c
  | .short 0 => .waitUp
  | pc => pc

def State.grant (s : State) : Party → State
  | .frame => { s with frame := s.frame.granted }
  | .stopper => { s with stopper := .done }

def State.up (s : State) : State :=
  match s.sema.up with
  | (m, none) => { s with sema := m }
  | (m, some p) => { s with sema := m }.grant p

def State.down (s : State) (p : Party) : State :=
  match s.sema.down p with
  | (m, true) => { s with sema := m }.grant p
  | (m, false) => { s with sema := m }

def enqueuePendingXmitbuf (s : State) (i : ℕ) (mgnt : Bool) : State :=
  { s with pending := s.pending ++ [⟨i, mgnt, s.next⟩], next := s.next + 1 }

def rtwFreeXmitbuf (s : State) (i : ℕ) (mgnt : Bool) : State :=
  if mgnt then { s with freeExtbuf := s.freeExtbuf.free i }
  else { s with freeXmitbuf := s.freeXmitbuf.free i }

inductive FrameEvent where
  | begin
  | acBegin
  | closeBuf
  | allocBuf
  | coalesce
  | acEnd
  | down
  | dump
  | up
  | handlerEnd
  deriving DecidableEq

/-- `rtl8188es_xmit_handler` and `xmit_xmitframes`; what the queues hold and what
fails is left to the order of the events. -/
def frameStep (s : State) (e : FrameEvent) : State :=
  match e, s.frame with
  | .begin, .idle => { s with frame := if s.driverStopped then .ended else .between }
  | .acBegin, .between => { s with frame := .running none 0 }
  | .closeBuf, .running (some (i, true)) c =>
    { enqueuePendingXmitbuf s i false with frame := .running none c }
  | .closeBuf, .running (some (i, false)) c =>
    { rtwFreeXmitbuf s i false with frame := .running none (c - 1) }
  | .allocBuf, .running none c =>
    match s.freeXmitbuf.alloc with
    | none => { s with frame := .short c }
    | some (i, l) => { s with freeXmitbuf := l, frame := .running (some (i, false)) (c + 1) }
  | .coalesce, .running (some (i, _)) c => { s with frame := .running (some (i, true)) c }
  | .acEnd, .running b c => { s with frame := .closing b c }
  | .down, .closing _ (_ + 1) => s.down .frame
  | .down, .short _ => s.down .frame
  | .dump, .closing none 0 => { s with frame := .between }
  | .dump, .closing (some (i, true)) 0 =>
    { enqueuePendingXmitbuf s i false with frame := .between }
  | .dump, .closing (some (i, false)) 0 => { rtwFreeXmitbuf s i false with frame := .upDue }
  | .up, .upDue => State.up { s with frame := .between }
  | .up, .waitUp => State.up { s with frame := .idle }
  | .handlerEnd, .between => { s with frame := .idle }
  | _, _ => s

inductive WriterEvent where
  | begin
  | dequeueExt (xmitBlocked : Bool)
  | dequeueHead (acBlocked : Bool)
  | toHead
  | writePort
  | freeBuf
  | up
  deriving DecidableEq

/-- `rtl8188es_xmit_buf_handler` and `_dequeue_writeport`. -/
def writerStep (s : State) (e : WriterEvent) : State :=
  match e, s.writer with
  | .begin, .idle => { s with writer := if s.driverStopped then .ended else .dequeue }
  | .dequeueExt true, .dequeue => { s with writer := .idle }
  | .dequeueExt false, .dequeue =>
    match s.pending.find? XmitBuf.mgnt with
    | none => { s with writer := .extMissed }
    | some b =>
      { s with pending := s.pending.eraseP XmitBuf.mgnt, writer := .holding b false }
  | .dequeueHead true, .extMissed => { s with writer := .idle }
  | .dequeueHead false, .extMissed =>
    match s.pending with
    | [] => { s with writer := .idle }
    | b :: bs => { s with pending := bs, writer := .holding b false }
  | .toHead, .holding b false => { s with pending := b :: s.pending, writer := .idle }
  | .writePort, .holding b false =>
    { s with
      writer := .holding b true
      written := if b.mgnt then s.written else s.written ++ [b.serial] }
  | .freeBuf, .holding b wrote =>
    -- without a write the buffer is only freed once the driver cannot run
    if wrote ∨ s.driverStopped then
      { rtwFreeXmitbuf s b.id b.mgnt with writer := if b.mgnt then .dequeue else .upDue }
    else s
  | .up, .upDue => State.up { s with writer := .dequeue }
  | _, _ => s

inductive SenderEvent where
  | alloc
  | send (i : ℕ)
  | free (i : ℕ)
  deriving DecidableEq

def senderStep (s : State) : SenderEvent → State
  | .alloc =>
    match s.freeExtbuf.alloc with
    | none => s
    | some (i, l) => { s with freeExtbuf := l, senders := i :: s.senders }
  | .send i =>
    if i ∈ s.senders then { enqueuePendingXmitbuf s i true with senders := s.senders.erase i }
    else s
  | .free i =>
    if i ∈ s.senders then { rtwFreeXmitbuf s i true with senders := s.senders.erase i } else s

inductive StopEvent where
  | setStopped
  | up
  | down
  deriving DecidableEq

/-- `rtw_stop_drv_threads`: `rtl8188e_stop_thread` comes after the write thread was
waited for. -/
def stopStep (s : State) (e : StopEvent) : State :=
  match e, s.stopper with
  | .setStopped, _ => { s with driverStopped := true }
  | .up, .idle =>
    if s.driverStopped ∧ s.writer = .ended then State.up { s with stopper := .downDue } else s
  | .down, .downDue => s.down .stopper
  | _, _ => s

inductive Event where
  | frame (e : FrameEvent)
  | writer (e : WriterEvent)
  | sender (e : SenderEvent)
  | stop (e : StopEvent)
  deriving DecidableEq

def step (s : State) : Event → State
  | .frame e => if .frame ∈ s.sema.waiters then s else frameStep s e
  | .writer e => writerStep s e
  | .sender e => senderStep s e
  | .stop e => if .stopper ∈ s.sema.waiters then s else stopStep s e

/-! ## Where the buffers are -/

def FramePc.hand : FramePc → Multiset (ℕ × Bool)
  | .running (some (i, _)) _ => {(i, false)}
  | .closing (some (i, _)) _ => {(i, false)}
  | _ => 0

def XmitBuf.key (b : XmitBuf) : ℕ × Bool := (b.id, b.mgnt)

def WriterPc.hand : WriterPc → Multiset (ℕ × Bool)
  | .holding b _ => {b.key}
  | _ => 0

@[simp] theorem holding_hand (b : XmitBuf) (wrote : Bool) :
    (WriterPc.holding b wrote).hand = {b.key} := rfl

def State.places (s : State) : Multiset (ℕ × Bool) :=
  (s.freeXmitbuf.cells : Multiset ℕ).map (·, false) +
    (s.freeExtbuf.cells : Multiset ℕ).map (·, true) + (s.pending.map XmitBuf.key : List _) +
    s.frame.hand + s.writer.hand + (s.senders : Multiset ℕ).map (·, true)

structure Placed (all : Multiset (ℕ × Bool)) (s : State) : Prop where
  places : s.places = all
  freeXmitbufCnt : s.freeXmitbuf.Counted
  freeXmitExtbufCnt : s.freeExtbuf.Counted

theorem FramePc.granted_hand (pc : FramePc) : pc.granted.hand = pc.hand := by
  unfold granted
  split
  · rename_i b c
    cases b <;> rfl
  · rfl
  · rfl
  · rfl

theorem Placed.grant {all : Multiset (ℕ × Bool)} {s : State} (h : Placed all s) (p : Party) :
    Placed all (s.grant p) := by
  refine ⟨?_, ?_, ?_⟩
  · cases p with
    | frame => simpa only [State.grant, State.places, FramePc.granted_hand] using h.places
    | stopper => exact h.places
  · cases p <;> exact h.freeXmitbufCnt
  · cases p <;> exact h.freeXmitExtbufCnt

theorem Placed.up {all : Multiset (ℕ × Bool)} {s : State} (h : Placed all s) :
    Placed all s.up := by
  unfold State.up
  split
  · exact ⟨h.places, h.freeXmitbufCnt, h.freeXmitExtbufCnt⟩
  · rename_i m p _
    exact Placed.grant (s := { s with sema := m })
      ⟨h.places, h.freeXmitbufCnt, h.freeXmitExtbufCnt⟩ p

theorem Placed.down {all : Multiset (ℕ × Bool)} {s : State} (h : Placed all s) (p : Party) :
    Placed all (s.down p) := by
  unfold State.down
  split
  · rename_i m _
    exact Placed.grant (s := { s with sema := m })
      ⟨h.places, h.freeXmitbufCnt, h.freeXmitExtbufCnt⟩ p
  · exact ⟨h.places, h.freeXmitbufCnt, h.freeXmitExtbufCnt⟩

def State.rest (s : State) : Multiset (ℕ × Bool) :=
  (s.freeXmitbuf.cells : Multiset ℕ).map (·, false) +
    (s.freeExtbuf.cells : Multiset ℕ).map (·, true) + (s.pending.map XmitBuf.key : List _)

def State.hands (s : State) : Multiset (ℕ × Bool) :=
  s.frame.hand + s.writer.hand + (s.senders : Multiset ℕ).map (·, true)

theorem places_eq (s : State) : s.places = s.rest + s.hands := by
  simp only [State.places, State.rest, State.hands, add_assoc]

theorem places_put {s t : State} {x : ℕ × Bool} (hrest : t.rest = x ::ₘ s.rest)
    (hhands : s.hands = x ::ₘ t.hands) : t.places = s.places := by
  rw [places_eq, places_eq, hrest, hhands, Multiset.cons_add, Multiset.add_cons]

theorem enqueue_rest (s : State) (i : ℕ) (mgnt : Bool) :
    (enqueuePendingXmitbuf s i mgnt).rest = (i, mgnt) ::ₘ s.rest := by
  simp only [State.rest, enqueuePendingXmitbuf, List.map_append, ← Multiset.coe_add,
    List.map_cons, List.map_nil, XmitBuf.key, Multiset.coe_singleton]
  rw [← add_assoc, add_comm _ {(i, mgnt)}, Multiset.singleton_add]

theorem free_rest {s : State} {i : ℕ} {mgnt : Bool} (h : (i, mgnt) ∉ s.rest) :
    (rtwFreeXmitbuf s i mgnt).rest = (i, mgnt) ::ₘ s.rest := by
  simp only [State.rest, Multiset.mem_add, Multiset.mem_map, not_or, not_exists, not_and] at h
  cases mgnt with
  | false =>
    have hi : i ∉ s.freeXmitbuf.cells := fun hm => h.1.1 i hm rfl
    simp only [rtwFreeXmitbuf, State.rest, Bool.false_eq_true, if_false,
      FreeList.free_cells hi, Multiset.map_cons, Multiset.cons_add]
  | true =>
    have hi : i ∉ s.freeExtbuf.cells := fun hm => h.1.2 i hm rfl
    simp only [rtwFreeXmitbuf, State.rest, if_true, FreeList.free_cells hi, Multiset.map_cons,
      Multiset.cons_add, Multiset.add_cons]

@[simp] theorem free_frame (s : State) (i : ℕ) (mgnt : Bool) :
    (rtwFreeXmitbuf s i mgnt).frame = s.frame := by
  cases mgnt <;> rfl

@[simp] theorem free_senders (s : State) (i : ℕ) (mgnt : Bool) :
    (rtwFreeXmitbuf s i mgnt).senders = s.senders := by
  cases mgnt <;> rfl

theorem not_mem_rest {s : State} (hnodup : s.places.Nodup) {x : ℕ × Bool} (h : x ∈ s.hands) :
    x ∉ s.rest := by
  rw [places_eq, Multiset.nodup_add] at hnodup
  exact fun hx => Multiset.disjoint_left.1 hnodup.2.2 hx h

theorem Placed.free {all : Multiset (ℕ × Bool)} {s : State} (h : Placed all s) {i : ℕ}
    {mgnt : Bool} (hi : (i, mgnt) ∉ s.rest) :
    (rtwFreeXmitbuf s i mgnt).freeXmitbuf.Counted ∧
      (rtwFreeXmitbuf s i mgnt).freeExtbuf.Counted := by
  simp only [State.rest, Multiset.mem_add, Multiset.mem_map, not_or, not_exists, not_and] at hi
  cases mgnt with
  | false =>
    exact ⟨FreeList.free_counted h.freeXmitbufCnt fun hm => hi.1.1 i hm rfl,
      h.freeXmitExtbufCnt⟩
  | true =>
    exact ⟨h.freeXmitbufCnt,
      FreeList.free_counted h.freeXmitExtbufCnt fun hm => hi.1.2 i hm rfl⟩

section Places

variable {all : Multiset (ℕ × Bool)} {s : State}

theorem Placed.setFrame (h : Placed all s) {pc : FramePc} (hpc : pc.hand = s.frame.hand) :
    Placed all { s with frame := pc } := by
  refine ⟨?_, h.freeXmitbufCnt, h.freeXmitExtbufCnt⟩
  rw [← h.places]
  simp only [State.places, hpc]

theorem Placed.frameEnqueue (h : Placed all s) {i : ℕ} {pc : FramePc}
    (hi : s.frame.hand = {(i, false)}) (hpc : pc.hand = 0) :
    Placed all { enqueuePendingXmitbuf s i false with frame := pc } := by
  refine ⟨?_, h.freeXmitbufCnt, h.freeXmitExtbufCnt⟩
  rw [← h.places]
  refine places_put (x := (i, false)) (enqueue_rest s i false) ?_
  simp only [State.hands, enqueuePendingXmitbuf, hi, hpc, zero_add, Multiset.singleton_add,
    Multiset.cons_add]

theorem Placed.frameFree (hall : all.Nodup) (h : Placed all s) {i : ℕ} {pc : FramePc}
    (hi : s.frame.hand = {(i, false)}) (hpc : pc.hand = 0) :
    Placed all { rtwFreeXmitbuf s i false with frame := pc } := by
  have hout : (i, false) ∉ s.rest := by
    apply not_mem_rest (h.places ▸ hall)
    simp [State.hands, hi]
  refine ⟨?_, (h.free hout).1, (h.free hout).2⟩
  rw [← h.places]
  refine places_put (x := (i, false)) (free_rest hout) ?_
  simp only [State.hands, rtwFreeXmitbuf, Bool.false_eq_true, if_false, hi, hpc, zero_add,
    Multiset.singleton_add, Multiset.cons_add]

theorem placed_frame (hall : all.Nodup) (h : Placed all s) (e : FrameEvent) :
    Placed all (frameStep s e) := by
  unfold frameStep
  split <;> rename_i hframe
  · apply h.setFrame
    rw [hframe]
    split <;> rfl
  · exact h.setFrame (by rw [hframe]; rfl)
  · exact h.frameEnqueue (by rw [hframe]; rfl) rfl
  · exact h.frameFree hall (by rw [hframe]; rfl) rfl
  · split
    · exact h.setFrame (by rw [hframe]; rfl)
    · rename_i i l halloc
      refine ⟨?_, FreeList.alloc_counted h.freeXmitbufCnt halloc, h.freeXmitExtbufCnt⟩
      rw [← h.places]
      refine (places_put (x := (i, false)) ?_ ?_).symm
      · simp only [State.rest, FreeList.alloc_cells halloc, Multiset.map_cons, Multiset.cons_add]
      · simp only [State.hands, hframe, FramePc.hand, zero_add, Multiset.singleton_add,
          Multiset.cons_add]
  · exact h.setFrame (by rw [hframe]; rfl)
  · rename_i b c
    apply h.setFrame
    rw [hframe]
    cases b <;> rfl
  · exact h.down .frame
  · exact h.down .frame
  · exact h.setFrame (by rw [hframe]; rfl)
  · exact h.frameEnqueue (by rw [hframe]; rfl) rfl
  · exact h.frameFree hall (by rw [hframe]; rfl) rfl
  · exact (h.setFrame (by rw [hframe]; rfl)).up
  · exact (h.setFrame (by rw [hframe]; rfl)).up
  · exact h.setFrame (by rw [hframe]; rfl)
  · exact h

theorem Placed.setWriter (h : Placed all s) {pc : WriterPc} (hpc : pc.hand = s.writer.hand) :
    Placed all { s with writer := pc } := by
  refine ⟨?_, h.freeXmitbufCnt, h.freeXmitExtbufCnt⟩
  rw [← h.places]
  simp only [State.places, hpc]

theorem Placed.take (h : Placed all s) {b : XmitBuf} {bs : List XmitBuf}
    (hpending : s.pending.Perm (b :: bs)) (hwriter : s.writer.hand = 0) (wrote : Bool) :
    Placed all { s with pending := bs, writer := .holding b wrote } := by
  refine ⟨?_, h.freeXmitbufCnt, h.freeXmitExtbufCnt⟩
  rw [← h.places]
  refine (places_put (x := b.key) ?_ ?_).symm
  · have hkeys : (s.pending.map XmitBuf.key : Multiset (ℕ × Bool)) =
        b.key ::ₘ (bs.map XmitBuf.key : List _) :=
      Multiset.coe_eq_coe.2 (hpending.map XmitBuf.key)
    simp only [State.rest, hkeys, Multiset.add_cons]
  · change s.frame.hand + {b.key} + _ = b.key ::ₘ (s.frame.hand + s.writer.hand + _)
    rw [hwriter, add_zero, ← Multiset.singleton_add, add_right_comm, add_comm]

theorem pending_perm {l : List XmitBuf} {b : XmitBuf} (h : l.find? XmitBuf.mgnt = some b) :
    l.Perm (b :: l.eraseP XmitBuf.mgnt) := by
  obtain ⟨hb, as, bs, rfl, has⟩ := List.find?_eq_some_iff_append.1 h
  rw [List.eraseP_append_right _ (by simpa using has), List.eraseP_cons_of_pos hb]
  exact List.perm_middle

theorem placed_writer (hall : all.Nodup) (h : Placed all s) (e : WriterEvent) :
    Placed all (writerStep s e) := by
  unfold writerStep
  split <;> rename_i hwriter
  · apply h.setWriter
    rw [hwriter]
    split <;> rfl
  · exact h.setWriter (by rw [hwriter]; rfl)
  · split
    · exact h.setWriter (by rw [hwriter]; rfl)
    · rename_i b hb
      exact h.take (pending_perm hb) (by rw [hwriter]; rfl) false
  · exact h.setWriter (by rw [hwriter]; rfl)
  · split
    · exact h.setWriter (by rw [hwriter]; rfl)
    · rename_i b bs hb
      exact h.take (hb ▸ List.Perm.refl _) (by rw [hwriter]; rfl) false
  · rename_i b
    refine ⟨?_, h.freeXmitbufCnt, h.freeXmitExtbufCnt⟩
    rw [← h.places]
    apply places_put (x := b.key)
    · simp only [State.rest, List.map_cons, ← Multiset.cons_coe, Multiset.add_cons]
    · simp only [State.hands, hwriter, WriterPc.hand, add_zero, ← Multiset.singleton_add]
      rw [add_right_comm, add_comm]
  · exact ⟨by rw [← h.places]; simp only [State.places, hwriter, WriterPc.hand],
      h.freeXmitbufCnt, h.freeXmitExtbufCnt⟩
  · rename_i b wrote
    split
    · have hout : (b.id, b.mgnt) ∉ s.rest := by
        apply not_mem_rest (h.places ▸ hall)
        simp [State.hands, hwriter, WriterPc.hand, XmitBuf.key]
      refine ⟨?_, (h.free hout).1, (h.free hout).2⟩
      rw [← h.places]
      refine places_put (x := (b.id, b.mgnt)) (free_rest hout) ?_
      have hhand : (if b.mgnt then WriterPc.dequeue else WriterPc.upDue).hand = 0 := by
        split <;> rfl
      simp only [State.hands, hhand, free_senders, free_frame, hwriter, holding_hand, XmitBuf.key,
        add_zero, ← Multiset.singleton_add]
      rw [add_right_comm, add_comm]
    · exact h
  · exact (h.setWriter (by rw [hwriter]; rfl)).up
  · exact h

theorem placed_sender (hall : all.Nodup) (h : Placed all s) (e : SenderEvent) :
    Placed all (senderStep s e) := by
  cases e with
  | alloc =>
    simp only [senderStep]
    split
    · exact h
    · rename_i i l halloc
      refine ⟨?_, h.freeXmitbufCnt, FreeList.alloc_counted h.freeXmitExtbufCnt halloc⟩
      rw [← h.places]
      refine (places_put (x := (i, true)) ?_ ?_).symm
      · simp only [State.rest, FreeList.alloc_cells halloc, Multiset.map_cons, Multiset.cons_add,
          Multiset.add_cons]
      · simp only [State.hands, ← Multiset.cons_coe, Multiset.map_cons, Multiset.add_cons]
  | send i =>
    simp only [senderStep]
    split
    · rename_i hi
      refine ⟨?_, h.freeXmitbufCnt, h.freeXmitExtbufCnt⟩
      rw [← h.places]
      refine places_put (x := (i, true)) (enqueue_rest s i true) ?_
      rw [State.hands, Multiset.coe_eq_coe.2 (List.perm_cons_erase hi), ← Multiset.cons_coe,
        Multiset.map_cons, Multiset.add_cons]
      rfl
    · exact h
  | free i =>
    simp only [senderStep]
    split
    · rename_i hi
      have hout : (i, true) ∉ s.rest := by
        apply not_mem_rest (h.places ▸ hall)
        simp [State.hands, hi]
      refine ⟨?_, (h.free hout).1, (h.free hout).2⟩
      rw [← h.places]
      refine places_put (x := (i, true)) (free_rest hout) ?_
      rw [State.hands, Multiset.coe_eq_coe.2 (List.perm_cons_erase hi), ← Multiset.cons_coe,
        Multiset.map_cons, Multiset.add_cons]
      rfl
    · exact h

theorem Placed.setStopper (h : Placed all s) (pc : Stopper) :
    Placed all { s with stopper := pc } := ⟨h.places, h.freeXmitbufCnt, h.freeXmitExtbufCnt⟩

theorem placed_stop (h : Placed all s) (e : StopEvent) : Placed all (stopStep s e) := by
  unfold stopStep
  split
  · exact ⟨h.places, h.freeXmitbufCnt, h.freeXmitExtbufCnt⟩
  · split
    · exact (h.setStopper .downDue).up
    · exact h
  · exact h.down .stopper
  · exact h

theorem placed_step (hall : all.Nodup) (h : Placed all s) (e : Event) : Placed all (step s e) := by
  cases e with
  | frame e =>
    simp only [step]
    split
    · exact h
    · exact placed_frame hall h e
  | writer e => exact placed_writer hall h e
  | sender e => exact placed_sender hall h e
  | stop e =>
    simp only [step]
    split
    · exact h
    · exact placed_stop h e

end Places

/-! ## The semaphore against the free buffers -/

def FramePc.upsDue : FramePc → ℕ
  | .upDue => 1
  | .waitUp => 1
  | _ => 0

def FramePc.downsDue : FramePc → ℕ
  | .running _ c => c
  | .closing _ c => c
  | .short c => c
  | _ => 0

def WriterPc.upsDue : WriterPc → ℕ
  | .upDue => 1
  | _ => 0

def Stopper.downsDue : Stopper → ℕ
  | .downDue => 1
  | _ => 0

def State.upsDue (s : State) : ℕ := s.frame.upsDue + s.writer.upsDue

def State.downsDue (s : State) : ℕ := s.frame.downsDue + s.stopper.downsDue

def State.level (s : State) : ℤ :=
  s.sema.count + s.upsDue - s.freeXmitbuf.cnt - s.downsDue

def FramePc.Waits : FramePc → Prop
  | .closing _ (_ + 1) => True
  | .short _ => True
  | _ => False

def State.Waits (s : State) : Party → Prop
  | .frame => s.frame.Waits
  | .stopper => s.stopper = .downDue

structure Balanced (n : ℤ) (s : State) : Prop where
  sema : s.sema.Ok
  waits : ∀ p ∈ s.sema.waiters, s.Waits p
  level : s.level = n
  /-- `consume` never drops below zero. -/
  consume : ∀ b c, s.frame = .running (some b) c → 0 < c

theorem level_grant {s : State} {p : Party} (h : s.Waits p) :
    (s.grant p).level = s.level + 1 := by
  cases p with
  | frame =>
    change s.frame.Waits at h
    unfold FramePc.Waits at h
    split at h
    · rename_i hframe
      simp only [State.level, State.grant, State.upsDue, State.downsDue, hframe,
        FramePc.granted, FramePc.upsDue, FramePc.downsDue]
      omega
    · rename_i c hframe
      cases c with
      | zero =>
        simp only [State.level, State.grant, State.upsDue, State.downsDue, hframe,
          FramePc.granted, FramePc.upsDue, FramePc.downsDue]
        omega
      | succ c =>
        simp only [State.level, State.grant, State.upsDue, State.downsDue, hframe,
          FramePc.granted, FramePc.upsDue, FramePc.downsDue]
        omega
    · exact h.elim
  | stopper =>
    change s.stopper = .downDue at h
    simp only [State.level, State.grant, State.upsDue, State.downsDue, h, Stopper.downsDue]
    omega

theorem granted_running {pc : FramePc} {b : Option (ℕ × Bool)} {c : ℕ}
    (h : pc.granted = .running b c) : pc = .running b c := by
  unfold FramePc.granted at h
  split at h
  · exact nomatch h
  · exact nomatch h
  · exact nomatch h
  · exact h

theorem Balanced.grant {n : ℤ} {s : State} (h : Balanced n s) {p : Party}
    (hp : p ∉ s.sema.waiters) (hwaits : s.Waits p) : Balanced (n + 1) (s.grant p) := by
  refine ⟨?_, ?_, ?_, ?_⟩
  · cases p <;> exact h.sema
  · intro q hq
    have hq : q ∈ s.sema.waiters := by cases p <;> exact hq
    have hne : q ≠ p := fun hqp => hp (hqp ▸ hq)
    have hw := h.waits q hq
    cases p <;> cases q <;> first | exact absurd rfl hne | exact hw
  · rw [level_grant hwaits, h.level]
  · intro b c hb
    cases p with
    | frame => exact h.consume b c (granted_running hb)
    | stopper => exact h.consume b c hb

theorem Balanced.up {n : ℤ} {s : State} (h : Balanced n s) : Balanced (n + 1) s.up := by
  have hsema := h.sema.up
  unfold State.up
  obtain ⟨hw, he⟩ | ⟨p, ps, hw, he⟩ := Semaphore.up_cases s.sema
  · rw [he] at hsema ⊢
    refine ⟨hsema, h.waits, ?_, h.consume⟩
    rw [← h.level]
    simp only [State.level, State.upsDue, State.downsDue]
    omega
  · rw [he] at hsema ⊢
    have hnodup := h.sema.nodup
    rw [hw, List.nodup_cons] at hnodup
    have hrest : Balanced n { s with sema := { s.sema with waiters := ps } } :=
      ⟨hsema, fun q hq => h.waits q (hw ▸ List.mem_cons_of_mem p hq), h.level, h.consume⟩
    exact hrest.grant hnodup.1 (h.waits p (hw ▸ List.mem_cons_self))

theorem Balanced.down {n : ℤ} {s : State} (h : Balanced n s) {p : Party}
    (hp : p ∉ s.sema.waiters) (hwaits : s.Waits p) : Balanced n (s.down p) := by
  have hsema := h.sema.down hp
  unfold State.down
  obtain ⟨hc, he⟩ | ⟨hc, he⟩ := Semaphore.down_cases s.sema p
  · rw [he] at hsema ⊢
    have hrest : Balanced (n - 1) { s with sema := { s.sema with count := s.sema.count - 1 } } := by
      refine ⟨hsema, h.waits, ?_, h.consume⟩
      rw [← h.level]
      simp only [State.level, State.upsDue, State.downsDue]
      omega
    have hgrant := hrest.grant hp hwaits
    rwa [Int.sub_add_cancel] at hgrant
  · rw [he] at hsema ⊢
    refine ⟨hsema, ?_, h.level, h.consume⟩
    intro q hq
    obtain hq | hq := List.mem_append.1 hq
    · exact h.waits q hq
    · exact List.mem_singleton.1 hq ▸ hwaits

section Sema

variable {n : ℤ} {s t : State}

theorem Balanced.ofFrame (h : Balanced 0 s) (hout : .frame ∉ s.sema.waiters)
    (hsema : t.sema = s.sema) (hstopper : t.stopper = s.stopper) (hlevel : t.level = n)
    (hconsume : ∀ b c, t.frame = .running (some b) c → 0 < c) : Balanced n t := by
  refine ⟨hsema ▸ h.sema, ?_, hlevel, hconsume⟩
  intro p hp
  rw [hsema] at hp
  cases p with
  | frame => exact absurd hp hout
  | stopper =>
    change t.stopper = .downDue
    rw [hstopper]
    exact h.waits .stopper hp

omit n t in
theorem balanced_frame (h : Balanced 0 s) (hout : .frame ∉ s.sema.waiters) (e : FrameEvent) :
    Balanced 0 (frameStep s e) := by
  have hlevel := h.level
  simp only [State.level, State.upsDue, State.downsDue] at hlevel
  unfold frameStep
  split <;> rename_i hframe
  · rw [hframe] at hlevel
    refine h.ofFrame hout rfl rfl ?_ ?_
    · simp only [State.level, State.upsDue, State.downsDue]
      split <;> exact hlevel
    · intro b c
      simp only
      split <;> rintro ⟨⟩
  · rw [hframe] at hlevel
    exact h.ofFrame hout rfl rfl hlevel (by rintro _ _ ⟨⟩)
  · rw [hframe] at hlevel
    exact h.ofFrame hout rfl rfl hlevel (by rintro _ _ ⟨⟩)
  · rename_i i c
    have hc := h.consume _ _ hframe
    rw [hframe] at hlevel
    refine h.ofFrame hout rfl rfl ?_ (by rintro _ _ ⟨⟩)
    simp only [State.level, State.upsDue, State.downsDue, rtwFreeXmitbuf, FreeList.free,
      FramePc.upsDue, FramePc.downsDue, Bool.false_eq_true, if_false] at hlevel ⊢
    omega
  · rw [hframe] at hlevel
    split
    · exact h.ofFrame hout rfl rfl hlevel (by rintro _ _ ⟨⟩)
    · rename_i c _ _ i l halloc
      have hcnt := FreeList.alloc_cnt halloc
      refine h.ofFrame hout rfl rfl ?_ ?_
      · simp only [State.level, State.upsDue, State.downsDue, FramePc.upsDue, FramePc.downsDue,
          hcnt] at hlevel ⊢
        omega
      · rintro b c' hb
        obtain ⟨-, rfl⟩ := FramePc.running.inj hb
        omega
  · rename_i i _ c
    have hc := h.consume _ _ hframe
    rw [hframe] at hlevel
    refine h.ofFrame hout rfl rfl hlevel ?_
    rintro b c' hb
    obtain ⟨-, rfl⟩ := FramePc.running.inj hb
    exact hc
  · rw [hframe] at hlevel
    exact h.ofFrame hout rfl rfl hlevel (by rintro _ _ ⟨⟩)
  · exact h.down hout (by change s.frame.Waits; rw [hframe]; trivial)
  · exact h.down hout (by change s.frame.Waits; rw [hframe]; trivial)
  · rw [hframe] at hlevel
    exact h.ofFrame hout rfl rfl hlevel (by rintro _ _ ⟨⟩)
  · rw [hframe] at hlevel
    exact h.ofFrame hout rfl rfl hlevel (by rintro _ _ ⟨⟩)
  · rw [hframe] at hlevel
    refine h.ofFrame hout rfl rfl ?_ (by rintro _ _ ⟨⟩)
    simp only [State.level, State.upsDue, State.downsDue, rtwFreeXmitbuf, FreeList.free,
      FramePc.upsDue, FramePc.downsDue, Bool.false_eq_true, if_false] at hlevel ⊢
    omega
  · rw [hframe] at hlevel
    have hdown : Balanced (-1) { s with frame := .between } := by
      refine h.ofFrame hout rfl rfl ?_ (by rintro _ _ ⟨⟩)
      simp only [State.level, State.upsDue, State.downsDue, FramePc.upsDue, FramePc.downsDue]
        at hlevel ⊢
      omega
    exact hdown.up
  · rw [hframe] at hlevel
    have hdown : Balanced (-1) { s with frame := .idle } := by
      refine h.ofFrame hout rfl rfl ?_ (by rintro _ _ ⟨⟩)
      simp only [State.level, State.upsDue, State.downsDue, FramePc.upsDue, FramePc.downsDue]
        at hlevel ⊢
      omega
    exact hdown.up
  · rw [hframe] at hlevel
    exact h.ofFrame hout rfl rfl hlevel (by rintro _ _ ⟨⟩)
  · exact h

theorem Balanced.of_eq (h : Balanced 0 s) (hsema : t.sema = s.sema) (hframe : t.frame = s.frame)
    (hstopper : t.stopper = s.stopper) (hlevel : t.level = n) : Balanced n t := by
  refine ⟨hsema ▸ h.sema, ?_, hlevel, hframe ▸ h.consume⟩
  intro p hp
  have hw := h.waits p (hsema ▸ hp)
  cases p with
  | frame =>
    change t.frame.Waits
    exact hframe ▸ hw
  | stopper =>
    change t.stopper = .downDue
    exact hstopper ▸ hw

omit n t in
theorem balanced_writer (h : Balanced 0 s) (e : WriterEvent) : Balanced 0 (writerStep s e) := by
  have hlevel := h.level
  simp only [State.level, State.upsDue, State.downsDue] at hlevel
  unfold writerStep
  split <;> rename_i hwriter
  · rw [hwriter] at hlevel
    refine h.of_eq rfl rfl rfl ?_
    simp only [State.level, State.upsDue, State.downsDue]
    split <;> exact hlevel
  · rw [hwriter] at hlevel
    exact h.of_eq rfl rfl rfl hlevel
  · rw [hwriter] at hlevel
    split
    · exact h.of_eq rfl rfl rfl hlevel
    · exact h.of_eq rfl rfl rfl hlevel
  · rw [hwriter] at hlevel
    exact h.of_eq rfl rfl rfl hlevel
  · rw [hwriter] at hlevel
    split
    · exact h.of_eq rfl rfl rfl hlevel
    · exact h.of_eq rfl rfl rfl hlevel
  · rw [hwriter] at hlevel
    exact h.of_eq rfl rfl rfl hlevel
  · rw [hwriter] at hlevel
    exact h.of_eq rfl rfl rfl hlevel
  · rename_i b wrote
    rw [hwriter] at hlevel
    split
    · cases hb : b.mgnt with
      | false =>
        refine h.of_eq rfl rfl rfl ?_
        simp only [State.level, State.upsDue, State.downsDue, rtwFreeXmitbuf, FreeList.free,
          WriterPc.upsDue, Bool.false_eq_true, if_false] at hlevel ⊢
        omega
      | true => exact h.of_eq rfl rfl rfl hlevel
    · exact h
  · rw [hwriter] at hlevel
    have hdown : Balanced (-1) { s with writer := .dequeue } := by
      refine h.of_eq rfl rfl rfl ?_
      simp only [State.level, State.upsDue, State.downsDue, WriterPc.upsDue] at hlevel ⊢
      omega
    exact hdown.up
  · exact h

omit n t in
theorem balanced_sender (h : Balanced 0 s) (e : SenderEvent) : Balanced 0 (senderStep s e) := by
  cases e with
  | alloc =>
    simp only [senderStep]
    split
    · exact h
    · exact h.of_eq rfl rfl rfl h.level
  | send i =>
    simp only [senderStep]
    split
    · exact h.of_eq rfl rfl rfl h.level
    · exact h
  | free i =>
    simp only [senderStep]
    split
    · exact h.of_eq rfl rfl rfl h.level
    · exact h

omit n t in
theorem balanced_stop (h : Balanced 0 s) (hout : .stopper ∉ s.sema.waiters) (e : StopEvent) :
    Balanced 0 (stopStep s e) := by
  have hlevel := h.level
  simp only [State.level, State.upsDue, State.downsDue] at hlevel
  unfold stopStep
  split <;> rename_i hstopper
  · exact h.of_eq rfl rfl rfl h.level
  · rw [hstopper] at hlevel
    split
    · have hdown : Balanced (-1) { s with stopper := .downDue } := by
        refine ⟨h.sema, ?_, ?_, h.consume⟩
        · intro p hp
          cases p with
          | frame => exact h.waits .frame hp
          | stopper => rfl
        · simp only [State.level, State.upsDue, State.downsDue, Stopper.downsDue] at hlevel ⊢
          omega
      exact hdown.up
    · exact h
  · exact h.down hout hstopper
  · exact h

omit n t in
theorem balanced_step (h : Balanced 0 s) (e : Event) : Balanced 0 (step s e) := by
  cases e with
  | frame e =>
    simp only [step]
    split
    · exact h
    · rename_i hout
      exact balanced_frame h hout e
  | writer e => exact balanced_writer h e
  | sender e => exact balanced_sender h e
  | stop e =>
    simp only [step]
    split
    · exact h
    · rename_i hout
      exact balanced_stop h hout e

end Sema

/-! ## The order of the writes -/

def serials (l : List XmitBuf) : List ℕ := (l.filter fun b => !b.mgnt).map XmitBuf.serial

/-- The data buffer in the hand of the write thread, until it is written. -/
def WriterPc.unwritten : WriterPc → List XmitBuf
  | .holding b false => [b]
  | _ => []

/-- What was written and what is still to be written, in the order of the queue. -/
def State.line (s : State) : List ℕ :=
  s.written ++ serials (s.writer.unwritten ++ s.pending)

structure Ordered (s : State) : Prop where
  line : s.line.Pairwise (· < ·)
  next : ∀ k ∈ s.line, k < s.next

theorem serials_append (l l' : List XmitBuf) : serials (l ++ l') = serials l ++ serials l' := by
  simp [serials]

theorem serials_cons_mgnt {b : XmitBuf} (hb : b.mgnt = true) (l : List XmitBuf) :
    serials (b :: l) = serials l := by
  simp [serials, hb]

theorem serials_eraseP (l : List XmitBuf) : serials (l.eraseP XmitBuf.mgnt) = serials l := by
  induction l with
  | nil => rfl
  | cons b l ih =>
    cases hb : b.mgnt with
    | true => rw [List.eraseP_cons_of_pos hb, serials_cons_mgnt hb]
    | false =>
      rw [List.eraseP_cons_of_neg (by simp [hb])]
      simp only [serials, List.filter_cons, hb, Bool.not_false, if_true, List.map_cons] at ih ⊢
      rw [ih]

section Order

variable {s t : State}

theorem Ordered.of_sublist (h : Ordered s) (hline : t.line.Sublist s.line)
    (hnext : t.next = s.next) : Ordered t :=
  ⟨h.line.sublist hline, fun k hk => hnext ▸ h.next k (hline.subset hk)⟩

theorem Ordered.of_eq (h : Ordered s) (hline : t.line = s.line) (hnext : t.next = s.next) :
    Ordered t := h.of_sublist (hline ▸ List.Sublist.refl _) hnext

theorem Ordered.enqueue (h : Ordered s) (i : ℕ) (mgnt : Bool) :
    Ordered (enqueuePendingXmitbuf s i mgnt) := by
  have hline : (enqueuePendingXmitbuf s i mgnt).line =
      s.line ++ serials [⟨i, mgnt, s.next⟩] := by
    simp only [State.line, enqueuePendingXmitbuf, serials_append, List.append_assoc]
  have hnew : ∀ k ∈ serials [⟨i, mgnt, s.next⟩], k = s.next := by
    cases mgnt <;> simp [serials]
  refine ⟨?_, ?_⟩
  · rw [hline, List.pairwise_append]
    refine ⟨h.line, ?_, ?_⟩
    · cases mgnt <;> simp [serials]
    · intro j hj k hk
      rw [hnew k hk]
      exact h.next j hj
  · intro k hk
    rw [hline] at hk
    change k < s.next + 1
    obtain hk | hk := List.mem_append.1 hk
    · exact Nat.lt_succ_of_lt (h.next k hk)
    · rw [hnew k hk]
      exact Nat.lt_succ_self _

omit t in
theorem Ordered.grant (h : Ordered s) (p : Party) : Ordered (s.grant p) := by
  cases p <;> exact h.of_eq rfl rfl

omit t in
theorem Ordered.up (h : Ordered s) : Ordered s.up := by
  unfold State.up
  split
  · exact h.of_eq rfl rfl
  · rename_i m p _
    exact Ordered.grant (s := { s with sema := m }) (h.of_eq rfl rfl) p

omit t in
theorem Ordered.down (h : Ordered s) (p : Party) : Ordered (s.down p) := by
  unfold State.down
  split
  · rename_i m _
    exact Ordered.grant (s := { s with sema := m }) (h.of_eq rfl rfl) p
  · exact h.of_eq rfl rfl

omit t in
theorem Ordered.free (h : Ordered s) (i : ℕ) (mgnt : Bool) :
    Ordered (rtwFreeXmitbuf s i mgnt) := by
  cases mgnt <;> exact h.of_eq rfl rfl

omit t in
theorem ordered_frame (h : Ordered s) (e : FrameEvent) : Ordered (frameStep s e) := by
  unfold frameStep
  split
  · exact h.of_eq rfl rfl
  · exact h.of_eq rfl rfl
  · rename_i i c _
    exact (h.enqueue i false).of_eq rfl rfl
  · exact h.of_eq rfl rfl
  · split <;> exact h.of_eq rfl rfl
  · exact h.of_eq rfl rfl
  · exact h.of_eq rfl rfl
  · exact h.down .frame
  · exact h.down .frame
  · exact h.of_eq rfl rfl
  · rename_i i _
    exact (h.enqueue i false).of_eq rfl rfl
  · exact h.of_eq rfl rfl
  · exact Ordered.up (s := { s with frame := .between }) (h.of_eq rfl rfl)
  · exact Ordered.up (s := { s with frame := .idle }) (h.of_eq rfl rfl)
  · exact h.of_eq rfl rfl
  · exact h

omit t in
theorem ordered_writer (h : Ordered s) (e : WriterEvent) : Ordered (writerStep s e) := by
  unfold writerStep
  split <;> rename_i hwriter
  · refine h.of_eq ?_ rfl
    simp only [State.line, hwriter]
    split <;> rfl
  · exact h.of_eq (by simp only [State.line, hwriter, WriterPc.unwritten]) rfl
  · split
    · exact h.of_eq (by simp only [State.line, hwriter, WriterPc.unwritten]) rfl
    · rename_i b hb
      -- a management buffer jumps the queue of the data buffers
      refine h.of_eq ?_ rfl
      simp only [State.line, hwriter, WriterPc.unwritten, List.cons_append, List.nil_append]
      rw [serials_cons_mgnt (List.find?_some hb), serials_eraseP]
  · exact h.of_eq (by simp only [State.line, hwriter, WriterPc.unwritten]) rfl
  · split
    · exact h.of_eq (by simp only [State.line, hwriter, WriterPc.unwritten]) rfl
    · rename_i b bs hb
      refine h.of_eq ?_ rfl
      simp only [State.line, hwriter, WriterPc.unwritten, hb, List.cons_append, List.nil_append]
  · refine h.of_eq ?_ rfl
    simp only [State.line, hwriter, WriterPc.unwritten, List.cons_append, List.nil_append]
  · rename_i b
    refine h.of_eq ?_ rfl
    simp only [State.line, hwriter, WriterPc.unwritten, List.cons_append, List.nil_append]
    cases hb : b.mgnt with
    | true =>
      rw [serials_cons_mgnt hb]
      rfl
    | false => simp [serials, hb]
  · rename_i b wrote
    split
    · refine (h.free b.id b.mgnt).of_sublist ?_ rfl
      have hsame : (rtwFreeXmitbuf s b.id b.mgnt).line = s.line := by cases b.mgnt <;> rfl
      rw [hsame]
      have hwritten : (rtwFreeXmitbuf s b.id b.mgnt).written = s.written := by
        cases b.mgnt <;> rfl
      have hpending : (rtwFreeXmitbuf s b.id b.mgnt).pending = s.pending := by
        cases b.mgnt <;> rfl
      have hnone : (if b.mgnt then WriterPc.dequeue else WriterPc.upDue).unwritten = [] := by
        split <;> rfl
      simp only [State.line, hwritten, hpending, hnone, serials_append, List.nil_append]
      exact (List.Sublist.refl _).append (List.sublist_append_right _ _)
    · exact h
  · refine Ordered.up (s := { s with writer := .dequeue }) (h.of_eq ?_ rfl)
    simp only [State.line, hwriter, WriterPc.unwritten]
  · exact h

omit t in
theorem ordered_step (h : Ordered s) (e : Event) : Ordered (step s e) := by
  cases e with
  | frame e =>
    simp only [step]
    split
    · exact h
    · exact ordered_frame h e
  | writer e => exact ordered_writer h e
  | sender e =>
    cases e with
    | alloc =>
      simp only [step, senderStep]
      split <;> exact h.of_eq rfl rfl
    | send i =>
      simp only [step, senderStep]
      split
      · exact (h.enqueue i true).of_eq rfl rfl
      · exact h
    | free i =>
      simp only [step, senderStep]
      split <;> exact h.of_eq rfl rfl
  | stop e =>
    simp only [step]
    split
    · exact h
    · unfold stopStep
      split
      · exact h.of_eq rfl rfl
      · split
        · exact Ordered.up (s := { s with stopper := .downDue }) (h.of_eq rfl rfl)
        · exact h
      · exact h.down .stopper
      · exact h

end Order

/-! ## The stop -/

def FramePc.isShort : FramePc → Bool
  | .short _ => true
  | _ => false

def FramePc.opens : FramePc → Bool
  | .running none _ => true
  | _ => false

/-- The stopping thread takes its post back, and the frame thread allocates after
that, only with a free buffer. Nobody posts any more for a frame thread that is
between a failed allocation and the wait. -/
def Clean (s : State) : Event → Prop
  | .stop .down => s.stopper = .downDue → s.frame.isShort → s.freeXmitbuf.cells ≠ []
  | .frame .allocBuf => s.stopper = .done → s.frame.opens → s.freeXmitbuf.cells ≠ []
  | _ => True

instance (s : State) (e : Event) : Decidable (Clean s e) := by
  unfold Clean
  split <;> infer_instance

structure Stopping (s : State) : Prop where
  ended : s.stopper ≠ .idle → s.writer = .ended
  starved : s.stopper = .done → s.frame.isShort → s.freeXmitbuf.cells ≠ []

section Stop

variable {s t : State}

theorem Stopping.of_frame (h : Stopping s) (hwriter : t.writer = s.writer)
    (hstopper : t.stopper = s.stopper) (hframe : t.frame.isShort = false) : Stopping t := by
  refine ⟨?_, ?_⟩
  · rw [hstopper, hwriter]
    exact h.ended
  · intro _ hshort
    rw [hframe] at hshort
    exact nomatch hshort

theorem Stopping.of_idle (ht : t.stopper = .idle) : Stopping t := by
  refine ⟨fun hne => absurd ht hne, ?_⟩
  intro hdone
  rw [ht] at hdone
  exact nomatch hdone

theorem granted_isShort {pc : FramePc} (h : pc.granted.isShort) : pc.isShort := by
  unfold FramePc.granted at h
  split at h
  · exact nomatch h
  · rfl
  · exact nomatch h
  · exact h

omit t in
theorem Stopping.grantFrame (h : Stopping s) : Stopping (s.grant .frame) :=
  ⟨h.ended, fun hdone hshort => h.starved hdone (granted_isShort hshort)⟩

omit t in
theorem Stopping.up (h : Stopping s)
    (hstopper : .stopper ∈ s.sema.waiters → s.writer = .ended ∧ s.frame.isShort = false) :
    Stopping s.up := by
  unfold State.up
  obtain ⟨hw, he⟩ | ⟨p, ps, hw, he⟩ := Semaphore.up_cases s.sema
  · rw [he]
    exact ⟨h.ended, h.starved⟩
  · rw [he]
    cases p with
    | frame =>
      exact Stopping.grantFrame (s := { s with sema := { s.sema with waiters := ps } })
        ⟨h.ended, h.starved⟩
    | stopper =>
      obtain ⟨hended, hframe⟩ := hstopper (hw ▸ List.mem_cons_self)
      refine ⟨fun _ => hended, ?_⟩
      intro _ hshort
      exact absurd hshort (by simp [State.grant, hframe])

omit t in
theorem Stopping.downFrame (h : Stopping s) : Stopping (s.down .frame) := by
  unfold State.down
  split
  · rename_i m _
    exact Stopping.grantFrame (s := { s with sema := m }) ⟨h.ended, h.starved⟩
  · exact ⟨h.ended, h.starved⟩

omit t in
theorem stopping_frame (h : Stopping s) (hbal : Balanced 0 s) {e : FrameEvent}
    (hc : Clean s (.frame e)) : Stopping (frameStep s e) := by
  have hwaits : .stopper ∈ s.sema.waiters → s.writer = .ended := by
    intro hm
    have hdue : s.stopper = .downDue := hbal.waits .stopper hm
    exact h.ended (by rw [hdue]; nofun)
  unfold frameStep
  split <;> rename_i hframe
  · refine h.of_frame rfl rfl ?_
    simp only
    split <;> rfl
  · exact h.of_frame rfl rfl rfl
  · exact h.of_frame rfl rfl rfl
  · exact h.of_frame rfl rfl rfl
  · split
    · exact ⟨h.ended, fun hdone _ => hc hdone (by rw [hframe]; rfl)⟩
    · exact h.of_frame rfl rfl rfl
  · exact h.of_frame rfl rfl rfl
  · exact h.of_frame rfl rfl rfl
  · exact h.downFrame
  · exact h.downFrame
  · exact h.of_frame rfl rfl rfl
  · exact h.of_frame rfl rfl rfl
  · exact h.of_frame rfl rfl rfl
  · refine Stopping.up (h.of_frame (t := { s with frame := .between }) rfl rfl rfl) ?_
    exact fun hm => ⟨hwaits hm, rfl⟩
  · refine Stopping.up (h.of_frame (t := { s with frame := .idle }) rfl rfl rfl) ?_
    exact fun hm => ⟨hwaits hm, rfl⟩
  · exact h.of_frame rfl rfl rfl
  · exact h

omit t in
theorem writer_ended (h : s.writer = .ended) (e : WriterEvent) : writerStep s e = s := by
  unfold writerStep
  rw [h]
  cases e with
  | dequeueExt xmitBlocked => cases xmitBlocked <;> rfl
  | dequeueHead acBlocked => cases acBlocked <;> rfl
  | _ => rfl

omit t in
theorem stopping_writer (h : Stopping s) (hbal : Balanced 0 s) (e : WriterEvent) :
    Stopping (writerStep s e) := by
  by_cases hidle : s.stopper = .idle
  · unfold writerStep
    split
    · exact .of_idle hidle
    · exact .of_idle hidle
    · split <;> exact .of_idle hidle
    · exact .of_idle hidle
    · split <;> exact .of_idle hidle
    · exact .of_idle hidle
    · exact .of_idle hidle
    · rename_i b _ _
      split
      · refine .of_idle ?_
        cases b.mgnt <;> exact hidle
      · exact h
    · refine Stopping.up (s := { s with writer := .dequeue }) (.of_idle hidle) ?_
      intro hm
      have hdue : s.stopper = .downDue := hbal.waits .stopper hm
      rw [hidle] at hdue
      exact nomatch hdue
    · exact h
  · rw [writer_ended (h.ended hidle)]
    exact h

omit t in
theorem stopping_sender (h : Stopping s) (e : SenderEvent) : Stopping (senderStep s e) := by
  cases e with
  | alloc =>
    simp only [senderStep]
    split <;> exact ⟨h.ended, h.starved⟩
  | send i =>
    simp only [senderStep]
    split <;> exact ⟨h.ended, h.starved⟩
  | free i =>
    simp only [senderStep]
    split <;> exact ⟨h.ended, h.starved⟩

omit t in
theorem stopping_stop (h : Stopping s) (hbal : Balanced 0 s) (e : StopEvent)
    (hc : Clean s (.stop e)) : Stopping (stopStep s e) := by
  unfold stopStep
  split <;> rename_i hstopper
  · exact ⟨h.ended, h.starved⟩
  · split
    · rename_i hready
      refine Stopping.up (s := { s with stopper := .downDue }) ⟨fun _ => hready.2, nofun⟩ ?_
      intro hm
      have hdue : s.stopper = .downDue := hbal.waits .stopper hm
      rw [hstopper] at hdue
      exact nomatch hdue
    · exact h
  · unfold State.down
    split
    · exact ⟨fun _ => h.ended (by rw [hstopper]; nofun), fun _ => hc hstopper⟩
    · exact ⟨h.ended, h.starved⟩
  · exact h

omit t in
theorem stopping_step (h : Stopping s) (hbal : Balanced 0 s) {e : Event} (hc : Clean s e) :
    Stopping (step s e) := by
  cases e with
  | frame e =>
    simp only [step]
    split
    · exact h
    · exact stopping_frame h hbal hc
  | writer e => exact stopping_writer h hbal e
  | sender e => exact stopping_sender h e
  | stop e =>
    simp only [step]
    split
    · exact h
    · exact stopping_stop h hbal e hc

end Stop

theorem deadlock_stays {s : State} (hbal : Balanced 0 s) (hstop : s.stopper = .done)
    (hwriter : s.writer = .ended) (hframe : .frame ∈ s.sema.waiters) (e : Event) :
    (step s e).stopper = .done ∧ (step s e).writer = .ended ∧
      .frame ∈ (step s e).sema.waiters := by
  have hout : .stopper ∉ s.sema.waiters := by
    intro hm
    have hdue : s.stopper = .downDue := hbal.waits .stopper hm
    rw [hstop] at hdue
    exact nomatch hdue
  cases e with
  | frame e => rw [step, if_pos hframe]; exact ⟨hstop, hwriter, hframe⟩
  | writer e => rw [step, writer_ended hwriter e]; exact ⟨hstop, hwriter, hframe⟩
  | sender e =>
    cases e with
    | alloc => simp only [step, senderStep]; split <;> exact ⟨hstop, hwriter, hframe⟩
    | send i => simp only [step, senderStep]; split <;> exact ⟨hstop, hwriter, hframe⟩
    | free i => simp only [step, senderStep]; split <;> exact ⟨hstop, hwriter, hframe⟩
  | stop e =>
    rw [step, if_neg hout]
    cases e with
    | setStopped => exact ⟨hstop, hwriter, hframe⟩
    | up => simpa only [stopStep, hstop] using ⟨trivial, hwriter, hframe⟩
    | down => simpa only [stopStep, hstop] using ⟨trivial, hwriter, hframe⟩

/-! ## Every run -/

def owned (free ext : List ℕ) : Multiset (ℕ × Bool) :=
  (free : Multiset ℕ).map (·, false) + (ext : Multiset ℕ).map (·, true)

structure Sound (free ext : List ℕ) (s : State) : Prop where
  places : s.places = owned free ext
  places_nodup : s.places.Nodup
  freeXmitbufCnt : s.freeXmitbuf.cnt = s.freeXmitbuf.cells.length
  freeXmitExtbufCnt : s.freeExtbuf.cnt = s.freeExtbuf.cells.length
  balance : s.sema.count + s.upsDue = s.freeXmitbuf.cells.length + s.downsDue
  fifoOrder : s.written.Pairwise (· < ·)
  progress : .frame ∈ s.sema.waiters → s.stopper ≠ .done

structure Inv (all : Multiset (ℕ × Bool)) (s : State) : Prop where
  placed : Placed all s
  balanced : Balanced 0 s
  ordered : Ordered s
  stopping : Stopping s

theorem inv_step {all : Multiset (ℕ × Bool)} (hall : all.Nodup) {s : State} {e : Event}
    (h : Inv all s) (hc : Clean s e) : Inv all (step s e) :=
  ⟨placed_step hall h.placed e, balanced_step h.balanced e, ordered_step h.ordered e,
    stopping_step h.stopping h.balanced hc⟩

theorem inv_boot (free ext : List ℕ) : Inv (owned free ext) (boot free ext) := by
  refine ⟨⟨?_, rfl, rfl⟩, ⟨⟨fun h => absurd rfl h, List.nodup_nil⟩, nofun, ?_, nofun⟩,
    ⟨List.Pairwise.nil, nofun⟩, .of_idle rfl⟩
  · simp [State.places, boot, owned, FramePc.hand, WriterPc.hand]
  · simp [State.level, boot, State.upsDue, State.downsDue, FramePc.upsDue, WriterPc.upsDue,
      FramePc.downsDue, Stopper.downsDue]

theorem owned_nodup {free ext : List ℕ} (hfree : free.Nodup) (hext : ext.Nodup) :
    (owned free ext).Nodup := by
  rw [owned, Multiset.nodup_add]
  refine ⟨(Multiset.coe_nodup.2 hfree).map (fun a b h => (Prod.mk.inj h).1),
    (Multiset.coe_nodup.2 hext).map (fun a b h => (Prod.mk.inj h).1), ?_⟩
  rw [Multiset.disjoint_left]
  intro x hx hx'
  obtain ⟨a, -, rfl⟩ := Multiset.mem_map.1 hx
  obtain ⟨b, -, hb⟩ := Multiset.mem_map.1 hx'
  exact nomatch (Prod.mk.inj hb).2

theorem Inv.progress {all : Multiset (ℕ × Bool)} {s : State} (h : Inv all s)
    (hframe : .frame ∈ s.sema.waiters) : s.stopper ≠ .done := by
  intro hdone
  have hcount : s.sema.count = 0 := h.balanced.sema.idle (List.ne_nil_of_mem hframe)
  have hended := h.stopping.ended (by rw [hdone]; nofun)
  have hlevel := h.balanced.level
  have hcnt := h.placed.freeXmitbufCnt
  have hwaits : s.frame.Waits := h.balanced.waits .frame hframe
  rw [FreeList.Counted] at hcnt
  simp only [State.level, State.upsDue, State.downsDue, hcount, hended, hdone, hcnt,
    WriterPc.upsDue, Stopper.downsDue] at hlevel
  unfold FramePc.Waits at hwaits
  split at hwaits
  · rename_i hpc
    simp only [hpc, FramePc.upsDue, FramePc.downsDue] at hlevel
    omega
  · rename_i hpc
    have hne := h.stopping.starved hdone (by rw [hpc]; rfl)
    have hpos := List.length_pos_iff.2 hne
    simp only [hpc, FramePc.upsDue, FramePc.downsDue] at hlevel
    omega
  · exact hwaits

theorem Inv.sound {free ext : List ℕ} {s : State} (h : Inv (owned free ext) s)
    (hall : (owned free ext).Nodup) : Sound free ext s := by
  have hcnt := h.placed.freeXmitbufCnt
  refine ⟨h.placed.places, h.placed.places ▸ hall, hcnt, h.placed.freeXmitExtbufCnt, ?_, ?_,
    h.progress⟩
  · have hlevel := h.balanced.level
    rw [FreeList.Counted] at hcnt
    rw [State.level, hcnt] at hlevel
    omega
  · exact h.ordered.line.sublist (List.sublist_append_left _ _)

theorem xmitbuf_run {free ext : List ℕ} (hfree : free.Nodup) (hext : ext.Nodup)
    {es : List Event} (hes : EventRun.Along step Clean (boot free ext) es) :
    Sound free ext (EventRun.run step (boot free ext) es) := by
  have hall := owned_nodup hfree hext
  have hinv := EventRun.run_spec Clean (Inv (owned free ext))
    (fun _ _ h hc => inv_step hall h hc) (inv_boot free ext) hes
  exact hinv.sound hall

/-- The only buffer is pending when an allocation fails, and the stop begins before
the frame thread waits. -/
def stopInWindow : List Event :=
  [.frame .begin, .frame .acBegin, .frame .allocBuf, .frame .coalesce, .frame .closeBuf,
    .frame .allocBuf, .stop .setStopped, .writer .begin, .stop .up, .stop .down, .frame .down,
    .frame .down]

theorem stopInWindow_not_sound :
    ¬ Sound [0] [] (EventRun.run step (boot [0] []) stopInWindow) := by
  intro h
  exact h.progress (by decide +kernel) (by decide +kernel)

/-- The same with the wait before the stop: the post of the stopping thread wakes the
frame thread, which hands it back. -/
def stopAfterWait : List Event :=
  [.frame .begin, .frame .acBegin, .frame .allocBuf, .frame .coalesce, .frame .closeBuf,
    .frame .allocBuf, .frame .down, .frame .down, .stop .setStopped, .writer .begin, .stop .up,
    .stop .down, .frame .up, .frame .begin]

theorem xmitbuf_run_stopped :
    Sound [0] [] (EventRun.run step (boot [0] []) stopAfterWait) ∧
      (EventRun.run step (boot [0] []) stopAfterWait).frame = .ended ∧
      (EventRun.run step (boot [0] []) stopAfterWait).stopper = .done :=
  ⟨xmitbuf_run (by decide) (by decide) (by decide +kernel), by decide +kernel, by decide +kernel⟩

end Rtl8189.XmitBufSema
