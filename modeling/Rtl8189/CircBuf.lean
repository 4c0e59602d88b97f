import Mathlib.Data.List.GetD
import Rtl8189.FieldWidths
import Rtl8189.Lockstep

/-!
# Ring buffer of the firmware events

`rtw_cbuf_push` and `rtw_cbuf_pop` take turns at any point between their accesses, without a
lock. Both indices wrap at the size, and the buffer is full where the write index is one behind
the read index.
-/
namespace Rtl8189.CircBuf

open EventRun Lockstep

/-- `void *`, with `none` for `NULL`. -/
abbrev Ptr (α : Type*) := Option α

inductive Producer (α : Type*) where
  | idle
  | tested (buf : Ptr α)
  | stored (buf : Ptr α)
  deriving DecidableEq

inductive Consumer (α : Type*) where
  | idle
  | tested
  | loaded (buf : Ptr α)
  deriving DecidableEq

/-- A call, which is made when none of the same side is going on, or what comes next in it. -/
inductive Event (α : Type*) where
  | push (buf : Ptr α)
  | produce
  | pop
  | consume

inductive Answer (α : Type*) where
  | nothing
  | pushed (buf : Ptr α) (ok : Bool)
  | popped (buf : Ptr α)
  deriving DecidableEq

structure Cbuf (α : Type*) where
  write : ℕ
  read : ℕ
  size : ℕ
  bufs : List (Ptr α)
  producer : Producer α
  consumer : Consumer α

variable {α : Type*}

/-- The argument of `rtw_malloc`, a `u32`. -/
def allocBytes (size : ℕ) : ℕ := (16 + 8 * size) % 2 ^ 32

/-- `rtw_cbuf_alloc`, with as many pointers as there is memory for. -/
def rtwCbufAlloc (α : Type*) (size : UInt32) : Cbuf α where
  write := 0
  read := 0
  size := size.toNat
  bufs := List.replicate ((allocBytes size.toNat - 16) / 8) none
  producer := .idle
  consumer := .idle

namespace Cbuf

variable (s : Cbuf α)

/-- The difference is one of `u32`s. -/
def rtwCbufFull : Prop := s.write = (s.read + (2 ^ 32 - 1)) % 2 ^ 32

instance : Decidable s.rtwCbufFull := inferInstanceAs (Decidable (_ = _))

def rtwCbufEmpty : Prop := s.write = s.read

instance : Decidable s.rtwCbufEmpty := inferInstanceAs (Decidable (_ = _))

def next (i : ℕ) : ℕ := (i + 1) % s.size

def step : Event α → Cbuf α
  | .push buf =>
    match s.producer with
    | .idle => if s.rtwCbufFull then s else { s with producer := .tested buf }
    | _ => s
  | .produce =>
    match s.producer with
    | .idle => s
    | .tested buf => { s with bufs := s.bufs.set s.write buf, producer := .stored buf }
    | .stored _ => { s with write := s.next s.write, producer := .idle }
  | .pop =>
    match s.consumer with
    | .idle => if s.rtwCbufEmpty then s else { s with consumer := .tested }
    | _ => s
  | .consume =>
    match s.consumer with
    | .idle => s
    | .tested => { s with consumer := .loaded (s.bufs.getD s.read none) }
    | .loaded _ => { s with read := s.next s.read, consumer := .idle }

def answer : Event α → Answer α
  | .push buf =>
    match s.producer with
    | .idle => if s.rtwCbufFull then .pushed buf false else .nothing
    | _ => .nothing
  | .produce =>
    match s.producer with
    | .stored buf => .pushed buf true
    | _ => .nothing
  | .pop =>
    match s.consumer with
    | .idle => if s.rtwCbufEmpty then .popped none else .nothing
    | _ => .nothing
  | .consume =>
    match s.consumer with
    | .loaded buf => .popped buf
    | _ => .nothing

def machine : Machine (Cbuf α) (Event α) (Answer α) := ⟨step, answer⟩

end Cbuf

/-! ## A queue -/

/-- A queue of a capacity, with the same calls. What a call sees of it is seen when the call
begins. -/
structure Fifo (α : Type*) where
  capacity : ℕ
  pending : List (Ptr α)
  producer : Producer α
  consumer : Consumer α

namespace Fifo

def empty (α : Type*) (capacity : ℕ) : Fifo α := ⟨capacity, [], .idle, .idle⟩

variable (q : Fifo α)

def step : Event α → Fifo α
  | .push buf =>
    match q.producer with
    | .idle => if q.pending.length < q.capacity then { q with producer := .tested buf } else q
    | _ => q
  | .produce =>
    match q.producer with
    | .idle => q
    | .tested buf => { q with producer := .stored buf }
    | .stored buf => { q with pending := q.pending ++ [buf], producer := .idle }
  | .pop =>
    match q.consumer with
    | .idle => if q.pending = [] then q else { q with consumer := .tested }
    | _ => q
  | .consume =>
    match q.consumer with
    | .idle => q
    | .tested => { q with consumer := .loaded (q.pending.headD none) }
    | .loaded _ => { q with pending := q.pending.tail, consumer := .idle }

def answer : Event α → Answer α
  | .push buf =>
    match q.producer with
    | .idle => if q.pending.length < q.capacity then .nothing else .pushed buf false
    | _ => .nothing
  | .produce =>
    match q.producer with
    | .stored buf => .pushed buf true
    | _ => .nothing
  | .pop =>
    match q.consumer with
    | .idle => if q.pending = [] then .popped none else .nothing
    | _ => .nothing
  | .consume =>
    match q.consumer with
    | .loaded buf => .popped buf
    | _ => .nothing

def machine : Machine (Fifo α) (Event α) (Answer α) := ⟨step, answer⟩

end Fifo

/-! ## The ring is the queue -/

def Producer.isIdle : Producer α → Bool
  | .idle => true
  | _ => false

def Producer.isTested : Producer α → Bool
  | .tested _ => true
  | _ => false

/-- A push does not begin with the read index at zero and the write index at the end, and stores
into the memory that was allocated. -/
def Kept (s : Cbuf α) : Event α → Prop
  | .push _ => s.producer.isIdle → ¬ (s.read = 0 ∧ s.write = s.size - 1)
  | .produce => s.producer.isTested → s.write < s.bufs.length
  | _ => True

instance (s : Cbuf α) (e : Event α) : Decidable (Kept s e) := by
  cases e <;> unfold Kept <;> infer_instance

structure Refines (s : Cbuf α) (q : Fifo α) : Prop where
  size : s.size = q.capacity + 1
  fits : s.size < 2 ^ 32
  read : s.read < s.size
  write : s.write = (s.read + q.pending.length) % s.size
  room : q.pending.length ≤ q.capacity
  slots : ∀ i (h : i < q.pending.length), s.bufs.getD ((s.read + i) % s.size) none = q.pending[i]
  producer : s.producer = q.producer
  consumer : s.consumer = q.consumer
  free : q.producer ≠ .idle → q.pending.length < q.capacity
  stored : ∀ buf, q.producer = .stored buf → s.bufs.getD s.write none = buf
  waiting : q.consumer ≠ .idle → q.pending ≠ []
  loaded : ∀ buf, q.consumer = .loaded buf → q.pending.headD none = buf

theorem mod_of_lt_double {a n : ℕ} (h : a < 2 * n) : a % n = if a < n then a else a - n := by
  split_ifs with hlt
  · exact Nat.mod_eq_of_lt hlt
  · rw [Nat.mod_eq_sub_mod (Nat.not_lt.mp hlt), Nat.mod_eq_of_lt (by omega)]

theorem getD_set_same {xs : List (Ptr α)} {i : ℕ} (h : i < xs.length) (buf : Ptr α) :
    (xs.set i buf).getD i none = buf := by
  rw [List.getD_eq_getElem?_getD, List.getElem?_set_self h]
  rfl

theorem getD_set_other (xs : List (Ptr α)) {i j : ℕ} (h : i ≠ j) (buf : Ptr α) :
    (xs.set i buf).getD j none = xs.getD j none := by
  rw [List.getD_eq_getElem?_getD, List.getElem?_set_ne h, ← List.getD_eq_getElem?_getD]

namespace Refines

variable {s : Cbuf α} {q : Fifo α}

theorem slot_eq (h : Refines s q) {i : ℕ} (hi : i ≤ q.capacity) :
    (s.read + i) % s.size = if s.read + i < s.size then s.read + i else s.read + i - s.size := by
  refine mod_of_lt_double ?_
  have hsize := h.size
  have hread := h.read
  omega

theorem write_ne (h : Refines s q) (hfree : q.pending.length < q.capacity) {i : ℕ}
    (hi : i < q.pending.length) : s.write ≠ (s.read + i) % s.size := by
  have hsize := h.size
  have hread := h.read
  rw [h.write, h.slot_eq h.room, h.slot_eq (Nat.le_trans (Nat.le_of_lt hi) h.room)]
  split_ifs <;> omega

theorem empty_iff (h : Refines s q) : s.rtwCbufEmpty ↔ q.pending = [] := by
  have hsize := h.size
  have hread := h.read
  have hroom := h.room
  rw [Cbuf.rtwCbufEmpty, h.write, h.slot_eq h.room, ← List.length_eq_zero_iff]
  split_ifs <;> omega

theorem full_of_ends (h : Refines s q) (hends : s.read = 0 ∧ s.write = s.size - 1) :
    q.pending.length = q.capacity := by
  have hsize := h.size
  have hwrite := h.write
  have hroom := h.room
  rw [hends.1, Nat.zero_add, Nat.mod_eq_of_lt (by omega)] at hwrite
  omega

theorem full_iff (h : Refines s q) :
    s.rtwCbufFull ↔ q.pending.length = q.capacity ∧ ¬ (s.read = 0 ∧ s.write = s.size - 1) := by
  have hsize := h.size
  have hread := h.read
  have hfits := h.fits
  have hroom := h.room
  have hslot := h.slot_eq h.room
  rw [← h.write] at hslot
  rw [Cbuf.rtwCbufFull]
  split_ifs at hslot <;> constructor <;> intro hfull <;> omega

theorem answer_push (h : Refines s q) (buf : Ptr α) :
    s.answer (.push buf) = q.answer (.push buf) ↔ Kept s (.push buf) := by
  rw [Cbuf.answer, Fifo.answer, Kept, h.producer]
  cases q.producer with
  | tested _ => exact iff_of_true rfl nofun
  | stored _ => exact iff_of_true rfl nofun
  | idle =>
    dsimp only [Producer.isIdle]
    rw [forall_prop_of_true rfl]
    have hroom := h.room
    by_cases hends : s.read = 0 ∧ s.write = s.size - 1
    · have hfull := h.full_of_ends hends
      rw [if_neg (fun hf => (h.full_iff.mp hf).2 hends), if_neg (by omega)]
      exact iff_of_false nofun (not_not.mpr hends)
    · refine iff_of_true ?_ hends
      by_cases hfull : q.pending.length = q.capacity
      · rw [if_pos (h.full_iff.mpr ⟨hfull, hends⟩), if_neg (by omega)]
      · rw [if_neg (fun hf => hfull (h.full_iff.mp hf).1), if_pos (by omega)]

theorem answer_eq (h : Refines s q) {e : Event α} (he : Kept s e) : s.answer e = q.answer e := by
  cases e with
  | push buf => exact (h.answer_push buf).mpr he
  | produce => rw [Cbuf.answer, Fifo.answer, h.producer]
  | consume => rw [Cbuf.answer, Fifo.answer, h.consumer]
  | pop =>
    rw [Cbuf.answer, Fifo.answer, h.consumer]
    simp only [h.empty_iff]

theorem push (h : Refines s q) {buf : Ptr α} (he : Kept s (.push buf)) :
    Refines (s.step (.push buf)) (q.step (.push buf)) := by
  rw [Cbuf.step, Fifo.step, h.producer]
  cases hphase : q.producer with
  | tested _ => exact h
  | stored _ => exact h
  | idle =>
    have hends := he (by rw [h.producer, hphase]; rfl)
    have hroom := h.room
    dsimp only
    by_cases hfull : q.pending.length = q.capacity
    · rw [if_pos (h.full_iff.mpr ⟨hfull, hends⟩), if_neg (by omega)]
      exact h
    · rw [if_neg (fun hf => hfull (h.full_iff.mp hf).1), if_pos (by omega)]
      exact { h with
        producer := rfl
        free := fun _ => Nat.lt_of_le_of_ne hroom hfull
        stored := nofun }

theorem store (h : Refines s q) {buf : Ptr α} (hphase : q.producer = .tested buf)
    (hin : s.write < s.bufs.length) :
    Refines { s with bufs := s.bufs.set s.write buf, producer := .stored buf }
      { q with producer := .stored buf } := by
  have hfree := h.free (by rw [hphase]; exact nofun)
  exact { h with
    slots := fun i hi => (getD_set_other s.bufs (h.write_ne hfree hi) buf).trans (h.slots i hi)
    producer := rfl
    free := fun _ => hfree
    stored := fun b hb => (getD_set_same hin buf).trans (Producer.stored.inj hb) }

theorem commit (h : Refines s q) {buf : Ptr α} (hphase : q.producer = .stored buf) :
    Refines { s with write := s.next s.write, producer := .idle }
      { q with pending := q.pending ++ [buf], producer := .idle } := by
  have hfree := h.free (by rw [hphase]; exact nofun)
  have hwrite : s.next s.write = (s.read + (q.pending ++ [buf]).length) % s.size := by
    rw [Cbuf.next, h.write, Nat.mod_add_mod, List.length_append, Nat.add_assoc,
      List.length_singleton]
  have hne := h.waiting
  refine { h with
    write := hwrite
    room := by rw [List.length_append]; exact hfree
    slots := fun i hi => ?_
    producer := rfl
    free := fun hidle => absurd rfl hidle
    stored := nofun
    waiting := fun _ => List.append_ne_nil_of_right_ne_nil _ (List.cons_ne_nil _ _)
    loaded := fun b hb => ?_ }
  · rw [List.length_append, List.length_singleton] at hi
    by_cases hold : i < q.pending.length
    · rw [List.getElem_append_left hold]
      exact h.slots i hold
    · obtain rfl : i = q.pending.length := by omega
      rw [← h.write, List.getElem_concat_length rfl]
      exact h.stored buf hphase
  · have hpending := hne (by rw [hb]; exact nofun)
    rw [← h.loaded b hb]
    cases hq : q.pending with
    | nil => exact absurd hq hpending
    | cons _ _ => rfl

theorem load (h : Refines s q) (hphase : q.consumer = .tested) :
    Refines { s with consumer := .loaded (s.bufs.getD s.read none) }
      { q with consumer := .loaded (q.pending.headD none) } := by
  have hpending := h.waiting (by rw [hphase]; exact nofun)
  have hhead : s.bufs.getD s.read none = q.pending.headD none := by
    have hslot := h.slots 0 (List.length_pos_iff.mpr hpending)
    rw [Nat.add_zero, Nat.mod_eq_of_lt h.read] at hslot
    rw [hslot, List.headD_eq_getD, List.getD_eq_getElem?_getD, List.getElem?_eq_getElem]
    rfl
  exact { h with
    consumer := congrArg Consumer.loaded hhead
    waiting := fun _ => hpending
    loaded := fun _ hb => Consumer.loaded.inj hb }

theorem release (h : Refines s q) {buf : Ptr α} (hphase : q.consumer = .loaded buf) :
    Refines { s with read := s.next s.read, consumer := .idle }
      { q with pending := q.pending.tail, consumer := .idle } := by
  have hpending := h.waiting (by rw [hphase]; exact nofun)
  have hpos : 0 < s.size := Nat.lt_of_le_of_lt (Nat.zero_le _) h.read
  have hlen := List.length_pos_iff.mpr hpending
  have htail : q.pending.tail.length + 1 = q.pending.length := by
    rw [List.length_tail]
    omega
  refine { h with
    read := Nat.mod_lt _ hpos
    write := ?_
    room := by have := h.room; dsimp only; omega
    slots := fun i hi => ?_
    consumer := rfl
    free := fun hbusy => by have := h.free hbusy; dsimp only; omega
    waiting := fun hidle => absurd rfl hidle
    loaded := nofun }
  · rw [h.write, Cbuf.next, Nat.mod_add_mod, ← htail, Nat.add_assoc, Nat.add_comm 1]
  · have hslot := h.slots (i + 1) (by dsimp only at hi; omega)
    rw [Cbuf.next, Nat.mod_add_mod, Nat.add_assoc, Nat.add_comm 1 i, hslot, List.getElem_tail]

theorem step (h : Refines s q) {e : Event α} (he : Kept s e) : Refines (s.step e) (q.step e) := by
  cases e with
  | push buf => exact h.push he
  | produce =>
    rw [Cbuf.step, Fifo.step, h.producer]
    cases hphase : q.producer with
    | idle => exact h
    | tested buf => exact h.store hphase (he (by rw [h.producer, hphase]; rfl))
    | stored buf => exact h.commit hphase
  | pop =>
    rw [Cbuf.step, Fifo.step, h.consumer]
    cases hphase : q.consumer with
    | tested => exact h
    | loaded _ => exact h
    | idle =>
      dsimp only
      by_cases hpending : q.pending = []
      · rw [if_pos (h.empty_iff.mpr hpending), if_pos hpending]
        exact h
      · rw [if_neg (fun hempty => hpending (h.empty_iff.mp hempty)), if_neg hpending]
        exact { h with
          consumer := rfl
          waiting := fun _ => hpending
          loaded := nofun }
  | consume =>
    rw [Cbuf.step, Fifo.step, h.consumer]
    cases hphase : q.consumer with
    | idle => exact h
    | tested => exact h.load hphase
    | loaded buf => exact h.release hphase

end Refines

theorem cbuf_simulates : Simulates (@Cbuf.machine α) Fifo.machine Kept Refines :=
  ⟨fun _ _ _ hst he => hst.answer_eq he, fun _ _ _ hst he => hst.step he⟩

/-! ## What the queue answers -/

def Answer.accepted : Answer α → Option (Ptr α)
  | .pushed buf true => some buf
  | _ => none

def Answer.delivered : Answer α → Option (Ptr α)
  | .popped (some p) => some (some p)
  | _ => none

structure Clean (q : Fifo α) : Prop where
  pending : none ∉ q.pending
  tested : q.producer ≠ .tested none
  stored : q.producer ≠ .stored none
  waiting : q.consumer ≠ .idle → q.pending ≠ []
  loaded : ∀ buf, q.consumer = .loaded buf → q.pending.headD none = buf

namespace Clean

variable {q : Fifo α}

theorem head (h : Clean q) {buf : Ptr α} (hload : q.consumer = .loaded buf) :
    ∃ p, buf = some p ∧ q.pending = some p :: q.pending.tail := by
  have hne := h.waiting (by rw [hload]; exact nofun)
  have hhead := h.loaded buf hload
  have hnull := h.pending
  cases hq : q.pending with
  | nil => exact absurd hq hne
  | cons x xs =>
    rw [hq] at hhead hnull
    obtain rfl : x = buf := hhead
    cases x with
    | none => exact absurd List.mem_cons_self hnull
    | some p => exact ⟨p, rfl, rfl⟩

theorem step (h : Clean q) {e : Event α} (he : e ≠ .push none) : Clean (q.step e) := by
  cases e with
  | push buf =>
    have hbuf : buf ≠ none := fun hb => he (congrArg Event.push hb)
    rw [Fifo.step]
    split
    · split
      · exact { h with
          tested := fun hp => hbuf (Producer.tested.inj hp)
          stored := nofun }
      · exact h
    · exact h
  | produce =>
    rw [Fifo.step]
    split
    · exact h
    · next buf hphase =>
      exact { h with
        tested := nofun
        stored := fun hp => h.tested (hphase.trans (congrArg _ (Producer.stored.inj hp))) }
    · next buf hphase =>
      refine { h with
        pending := fun hmem => ?_
        tested := nofun
        stored := nofun
        waiting := fun _ => List.append_ne_nil_of_right_ne_nil _ (List.cons_ne_nil _ _)
        loaded := fun b hb => ?_ }
      · rcases List.mem_append.mp hmem with hold | hnew
        · exact h.pending hold
        · rw [← List.mem_singleton.mp hnew] at hphase
          exact h.stored hphase
      · obtain ⟨p, rfl, hq⟩ := h.head hb
        dsimp only
        rw [hq]
        rfl
  | pop =>
    rw [Fifo.step]
    split
    · split
      · exact h
      · next hne => exact { h with waiting := fun _ => hne, loaded := nofun }
    · exact h
  | consume =>
    rw [Fifo.step]
    split
    · exact h
    · next hphase =>
      have hne := h.waiting (by rw [hphase]; exact nofun)
      exact { h with waiting := fun _ => hne, loaded := fun _ hb => Consumer.loaded.inj hb }
    · exact { h with
        pending := fun hmem => h.pending (List.mem_of_mem_tail hmem)
        waiting := fun hidle => absurd rfl hidle
        loaded := nofun }

/-- A step puts in at the end what it accepts, and takes off the front what it delivers. -/
theorem step_pending (h : Clean q) (e : Event α) :
    q.pending ++ (q.answer e).accepted.toList =
      (q.answer e).delivered.toList ++ (q.step e).pending := by
  cases e with
  | push buf =>
    rw [Fifo.answer, Fifo.step]
    split
    · split <;> exact List.append_nil _
    · exact List.append_nil _
  | produce =>
    rw [Fifo.answer, Fifo.step]
    split
    · next hphase =>
      rw [hphase]
      rfl
    · next hphase =>
      split
      · exact List.append_nil _
      · exact List.append_nil _
      · next buf hstored => exact absurd hstored (hphase buf)
  | pop =>
    rw [Fifo.answer, Fifo.step]
    split
    · split <;> exact List.append_nil _
    · exact List.append_nil _
  | consume =>
    rw [Fifo.answer, Fifo.step]
    split
    · next buf hphase =>
      obtain ⟨p, rfl, hq⟩ := h.head hphase
      rw [hphase]
      exact (List.append_nil _).trans hq
    · next hphase =>
      split
      · exact List.append_nil _
      · exact List.append_nil _
      · next buf hloaded => exact absurd hloaded (hphase buf)

theorem answer_null_iff (h : Clean q) (e : Event α) :
    q.answer e = .popped none ↔ e = .pop ∧ q.consumer = .idle ∧ q.pending = [] := by
  cases e with
  | push buf =>
    rw [Fifo.answer]
    refine iff_of_false ?_ nofun
    split
    · split <;> exact nofun
    · exact nofun
  | produce =>
    rw [Fifo.answer]
    refine iff_of_false ?_ nofun
    split <;> exact nofun
  | pop =>
    rw [Fifo.answer, and_iff_right rfl]
    split
    · next hphase =>
      split
      · next hq => exact iff_of_true rfl ⟨hphase, hq⟩
      · next hq => exact iff_of_false nofun fun hn => hq hn.2
    · next hphase => exact iff_of_false nofun fun hn => hphase hn.1
  | consume =>
    rw [Fifo.answer]
    refine iff_of_false ?_ nofun
    split
    · next buf hphase =>
      obtain ⟨p, rfl, -⟩ := h.head hphase
      exact nofun
    · exact nofun

end Clean

theorem filterMap_cons_toList {ω β : Type*} (f : ω → Option β) (x : ω) (xs : List ω) :
    (x :: xs).filterMap f = (f x).toList ++ xs.filterMap f := by
  rw [List.filterMap_cons]
  cases f x <;> rfl

variable {q : Fifo α}

theorem Clean.run_pending (h : Clean q) {es : List (Event α)} (hes : .push none ∉ es) :
    q.pending ++ (Fifo.machine.answers q es).filterMap Answer.accepted =
      (Fifo.machine.answers q es).filterMap Answer.delivered ++ (run Fifo.step q es).pending := by
  induction es generalizing q with
  | nil => exact List.append_nil _
  | cons e es ih =>
    have he : e ≠ .push none := fun hp => hes (hp ▸ List.mem_cons_self)
    have hrest := ih (h.step he) fun hmem => hes (List.mem_cons_of_mem e hmem)
    have hhead := h.step_pending e
    rw [Machine.answers, filterMap_cons_toList, filterMap_cons_toList, List.append_assoc, run_cons]
    change _ = (q.answer e).delivered.toList ++
      ((Fifo.machine.answers (q.step e) es).filterMap Answer.delivered ++ _)
    rw [← hrest, ← List.append_assoc, ← List.append_assoc]
    exact congrArg (· ++ _) hhead

theorem Clean.run (h : Clean q) {es : List (Event α)} (hes : .push none ∉ es) :
    Clean (run Fifo.step q es) := by
  induction es generalizing q with
  | nil => exact h
  | cons e es ih =>
    have he : e ≠ .push none := fun hp => hes (hp ▸ List.mem_cons_self)
    exact ih (h.step he) fun hmem => hes (List.mem_cons_of_mem e hmem)

theorem getElem?_answers {σ ι ω : Type*} (m : Machine σ ι ω) (s : σ) (es : List ι) (n : ℕ) :
    (m.answers s es)[n]? = es[n]?.map (m.answer (run m.step s (es.take n))) := by
  induction es generalizing s n with
  | nil => rfl
  | cons e es ih =>
    cases n with
    | zero => rfl
    | succ n => exact ih (m.step s e) n

theorem clean_empty (capacity : ℕ) : Clean (Fifo.empty α capacity) :=
  ⟨List.not_mem_nil, nofun, nofun, fun h => absurd rfl h, nofun⟩

theorem refines_alloc {size : UInt32} (h : 2 ≤ size.toNat) :
    Refines (rtwCbufAlloc α size) (Fifo.empty α (size.toNat - 1)) where
  size := (Nat.sub_add_cancel (Nat.le_of_succ_le h)).symm
  fits := size.toNat_lt
  read := Nat.lt_of_lt_of_le Nat.zero_lt_two h
  write := (Nat.zero_mod _).symm
  room := Nat.zero_le _
  slots := nofun
  producer := rfl
  consumer := rfl
  free := fun hidle => absurd rfl hidle
  stored := nofun
  waiting := fun hidle => absurd rfl hidle
  loaded := nofun

/-! ## All of the memory that is asked for -/

def Whole (s : Cbuf α) (q : Fifo α) : Prop := Refines s q ∧ s.bufs.length = s.size

theorem length_step (s : Cbuf α) (e : Event α) :
    (s.step e).bufs.length = s.bufs.length ∧ (s.step e).size = s.size := by
  cases e with
  | produce =>
    rw [Cbuf.step]
    split
    · exact ⟨rfl, rfl⟩
    · exact ⟨List.length_set, rfl⟩
    · exact ⟨rfl, rfl⟩
  | consume =>
    rw [Cbuf.step]
    split <;> exact ⟨rfl, rfl⟩
  | push buf =>
    rw [Cbuf.step]
    split
    · split <;> exact ⟨rfl, rfl⟩
    · exact ⟨rfl, rfl⟩
  | pop =>
    rw [Cbuf.step]
    split
    · split <;> exact ⟨rfl, rfl⟩
    · exact ⟨rfl, rfl⟩

theorem whole_simulates : Simulates (@Cbuf.machine α) Fifo.machine Kept Whole where
  answer := fun _ _ _ hst he => hst.1.answer_eq he
  step := fun s _ e hst he => by
    obtain ⟨hlen, hsize⟩ := length_step s e
    exact ⟨hst.1.step he, hlen.trans (hst.2.trans hsize.symm)⟩

theorem kept_of_answer {s : Cbuf α} {q : Fifo α} {e : Event α} (h : Whole s q)
    (he : s.answer e = q.answer e) : Kept s e := by
  cases e with
  | push buf => exact (h.1.answer_push buf).mp he
  | produce =>
    intro _
    rw [h.2, h.1.write]
    exact Nat.mod_lt _ (Nat.lt_of_le_of_lt (Nat.zero_le _) h.1.read)
  | pop => trivial
  | consume => trivial

theorem whole_alloc {size : UInt32} (h : 2 ≤ size.toNat) (hbytes : 16 + 8 * size.toNat < 2 ^ 32) :
    Whole (rtwCbufAlloc α size) (Fifo.empty α (size.toNat - 1)) := by
  refine ⟨refines_alloc h, ?_⟩
  rw [rtwCbufAlloc, List.length_replicate, allocBytes, Nat.mod_eq_of_lt hbytes]
  dsimp only
  omega

/-- As long as no push begins with the read index at zero and the write index at the end, and all
of them store into the memory, the calls are answered as by a queue. What was accepted is what was
delivered, in the order, and what is pending; `NULL` is returned when nothing is pending. With
memory for all the slots, no other runs are so answered. -/
theorem cbuf_queue (size : UInt32) (hsize : 2 ≤ size.toNat) (es : List (Event α)) :
    (Along Cbuf.step Kept (rtwCbufAlloc α size) es →
      Cbuf.machine.answers (rtwCbufAlloc α size) es =
          Fifo.machine.answers (Fifo.empty α (size.toNat - 1)) es ∧
        (.push none ∉ es →
          (Cbuf.machine.answers (rtwCbufAlloc α size) es).filterMap Answer.accepted =
              (Cbuf.machine.answers (rtwCbufAlloc α size) es).filterMap Answer.delivered ++
                (run Fifo.step (Fifo.empty α (size.toNat - 1)) es).pending ∧
            ∀ n : ℕ, (Cbuf.machine.answers (rtwCbufAlloc α size) es)[n]? = some (.popped none) ↔
              es[n]? = some .pop ∧
                (run Fifo.step (Fifo.empty α (size.toNat - 1)) (es.take n)).consumer = .idle ∧
                (run Fifo.step (Fifo.empty α (size.toNat - 1)) (es.take n)).pending = [])) ∧
      (16 + 8 * size.toNat < 2 ^ 32 →
        Cbuf.machine.answers (rtwCbufAlloc α size) es =
          Fifo.machine.answers (Fifo.empty α (size.toNat - 1)) es →
        Along Cbuf.step Kept (rtwCbufAlloc α size) es) := by
  refine ⟨fun hkept => ?_, fun hbytes => ?_⟩
  · have heq := cbuf_simulates.answers_eq (refines_alloc hsize) hkept
    rw [heq]
    refine ⟨rfl, fun hnull => ⟨(clean_empty _).run_pending hnull, fun n => ?_⟩⟩
    have htake : .push none ∉ es.take n := fun hmem => hnull (List.mem_of_mem_take hmem)
    have hclean := (clean_empty (size.toNat - 1)).run htake
    rw [getElem?_answers]
    cases he : es[n]? with
    | none => exact iff_of_false nofun nofun
    | some e =>
      rw [Option.map_some, Option.some_inj, Option.some_inj]
      exact hclean.answer_null_iff e
  · exact (whole_simulates.answers_eq_iff (fun _ _ _ => kept_of_answer)
      (whole_alloc hsize hbytes)).mp

/-! ## Two runs -/

def pushAll (p : α) : List (Event α) := [.push (some p), .produce, .produce]

def popAll : List (Event α) := [.pop, .consume, .consume]

/-- The read index is one when the ring is full. -/
theorem cbuf_queue_two :
    Cbuf.machine.answers (rtwCbufAlloc ℕ 2)
        (pushAll 1 ++ popAll ++ pushAll 2 ++ [.push (some 3)] ++ popAll) =
      Fifo.machine.answers (Fifo.empty ℕ 1)
        (pushAll 1 ++ popAll ++ pushAll 2 ++ [.push (some 3)] ++ popAll) :=
  ((cbuf_queue 2 (by decide) _).1 (by decide +kernel)).1

/-- In a ring of two, the second push is accepted, and both pointers are gone. -/
theorem ring_dropped :
    Cbuf.machine.answers (rtwCbufAlloc ℕ 2) (pushAll 1 ++ pushAll 2 ++ [.pop]) =
        [.nothing, .nothing, .pushed (some 1) true, .nothing, .nothing, .pushed (some 2) true,
          .popped none] ∧
      Fifo.machine.answers (Fifo.empty ℕ 1) (pushAll 1 ++ pushAll 2 ++ [.pop]) =
        [.nothing, .nothing, .pushed (some 1) true, .pushed (some 2) false, .nothing, .nothing,
          .nothing] := by
  constructor <;> decide +kernel

end Rtl8189.CircBuf
