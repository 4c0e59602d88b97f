import Rtl8189.EventRun
import Rtl8189.RecvFrame

/-!
# The receive tasklet

A buffer read from the receive FIFO holds several packets, each behind its
descriptor and padded to 128 bytes. The tasklet takes the buffers from the
pending queue and hands their packets up. When it gets no receive frame it puts
the buffer back at the head of the queue and parses it again from its start.
-/
namespace Rtl8189.SdioRecv

open EventRun

inductive PktRptType where
  | normalRx
  | txReport1
  | txReport2
  | hisReport
  deriving DecidableEq

structure RxDesc where
  crcErr : Bool := false
  pktRptType : PktRptType := .normalRx
  pktLen : ℕ := 0
  drvinfoSz : ℕ := 0
  icvErr : Bool := false
  shiftSz : ℕ := 0
  deriving DecidableEq

/-- `rtl8188e_query_rx_desc_status`, the fields that place the packet. -/
def queryRxDescStatus (d : List UInt8) : RxDesc :=
  let rxdw0 := le32 d 0
  let crcErr : Bool := rxdw0 / 2 ^ 14 % 2 = 1
  match le32 d 12 / 2 ^ 14 % 4 with
  | 0 => { crcErr := crcErr
           pktLen := rxdw0 % 2 ^ 14
           drvinfoSz := rxdw0 / 2 ^ 16 % 16 * 8
           icvErr := rxdw0 / 2 ^ 15 % 2 = 1
           shiftSz := rxdw0 / 2 ^ 24 % 4 }
  | 1 => { crcErr := crcErr, pktRptType := .txReport1, pktLen := 8 }
  | 2 => { crcErr := crcErr, pktRptType := .txReport2, pktLen := rxdw0 % 2 ^ 10 }
  | _ => { crcErr := crcErr, pktRptType := .hisReport, pktLen := rxdw0 % 2 ^ 14 }

structure Rcr where
  acrc32 : Bool := false
  appBaSsn : Bool := false

def rnd128 (sz : ℕ) : ℕ := (sz / 128 + if sz % 128 ≠ 0 then 1 else 0) * 128

def pktStart (rcr : Rcr) (d : RxDesc) : ℕ :=
  24 + (if rcr.appBaSsn then 4 else 0) + d.drvinfoSz + d.shiftSz

/-- Which of the allocations for the packets of one buffer succeed. -/
structure Memory where
  frame : ℕ → Bool := fun _ => true
  skb : ℕ → Bool := fun _ => true

structure RxPacket where
  pktRptType : PktRptType
  bytes : List UInt8
  deriving DecidableEq

/-- What became of one buffer; `cut` tells that its rest was dropped for want of
a socket buffer. -/
structure BufResult where
  handed : List RxPacket := []
  requeued : Bool := false
  cut : Bool := false

/-- The inner loop of `rtl8188es_recv_tasklet`. Packets go to `pre_recv_entry` or
to the handler of their report type. -/
def recvBufLoop (rcr : Rcr) (mem : Memory) : ℕ → ℕ → List UInt8 → BufResult
  | 0, _, _ => {}
  | fuel + 1, n, data =>
    if mem.frame n = false then { requeued := true }
    else
      let d := queryRxDescStatus data
      let pktOffset := pktStart rcr d + d.pktLen
      if rcr.acrc32 = false ∧ d.crcErr then {}
      else if d.pktLen = 0 ∨ data.length < pktOffset then {}
      else
        let next := if rnd128 pktOffset < data.length then
            recvBufLoop rcr mem fuel (n + 1) (data.drop (rnd128 pktOffset))
          else {}
        if d.crcErr || d.icvErr then next
        else if mem.skb n = false then { cut := true }
        else
          let bytes := (data.drop (pktStart rcr d)).take d.pktLen
          { next with handed := ⟨d.pktRptType, bytes⟩ :: next.handed }

def recvBuf (rcr : Rcr) (mem : Memory) (pdata : List UInt8) : BufResult :=
  recvBufLoop rcr mem (pdata.length + 1) 0 pdata

structure Slot where
  desc : List UInt8
  info : List UInt8
  payload : List UInt8
  pad : List UInt8

namespace Slot

def rxDesc (s : Slot) : RxDesc := queryRxDescStatus s.desc

def bytes (s : Slot) : List UInt8 := s.desc ++ s.info ++ s.payload

def skipped (s : Slot) : Bool := s.rxDesc.crcErr || s.rxDesc.icvErr

def packet (s : Slot) : RxPacket := ⟨s.rxDesc.pktRptType, s.payload⟩

structure WellFormed (rcr : Rcr) (s : Slot) : Prop where
  desc : s.desc.length = 24
  start : s.desc.length + s.info.length = pktStart rcr s.rxDesc
  payload : s.payload.length = s.rxDesc.pktLen
  nonempty : s.payload.length ≠ 0
  crc : rcr.acrc32 = false → s.rxDesc.crcErr = false
  pad : s.bytes.length + s.pad.length ≤ rnd128 s.bytes.length

end Slot

def bytesOf (l : List Slot) : List UInt8 := l.flatMap fun s => s.bytes ++ s.pad

/-- A full buffer: at least one packet, all but the last padded to the page. -/
structure Aggregate (rcr : Rcr) where
  slots : List Slot
  nonempty : slots ≠ []
  wellFormed : ∀ s ∈ slots, s.WellFormed rcr
  aligned : ∀ s ∈ slots.dropLast, s.bytes.length + s.pad.length = rnd128 s.bytes.length

def deliverable (l : List Slot) : List RxPacket :=
  (l.filter fun s => !s.skipped).map Slot.packet

/-- The same loop over the packets themselves. -/
def slotLoop (mem : Memory) : ℕ → List Slot → BufResult
  | _, [] => {}
  | n, s :: l =>
    if mem.frame n = false then { requeued := true }
    else if s.skipped then slotLoop mem (n + 1) l
    else if mem.skb n = false then { cut := true }
    else
      let next := slotLoop mem (n + 1) l
      { next with handed := s.packet :: next.handed }

theorem queryRxDescStatus_append {d : List UInt8} (h : d.length = 24) (b : List UInt8) :
    queryRxDescStatus (d ++ b) = queryRxDescStatus d := by
  simp only [queryRxDescStatus]
  rw [le32_append_left (by omega), le32_append_left (by omega)]

theorem bytesOf_cons (s : Slot) (l : List Slot) :
    bytesOf (s :: l) = s.bytes ++ (s.pad ++ bytesOf l) := by
  simp only [bytesOf, List.flatMap_cons, List.append_assoc]

theorem Slot.WellFormed.bytes_length {rcr : Rcr} {s : Slot} (h : s.WellFormed rcr) :
    s.bytes.length = pktStart rcr s.rxDesc + s.rxDesc.pktLen := by
  simp only [Slot.bytes, List.length_append]
  rw [h.start, h.payload]

theorem Slot.WellFormed.pos {rcr : Rcr} {s : Slot} (h : s.WellFormed rcr) :
    24 < s.bytes.length := by
  have hpay := h.nonempty
  have hdesc := h.desc
  simp only [Slot.bytes, List.length_append]
  omega

theorem recvBufLoop_bytesOf {rcr : Rcr} (mem : Memory) {l : List Slot} (hne : l ≠ [])
    (hwf : ∀ s ∈ l, s.WellFormed rcr)
    (hal : ∀ s ∈ l.dropLast, s.bytes.length + s.pad.length = rnd128 s.bytes.length)
    {fuel : ℕ} (hfuel : l.length ≤ fuel) (n : ℕ) :
    recvBufLoop rcr mem fuel n (bytesOf l) = slotLoop mem n l := by
  induction l generalizing fuel n with
  | nil => exact absurd rfl hne
  | cons s l ih =>
    obtain ⟨fuel, rfl⟩ : ∃ k, fuel = k + 1 := ⟨fuel - 1, by rw [List.length_cons] at hfuel; omega⟩
    have hs := hwf s List.mem_cons_self
    have hlen := hs.bytes_length
    have hcrc : ¬ (rcr.acrc32 = false ∧ s.rxDesc.crcErr = true) := by
      intro h
      simp [hs.crc h.1] at h
    have hdesc : queryRxDescStatus (bytesOf (s :: l)) = s.rxDesc := by
      rw [bytesOf_cons, Slot.bytes, List.append_assoc, List.append_assoc,
        queryRxDescStatus_append hs.desc]
      rfl
    have hfit : ¬ (s.rxDesc.pktLen = 0 ∨
        (bytesOf (s :: l)).length < pktStart rcr s.rxDesc + s.rxDesc.pktLen) := by
      rw [bytesOf_cons, List.length_append, hlen, ← hs.payload]
      have hpay := hs.nonempty
      omega
    have hpayload : ((bytesOf (s :: l)).drop (pktStart rcr s.rxDesc)).take s.rxDesc.pktLen =
        s.payload := by
      rw [bytesOf_cons, Slot.bytes, ← hs.start, ← List.length_append, ← hs.payload,
        List.append_assoc, List.drop_left, List.take_left]
    have hnext : (if rnd128 (pktStart rcr s.rxDesc + s.rxDesc.pktLen) < (bytesOf (s :: l)).length
        then recvBufLoop rcr mem fuel (n + 1)
          ((bytesOf (s :: l)).drop (rnd128 (pktStart rcr s.rxDesc + s.rxDesc.pktLen)))
        else {}) = slotLoop mem (n + 1) l := by
      rw [← hlen, bytesOf_cons]
      cases l with
      | nil =>
        have hpad := hs.pad
        rw [if_neg]
        · rfl
        · simp only [bytesOf, List.flatMap_nil, List.append_nil, List.length_append]
          omega
      | cons t l =>
        have hpage := hal s (by simp)
        have ht := (hwf t (by simp)).pos
        rw [← List.append_assoc, ← hpage, ← List.length_append, if_pos, List.drop_left]
        · apply ih (List.cons_ne_nil t l)
          · intro x hx
            exact hwf x (List.mem_cons_of_mem s hx)
          · intro x hx
            exact hal x (List.mem_cons_of_mem s hx)
          · rw [List.length_cons] at hfuel
            omega
        · simp only [List.length_append, bytesOf_cons]
          omega
    simp only [recvBufLoop, slotLoop, hdesc, hcrc, hfit, hnext, hpayload, if_false]
    rfl

theorem length_le_bytesOf {rcr : Rcr} {l : List Slot} (hwf : ∀ s ∈ l, s.WellFormed rcr) :
    l.length ≤ (bytesOf l).length := by
  induction l with
  | nil => exact Nat.zero_le _
  | cons s l ih =>
    have hs := (hwf s List.mem_cons_self).pos
    have hl := ih fun x hx => hwf x (List.mem_cons_of_mem s hx)
    simp only [bytesOf_cons, List.length_append, List.length_cons]
    omega

theorem recvBuf_bytesOf {rcr : Rcr} (mem : Memory) (a : Aggregate rcr) :
    recvBuf rcr mem (bytesOf a.slots) = slotLoop mem 0 a.slots := by
  apply recvBufLoop_bytesOf mem a.nonempty a.wellFormed a.aligned
  have hlen := length_le_bytesOf a.wellFormed
  omega

/-- The pool has a frame for every packet up to one without socket buffer. -/
def poolStays (mem : Memory) : ℕ → List Slot → Bool
  | _, [] => true
  | n, s :: l =>
    mem.frame n && (if s.skipped || mem.skb n then poolStays mem (n + 1) l else true)

/-- Once a packet was handed up the pool has a frame for the others. -/
def poolLasts (mem : Memory) : ℕ → List Slot → Bool
  | _, [] => true
  | n, s :: l =>
    if mem.frame n = false then true
    else if s.skipped then poolLasts mem (n + 1) l
    else if mem.skb n then poolStays mem (n + 1) l
    else true

theorem slotLoop_begins (mem : Memory) (n : ℕ) (l : List Slot) :
    (slotLoop mem n l).handed <+: deliverable l := by
  induction l generalizing n with
  | nil => exact List.prefix_rfl
  | cons s l ih =>
    simp only [slotLoop]
    split_ifs with hframe hskip hskb
    · exact List.nil_prefix
    · simpa only [deliverable, List.filter_cons, hskip, Bool.not_true, Bool.false_eq_true,
        if_false] using ih (n + 1)
    · exact List.nil_prefix
    · simpa [deliverable, hskip] using ih (n + 1)

theorem slotLoop_complete {mem : Memory} {n : ℕ} {l : List Slot}
    (hreq : (slotLoop mem n l).requeued = false) (hcut : (slotLoop mem n l).cut = false) :
    (slotLoop mem n l).handed = deliverable l := by
  induction l generalizing n with
  | nil => rfl
  | cons s l ih =>
    simp only [slotLoop] at hreq hcut ⊢
    split_ifs at hreq hcut ⊢ with hframe hskip hskb
    · simpa only [deliverable, List.filter_cons, hskip, Bool.not_true, Bool.false_eq_true,
        if_false] using ih hreq hcut
    · simpa [deliverable, hskip] using ih hreq hcut

theorem poolStays_iff (mem : Memory) (n : ℕ) (l : List Slot) :
    poolStays mem n l = true ↔ (slotLoop mem n l).requeued = false := by
  induction l generalizing n with
  | nil => simp [poolStays, slotLoop]
  | cons s l ih =>
    simp only [poolStays, slotLoop, Bool.and_eq_true]
    cases hframe : mem.frame n
    · simp
    · by_cases hskip : s.skipped = true
      · simpa [hskip] using ih (n + 1)
      · cases hskb : mem.skb n
        · simp [hskip]
        · simpa [hskip] using ih (n + 1)

theorem poolLasts_iff (mem : Memory) (n : ℕ) (l : List Slot) :
    poolLasts mem n l = true ↔
      ((slotLoop mem n l).requeued = true → (slotLoop mem n l).handed = []) := by
  induction l generalizing n with
  | nil => simp [poolLasts, slotLoop]
  | cons s l ih =>
    simp only [poolLasts, slotLoop]
    cases hframe : mem.frame n
    · simp
    · by_cases hskip : s.skipped = true
      · simpa [hskip] using ih (n + 1)
      · cases hskb : mem.skb n
        · simp [hskip]
        · simpa [hskip] using poolStays_iff mem (n + 1) l

/-- The queue holds buffers with the number of the read that filled them.
`received`, `handed` and `cut` record what was read, handed up and dropped. -/
structure RxState (rcr : Rcr) where
  pending : List (ℕ × Aggregate rcr) := []
  received : List (Aggregate rcr) := []
  handed : List (ℕ × RxPacket) := []
  cut : List ℕ := []

structure TaskletResult (rcr : Rcr) where
  pending : List (ℕ × Aggregate rcr) := []
  handed : List (ℕ × RxPacket) := []
  cut : List ℕ := []

/-- The outer loop of `rtl8188es_recv_tasklet`, from its `n`-th round on. -/
def taskletLoop {rcr : Rcr} (cannotRun : ℕ → Bool) (mem : ℕ → Memory) :
    ℕ → List (ℕ × Aggregate rcr) → TaskletResult rcr
  | _, [] => {}
  | n, b :: q =>
    if cannotRun n then { pending := b :: q }
    else
      let r := recvBuf rcr (mem n) (bytesOf b.2.slots)
      let up := r.handed.map (b.1, ·)
      if r.requeued then { pending := b :: q, handed := up }
      else
        let next := taskletLoop cannotRun mem (n + 1) q
        { pending := next.pending
          handed := up ++ next.handed
          cut := (if r.cut then [b.1] else []) ++ next.cut }

inductive RxEvent (rcr : Rcr) where
  | read (a : Aggregate rcr)
  | tasklet (cannotRun : ℕ → Bool) (mem : ℕ → Memory)

def rxStep {rcr : Rcr} (s : RxState rcr) : RxEvent rcr → RxState rcr
  | .read a => { s with pending := s.pending ++ [(s.received.length, a)]
                        received := s.received ++ [a] }
  | .tasklet cannotRun mem =>
    let r := taskletLoop cannotRun mem 0 s.pending
    { s with pending := r.pending, handed := s.handed ++ r.handed, cut := s.cut ++ r.cut }

/-- The pool lasts through every buffer that this run of the tasklet reaches. -/
def taskletOk {rcr : Rcr} (cannotRun : ℕ → Bool) (mem : ℕ → Memory) :
    ℕ → List (ℕ × Aggregate rcr) → Bool
  | _, [] => true
  | n, b :: q =>
    cannotRun n || poolLasts (mem n) 0 b.2.slots &&
      (if poolStays (mem n) 0 b.2.slots then taskletOk cannotRun mem (n + 1) q else true)

def RxOk {rcr : Rcr} (s : RxState rcr) : RxEvent rcr → Prop
  | .read _ => True
  | .tasklet cannotRun mem => taskletOk cannotRun mem 0 s.pending = true

def handedOf (handed : List (ℕ × RxPacket)) (i : ℕ) : List RxPacket :=
  (handed.filter fun x => x.1 = i).map Prod.snd

/-- What was handed up of a buffer is the beginning of its packets, in their
order and once each: nothing while it waits, everything when it is done, unless
a socket buffer was missing. -/
structure ExactlyOnce {rcr : Rcr} (s : RxState rcr) : Prop where
  begins : ∀ i a, s.received[i]? = some a → handedOf s.handed i <+: deliverable a.slots
  waiting : ∀ x ∈ s.pending, handedOf s.handed x.1 = []
  finished : ∀ i a, s.received[i]? = some a → i ∉ s.pending.map Prod.fst → i ∉ s.cut →
    handedOf s.handed i = deliverable a.slots

structure Queued {rcr : Rcr} (s : RxState rcr) : Prop extends ExactlyOnce s where
  nodup : (s.pending.map Prod.fst).Nodup
  known : ∀ x ∈ s.pending, s.received[x.1]? = some x.2
  old : ∀ x ∈ s.handed, x.1 < s.received.length

theorem handedOf_append (l l' : List (ℕ × RxPacket)) (i : ℕ) :
    handedOf (l ++ l') i = handedOf l i ++ handedOf l' i := by
  simp only [handedOf, List.filter_append, List.map_append]

theorem handedOf_self (ps : List RxPacket) (i : ℕ) : handedOf (ps.map (i, ·)) i = ps := by
  induction ps with
  | nil => rfl
  | cons p ps ih => simpa [handedOf] using ih

theorem handedOf_other (ps : List RxPacket) {i j : ℕ} (h : j ≠ i) :
    handedOf (ps.map (j, ·)) i = [] := by
  simp [handedOf, h]

theorem finish_queued {rcr : Rcr} {b : ℕ × Aggregate rcr} {s : RxState rcr}
    {q : List (ℕ × Aggregate rcr)} (hs : Queued s) (hq : s.pending = b :: q)
    {ps : List RxPacket} {c : Bool} (hpre : ps <+: deliverable b.2.slots)
    (hall : c = false → ps = deliverable b.2.slots) :
    Queued { s with pending := q
                    handed := s.handed ++ ps.map (b.1, ·)
                    cut := s.cut ++ if c then [b.1] else [] } := by
  have hb : b ∈ s.pending := by simp [hq]
  have hold := hs.waiting b hb
  have hrec := hs.known b hb
  have hnodup := hs.nodup
  rw [hq, List.map_cons, List.nodup_cons] at hnodup
  have hself : handedOf (s.handed ++ ps.map (b.1, ·)) b.1 = ps := by
    rw [handedOf_append, hold, handedOf_self, List.nil_append]
  have hother : ∀ i, b.1 ≠ i →
      handedOf (s.handed ++ ps.map (b.1, ·)) i = handedOf s.handed i := by
    intro i hi
    rw [handedOf_append, handedOf_other ps hi, List.append_nil]
  refine { begins := ?_, waiting := ?_, finished := ?_, nodup := hnodup.2, known := ?_, old := ?_ }
  · intro i a ha
    by_cases hi : b.1 = i
    · subst hi
      rw [hself]
      obtain rfl := Option.some.inj (hrec.symm.trans ha)
      exact hpre
    · rw [hother i hi]
      exact hs.begins i a ha
  · intro x hx
    have hne : b.1 ≠ x.1 := fun h => hnodup.1 (h ▸ List.mem_map_of_mem hx)
    rw [hother x.1 hne]
    exact hs.waiting x (by simp [hq, hx])
  · intro i a ha hi hc
    by_cases hbi : b.1 = i
    · subst hbi
      rw [hself]
      obtain rfl := Option.some.inj (hrec.symm.trans ha)
      apply hall
      cases c with
      | false => rfl
      | true => simp at hc
    · rw [hother i hbi]
      apply hs.finished i a ha
      · rw [hq, List.map_cons, List.mem_cons, not_or]
        exact ⟨Ne.symm hbi, hi⟩
      · exact fun h => hc (List.mem_append_left _ h)
  · intro x hx
    exact hs.known x (by simp [hq, hx])
  · intro x hx
    rcases List.mem_append.mp hx with hx | hx
    · exact hs.old x hx
    · obtain ⟨p, hp, rfl⟩ := List.mem_map.mp hx
      exact (List.getElem?_eq_some_iff.mp hrec).1

theorem taskletLoop_queued {rcr : Rcr} {cannotRun : ℕ → Bool} {mem : ℕ → Memory} {n : ℕ}
    {q : List (ℕ × Aggregate rcr)} {s : RxState rcr} (hs : Queued s) (hq : s.pending = q)
    (hok : taskletOk cannotRun mem n q = true) :
    Queued { s with pending := (taskletLoop cannotRun mem n q).pending
                    handed := s.handed ++ (taskletLoop cannotRun mem n q).handed
                    cut := s.cut ++ (taskletLoop cannotRun mem n q).cut } := by
  induction q generalizing n s with
  | nil => simpa [taskletLoop, ← hq] using hs
  | cons b q ih =>
    simp only [taskletLoop, recvBuf_bytesOf]
    simp only [taskletOk, Bool.or_eq_true, Bool.and_eq_true] at hok
    by_cases hrun : cannotRun n = true
    · simpa [hrun, ← hq] using hs
    simp only [hrun, false_or, Bool.false_eq_true, if_false] at hok ⊢
    obtain ⟨hlasts, hnext⟩ := hok
    by_cases hreq : (slotLoop (mem n) 0 b.2.slots).requeued = true
    · rw [(poolLasts_iff _ _ _).mp hlasts hreq]
      simpa [hreq, ← hq] using hs
    · rw [Bool.not_eq_true] at hreq
      rw [if_pos ((poolStays_iff _ _ _).mpr hreq)] at hnext
      have hb := finish_queued hs hq (slotLoop_begins (mem n) 0 b.2.slots) (slotLoop_complete hreq)
      have hrest := ih hb rfl hnext
      simp only [List.append_assoc] at hrest
      simpa only [hreq, Bool.false_eq_true, if_false] using hrest

theorem read_queued {rcr : Rcr} {s : RxState rcr} (hs : Queued s) (a : Aggregate rcr) :
    Queued (rxStep s (.read a)) := by
  have hlast : handedOf s.handed s.received.length = [] := by
    simp only [handedOf, List.map_eq_nil_iff, List.filter_eq_nil_iff, decide_eq_true_eq]
    intro x hx
    exact Nat.ne_of_lt (hs.old x hx)
  have hget : ∀ i a', (s.received ++ [a])[i]? = some a' →
      i < s.received.length ∧ s.received[i]? = some a' ∨ i = s.received.length ∧ a = a' := by
    intro i a' hi
    rcases Nat.lt_trichotomy i s.received.length with hlt | heq | hgt
    · rw [List.getElem?_append_left hlt] at hi
      exact Or.inl ⟨hlt, hi⟩
    · subst heq
      simp only [List.getElem?_concat_length, Option.some.injEq] at hi
      exact Or.inr ⟨rfl, hi⟩
    · rw [List.getElem?_eq_none (by simp; omega)] at hi
      exact absurd hi (by simp)
  refine { begins := ?_, waiting := ?_, finished := ?_, nodup := ?_, known := ?_, old := ?_ }
  · intro i a' hi
    rcases hget i a' hi with ⟨-, hi⟩ | ⟨rfl, -⟩
    · exact hs.begins i a' hi
    · simp only [rxStep, hlast]
      exact List.nil_prefix
  · intro x hx
    rcases List.mem_append.mp hx with hx | hx
    · exact hs.waiting x hx
    · rw [List.mem_singleton.mp hx]
      exact hlast
  · intro i a' hi hpend hc
    simp only [rxStep, List.map_append, List.mem_append, not_or, List.map_cons, List.map_nil,
      List.mem_singleton] at hpend
    rcases hget i a' hi with ⟨-, hi⟩ | ⟨rfl, -⟩
    · exact hs.finished i a' hi hpend.1 hc
    · exact absurd rfl hpend.2
  · simp only [rxStep, List.map_append, List.map_cons, List.map_nil]
    rw [List.nodup_append]
    refine ⟨hs.nodup, by simp, ?_⟩
    intro i hi j hj
    obtain ⟨x, hx, rfl⟩ := List.mem_map.mp hi
    have hlt := (List.getElem?_eq_some_iff.mp (hs.known x hx)).1
    rw [List.mem_singleton] at hj
    omega
  · intro x hx
    rcases List.mem_append.mp hx with hx | hx
    · have hx := hs.known x hx
      simp only [rxStep]
      rw [List.getElem?_append_left (List.getElem?_eq_some_iff.mp hx).1]
      exact hx
    · rw [List.mem_singleton.mp hx]
      simp [rxStep]
  · intro x hx
    have hlt := hs.old x hx
    simp only [rxStep, List.length_append]
    omega

theorem rxStep_queued {rcr : Rcr} (s : RxState rcr) (e : RxEvent rcr) (hs : Queued s)
    (he : RxOk s e) : Queued (rxStep s e) := by
  cases e with
  | read a => exact read_queued hs a
  | tasklet cannotRun mem => exact taskletLoop_queued hs rfl he

def oneByte (x : UInt8) (pad : ℕ) : Slot where
  desc := 1 :: List.replicate 23 0
  info := []
  payload := [x]
  pad := List.replicate pad 0

theorem oneByte_rxDesc (x : UInt8) (pad : ℕ) : (oneByte x pad).rxDesc = { pktLen := 1 } := by
  have hdesc : queryRxDescStatus (1 :: List.replicate 23 0) = { pktLen := 1 } := by decide
  exact hdesc

theorem oneByte_wellFormed (x : UInt8) {pad : ℕ} (h : pad ≤ 103) :
    (oneByte x pad).WellFormed {} where
  desc := rfl
  start := by
    rw [oneByte_rxDesc]
    rfl
  payload := by
    rw [oneByte_rxDesc]
    rfl
  nonempty := Nat.one_ne_zero
  crc := by
    intro _
    rw [oneByte_rxDesc]
  pad := by
    have hbytes : (oneByte x pad).bytes.length = 25 := rfl
    have hpage : rnd128 25 = 128 := rfl
    rw [hbytes, hpage, oneByte, List.length_replicate]
    omega

def twoPackets : Aggregate {} where
  slots := [oneByte 7 103, oneByte 8 0]
  nonempty := List.cons_ne_nil _ _
  wellFormed := by
    intro s hs
    rcases List.mem_cons.mp hs with rfl | hs
    · exact oneByte_wellFormed 7 (by omega)
    · rw [List.mem_singleton.mp hs]
      exact oneByte_wellFormed 8 (by omega)
  aligned := by decide

def dryAt (n : ℕ) : List (RxEvent {}) :=
  [.read twoPackets, .tasklet (fun _ => false) (fun _ => { frame := fun i => i ≠ n }),
    .tasklet (fun _ => false) (fun _ => {})]

instance {rcr : Rcr} (s : RxState rcr) (e : RxEvent rcr) : Decidable (RxOk s e) :=
  match e with
  | .read _ => inferInstanceAs (Decidable True)
  | .tasklet _ _ => inferInstanceAs (Decidable (_ = _))

end Rtl8189.SdioRecv
