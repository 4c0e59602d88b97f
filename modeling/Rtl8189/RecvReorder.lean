import Rtl8189.SerialNumber
import Rtl8189.SlidingWindow
import Rtl8189.EventRun
import Rtl8189.RecvFrame

/-!
# Reordering of received A-MPDU subframes

The receive side of one TID: the window test, the sorted insertion into the
pending queue, the in-order indication and the reorder timer. The 12-bit code
refines the sliding window over unwrapped numbers, where the order of what is
handed to `recv_process_mpdu` is plain.
-/
namespace Rtl8189.RecvReorder

open SerialNumber SlidingWindow EventRun

/-- `SN_LESS`: bit 11 of the difference. -/
def snLess (a b : ℕ) : Bool := 0x800 ≤ ((a : ℤ) - b) % 0x1000

structure RecvReorderCtrl where
  enable : Bool := false
  indicateSeq : ℕ := 0xFFFF
  wsizeB : ℕ := 64
  ampduSize : ℕ := 0xFF
  pending : List RecvFrame := []
  bReorderWaiting : Bool := false
  timerSet : Bool := false
  recAbbaRspAck : Bool := false
  deriving DecidableEq, Repr

inductive RecvRet where
  | success
  | fail
  | handled
  deriving DecidableEq, Repr

def checkIndicateSeq (c : RecvReorderCtrl) (seqNum : ℕ) : RecvReorderCtrl × Bool :=
  let ind := if c.indicateSeq = 0xFFFF then seqNum else c.indicateSeq
  let wend := (ind + c.wsizeB + 0xFFF) % 0x1000
  if snLess seqNum ind then ({ c with indicateSeq := ind }, false)
  else if seqNum = ind then ({ c with indicateSeq := (ind + 1) % 0x1000 }, true)
  else if snLess wend seqNum then
    if c.wsizeB - 1 ≤ seqNum then ({ c with indicateSeq := seqNum + 1 - c.wsizeB }, true)
    else ({ c with indicateSeq := 0xFFF - (c.wsizeB - (seqNum + 1)) + 1 }, true)
  else ({ c with indicateSeq := ind }, true)

def enqueueReorderRecvframe (f : RecvFrame) : List RecvFrame → Option (List RecvFrame)
  | [] => some [f]
  | g :: l =>
    if snLess g.attrib.seqNum f.attrib.seqNum then
      (enqueueReorderRecvframe f l).map (g :: ·)
    else if g.attrib.seqNum = f.attrib.seqNum then none
    else some (f :: g :: l)

structure Indicated where
  indicateSeq : ℕ
  handed : List RecvFrame
  pending : List RecvFrame
  bPktInBuf : Bool

/-- The loop of `recv_indicatepkts_in_order`; `handed` goes to
`recv_process_mpdu`, in this order. -/
def indicateLoop (ind : ℕ) : List RecvFrame → Indicated
  | [] => ⟨ind, [], [], false⟩
  | f :: l =>
    if snLess ind f.attrib.seqNum then ⟨ind, [], f :: l, true⟩
    else
      let r := indicateLoop (if ind = f.attrib.seqNum then (ind + 1) % 0x1000 else ind) l
      ⟨r.indicateSeq, f :: r.handed, r.pending, r.bPktInBuf⟩

def recvIndicatepktsInOrder (c : RecvReorderCtrl) (bforced : Bool) :
    RecvReorderCtrl × List RecvFrame × Bool :=
  if bforced && c.pending.isEmpty then (c, [], true)
  else
    let ind := if bforced then
        (c.pending.head?.map (·.attrib.seqNum.val)).getD c.indicateSeq
      else c.indicateSeq
    let r := indicateLoop ind c.pending
    ({ c with indicateSeq := r.indicateSeq, pending := r.pending }, r.handed, r.bPktInBuf)

def updateTimer (c : RecvReorderCtrl) (bPktInBuf : Bool) : RecvReorderCtrl :=
  if bPktInBuf then
    if c.bReorderWaiting then c else { c with bReorderWaiting := true, timerSet := true }
  else { c with bReorderWaiting := false, timerSet := false }

/-- The first frame after an ADDBA response restarts the window. -/
def testAndClearRecAbba (c : RecvReorderCtrl) : RecvReorderCtrl :=
  if c.recAbbaRspAck then { c with recAbbaRspAck := false, indicateSeq := 0xFFFF } else c

def recvIndicatepktReorder (c : RecvReorderCtrl) (f : RecvFrame) :
    RecvReorderCtrl × List RecvFrame × RecvRet :=
  if !f.attrib.qos || !c.enable then (c, [], .success)
  else
    let chk := checkIndicateSeq (testAndClearRecAbba c) f.attrib.seqNum
    if chk.2 = false then (chk.1, [], .fail)
    else match enqueueReorderRecvframe f chk.1.pending with
      | none => (chk.1, [], .fail)
      | some q =>
        let ord := recvIndicatepktsInOrder { chk.1 with pending := q } false
        (updateTimer ord.1 ord.2.2, ord.2.1, .handled)

def rtwReorderingCtrlTimeoutHandler (cannotRun : Bool) (c : RecvReorderCtrl) :
    RecvReorderCtrl × List RecvFrame :=
  if cannotRun then ({ c with timerSet := false }, [])
  else
    let ord := recvIndicatepktsInOrder { c with bReorderWaiting := false, timerSet := false } true
    ({ ord.1 with timerSet := ord.2.2 }, ord.2.1)

/-- The frame carries the unwrapped number it is filed under. -/
def Numbered (x : Item RecvFrame) : Prop := (x.2.attrib.seqNum : ℤ) = x.1 % 4096

theorem snLess_iff_lt {a b : ℕ} {x y : ℤ} (ha : (a : ℤ) = x % 4096) (hb : (b : ℤ) = y % 4096)
    (hl : -2048 ≤ x - y) (hr : x - y < 2048) : snLess a b = true ↔ x < y := by
  rw [← before_iff_lt hl hr, ← before_congr (h := 2048) (x := a) (y := b) (by omega) (by omega)]
  simp only [snLess, Before, decide_eq_true_eq]
  rfl

structure Refines (c : RecvReorderCtrl) (W : Window RecvFrame) : Prop where
  start : (c.indicateSeq : ℤ) = W.start % 4096
  size : (c.wsizeB : ℤ) = W.size
  pending : c.pending = W.pending.map Prod.snd
  numbered : ∀ x ∈ W.pending, Numbered x

theorem checkIndicateSeq_refines {c : RecvReorderCtrl} {size start n : ℤ} {s : ℕ}
    (hind : (c.indicateSeq : ℤ) = start % 4096) (hsize : (c.wsizeB : ℤ) = size)
    (h1 : 1 ≤ size) (h2 : size ≤ 255) (hs : (s : ℤ) = n % 4096)
    (hl : start - 2048 ≤ n) (hr : n < start + 2048) :
    checkIndicateSeq c s = match advance size start n with
      | none => (c, false)
      | some start' => ({ c with indicateSeq := (start' % 4096).toNat }, true) := by
  have hset : c.indicateSeq ≠ 0xFFFF := by omega
  have hold : snLess s c.indicateSeq = true ↔ n < start :=
    snLess_iff_lt hs hind (by omega) (by omega)
  have hnext : s = c.indicateSeq ↔ n = start := by omega
  simp only [checkIndicateSeq, if_neg hset, advance, hold, hnext]
  by_cases hlt : n < start
  · simp only [hlt, if_true]
  · have hbeyond : snLess ((c.indicateSeq + c.wsizeB + 0xFFF) % 0x1000) s = true ↔
        start + size - 1 < n :=
      snLess_iff_lt (x := start + size - 1) (by omega) hs (by omega) (by omega)
    simp only [hbeyond, if_neg hlt]
    by_cases heq : n = start
    · have hi : (c.indicateSeq + 1) % 0x1000 = ((start + 1) % 4096).toNat := by omega
      simp only [heq, if_true, hi]
    · simp only [heq, if_false]
      by_cases hfar : start + size - 1 < n
      · simp only [hfar, if_true]
        by_cases hw : c.wsizeB - 1 ≤ s
        · have hi : s + 1 - c.wsizeB = ((n + 1 - size) % 4096).toNat := by omega
          simp only [hw, if_true, hi]
        · have hi : 0xFFF - (c.wsizeB - (s + 1)) + 1 = ((n + 1 - size) % 4096).toNat := by omega
          simp only [hw, if_false, hi]
      · have hi : c.indicateSeq = (start % 4096).toNat := by omega
        simp only [hfar, if_false, ← hi]

theorem enqueueReorderRecvframe_refines {f : RecvFrame} {n : ℤ} (hf : Numbered (n, f))
    {l : List (Item RecvFrame)} (hl : ∀ x ∈ l, Numbered x)
    (hlow : ∀ x ∈ l, -2048 ≤ x.1 - n) (hup : ∀ x ∈ l, x.1 - n < 2048) :
    enqueueReorderRecvframe f (l.map Prod.snd) =
      (SlidingWindow.insert (n, f) l).map (List.map Prod.snd) := by
  induction l with
  | nil => rfl
  | cons x l ih =>
    have hx := hl x List.mem_cons_self
    have hx1 := hlow x List.mem_cons_self
    have hx2 := hup x List.mem_cons_self
    have ih := ih (fun y hy => hl y (List.mem_cons_of_mem x hy))
      (fun y hy => hlow y (List.mem_cons_of_mem x hy))
      (fun y hy => hup y (List.mem_cons_of_mem x hy))
    have hless : snLess x.2.attrib.seqNum f.attrib.seqNum = true ↔ x.1 < n :=
      snLess_iff_lt hx hf hx1 hx2
    have hsame : x.2.attrib.seqNum = f.attrib.seqNum ↔ x.1 = n := by
      simp only [Numbered] at hx hf
      omega
    simp only [List.map_cons, enqueueReorderRecvframe, SlidingWindow.insert, hless, hsame, ih]
    split_ifs with h1 h2
    · simp only [Option.map_map]
      rfl
    · rfl
    · rfl

theorem indicateLoop_refines {ind : ℕ} {start : ℤ} (hind : (ind : ℤ) = start % 4096)
    {l : List (Item RecvFrame)} (hl : ∀ x ∈ l, Numbered x) (hsorted : Sorted l)
    (hlow : ∀ x ∈ l, -2048 ≤ start - x.1) (hup : ∀ x ∈ l, start - x.1 < 2048) :
    indicateLoop ind (l.map Prod.snd) =
      ⟨((release start l).start % 4096).toNat, (release start l).out.map Prod.snd,
        (release start l).kept.map Prod.snd, !(release start l).kept.isEmpty⟩ := by
  induction l generalizing ind start with
  | nil =>
    simp only [List.map_nil, indicateLoop, release, List.isEmpty_nil, Bool.not_true]
    congr 1
    omega
  | cons x l ih =>
    have hx := hl x List.mem_cons_self
    have hx1 := hlow x List.mem_cons_self
    have hx2 := hup x List.mem_cons_self
    have hxl := List.pairwise_cons.mp hsorted
    have hless : snLess ind x.2.attrib.seqNum = true ↔ start < x.1 :=
      snLess_iff_lt hind hx hx1 hx2
    have hsame : ind = x.2.attrib.seqNum ↔ start = x.1 := by
      simp only [Numbered] at hx
      omega
    simp only [List.map_cons, indicateLoop, release, hless, hsame]
    by_cases hlt : start < x.1
    · simp only [hlt, if_true, List.map_nil, List.map_cons, List.isEmpty_cons, Bool.not_false]
      congr 1
      omega
    · have hl' := fun y hy => hl y (List.mem_cons_of_mem x hy)
      have hlow' := fun y hy => hlow y (List.mem_cons_of_mem x hy)
      have hup' := fun y hy => hup y (List.mem_cons_of_mem x hy)
      simp only [hlt, if_false]
      by_cases heq : start = x.1
      · have hnext : (((ind + 1) % 0x1000 : ℕ) : ℤ) = (start + 1) % 4096 := by omega
        rw [if_pos heq, if_pos heq, ih hnext hl' hxl.2
          (fun y hy => by have h := hlow' y hy; omega)
          (fun y hy => by have h := hxl.1 y hy; omega)]
        rfl
      · rw [if_neg heq, if_neg heq, ih hind hl' hxl.2 hlow' hup']
        rfl

theorem recvIndicatepktsInOrder_refines {c : RecvReorderCtrl} {W : Window RecvFrame}
    (hc : Refines c W) (hsorted : Sorted W.pending)
    (hlow : ∀ x ∈ W.pending, -2048 ≤ W.start - x.1)
    (hup : ∀ x ∈ W.pending, W.start - x.1 < 2048) :
    Refines (recvIndicatepktsInOrder c false).1 W.drain.window ∧
      (recvIndicatepktsInOrder c false).2.1 = W.drain.out.map Prod.snd := by
  have hloop := indicateLoop_refines hc.start hc.numbered hsorted hlow hup
  have happ := release_append W.start W.pending
  simp only [recvIndicatepktsInOrder, Bool.false_and, Bool.false_eq_true, if_false, hc.pending,
    hloop, Window.drain]
  refine ⟨⟨?_, hc.size, rfl, fun x hx => ?_⟩, trivial⟩
  · simp only
    omega
  · exact hc.numbered x (happ ▸ List.mem_append_right _ hx)

theorem recvIndicatepktsInOrder_forced {c : RecvReorderCtrl} {f : RecvFrame}
    (hf : c.pending.head? = some f) :
    recvIndicatepktsInOrder c true =
      recvIndicatepktsInOrder { c with indicateSeq := f.attrib.seqNum } false := by
  have hne : c.pending.isEmpty = false := by
    rw [List.isEmpty_eq_false_iff]
    exact List.ne_nil_of_mem (List.mem_of_head? hf)
  simp only [recvIndicatepktsInOrder, hne, hf, Bool.and_false, Bool.false_eq_true, if_false, if_true,
    Option.map_some, Option.getD_some]

theorem recvIndicatepktsInOrder_recAbbaRspAck (c : RecvReorderCtrl) (b : Bool) :
    (recvIndicatepktsInOrder c b).1.recAbbaRspAck = c.recAbbaRspAck := by
  simp only [recvIndicatepktsInOrder]
  split_ifs <;> rfl

def seqs (fs : List RecvFrame) : List ℕ := fs.map (fun f => f.attrib.seqNum.val)

/-- Each number satisfies `SN_LESS` against the one handed up before it. -/
def InOrder (ns : List ℕ) : Prop := ns.IsChain (fun a b => snLess a b = true)

instance (ns : List ℕ) : Decidable (InOrder ns) := inferInstanceAs (Decidable (List.IsChain _ ns))

def lastSeq (last : Option ℕ) (fs : List RecvFrame) : Option ℕ := (seqs fs).getLast?.or last

/-- The control block and the number handed up last, seen as a window. -/
structure Tracks (c : RecvReorderCtrl) (W : Window RecvFrame) (last : Option ℕ) : Prop where
  refines : Refines c W
  settled : c.recAbbaRspAck = false
  ordered : ∃ p : Option ℤ, W.Ordered 2048 p ∧
    p.map (· % 4096) = last.map (fun n : ℕ => (n : ℤ))

structure Delivers (last : Option ℕ) (c : RecvReorderCtrl) (W : Window RecvFrame)
    (handed : List RecvFrame) : Prop where
  tracks : Tracks c W (lastSeq last handed)
  chain : InOrder (seqs handed)
  link : ∀ p ∈ last, ∀ n ∈ (seqs handed).head?, snLess p n = true

theorem snLess_of_follows {a b : ℕ} {x y : ℤ} (ha : (a : ℤ) = x % 4096)
    (hb : (b : ℤ) = y % 4096) (h : Follows 2048 x y) : snLess a b = true := by
  have h1 := h.1
  have h2 := h.2
  exact (snLess_iff_lt ha hb (by omega) (by omega)).mpr h1

theorem delivers_of_sound {c : RecvReorderCtrl} {r : Received RecvFrame} {last : Option ℕ}
    {p : Option ℤ} (hp : p.map (· % 4096) = last.map (fun n : ℕ => (n : ℤ)))
    (hs : r.Sound 2048 p) (hc : Refines c r.window) (habba : c.recAbbaRspAck = false)
    (hout : ∀ x ∈ r.out, Numbered x) :
    Delivers last c r.window (r.out.map Prod.snd) := by
  have hseqs : seqs (r.out.map Prod.snd) = r.out.map (fun x => x.2.attrib.seqNum.val) :=
    List.map_map
  refine ⟨⟨hc, habba, lastOut r.out p, hs.ordered, ?_⟩, ?_, fun q hq n hn => ?_⟩
  · simp only [lastSeq, lastOut, hseqs, List.getLast?_map]
    cases hx : r.out.getLast? with
    | none => exact hp
    | some x => exact congrArg some (hout x (List.mem_of_getLast? hx)).symm
  · rw [InOrder, hseqs, List.isChain_map]
    refine ((List.isChain_map _).mp hs.chain).imp_of_mem_imp fun x y hx hy hxy => ?_
    exact snLess_of_follows (hout x hx) (hout y hy) hxy
  · rw [hseqs, List.head?_map] at hn
    obtain ⟨x, hx, rfl⟩ := Option.map_eq_some_iff.mp hn
    rw [Option.mem_def.mp hq] at hp
    obtain ⟨m, rfl, hm⟩ := Option.map_eq_some_iff.mp hp
    exact snLess_of_follows hm.symm (hout x (List.mem_of_head? hx)) (hs.link m rfl x hx)

theorem updateTimer_refines {c : RecvReorderCtrl} {W : Window RecvFrame} (hc : Refines c W)
    (b : Bool) : Refines (updateTimer c b) W := by
  simp only [updateTimer]
  split_ifs
  · exact hc
  · exact ⟨hc.start, hc.size, hc.pending, hc.numbered⟩
  · exact ⟨hc.start, hc.size, hc.pending, hc.numbered⟩

theorem updateTimer_recAbbaRspAck (c : RecvReorderCtrl) (b : Bool) :
    (updateTimer c b).recAbbaRspAck = c.recAbbaRspAck := by
  simp only [updateTimer]
  split_ifs <;> rfl

theorem recvIndicatepktReorder_settled {c : RecvReorderCtrl} {f : RecvFrame}
    (hq : f.attrib.qos = true) (hen : c.enable = true) (hsettled : c.recAbbaRspAck = false) :
    recvIndicatepktReorder c f =
      let chk := checkIndicateSeq c f.attrib.seqNum
      if chk.2 = false then (chk.1, [], .fail)
      else match enqueueReorderRecvframe f chk.1.pending with
        | none => (chk.1, [], .fail)
        | some q =>
          let ord := recvIndicatepktsInOrder { chk.1 with pending := q } false
          (updateTimer ord.1 ord.2.2, ord.2.1, .handled) := by
  have hclear : testAndClearRecAbba c = c := by simp [testAndClearRecAbba, hsettled]
  simp only [recvIndicatepktReorder, hq, hen, hclear, Bool.not_true, Bool.or_self,
    Bool.false_eq_true, if_false]

/-- The code of a settled, enabled control block on a frame is the window
receiving the frame under its nearest unwrapped number. -/
theorem recvIndicatepktReorder_refines {c : RecvReorderCtrl} {W : Window RecvFrame}
    {p : Option ℤ} {f : RecvFrame} (hq : f.attrib.qos = true) (hen : c.enable = true)
    (hsettled : c.recAbbaRspAck = false) (hc : Refines c W) (hW : W.Ordered 2048 p)
    (h1 : 1 ≤ c.wsizeB) (h2 : c.wsizeB ≤ 255) :
    let o := recvIndicatepktReorder c f
    let r := W.receive (nearest 2048 W.start f.attrib.seqNum, f)
    Refines o.1 r.window ∧ o.2.1 = r.out.map Prod.snd ∧ (o.2.2 = .handled ↔ r.accepted = true) ∧
      o.1.recAbbaRspAck = false := by
  have hf : Numbered (nearest 2048 W.start f.attrib.seqNum, f) := by
    have hn := nearest_emod 2048 W.start f.attrib.seqNum
    simp only [Numbered]
    omega
  have hge := nearest_ge (by omega : (0 : ℤ) < 2048) W.start f.attrib.seqNum
  have hlt := nearest_lt (by omega : (0 : ℤ) < 2048) W.start f.attrib.seqNum
  generalize nearest 2048 W.start f.attrib.seqNum = n at hf hge hlt
  have hsize := hc.size
  have hcheck := checkIndicateSeq_refines hc.start hsize (by omega) (by omega) hf hge hlt
  rw [recvIndicatepktReorder_settled hq hen hsettled, hcheck, Window.receive]
  cases hadv : advance W.size W.start n with
  | none => exact ⟨hc, rfl, by simp, hsettled⟩
  | some start =>
    have hstart := advance_spec hadv
    have hlow := hW.start_le
    have hroom := hW.room
    have henq := enqueueReorderRecvframe_refines hf hc.numbered
      (fun x hx => by have h := hlow x hx; omega) (fun x hx => by have h := hW.upper x hx; omega)
    rw [← hc.pending] at henq
    have hst : ((start % 4096).toNat : ℤ) = start % 4096 := by omega
    cases hins : SlidingWindow.insert (n, f) W.pending with
    | none =>
      rw [hins] at henq
      simp only [henq, Option.map_none]
      exact ⟨⟨hst, hsize, hc.pending, hc.numbered⟩, rfl, by simp, hsettled⟩
    | some q =>
      have hmem : ∀ x, x ∈ q → x = (n, f) ∨ x ∈ W.pending := fun x hx =>
        List.mem_cons.mp ((insert_perm hins).mem_iff.mp hx)
      have hcq : Refines { c with indicateSeq := (start % 4096).toNat, pending := q.map Prod.snd }
          { W with start := start, pending := q } := by
        refine ⟨hst, hsize, rfl, fun x hx => ?_⟩
        rcases hmem x hx with h | h
        · exact h ▸ hf
        · exact hc.numbered x h
      have hnear : ∀ x ∈ q, -2048 ≤ start - x.1 ∧ start - x.1 < 2048 := by
        intro x hx
        rcases hmem x hx with h | h
        · subst h
          simp only
          omega
        · have hx1 := hlow x h
          have hx2 := hW.upper x h
          have hx3 := hroom (List.ne_nil_of_mem h)
          omega
      have hord := recvIndicatepktsInOrder_refines hcq (insert_sorted hW.sorted hins)
        (fun x hx => (hnear x hx).1) (fun x hx => (hnear x hx).2)
      rw [hins] at henq
      simp only [henq, Option.map_some, Bool.true_eq_false, if_false]
      refine ⟨updateTimer_refines hord.1 _, hord.2, by simp [Window.drain], ?_⟩
      rw [updateTimer_recAbbaRspAck, recvIndicatepktsInOrder_recAbbaRspAck]
      exact hsettled

theorem recvIndicatepktsInOrder_force {c : RecvReorderCtrl} {W : Window RecvFrame}
    {p : Option ℤ} (hc : Refines c W) (hW : W.Ordered 2048 p) (h2 : c.wsizeB ≤ 255) :
    Refines (recvIndicatepktsInOrder c true).1 W.force.window ∧
      (recvIndicatepktsInOrder c true).2.1 = W.force.out.map Prod.snd := by
  have hsize := hc.size
  rw [Window.force]
  cases hx : W.pending.head? with
  | none =>
    have hnil : c.pending = [] := by rw [hc.pending, List.head?_eq_none_iff.mp hx, List.map_nil]
    simp only [recvIndicatepktsInOrder, hnil, List.isEmpty_nil, Bool.and_self, if_true]
    exact ⟨hc, rfl⟩
  | some x =>
    have hmem := List.mem_of_head? hx
    have hhead : c.pending.head? = some x.2 := by
      rw [hc.pending, List.head?_map, hx, Option.map_some]
    have hcx : Refines { c with indicateSeq := x.2.attrib.seqNum } { W with start := x.1 } :=
      ⟨hc.numbered x hmem, hc.size, hc.pending, hc.numbered⟩
    have hnear : ∀ y ∈ W.pending, -2048 ≤ x.1 - y.1 ∧ x.1 - y.1 < 2048 := by
      intro y hy
      have h1 := hW.sorted.head_le hx y hy
      have h3 := hW.start_le x hmem
      have h4 := hW.upper y hy
      omega
    rw [recvIndicatepktsInOrder_forced hhead]
    exact recvIndicatepktsInOrder_refines hcx hW.sorted (fun y hy => (hnear y hy).1)
      (fun y hy => (hnear y hy).2)

theorem rtwReorderingCtrlTimeoutHandler_refines {c : RecvReorderCtrl} {W : Window RecvFrame}
    {p : Option ℤ} (hc : Refines c W) (hW : W.Ordered 2048 p) (h2 : c.wsizeB ≤ 255) :
    Refines (rtwReorderingCtrlTimeoutHandler false c).1 W.force.window ∧
      (rtwReorderingCtrlTimeoutHandler false c).2 = W.force.out.map Prod.snd := by
  have hord := recvIndicatepktsInOrder_force
    (c := { c with bReorderWaiting := false, timerSet := false })
    ⟨hc.start, hc.size, hc.pending, hc.numbered⟩ hW h2
  exact ⟨⟨hord.1.start, hord.1.size, hord.1.pending, hord.1.numbered⟩, hord.2⟩

theorem enqueueReorderRecvframe_perm {f : RecvFrame} {l q : List RecvFrame}
    (h : enqueueReorderRecvframe f l = some q) : q.Perm (f :: l) := by
  induction l generalizing q with
  | nil =>
    simp only [enqueueReorderRecvframe, Option.some.injEq] at h
    rw [← h]
  | cons g l ih =>
    simp only [enqueueReorderRecvframe] at h
    split_ifs at h with hlt heq
    · obtain ⟨r, hr, rfl⟩ := Option.map_eq_some_iff.mp h
      exact ((ih hr).cons g).trans (.swap f g l)
    · obtain rfl := Option.some.inj h
      exact .refl _

theorem indicateLoop_append (ind : ℕ) (l : List RecvFrame) :
    (indicateLoop ind l).handed ++ (indicateLoop ind l).pending = l := by
  induction l generalizing ind with
  | nil => rfl
  | cons f l ih =>
    simp only [indicateLoop]
    split_ifs with hlt heq
    · rfl
    · exact congrArg (f :: ·) (ih _)
    · exact congrArg (f :: ·) (ih _)

theorem recvIndicatepktsInOrder_append (c : RecvReorderCtrl) (b : Bool) :
    (recvIndicatepktsInOrder c b).2.1 ++ (recvIndicatepktsInOrder c b).1.pending = c.pending := by
  simp only [recvIndicatepktsInOrder]
  by_cases h : (b && c.pending.isEmpty) = true
  · simp only [h, if_true, List.nil_append]
  · simp only [h]
    exact indicateLoop_append _ _

theorem testAndClearRecAbba_pending (c : RecvReorderCtrl) :
    (testAndClearRecAbba c).pending = c.pending := by
  simp only [testAndClearRecAbba]
  split_ifs <;> rfl

theorem checkIndicateSeq_pending (c : RecvReorderCtrl) (s : ℕ) :
    (checkIndicateSeq c s).1.pending = c.pending := by
  simp only [checkIndicateSeq]
  split_ifs <;> rfl

theorem updateTimer_pending (c : RecvReorderCtrl) (b : Bool) :
    (updateTimer c b).pending = c.pending := by
  simp only [updateTimer]
  split_ifs <;> rfl

/-- Nothing is lost or duplicated by one frame, whatever the state. -/
theorem recvIndicatepktReorder_conserves (c : RecvReorderCtrl) (f : RecvFrame) :
    let o := recvIndicatepktReorder c f
    (o.2.1 ++ o.1.pending).Perm (if o.2.2 = .handled then f :: c.pending else c.pending) := by
  have hpend : (checkIndicateSeq (testAndClearRecAbba c) f.attrib.seqNum).1.pending =
      c.pending := by rw [checkIndicateSeq_pending, testAndClearRecAbba_pending]
  simp only [recvIndicatepktReorder]
  generalize checkIndicateSeq (testAndClearRecAbba c) f.attrib.seqNum = chk at hpend ⊢
  by_cases hout : (!f.attrib.qos || !c.enable) = true
  · rw [if_pos hout]
    exact .refl _
  · rw [if_neg hout]
    by_cases hfit : chk.2 = false
    · rw [if_pos hfit]
      exact hpend ▸ .refl _
    · rw [if_neg hfit]
      cases henq : enqueueReorderRecvframe f chk.1.pending with
      | none => exact hpend ▸ .refl _
      | some q =>
        have happ := recvIndicatepktsInOrder_append { chk.1 with pending := q } false
        simp only [updateTimer_pending, happ, if_true]
        exact hpend ▸ enqueueReorderRecvframe_perm henq

theorem rtwReorderingCtrlTimeoutHandler_append (b : Bool) (c : RecvReorderCtrl) :
    (rtwReorderingCtrlTimeoutHandler b c).2 ++ (rtwReorderingCtrlTimeoutHandler b c).1.pending =
      c.pending := by
  simp only [rtwReorderingCtrlTimeoutHandler]
  split_ifs
  · rfl
  · exact recvIndicatepktsInOrder_append _ true

def Idle (c : RecvReorderCtrl) (last : Option ℕ) : Prop :=
  c.pending = [] ∧ last = none ∧ (c.indicateSeq = 0xFFFF ∨ c.recAbbaRspAck = true)

/-- The control block follows some window; a strict one has everything pending
beyond the window start. -/
def Synced (strict : Prop) (c : RecvReorderCtrl) (last : Option ℕ) : Prop :=
  Idle c last ∨ ∃ W, Tracks c W last ∧ (strict → W.Ahead)

structure Handed (strict : Prop) (last : Option ℕ) (c : RecvReorderCtrl)
    (handed : List RecvFrame) : Prop where
  synced : Synced strict c (lastSeq last handed)
  chain : InOrder (seqs handed)
  link : ∀ p ∈ last, ∀ n ∈ (seqs handed).head?, snLess p n = true

theorem handed_nothing {strict : Prop} {last : Option ℕ} {c : RecvReorderCtrl}
    (hc : Synced strict c last) : Handed strict last c [] :=
  ⟨hc, .nil, fun _ _ _ hn => nomatch hn⟩

theorem recvIndicatepktReorder_tracks {strict : Prop} {c : RecvReorderCtrl}
    {W : Window RecvFrame} {last : Option ℕ} {f : RecvFrame} (hq : f.attrib.qos = true)
    (hen : c.enable = true) (h1 : 1 ≤ c.wsizeB) (h2 : c.wsizeB ≤ 255) (hc : Tracks c W last)
    (hahead : strict → W.Ahead) :
    Handed strict last (recvIndicatepktReorder c f).1 (recvIndicatepktReorder c f).2.1 := by
  obtain ⟨p, hW, hp⟩ := hc.ordered
  have hsize := hc.refines.size
  have hnum := nearest_emod 2048 W.start f.attrib.seqNum
  have hlt := nearest_lt (by omega : (0 : ℤ) < 2048) W.start f.attrib.seqNum
  obtain ⟨hrc, hout, _, habba⟩ :=
    recvIndicatepktReorder_refines hq hen hc.settled hc.refines hW h1 h2
  generalize hx : (nearest 2048 W.start f.attrib.seqNum, f) = x at hrc hout
  have hxn : Numbered x := by
    simp only [← hx, Numbered]
    omega
  have hsound := receive_sound (x := x) (by omega) (by omega) (by rw [← hx]; exact hlt) hW
  have hdel : ∀ y ∈ (W.receive x).out, Numbered y := by
    cases hacc : (W.receive x).accepted with
    | true =>
      have hperm := receive_conserves hacc
      intro y hy
      rcases List.mem_cons.mp (hperm.mem_iff.mp (List.mem_append_left _ hy)) with rfl | hy
      · exact hxn
      · exact hc.refines.numbered y hy
    | false => simp [(receive_refused hacc).1]
  have hdelivers := delivers_of_sound hp hsound hrc habba hdel
  rw [hout]
  exact ⟨.inr ⟨_, hdelivers.tracks, fun h => receive_ahead hW (hahead h)⟩, hdelivers.chain,
    hdelivers.link⟩

theorem checkIndicateSeq_idle {c : RecvReorderCtrl} {s : ℕ} (hs : s < 4096)
    (hset : c.indicateSeq = 0xFFFF ∨ c.recAbbaRspAck = true) :
    checkIndicateSeq (testAndClearRecAbba c) s =
      checkIndicateSeq { c with indicateSeq := s, recAbbaRspAck := false } s := by
  have hne : s ≠ 0xFFFF := by omega
  cases habba : c.recAbbaRspAck with
  | true => simp [testAndClearRecAbba, habba, checkIndicateSeq, hne]
  | false =>
    have hind : c.indicateSeq = 0xFFFF := by simpa [habba] using hset
    simp [testAndClearRecAbba, habba, checkIndicateSeq, hne, hind]

theorem recvIndicatepktReorder_idle {c : RecvReorderCtrl} {f : RecvFrame}
    (hen : c.enable = true) (hq : f.attrib.qos = true)
    (hset : c.indicateSeq = 0xFFFF ∨ c.recAbbaRspAck = true) :
    recvIndicatepktReorder c f =
      recvIndicatepktReorder { c with indicateSeq := f.attrib.seqNum, recAbbaRspAck := false }
        f := by
  rw [recvIndicatepktReorder_settled (c := { c with indicateSeq := _, recAbbaRspAck := false })
    hq hen rfl, ← checkIndicateSeq_idle f.attrib.seqNum.isLt hset]
  simp only [recvIndicatepktReorder, hq, hen, Bool.not_true, Bool.or_self, Bool.false_eq_true,
    if_false]

theorem empty_ordered {W : Window RecvFrame} (hW : W.pending = []) : W.Ordered 2048 none := by
  refine ⟨?_, ?_, fun h => absurd hW h, ?_, by simp, by simp, by simp⟩
  · rw [hW]
    exact .nil
  · simp [hW]
  · simp [hW]

theorem tracks_of_empty {c : RecvReorderCtrl} (hc : c.pending = []) (hind : c.indicateSeq < 4096)
    (habba : c.recAbbaRspAck = false) : Tracks c ⟨c.indicateSeq, c.wsizeB, []⟩ none :=
  ⟨⟨by simp only; omega, rfl, hc, by simp⟩, habba, none, empty_ordered rfl, rfl⟩

theorem recvIndicatepktReorder_handed {strict : Prop} {c : RecvReorderCtrl} {last : Option ℕ}
    (f : RecvFrame) (h1 : 1 ≤ c.wsizeB) (h2 : c.wsizeB ≤ 255) (hc : Synced strict c last) :
    Handed strict last (recvIndicatepktReorder c f).1 (recvIndicatepktReorder c f).2.1 := by
  by_cases hout : (!f.attrib.qos || !c.enable) = true
  · simp only [recvIndicatepktReorder, if_pos hout]
    exact handed_nothing hc
  · simp only [Bool.or_eq_true, Bool.not_eq_true', not_or, Bool.not_eq_false] at hout
    rcases hc with ⟨hempty, rfl, hset⟩ | ⟨W, hW, hahead⟩
    · rw [recvIndicatepktReorder_idle hout.2 hout.1 hset]
      exact recvIndicatepktReorder_tracks hout.1 hout.2 h1 h2
        (tracks_of_empty hempty f.attrib.seqNum.isLt rfl) fun _ => by simp [Window.Ahead]
    · exact recvIndicatepktReorder_tracks hout.1 hout.2 h1 h2 hW hahead

theorem rtwReorderingCtrlTimeoutHandler_recAbbaRspAck (b : Bool) (c : RecvReorderCtrl) :
    (rtwReorderingCtrlTimeoutHandler b c).1.recAbbaRspAck = c.recAbbaRspAck := by
  simp only [rtwReorderingCtrlTimeoutHandler]
  split_ifs
  · rfl
  · exact recvIndicatepktsInOrder_recAbbaRspAck _ true

theorem rtwReorderingCtrlTimeoutHandler_handed {strict : Prop} {c : RecvReorderCtrl}
    {last : Option ℕ} (b : Bool) (h2 : c.wsizeB ≤ 255) (hc : Synced strict c last) :
    Handed strict last (rtwReorderingCtrlTimeoutHandler b c).1
      (rtwReorderingCtrlTimeoutHandler b c).2 := by
  have habba := rtwReorderingCtrlTimeoutHandler_recAbbaRspAck b c
  cases b with
  | true =>
    refine handed_nothing ?_
    rcases hc with hc | ⟨W, ⟨hW, hsettled, hord⟩, hahead⟩
    · exact .inl hc
    · exact .inr ⟨W, ⟨⟨hW.start, hW.size, hW.pending, hW.numbered⟩, hsettled, hord⟩, hahead⟩
  | false =>
    rcases hc with ⟨hempty, rfl, hset⟩ | ⟨W, ⟨hW, hsettled, p, hord, hp⟩, hahead⟩
    · simp only [rtwReorderingCtrlTimeoutHandler, recvIndicatepktsInOrder, hempty,
        List.isEmpty_nil, Bool.and_self, if_true, Bool.false_eq_true, if_false]
      exact handed_nothing (.inl ⟨rfl, rfl, hset⟩)
    · have hsize := hW.size
      obtain ⟨hrc, hout⟩ := rtwReorderingCtrlTimeoutHandler_refines hW hord h2
      have hperm := force_conserves W
      have hdelivers := delivers_of_sound hp (force_sound (by omega) hord) hrc
        (habba.trans hsettled) fun x hx =>
          hW.numbered x (hperm.mem_iff.mp (List.mem_append_left _ hx))
      rw [hout]
      exact ⟨.inr ⟨_, hdelivers.tracks, fun _ => force_ahead hord.sorted⟩, hdelivers.chain,
        hdelivers.link⟩

theorem Handed.inOrder {strict : Prop} {c : RecvReorderCtrl} {past handed : List RecvFrame}
    (h : Handed strict (seqs past).getLast? c handed) (hpast : InOrder (seqs past)) :
    InOrder (seqs (past ++ handed)) := by
  rw [seqs, List.map_append]
  exact List.isChain_append.mpr ⟨hpast, h.chain, h.link⟩

theorem lastSeq_append (past handed : List RecvFrame) :
    (seqs (past ++ handed)).getLast? = lastSeq (seqs past).getLast? handed := by
  rw [seqs, List.map_append, List.getLast?_append]
  rfl

def SameSession (c c' : RecvReorderCtrl) : Prop :=
  c'.enable = c.enable ∧ c'.wsizeB = c.wsizeB ∧ c'.ampduSize = c.ampduSize

theorem checkIndicateSeq_sameSession (c : RecvReorderCtrl) (s : ℕ) :
    SameSession c (checkIndicateSeq c s).1 := by
  simp only [checkIndicateSeq]
  split_ifs <;> exact ⟨rfl, rfl, rfl⟩

theorem recvIndicatepktsInOrder_sameSession (c : RecvReorderCtrl) (b : Bool) :
    SameSession c (recvIndicatepktsInOrder c b).1 := by
  simp only [recvIndicatepktsInOrder]
  split_ifs <;> exact ⟨rfl, rfl, rfl⟩

theorem testAndClearRecAbba_sameSession (c : RecvReorderCtrl) :
    SameSession c (testAndClearRecAbba c) := by
  simp only [testAndClearRecAbba]
  split_ifs <;> exact ⟨rfl, rfl, rfl⟩

theorem updateTimer_sameSession (c : RecvReorderCtrl) (b : Bool) :
    SameSession c (updateTimer c b) := by
  simp only [updateTimer]
  split_ifs <;> exact ⟨rfl, rfl, rfl⟩

theorem SameSession.trans {c d e : RecvReorderCtrl} (hcd : SameSession c d)
    (hde : SameSession d e) : SameSession c e :=
  ⟨hde.1.trans hcd.1, hde.2.1.trans hcd.2.1, hde.2.2.trans hcd.2.2⟩

theorem recvIndicatepktReorder_sameSession (c : RecvReorderCtrl) (f : RecvFrame) :
    SameSession c (recvIndicatepktReorder c f).1 := by
  have hcheck := (testAndClearRecAbba_sameSession c).trans
    (checkIndicateSeq_sameSession (testAndClearRecAbba c) f.attrib.seqNum)
  simp only [recvIndicatepktReorder]
  generalize checkIndicateSeq (testAndClearRecAbba c) f.attrib.seqNum = chk at hcheck ⊢
  split_ifs
  · exact ⟨rfl, rfl, rfl⟩
  · exact hcheck
  · split
    · exact hcheck
    · exact hcheck.trans ((recvIndicatepktsInOrder_sameSession _ false).trans
        (updateTimer_sameSession _ _))

theorem rtwReorderingCtrlTimeoutHandler_sameSession (b : Bool) (c : RecvReorderCtrl) :
    SameSession c (rtwReorderingCtrlTimeoutHandler b c).1 := by
  simp only [rtwReorderingCtrlTimeoutHandler]
  split_ifs
  · exact ⟨rfl, rfl, rfl⟩
  · exact recvIndicatepktsInOrder_sameSession _ true

/-- A frame received on the TID, or the reorder timer expiring. -/
inductive WindowEvent where
  | frame (f : RecvFrame)
  | timeout (cannotRun : Bool)
  deriving DecidableEq, Repr

/-- The control block with everything handed to `recv_process_mpdu` and every
frame that entered the pending queue, oldest first. -/
structure TidRun where
  ctrl : RecvReorderCtrl
  handed : List RecvFrame := []
  accepted : List RecvFrame := []

def windowStep (s : TidRun) : WindowEvent → TidRun
  | .frame f =>
    let o := recvIndicatepktReorder s.ctrl f
    ⟨o.1, s.handed ++ o.2.1, if o.2.2 = .handled then s.accepted ++ [f] else s.accepted⟩
  | .timeout b =>
    let o := rtwReorderingCtrlTimeoutHandler b s.ctrl
    ⟨o.1, s.handed ++ o.2, s.accepted⟩

def TidRun.Conserved (s : TidRun) : Prop := (s.handed ++ s.ctrl.pending).Perm s.accepted

theorem conserved_frame {s : TidRun} (hs : s.Conserved) (f : RecvFrame) :
    (windowStep s (.frame f)).Conserved := by
  have hperm := recvIndicatepktReorder_conserves s.ctrl f
  have happ := hperm.append_left s.handed
  simp only [TidRun.Conserved, windowStep, List.append_assoc]
  refine happ.trans ?_
  split_ifs
  · exact List.perm_middle.trans ((hs.cons f).trans (List.perm_append_singleton f _).symm)
  · exact hs

theorem conserved_timeout {s : TidRun} (hs : s.Conserved) (b : Bool) :
    (windowStep s (.timeout b)).Conserved := by
  simp only [TidRun.Conserved, windowStep, List.append_assoc,
    rtwReorderingCtrlTimeoutHandler_append]
  exact hs

structure WindowInv (wsize : ℕ) (s : TidRun) : Prop where
  wsize : s.ctrl.wsizeB = wsize
  synced : Synced True s.ctrl (seqs s.handed).getLast?
  inOrder : InOrder (seqs s.handed)
  conserved : s.Conserved

theorem windowStep_inv {wsize : ℕ} (h1 : 1 ≤ wsize) (h2 : wsize ≤ 255) (s : TidRun)
    (e : WindowEvent) (hs : WindowInv wsize s) : WindowInv wsize (windowStep s e) := by
  obtain ⟨rfl, hsynced, horder, hcons⟩ := hs
  cases e with
  | frame f =>
    have hh := recvIndicatepktReorder_handed f h1 h2 hsynced
    exact ⟨(recvIndicatepktReorder_sameSession _ f).2.1, (lastSeq_append _ _).symm ▸ hh.synced,
      hh.inOrder horder, conserved_frame hcons f⟩
  | timeout b =>
    have hh := rtwReorderingCtrlTimeoutHandler_handed b h2 hsynced
    exact ⟨(rtwReorderingCtrlTimeoutHandler_sameSession b _).2.1, (lastSeq_append _ _).symm ▸ hh.synced,
      hh.inOrder horder, conserved_timeout hcons b⟩

/-- The pending queue is sorted and inside the window that opens behind
`indicate_seq`. -/
def PendingInWindow (c : RecvReorderCtrl) : Prop :=
  (seqs c.pending).Pairwise (fun a b => snLess a b = true) ∧
    ∀ n ∈ seqs c.pending, ∃ d, 1 ≤ d ∧ d ≤ c.wsizeB - 1 ∧ n = (c.indicateSeq + d) % 4096

theorem pendingInWindow_of_synced {c : RecvReorderCtrl} {last : Option ℕ} (h2 : c.wsizeB ≤ 255)
    (hc : Synced True c last) : PendingInWindow c := by
  rcases hc with ⟨hempty, _, _⟩ | ⟨W, ⟨hW, _, p, hord, _⟩, hahead⟩
  · simp [PendingInWindow, hempty, seqs]
  · have hsize := hW.size
    have hstart := hW.start
    have hseqs : seqs c.pending = W.pending.map (fun x => x.2.attrib.seqNum.val) := by
      rw [hW.pending]
      exact List.map_map
    refine ⟨?_, fun n hn => ?_⟩
    · rw [hseqs, List.pairwise_map]
      refine hord.sorted.imp_of_mem fun {x y} hx hy hxy => ?_
      have h1 := hord.upper y hy
      have h3 := hahead trivial x hx
      exact snLess_of_follows (hW.numbered x hx) (hW.numbered y hy) ⟨hxy, by omega⟩
    · rw [hseqs] at hn
      obtain ⟨x, hx, rfl⟩ := List.mem_map.mp hn
      have h1 := hord.upper x hx
      have h3 := hahead trivial x hx
      have hxn := hW.numbered x hx
      simp only [Numbered] at hxn
      exact ⟨(x.1 - W.start).toNat, by omega, by omega, by omega⟩

/-- Over every run of frames and timer expiries from an empty pending queue,
frames are handed up in `SN_LESS` order, each accepted frame is handed up or
pending exactly once, and the pending queue stays inside the window. -/
theorem reorder_run {c : RecvReorderCtrl} (hempty : c.pending = [])
    (hind : c.indicateSeq = 0xFFFF ∨ c.indicateSeq < 4096) (h1 : 1 ≤ c.wsizeB)
    (h2 : c.wsizeB ≤ 255) (es : List WindowEvent) :
    let s := run windowStep { ctrl := c } es
    InOrder (seqs s.handed) ∧ (s.handed ++ s.ctrl.pending).Perm s.accepted ∧
      s.ctrl.wsizeB = c.wsizeB ∧ PendingInWindow s.ctrl := by
  have hsynced : Synced True c none := by
    by_cases hset : c.indicateSeq = 0xFFFF ∨ c.recAbbaRspAck = true
    · exact .inl ⟨hempty, rfl, hset⟩
    · simp only [not_or, Bool.not_eq_true] at hset
      exact .inr ⟨_, tracks_of_empty hempty (hind.resolve_left hset.1) hset.2,
        fun _ => by simp [Window.Ahead]⟩
  have hinv : WindowInv c.wsizeB { ctrl := c } :=
    ⟨rfl, hsynced, .nil, by simp [TidRun.Conserved, hempty]⟩
  have hrun := run_invariant (WindowInv c.wsizeB) (windowStep_inv h1 h2) hinv es
  exact ⟨hrun.inOrder, hrun.conserved, hrun.wsize,
    pendingInWindow_of_synced (hrun.wsize ▸ h2) hrun.synced⟩

def qosFrame (n : Fin 4096) : RecvFrame := { attrib := { qos := true, seqNum := n } }

/-- A gap across the wrap of the sequence number, closed by the timer. -/
theorem reorder_run_wrap :
    let c : RecvReorderCtrl := { enable := true }
    let es : List WindowEvent := [.frame (qosFrame 4094), .frame (qosFrame 1),
      .frame (qosFrame 0), .frame (qosFrame 1), .timeout false, .frame (qosFrame 4095)]
    let s := run windowStep { ctrl := c } es
    seqs s.handed = [4094, 0, 1] ∧ InOrder (seqs s.handed) ∧
      (s.handed ++ s.ctrl.pending).Perm s.accepted ∧ s.ctrl.wsizeB = c.wsizeB ∧
      PendingInWindow s.ctrl :=
  ⟨by decide, reorder_run rfl (by decide) (by decide) (by decide) _⟩

end Rtl8189.RecvReorder
