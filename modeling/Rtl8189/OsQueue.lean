import Mathlib.Data.Fintype.Basic
import Mathlib.Data.Int.Notation
import Mathlib.Logic.Function.Basic
import Rtl8189.EventRun
import Rtl8189.FieldWidths

/-!
# Flow control of the network queues

`_rtw_xmit_entry` stops the subqueue of a packet when the driver runs short, and
the completion of a packet wakes the subqueue it came from. With `wifi_spec` both
look at the frames of one hardware queue, else the stop looks at the free frames
and the wake at nothing. No lock spans the test and the stop, nor the test and the
wake.
-/
namespace Rtl8189.OsQueue

abbrev Ac := Fin 4

def nrXmitframe : ℕ := 256

def wmmXmitThreshold : ℕ := nrXmitframe * 2 / 5

/-- Where a packet is: the first part in `_rtw_xmit_entry`, `copied` for a copy made by
`rtw_mlcst2unicst`; then in the transmit path under the hardware queue of its frame;
then in `rtw_os_pkt_complete`. -/
inductive Place where
  | arrived
  | stopDue
  | checked
  | mcast
  | xmit (copied : Bool)
  | framed (copied : Bool)
  | sleeping (ac : Ac)
  | queued (ac : Ac)
  | dequeued
  | completing
  | waking
  | done
  deriving DecidableEq

structure Pkt where
  queue : Ac
  place : Place
  deriving DecidableEq

inductive DropWake where
  | none
  | testDue
  | wakeDue
  deriving DecidableEq

structure State where
  wifiSpec : Bool
  freeXmitframeCnt : ℕ := nrXmitframe
  /-- Frames of each hardware queue. -/
  accnt : Ac → ℤ := fun _ => 0
  stopped : Ac → Bool := fun _ => false
  pkts : List Pkt := []
  /-- Frames `rtw_free_stainfo` has freed and not yet taken off `accnt`. -/
  owing : Ac → ℕ := fun _ => 0
  wake : Ac → DropWake := fun _ => .none

def rtwOsNeedWakeQueue (s : State) (q : Ac) : Bool :=
  if s.wifiSpec then s.accnt q < wmmXmitThreshold else true

def rtwOsNeedStopQueue (s : State) (q : Ac) : Bool :=
  if s.wifiSpec then wmmXmitThreshold < s.accnt q else s.freeXmitframeCnt ≤ 4

inductive Accepted where
  | sleep (ac : Ac)
  | queue (ac : Ac)
  /-- The frame could not be enqueued. -/
  | dropped
  deriving DecidableEq

inductive Event where
  | arrive (q : Ac)
  /-- `mp_mode`, or the interface is down. -/
  | refuse (q : Ac)
  | check (q : Ac)
  | stop (q : Ac)
  | toMcast (q : Ac)
  | toXmit (q : Ac)
  | copy (q : Ac)
  /-- `rtw_skb_copy` failed: the packet is sent as it is. -/
  | copyFailed (q : Ac)
  | mcastFree (q : Ac)
  | xmitFailed (q : Ac) (copied : Bool)
  | allocFrame (q : Ac) (copied : Bool)
  | attribFailed (q : Ac) (copied : Bool)
  | accept (q : Ac) (copied : Bool) (a : Accepted)
  | toSleep (q ac : Ac)
  | wakeup (q ac : Ac)
  | dequeue (q ac : Ac)
  | freeFrame (q : Ac)
  | dropSleeping (q ac : Ac)
  | dropQueued (q ac : Ac)
  | dropAccount (ac : Ac)
  | dropTest (ac : Ac)
  | dropWake (ac : Ac)
  | test (q : Ac)
  | wake (q : Ac)
  | skbFree (q : Ac)
  deriving DecidableEq

def State.onPkt (s : State) (q : Ac) (a : Place) (t : State) : State :=
  if ⟨q, a⟩ ∈ s.pkts then t else s

def State.relocate (s : State) (q : Ac) (a b : Place) : State :=
  { s with pkts := ⟨q, b⟩ :: s.pkts.erase ⟨q, a⟩ }

def State.release (s : State) (q : Ac) (a : Place) : State :=
  { s with pkts := s.pkts.erase ⟨q, a⟩ }

def State.freeXmitframe (s : State) : State :=
  { s with freeXmitframeCnt := s.freeXmitframeCnt + 1 }

def State.account (s : State) (ac : Ac) (d : ℤ) : State :=
  { s with accnt := Function.update s.accnt ac (s.accnt ac + d) }

/-- A packet `rtw_xmit` gave back: the entry completes it, `rtw_mlcst2unicst` frees it. -/
def State.giveBack (s : State) (q : Ac) (a : Place) (copied : Bool) : State :=
  if copied then s.release q a else s.relocate q a .completing

def State.accept (s : State) (q : Ac) (a : Place) : Accepted → State
  | .sleep ac => s.relocate q a (.sleeping ac)
  | .queue ac => (s.relocate q a (.queued ac)).account ac 1
  | .dropped => (s.relocate q a .completing).freeXmitframe

def step (s : State) : Event → State
  | .arrive q => { s with pkts := ⟨q, .arrived⟩ :: s.pkts }
  | .refuse q => s.onPkt q .arrived (s.relocate q .arrived .completing)
  | .check q => s.onPkt q .arrived
      (s.relocate q .arrived (if rtwOsNeedStopQueue s q then .stopDue else .checked))
  | .stop q => s.onPkt q .stopDue
      { s.relocate q .stopDue .checked with stopped := Function.update s.stopped q true }
  | .toMcast q =>
    if s.wifiSpec = false ∧ nrXmitframe / 4 < s.freeXmitframeCnt then
      s.onPkt q .checked (s.relocate q .checked .mcast)
    else s
  | .toXmit q => s.onPkt q .checked (s.relocate q .checked (.xmit false))
  | .copy q => s.onPkt q .mcast { s with pkts := ⟨q, .xmit true⟩ :: s.pkts }
  | .copyFailed q => s.onPkt q .mcast (s.relocate q .mcast (.xmit false))
  | .mcastFree q => s.onPkt q .mcast (s.release q .mcast)
  | .xmitFailed q copied => s.onPkt q (.xmit copied) (s.giveBack q (.xmit copied) copied)
  | .allocFrame q copied =>
    if 0 < s.freeXmitframeCnt then
      s.onPkt q (.xmit copied)
        { s.relocate q (.xmit copied) (.framed copied) with
          freeXmitframeCnt := s.freeXmitframeCnt - 1 }
    else s
  | .attribFailed q copied => s.onPkt q (.framed copied)
      (s.giveBack q (.framed copied) copied).freeXmitframe
  | .accept q copied a => s.onPkt q (.framed copied) (s.accept q (.framed copied) a)
  | .toSleep q ac => s.onPkt q (.queued ac)
      ((s.relocate q (.queued ac) (.sleeping ac)).account ac (-1))
  | .wakeup q ac => s.onPkt q (.sleeping ac)
      ((s.relocate q (.sleeping ac) (.queued ac)).account ac 1)
  | .dequeue q ac => s.onPkt q (.queued ac)
      ((s.relocate q (.queued ac) .dequeued).account ac (-1))
  | .freeFrame q => s.onPkt q .dequeued (s.relocate q .dequeued .completing).freeXmitframe
  | .dropSleeping q ac => s.onPkt q (.sleeping ac)
      (s.relocate q (.sleeping ac) .completing).freeXmitframe
  | .dropQueued q ac => s.onPkt q (.queued ac)
      { (s.relocate q (.queued ac) .completing).freeXmitframe with
        owing := Function.update s.owing ac (s.owing ac + 1) }
  | .dropAccount ac =>
    if 0 < s.owing ac then
      { s.account ac (-(s.owing ac : ℤ)) with
        owing := Function.update s.owing ac 0
        wake := Function.update s.wake ac .testDue }
    else s
  | .dropTest ac =>
    if s.wake ac = .testDue then
      { s with
        wake := Function.update s.wake ac
          (if rtwOsNeedWakeQueue s ac then .wakeDue else .none) }
    else s
  | .dropWake ac =>
    if s.wake ac = .wakeDue then
      { s with
        wake := Function.update s.wake ac .none
        stopped := Function.update s.stopped ac false }
    else s
  | .test q => s.onPkt q .completing
      (s.relocate q .completing (if rtwOsNeedWakeQueue s q then .waking else .done))
  | .wake q => s.onPkt q .waking
      { s.relocate q .waking .done with stopped := Function.update s.stopped q false }
  | .skbFree q => s.onPkt q .done (s.release q .done)

/-! ## What wakes a stopped queue -/

def live (l : List Pkt) (q : Ac) : Prop := ∃ p ∈ l, p.queue = q ∧ p.place ≠ .done

instance (l : List Pkt) (q : Ac) : Decidable (live l q) :=
  inferInstanceAs (Decidable (∃ p ∈ l, _))

def State.dropPending (s : State) (q : Ac) : Prop := 0 < s.owing q ∨ s.wake q ≠ .none

instance (s : State) (q : Ac) : Decidable (s.dropPending q) :=
  inferInstanceAs (Decidable (_ ∨ _))

def onHw (l : List Pkt) (ac : Ac) : ℕ := l.countP fun p => p.place = .queued ac

def Place.hw : Place → Option Ac
  | .sleeping ac => some ac
  | .queued ac => some ac
  | _ => none

structure Inv (s : State) : Prop where
  covered : ∀ q, s.stopped q → live s.pkts q ∨ s.dropPending q
  count : ∀ ac, s.accnt ac = onHw s.pkts ac + s.owing ac
  matched : s.wifiSpec → ∀ p ∈ s.pkts, ∀ ac, p.place.hw = some ac → ac = p.queue

theorem live_erase_of_ne {l : List Pkt} {q q' : Ac} {a : Place} (h : live l q')
    (hq : q' ≠ q) : live (l.erase ⟨q, a⟩) q' := by
  obtain ⟨p, hp, hpq, hpl⟩ := h
  refine ⟨p, ?_, hpq, hpl⟩
  rw [List.mem_erase_of_ne]
  · exact hp
  · rintro rfl
    exact hq hpq.symm

theorem live_relocate {l : List Pkt} {q q' : Ac} {a b : Place} (hb : b ≠ .done)
    (h : live l q' ∨ q' = q) : live (⟨q, b⟩ :: l.erase ⟨q, a⟩) q' := by
  by_cases hq : q' = q
  · exact ⟨⟨q, b⟩, List.mem_cons_self, hq.symm, hb⟩
  · obtain ⟨p, hp, hpq, hpl⟩ := live_erase_of_ne (a := a) (h.resolve_right hq) hq
    exact ⟨p, List.mem_cons_of_mem _ hp, hpq, hpl⟩

theorem onHw_erase {l : List Pkt} {q : Ac} {a : Place} (h : ⟨q, a⟩ ∈ l) (ac : Ac) :
    onHw l ac = onHw (l.erase ⟨q, a⟩) ac + if a = .queued ac then 1 else 0 := by
  rw [onHw, (List.perm_cons_erase h).countP_eq, List.countP_cons, onHw]
  simp only [decide_eq_true_eq]

theorem onHw_cons (l : List Pkt) (q : Ac) (b : Place) (ac : Ac) :
    onHw (⟨q, b⟩ :: l) ac = onHw l ac + if b = .queued ac then 1 else 0 := by
  rw [onHw, List.countP_cons, onHw]
  simp only [decide_eq_true_eq]

section Moves

variable {s t : State} {q : Ac} {a b : Place}

theorem Inv.relocate (h : Inv s) (hp : ⟨q, a⟩ ∈ s.pkts)
    (hpkts : t.pkts = ⟨q, b⟩ :: s.pkts.erase ⟨q, a⟩) (hb : b ≠ .done)
    (hstopped : ∀ q', t.stopped q' → s.stopped q' ∨ q' = q)
    (hdrop : ∀ q', s.dropPending q' → t.dropPending q')
    (haccnt : ∀ ac, t.accnt ac - t.owing ac + (if a = .queued ac then 1 else 0 : ℕ) =
      s.accnt ac - s.owing ac + (if b = .queued ac then 1 else 0 : ℕ))
    (hspec : t.wifiSpec = s.wifiSpec)
    (hmatched : s.wifiSpec → ∀ ac, b.hw = some ac → a.hw = some ac ∨ ac = q) : Inv t := by
  refine ⟨?_, ?_, ?_⟩
  · intro q' hq'
    have hcov : (live s.pkts q' ∨ q' = q) ∨ s.dropPending q' := by
      obtain hs | rfl := hstopped q' hq'
      · exact (h.covered q' hs).imp Or.inl id
      · exact .inl (.inr rfl)
    rw [hpkts]
    exact hcov.imp (live_relocate hb) (hdrop q')
  · intro ac
    have hc := h.count ac
    have ha := haccnt ac
    rw [onHw_erase hp] at hc
    rw [hpkts, onHw_cons]
    omega
  · intro hws p hmem ac hac
    rw [hspec] at hws
    rw [hpkts] at hmem
    obtain rfl | hmem := List.mem_cons.1 hmem
    · obtain hold | rfl := hmatched hws ac hac
      · exact h.matched hws ⟨q, a⟩ hp ac hold
      · rfl
    · exact h.matched hws p (List.mem_of_mem_erase hmem) ac hac

theorem Inv.release (h : Inv s) (hp : ⟨q, a⟩ ∈ s.pkts) (hpkts : t.pkts = s.pkts.erase ⟨q, a⟩)
    (ha : ∀ ac, a ≠ .queued ac) (hstopped : t.stopped = s.stopped) (hwake : t.wake = s.wake)
    (howing : t.owing = s.owing) (haccnt : t.accnt = s.accnt) (hspec : t.wifiSpec = s.wifiSpec)
    (hcov : s.stopped q → live (s.pkts.erase ⟨q, a⟩) q ∨ s.dropPending q) : Inv t := by
  refine ⟨?_, ?_, ?_⟩
  · intro q' hq'
    rw [hstopped] at hq'
    rw [hpkts, State.dropPending, hwake, howing]
    by_cases hq : q' = q
    · subst hq
      exact hcov hq'
    · exact (h.covered q' hq').imp (fun hl => live_erase_of_ne hl hq) id
  · intro ac
    have hc := h.count ac
    rw [onHw_erase hp, if_neg (ha ac)] at hc
    rw [haccnt, hpkts, howing]
    exact hc
  · intro hws p hmem ac hac
    rw [hspec] at hws
    rw [hpkts] at hmem
    exact h.matched hws p (List.mem_of_mem_erase hmem) ac hac

theorem Inv.onPkt (h : Inv s) (ht : ⟨q, a⟩ ∈ s.pkts → Inv t) : Inv (s.onPkt q a t) := by
  unfold State.onPkt
  split
  · rename_i hp
    exact ht hp
  · exact h

omit t in
theorem Inv.relocateOff (h : Inv s) (hp : ⟨q, a⟩ ∈ s.pkts) (ha : ∀ ac, a ≠ .queued ac)
    (hb : b ≠ .done) (hbhw : b.hw = none) (n : ℕ) :
    Inv { s.relocate q a b with freeXmitframeCnt := n } := by
  have hbq : ∀ ac, b ≠ .queued ac := by
    rintro ac rfl
    exact nomatch hbhw
  refine h.relocate hp rfl hb (fun _ => .inl) (fun _ hd => hd) ?_ rfl ?_
  · intro ac
    rw [if_neg (ha ac), if_neg (hbq ac)]
    rfl
  · intro _ ac hac
    rw [hbhw] at hac
    exact nomatch hac

omit t in
/-- With `wifi_spec`, the frames of a hardware queue belong to packets that wake it. -/
theorem exists_queued (h : Inv s) (hws : s.wifiSpec = true) (hq : 0 < s.accnt q)
    (howing : ¬ 0 < s.owing q) : ∃ p ∈ s.pkts, p.queue = q ∧ p.place = .queued q := by
  have hcount := h.count q
  have hpos : 0 < onHw s.pkts q := by omega
  obtain ⟨p, hp, hpl⟩ := List.countP_pos_iff.1 hpos
  rw [decide_eq_true_eq] at hpl
  exact ⟨p, hp, (h.matched hws p hp q (by rw [hpl]; rfl)).symm, hpl⟩

omit t in
theorem accnt_of_not_needWake (h : ¬ rtwOsNeedWakeQueue s q = true) :
    s.wifiSpec = true ∧ 0 < s.accnt q := by
  unfold rtwOsNeedWakeQueue at h
  split at h
  · rename_i hws
    rw [decide_eq_true_eq] at h
    have hthr : (0 : ℤ) < wmmXmitThreshold := by decide
    exact ⟨hws, by omega⟩
  · exact absurd rfl h

omit t in
theorem live_of_accnt (h : Inv s) (hws : s.wifiSpec = true) (hq : 0 < s.accnt q)
    (ha : ∀ ac, a ≠ .queued ac) : live (s.pkts.erase ⟨q, a⟩) q ∨ s.dropPending q := by
  by_cases howing : 0 < s.owing q
  · exact .inr (.inl howing)
  · obtain ⟨p, hp, hpq, hpl⟩ := exists_queued h hws hq howing
    refine .inl ⟨p, ?_, hpq, by rw [hpl]; nofun⟩
    rw [List.mem_erase_of_ne]
    · exact hp
    · rintro rfl
      exact ha q hpl

omit t in
theorem Inv.test (h : Inv s) (hp : ⟨q, .completing⟩ ∈ s.pkts) :
    Inv (s.relocate q .completing (if rtwOsNeedWakeQueue s q then .waking else .done)) := by
  by_cases hneed : rtwOsNeedWakeQueue s q = true
  · rw [if_pos hneed]
    exact h.relocateOff (b := .waking) hp nofun nofun rfl s.freeXmitframeCnt
  · rw [if_neg hneed]
    obtain ⟨hws, hpos⟩ := accnt_of_not_needWake hneed
    refine ⟨?_, ?_, ?_⟩
    · intro q' hq'
      have hrest : live (s.pkts.erase ⟨q, .completing⟩) q' ∨ s.dropPending q' := by
        by_cases hq : q' = q
        · subst hq
          exact live_of_accnt h hws hpos nofun
        · exact (h.covered q' hq').imp (fun hl => live_erase_of_ne hl hq) id
      refine hrest.imp ?_ id
      rintro ⟨p, hmem, hpq, hpl⟩
      exact ⟨p, List.mem_cons_of_mem _ hmem, hpq, hpl⟩
    · intro ac
      have hc := h.count ac
      rw [onHw_erase hp, if_neg (by nofun)] at hc
      change s.accnt ac = onHw (⟨q, .done⟩ :: s.pkts.erase _) ac + s.owing ac
      rw [onHw_cons, if_neg (by nofun)]
      exact hc
    · intro hws p hmem ac hac
      obtain rfl | hmem := List.mem_cons.1 hmem
      · exact nomatch hac
      · exact h.matched hws p (List.mem_of_mem_erase hmem) ac hac

omit t in
theorem Inv.wake (h : Inv s) (hp : ⟨q, .waking⟩ ∈ s.pkts) :
    Inv { s.relocate q .waking .done with stopped := Function.update s.stopped q false } := by
  refine ⟨?_, ?_, ?_⟩
  · intro q' hq'
    change Function.update s.stopped q false q' = true at hq'
    by_cases hq : q' = q
    · rw [hq, Function.update_self] at hq'
      exact nomatch hq'
    · rw [Function.update_of_ne hq] at hq'
      refine (h.covered q' hq').imp ?_ id
      intro hl
      obtain ⟨p, hmem, hpq, hpl⟩ := live_erase_of_ne (a := .waking) hl hq
      exact ⟨p, List.mem_cons_of_mem _ hmem, hpq, hpl⟩
  · intro ac
    have hc := h.count ac
    rw [onHw_erase hp, if_neg (by nofun)] at hc
    change s.accnt ac = onHw (⟨q, .done⟩ :: s.pkts.erase _) ac + s.owing ac
    rw [onHw_cons, if_neg (by nofun)]
    exact hc
  · intro hws p hmem ac hac
    obtain rfl | hmem := List.mem_cons.1 hmem
    · exact nomatch hac
    · exact h.matched hws p (List.mem_of_mem_erase hmem) ac hac

end Moves

/-- With `wifi_spec` a frame goes to the hardware queue its packet is mapped to;
`rtw_mlcst2unicst` frees a packet without a wake only while its queue runs, or has
another packet or a wake of `rtw_free_stainfo` to come. -/
def Clean (s : State) : Event → Prop
  | .accept q _ (.sleep ac) => s.wifiSpec → ac = q
  | .accept q _ (.queue ac) => s.wifiSpec → ac = q
  | .mcastFree q => s.stopped q → live (s.pkts.erase ⟨q, .mcast⟩) q ∨ s.dropPending q
  | .xmitFailed q true => s.stopped q → live (s.pkts.erase ⟨q, .xmit true⟩) q ∨ s.dropPending q
  | .attribFailed q true =>
    s.stopped q → live (s.pkts.erase ⟨q, .framed true⟩) q ∨ s.dropPending q
  | _ => True

instance (s : State) (e : Event) : Decidable (Clean s e) := by
  unfold Clean
  split <;> infer_instance

section Steps

variable {s : State}

theorem Inv.giveBack (h : Inv s) {q : Ac} {a : Place} {copied : Bool} (n : ℕ)
    (hp : ⟨q, a⟩ ∈ s.pkts) (ha : ∀ ac, a ≠ .queued ac)
    (hc : copied = true → s.stopped q → live (s.pkts.erase ⟨q, a⟩) q ∨ s.dropPending q) :
    Inv { s.giveBack q a copied with freeXmitframeCnt := n } := by
  cases copied with
  | true => exact h.release hp rfl ha rfl rfl rfl rfl rfl (hc rfl)
  | false => exact h.relocateOff (b := .completing) hp ha nofun rfl n

theorem Inv.toQueue (h : Inv s) {q ac : Ac} {a : Place} (hp : ⟨q, a⟩ ∈ s.pkts)
    (ha : ∀ ac, a ≠ .queued ac) (hm : s.wifiSpec → a.hw = some ac ∨ ac = q) :
    Inv ((s.relocate q a (.queued ac)).account ac 1) := by
  refine h.relocate hp rfl nofun (fun _ => .inl) (fun _ hd => hd) ?_ rfl ?_
  · intro ac'
    rw [if_neg (ha ac')]
    change Function.update s.accnt ac (s.accnt ac + 1) ac' - s.owing ac' + (0 : ℕ) = _
    by_cases hac : ac' = ac
    · subst hac
      rw [Function.update_self, if_pos rfl]
      omega
    · rw [Function.update_of_ne hac, if_neg (fun he => hac (Place.queued.inj he).symm)]
  · intro hws ac' hac'
    obtain rfl := Option.some.inj hac'
    exact hm hws

theorem Inv.offQueue (h : Inv s) {q ac : Ac} {b : Place} (hp : ⟨q, .queued ac⟩ ∈ s.pkts)
    (hb : b ≠ .done) (hbq : ∀ ac, b ≠ .queued ac)
    (hm : ∀ ac', b.hw = some ac' → ac' = ac) :
    Inv ((s.relocate q (.queued ac) b).account ac (-1)) := by
  refine h.relocate hp rfl hb (fun _ => .inl) (fun _ hd => hd) ?_ rfl ?_
  · intro ac'
    rw [if_neg (hbq ac')]
    change Function.update s.accnt ac (s.accnt ac + -1) ac' - s.owing ac' + _ = _
    by_cases hac : ac' = ac
    · subst hac
      rw [Function.update_self, if_pos rfl]
      omega
    · rw [Function.update_of_ne hac, if_neg (fun he => hac (Place.queued.inj he).symm)]
  · intro _ ac' hac'
    rw [hm ac' hac']
    exact .inl rfl

theorem Inv.accept (h : Inv s) {q : Ac} {copied : Bool} (a : Accepted)
    (hc : Clean s (.accept q copied a)) (hp : ⟨q, .framed copied⟩ ∈ s.pkts) :
    Inv (s.accept q (.framed copied) a) := by
  cases a with
  | sleep ac =>
    refine h.relocate (b := .sleeping ac) hp rfl nofun (fun _ => .inl) (fun _ hd => hd) ?_ rfl ?_
    · intro ac'
      rw [if_neg (by nofun), if_neg (by nofun)]
      rfl
    · intro hws ac' hac'
      obtain rfl := Option.some.inj hac'
      exact .inr (hc hws)
  | queue ac => exact h.toQueue hp nofun (fun hws => .inr (hc hws))
  | dropped => exact h.relocateOff (b := .completing) hp nofun nofun rfl _

theorem Inv.dropQueued (h : Inv s) {q ac : Ac} (hp : ⟨q, .queued ac⟩ ∈ s.pkts) :
    Inv { (s.relocate q (.queued ac) .completing).freeXmitframe with
      owing := Function.update s.owing ac (s.owing ac + 1) } := by
  refine h.relocate (b := .completing) hp rfl nofun (fun _ => .inl) ?_ ?_ rfl (fun _ _ => nofun)
  · rintro q' (howing | hwake)
    · left
      change 0 < Function.update s.owing ac (s.owing ac + 1) q'
      by_cases hq : q' = ac
      · subst hq
        rw [Function.update_self]
        omega
      · rwa [Function.update_of_ne hq]
    · exact .inr hwake
  · intro ac'
    rw [if_neg (show ¬ Place.completing = .queued ac' by nofun)]
    change s.accnt ac' - (Function.update s.owing ac (s.owing ac + 1) ac' : ℕ) + _ = _
    by_cases hac : ac' = ac
    · subst hac
      rw [Function.update_self, if_pos rfl]
      omega
    · rw [Function.update_of_ne hac, if_neg (fun he => hac (Place.queued.inj he).symm)]

theorem Inv.dropAccount (h : Inv s) (ac : Ac) :
    Inv { s.account ac (-(s.owing ac : ℤ)) with
      owing := Function.update s.owing ac 0
      wake := Function.update s.wake ac .testDue } := by
  refine ⟨?_, ?_, h.matched⟩
  · intro q' hq'
    refine (h.covered q' hq').imp id ?_
    intro hd
    change 0 < Function.update s.owing ac 0 q' ∨ Function.update s.wake ac .testDue q' ≠ .none
    by_cases hq : q' = ac
    · subst hq
      rw [Function.update_self, Function.update_self]
      exact .inr nofun
    · rw [Function.update_of_ne hq, Function.update_of_ne hq]
      exact hd
  · intro ac'
    have hc := h.count ac'
    change Function.update s.accnt ac (s.accnt ac + -(s.owing ac : ℤ)) ac' =
      onHw s.pkts ac' + (Function.update s.owing ac 0 ac' : ℕ)
    by_cases hac : ac' = ac
    · subst hac
      rw [Function.update_self, Function.update_self]
      omega
    · rw [Function.update_of_ne hac, Function.update_of_ne hac]
      exact hc

theorem Inv.dropTest (h : Inv s) (ac : Ac) :
    Inv { s with
      wake := Function.update s.wake ac
        (if rtwOsNeedWakeQueue s ac then .wakeDue else .none) } := by
  refine ⟨?_, h.count, h.matched⟩
  intro q' hq'
  change live s.pkts q' ∨ 0 < s.owing q' ∨ Function.update s.wake ac _ q' ≠ .none
  by_cases hq : q' = ac
  · subst hq
    rw [Function.update_self]
    by_cases hneed : rtwOsNeedWakeQueue s q' = true
    · rw [if_pos hneed]
      exact .inr (.inr nofun)
    · obtain ⟨hws, hpos⟩ := accnt_of_not_needWake hneed
      by_cases howing : 0 < s.owing q'
      · exact .inr (.inl howing)
      · obtain ⟨p, hp, hpq, hpl⟩ := exists_queued h hws hpos howing
        exact .inl ⟨p, hp, hpq, by rw [hpl]; nofun⟩
  · rw [Function.update_of_ne hq]
    exact h.covered q' hq'

theorem Inv.dropWake (h : Inv s) (ac : Ac) :
    Inv { s with
      wake := Function.update s.wake ac .none
      stopped := Function.update s.stopped ac false } := by
  refine ⟨?_, h.count, h.matched⟩
  intro q' hq'
  change Function.update s.stopped ac false q' = true at hq'
  change live s.pkts q' ∨ 0 < s.owing q' ∨ Function.update s.wake ac .none q' ≠ .none
  by_cases hq : q' = ac
  · rw [hq, Function.update_self] at hq'
    exact nomatch hq'
  · rw [Function.update_of_ne hq] at hq' ⊢
    exact h.covered q' hq'

theorem Inv.arrive (h : Inv s) (q : Ac) {a : Place} (ha : a.hw = none) :
    Inv { s with pkts := ⟨q, a⟩ :: s.pkts } := by
  refine ⟨?_, ?_, ?_⟩
  · intro q' hq'
    refine (h.covered q' hq').imp ?_ id
    rintro ⟨p, hp, hpq, hpl⟩
    exact ⟨p, List.mem_cons_of_mem _ hp, hpq, hpl⟩
  · intro ac
    change s.accnt ac = onHw (⟨q, a⟩ :: s.pkts) ac + s.owing ac
    rw [onHw_cons, if_neg]
    · exact h.count ac
    · rintro rfl
      exact nomatch ha
  · intro hws p hp ac hac
    obtain rfl | hp := List.mem_cons.1 hp
    · change a.hw = some ac at hac
      rw [ha] at hac
      exact nomatch hac
    · exact h.matched hws p hp ac hac

end Steps

section Run

variable {s : State}

theorem inv_step (h : Inv s) {e : Event} (hc : Clean s e) : Inv (step s e) := by
  cases e with
  | arrive q => exact h.arrive q rfl
  | refuse q =>
    exact h.onPkt fun hp => h.relocateOff (b := .completing) hp nofun nofun rfl s.freeXmitframeCnt
  | check q =>
    refine h.onPkt fun hp => ?_
    split
    · exact h.relocateOff (b := .stopDue) hp nofun nofun rfl s.freeXmitframeCnt
    · exact h.relocateOff (b := .checked) hp nofun nofun rfl s.freeXmitframeCnt
  | stop q =>
    refine h.onPkt fun hp => ?_
    refine h.relocate (b := .checked) hp rfl nofun ?_ (fun _ hd => hd) (fun _ => rfl) rfl ?_
    · intro q' hq'
      change Function.update s.stopped q true q' = true at hq'
      by_cases hq : q' = q
      · exact .inr hq
      · rw [Function.update_of_ne hq] at hq'
        exact .inl hq'
    · exact fun _ _ => nofun
  | toMcast q =>
    simp only [step]
    split
    · exact h.onPkt fun hp => h.relocateOff (b := .mcast) hp nofun nofun rfl s.freeXmitframeCnt
    · exact h
  | toXmit q =>
    exact h.onPkt fun hp => h.relocateOff (b := .xmit false) hp nofun nofun rfl s.freeXmitframeCnt
  | copy q => exact h.onPkt fun _ => h.arrive q rfl
  | copyFailed q =>
    exact h.onPkt fun hp => h.relocateOff (b := .xmit false) hp nofun nofun rfl s.freeXmitframeCnt
  | mcastFree q =>
    exact h.onPkt fun hp => h.release hp rfl nofun rfl rfl rfl rfl rfl hc
  | xmitFailed q copied =>
    refine h.onPkt fun hp => ?_
    cases copied with
    | true => exact h.release hp rfl nofun rfl rfl rfl rfl rfl hc
    | false => exact h.relocateOff (b := .completing) hp nofun nofun rfl s.freeXmitframeCnt
  | allocFrame q copied =>
    simp only [step]
    split
    · exact h.onPkt fun hp => h.relocateOff (b := .framed copied) hp nofun nofun rfl _
    · exact h
  | attribFailed q copied =>
    refine h.onPkt fun hp => h.giveBack _ hp nofun ?_
    rintro rfl
    exact hc
  | accept q copied a => exact h.onPkt fun hp => h.accept a hc hp
  | toSleep q ac =>
    refine h.onPkt fun hp => h.offQueue hp nofun nofun ?_
    intro ac' hac
    exact (Option.some.inj hac).symm
  | wakeup q ac => exact h.onPkt fun hp => h.toQueue hp nofun (fun _ => .inl rfl)
  | dequeue q ac => exact h.onPkt fun hp => h.offQueue hp nofun nofun nofun
  | freeFrame q =>
    exact h.onPkt fun hp => h.relocateOff (b := .completing) hp nofun nofun rfl _
  | dropSleeping q ac =>
    exact h.onPkt fun hp => h.relocateOff (b := .completing) hp nofun nofun rfl _
  | dropQueued q ac => exact h.onPkt fun hp => h.dropQueued hp
  | dropAccount ac =>
    simp only [step]
    split
    · exact h.dropAccount ac
    · exact h
  | dropTest ac =>
    simp only [step]
    split
    · exact h.dropTest ac
    · exact h
  | dropWake ac =>
    simp only [step]
    split
    · exact h.dropWake ac
    · exact h
  | test q => exact h.onPkt fun hp => h.test hp
  | wake q => exact h.onPkt fun hp => h.wake hp
  | skbFree q =>
    refine h.onPkt fun hp => h.release hp rfl nofun rfl rfl rfl rfl rfl ?_
    intro hq
    refine (h.covered q hq).imp ?_ id
    rintro ⟨p, hmem, hpq, hpl⟩
    refine ⟨p, ?_, hpq, hpl⟩
    rw [List.mem_erase_of_ne]
    · exact hmem
    · rintro rfl
      exact hpl rfl

end Run

/-- Outside `rtw_free_stainfo`, a stopped queue has a packet in the driver. -/
def NotStranded (s : State) : Prop :=
  ∀ q, s.stopped q = true → ¬ s.dropPending q → ∃ p ∈ s.pkts, p.queue = q

instance (s : State) : Decidable (NotStranded s) := inferInstanceAs (Decidable (∀ _, _))

def boot (wifiSpec : Bool) : State := { wifiSpec := wifiSpec }

theorem inv_boot (wifiSpec : Bool) : Inv (boot wifiSpec) := ⟨nofun, fun _ => rfl, nofun⟩

theorem osQueue_run {wifiSpec : Bool} {es : List Event}
    (hes : EventRun.Along step Clean (boot wifiSpec) es) :
    NotStranded (EventRun.run step (boot wifiSpec) es) := by
  have hinv : Inv (EventRun.run step (boot wifiSpec) es) :=
    EventRun.run_spec Clean Inv (fun _ _ h hc => inv_step h hc) (inv_boot wifiSpec) hes
  intro q hq hdrop
  obtain ⟨p, hp, hpq, -⟩ := (hinv.covered q hq).resolve_right hdrop
  exact ⟨p, hp, hpq⟩

def sent (q ac : Ac) : List Event :=
  [.arrive q, .check q, .toXmit q, .allocFrame q false, .accept q false (.queue ac)]

def completed (q ac : Ac) : List Event :=
  [.dequeue q ac, .freeFrame q, .test q, .wake q, .skbFree q]

/-- The frames run short, a multicast packet stops its queue, other packets complete,
and `rtw_mlcst2unicst` finds no station. -/
def mcastStop : List Event :=
  (List.replicate 252 (sent 0 2)).flatten ++ ([.arrive 1, .check 1, .stop 1] : List Event) ++
    (List.replicate 61 (completed 0 2)).flatten ++ ([.toMcast 1, .mcastFree 1] : List Event)

/-- Packets of queue 0 fill hardware queue 2, a packet of queue 2 overtakes them. -/
def crossedStop : List Event :=
  (List.replicate 103 (sent 0 2)).flatten ++
    ([.arrive 2, .check 2, .stop 2, .toXmit 2, .allocFrame 2 false,
      .accept 2 false (.queue 2)] : List Event) ++ completed 2 2

set_option maxRecDepth 4000 in
theorem stranded :
    ¬ NotStranded (EventRun.run step (boot false) mcastStop) ∧
      ¬ NotStranded (EventRun.run step (boot true) crossedStop) := by
  decide +kernel

def matchedStop : List Event :=
  (List.replicate 103 (sent 2 2)).flatten ++
    ([.arrive 2, .check 2, .stop 2, .toXmit 2, .allocFrame 2 false,
      .accept 2 false (.queue 2)] : List Event) ++ completed 2 2

theorem osQueue_run_matched :
    (EventRun.run step (boot true) matchedStop).stopped 2 = true ∧
      NotStranded (EventRun.run step (boot true) matchedStop) :=
  ⟨by decide +kernel, osQueue_run (by decide +kernel)⟩

end Rtl8189.OsQueue
