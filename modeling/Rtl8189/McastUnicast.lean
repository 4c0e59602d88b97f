import Mathlib.Data.List.Nodup
import Rtl8189.EventRun
import Rtl8189.RecvFrame

/-!
# Multicast frames as unicast copies

An access point sends a multicast frame of the host to its stations one by one. The stations are
taken from the association list by their slots, under its lock, and visited without it. Where a
copy of the frame cannot be made, the frame itself goes out to all.
-/
namespace Rtl8189.McastUnicast

open EventRun

/-- The slots of the stations, with those that are allocated. An associated station is allocated,
no two allocated ones have one address, and it is the address of one station. -/
structure StaPriv where
  addr : ℕ → MacAddr
  used : List ℕ
  /-- `_FW_LINKED` -/
  linked : ℕ → Bool
  asocList : List ℕ
  nodup : asocList.Nodup
  inUse : ∀ k ∈ asocList, k ∈ used
  distinct : ∀ j ∈ used, ∀ k ∈ used, addr j = addr k → j = k
  single : ∀ k ∈ asocList, addr k ≠ Vector.replicate 6 0 ∧ addr k ≠ Vector.replicate 6 0xff

namespace StaPriv

variable (b : StaPriv)

def leave (k : ℕ) : StaPriv where
  addr := b.addr
  used := b.used.filter (· ≠ k)
  linked := Function.update b.linked k false
  asocList := b.asocList.erase k
  nodup := b.nodup.erase k
  inUse := by
    intro j hj
    obtain ⟨hne, hmem⟩ := (b.nodup.mem_erase_iff).mp hj
    exact List.mem_filter.mpr ⟨b.inUse j hmem, decide_eq_true hne⟩
  distinct := fun i hi j hj => b.distinct i (List.mem_filter.mp hi).1 j (List.mem_filter.mp hj).1
  single := fun j hj => b.single j (List.mem_of_mem_erase hj)

def Free (k : ℕ) (a : MacAddr) : Prop :=
  k ∉ b.used ∧ (∀ j ∈ b.used, b.addr j ≠ a) ∧ a ≠ Vector.replicate 6 0 ∧
    a ≠ Vector.replicate 6 0xff

instance (k : ℕ) (a : MacAddr) : Decidable (b.Free k a) :=
  inferInstanceAs (Decidable (_ ∧ (∀ j ∈ b.used, b.addr j ≠ a) ∧ _ ∧ _))

/-- A station joins in a free slot. It is linked later. -/
def join (k : ℕ) (a : MacAddr) (h : b.Free k a) : StaPriv where
  addr := Function.update b.addr k a
  used := k :: b.used
  linked := Function.update b.linked k false
  asocList := b.asocList ++ [k]
  nodup := by
    refine List.nodup_append.mpr ⟨b.nodup, List.nodup_singleton k, fun i hi j hj hij => ?_⟩
    rw [List.mem_singleton.mp hj] at hij
    exact h.1 (hij ▸ b.inUse i hi)
  inUse := by
    intro j hj
    rcases List.mem_append.mp hj with hold | hnew
    · exact List.mem_cons_of_mem k (b.inUse j hold)
    · exact List.mem_singleton.mp hnew ▸ List.mem_cons_self
  distinct := by
    have hold : ∀ i ∈ b.used, Function.update b.addr k a i = b.addr i := by
      intro i hi
      have hik : i ≠ k := fun heq => h.1 (heq ▸ hi)
      exact Function.update_of_ne hik a b.addr
    intro i hi j hj haddr
    rcases List.mem_cons.mp hi with hik | hi' <;> rcases List.mem_cons.mp hj with hjk | hj'
    · rw [hik, hjk]
    · rw [hik, Function.update_self, hold j hj'] at haddr
      exact absurd haddr.symm (h.2.1 j hj')
    · rw [hjk, Function.update_self, hold i hi'] at haddr
      exact absurd haddr (h.2.1 i hi')
    · rw [hold i hi', hold j hj'] at haddr
      exact b.distinct i hi' j hj' haddr
  single := by
    intro j hj
    by_cases hjk : j = k
    · rw [hjk, Function.update_self]
      exact h.2.2
    · rw [Function.update_of_ne hjk]
      exact b.single j ((List.mem_append.mp hj).resolve_right fun h => hjk (List.mem_singleton.mp h))

/-- `rtw_stassoc_event_callback` -/
def link (k : ℕ) : StaPriv := { b with linked := Function.update b.linked k (decide (k ∈ b.used)) }

end StaPriv

inductive Receiver where
  | station (a : MacAddr)
  | all
  deriving DecidableEq

inductive Fate where
  | freed
  | owned
  deriving DecidableEq

inductive Phase where
  | entered
  | visiting (rest : List ℕ)
  | copying (k : ℕ) (rest : List ℕ)
  | multicast
  | done
  deriving DecidableEq

def Phase.remaining : Phase → List ℕ
  | .visiting rest => rest
  | .copying k rest => k :: rest
  | _ => []

/-- The handling of a frame. The frame is number 0, the copies are numbered from 1 on. -/
structure Xmit where
  sta : StaPriv
  phase : Phase
  sent : List Receiver
  copies : ℕ
  fates : List (ℕ × Fate)
  /-- whether each station that was touched was allocated then -/
  touched : List Bool

/-- What others do, and what the handler does next. A handler that enters finds the interface up
or not, and the frame to be converted or not. -/
inductive Event where
  | leave (k : ℕ)
  | join (k : ℕ) (a : MacAddr)
  | link (k : ℕ)
  | enter (up converts : Bool)
  | proceed (copied sent : Bool)
  deriving DecidableEq

section Frame

variable (src : MacAddr)

def Wanted (s : Xmit) (k : ℕ) : Prop :=
  s.sta.linked k = true ∧ s.sta.addr k ≠ src ∧ s.sta.addr k ≠ Vector.replicate 6 0 ∧
    s.sta.addr k ≠ Vector.replicate 6 0xff

instance (s : Xmit) (k : ℕ) : Decidable (Wanted src s k) :=
  inferInstanceAs (Decidable (_ ∧ _ ∧ _ ∧ _))

def Xmit.touch (s : Xmit) (k : ℕ) : Xmit := { s with touched := s.touched ++ [decide (k ∈ s.sta.used)] }

/-- The result of `rtw_xmit`: a frame that is not accepted is freed by the caller. -/
def Xmit.transmit (s : Xmit) (skb : ℕ) (r : Receiver) (accepted : Bool) : Xmit :=
  { s with
    sent := s.sent ++ if accepted then [r] else []
    fates := s.fates ++ [(skb, if accepted then .owned else .freed)] }

def Xmit.free (s : Xmit) (skb : ℕ) : Xmit := { s with fates := s.fates ++ [(skb, .freed)] }

def Xmit.goto (s : Xmit) (phase : Phase) : Xmit := { s with phase := phase }

/-- The visit of a station that is wanted. Without a copy, the frame is sent as it is. -/
def Xmit.serve (s : Xmit) (k : ℕ) (rest : List ℕ) (copied sent : Bool) : Xmit :=
  if copied then
    (({ s with copies := s.copies + 1 }.touch k).transmit (s.copies + 1)
      (.station (s.sta.addr k)) sent).goto (.visiting rest)
  else s.goto .multicast

def Xmit.proceed (s : Xmit) (copied sent : Bool) : Xmit :=
  match s.phase with
  | .visiting [] => (s.free 0).goto .done
  | .visiting (k :: rest) =>
    if Wanted src s k then (s.touch k).goto (.copying k rest) else (s.touch k).goto (.visiting rest)
  | .copying k rest => s.serve k rest copied sent
  | .multicast => (s.transmit 0 .all sent).goto .done
  | _ => s

def Xmit.enter (s : Xmit) (up converts : Bool) : Xmit :=
  if s.phase = .entered then
    if up = false then (s.free 0).goto .done
    else if converts then s.goto (.visiting s.sta.asocList)
    else s.goto .multicast
  else s

def Xmit.step (s : Xmit) : Event → Xmit
  | .leave k => { s with sta := s.sta.leave k }
  | .join k a => if h : s.sta.Free k a then { s with sta := s.sta.join k a h } else s
  | .link k => { s with sta := s.sta.link k }
  | .enter up converts => s.enter up converts
  | .proceed copied sent => s.proceed src copied sent

end Frame

/-! ## Runs -/

def Xmit.start (b : StaPriv) : Xmit := ⟨b, .entered, [], 0, [], []⟩

def Phase.isCopying : Phase → Bool
  | .copying _ _ => true
  | _ => false

/-- No station leaves that is still to be visited, and no copy fails once an associated station
has been sent the frame. -/
def Kept (s : Xmit) : Event → Prop
  | .leave k => k ∉ s.phase.remaining
  | .proceed copied _ => s.phase.isCopying = true → copied = false →
      ∀ k ∈ s.sta.asocList, .station (s.sta.addr k) ∉ s.sent
  | _ => True

instance (s : Xmit) (e : Event) : Decidable (Kept s e) := by
  cases e <;> unfold Kept <;> infer_instance

def Event.Good : Event → Prop
  | .enter up _ => up = true
  | .proceed copied sent => copied = true ∧ sent = true
  | _ => True

instance (e : Event) : Decidable e.Good := by
  cases e <;> unfold Event.Good <;> infer_instance

def Xmit.served (s : Xmit) (a : MacAddr) : ℕ :=
  s.sent.count (.station a) + s.sent.count .all

def Phase.ended : Phase → List ℕ
  | .done => [0]
  | _ => []

/-- The walk over the slots, and what has become of the frames. -/
structure Ready (s : Xmit) : Prop where
  sub : ∀ k ∈ s.phase.remaining, k ∈ s.sta.asocList
  nodup : s.phase.remaining.Nodup
  touched : ∀ t ∈ s.touched, t = true
  fates : s.fates.map Prod.fst = List.range' 1 s.copies ++ s.phase.ended

section Step

variable {src : MacAddr} {s : Xmit} {e : Event}

theorem Ready.leave (h : Ready s) {k : ℕ} (hk : k ∉ s.phase.remaining) :
    Ready (s.step src (.leave k)) where
  sub := by
    intro j hj
    have hne : j ≠ k := fun heq => hk (heq ▸ hj)
    exact (s.sta.nodup.mem_erase_iff).mpr ⟨hne, h.sub j hj⟩
  nodup := h.nodup
  touched := h.touched
  fates := h.fates

theorem Ready.join (h : Ready s) (k : ℕ) (a : MacAddr) : Ready (s.step src (.join k a)) := by
  rw [Xmit.step]
  split
  · exact { h with sub := fun j hj => List.mem_append_left _ (h.sub j hj) }
  · exact h

theorem Ready.fates_open (h : Ready s) (hphase : s.phase ≠ .done) :
    s.fates.map Prod.fst = List.range' 1 s.copies := by
  have hfates := h.fates
  cases hp : s.phase with
  | done => exact absurd hp hphase
  | entered => exact (hp ▸ hfates).trans (List.append_nil _)
  | visiting rest => exact (hp ▸ hfates).trans (List.append_nil _)
  | copying k rest => exact (hp ▸ hfates).trans (List.append_nil _)
  | multicast => exact (hp ▸ hfates).trans (List.append_nil _)

theorem Ready.fates_copy (h : Ready s) (hphase : s.phase ≠ .done) (f : Fate) :
    (s.fates ++ [(s.copies + 1, f)]).map Prod.fst = List.range' 1 (s.copies + 1) := by
  rw [List.map_append, h.fates_open hphase, List.range'_1_concat, Nat.add_comm 1]
  rfl

theorem Ready.fates_end (h : Ready s) (hphase : s.phase ≠ .done) (f : Fate) :
    (s.fates ++ [(0, f)]).map Prod.fst = List.range' 1 s.copies ++ [0] := by
  rw [List.map_append, h.fates_open hphase]
  rfl

theorem Ready.enter (h : Ready s) (up converts : Bool) : Ready (s.enter up converts) := by
  rw [Xmit.enter]
  split
  · next hphase =>
    have hopen : s.phase ≠ .done := by
      rw [hphase]
      exact nofun
    have hfates := (h.fates_open hopen).trans (List.append_nil _).symm
    split
    · exact ⟨nofun, List.nodup_nil, h.touched, h.fates_end hopen _⟩
    · split
      · exact ⟨fun _ hk => hk, s.sta.nodup, h.touched, hfates⟩
      · exact ⟨nofun, List.nodup_nil, h.touched, hfates⟩
  · exact h

theorem Ready.touch (h : Ready s) {k : ℕ} (hk : k ∈ s.sta.asocList) :
    ∀ t ∈ (s.touch k).touched, t = true := by
  intro t ht
  rcases List.mem_append.mp ht with hold | hnew
  · exact h.touched t hold
  · rw [List.mem_singleton.mp hnew]
    exact decide_eq_true (s.sta.inUse k hk)

theorem Ready.proceed (h : Ready s) (copied sent : Bool) : Ready (s.proceed src copied sent) := by
  rw [Xmit.proceed]
  have hsub := h.sub
  have hnodup := h.nodup
  have hopen := h.fates_open
  have hcopy := h.fates_copy
  have hend := h.fates_end
  cases hphase : s.phase with
  | entered => exact h
  | done => exact h
  | visiting rest =>
    rw [hphase] at hsub hnodup hopen hend
    have hfates := (hopen nofun).trans (List.append_nil _).symm
    cases rest with
    | nil => exact ⟨nofun, List.nodup_nil, h.touched, hend nofun _⟩
    | cons k rest =>
      have htouch := h.touch (hsub k List.mem_cons_self)
      dsimp only
      split
      · exact ⟨hsub, hnodup, htouch, hfates⟩
      · exact ⟨fun j hj => hsub j (List.mem_cons_of_mem k hj), (List.nodup_cons.mp hnodup).2, htouch,
          hfates⟩
  | copying k rest =>
    rw [hphase] at hsub hnodup hopen hcopy
    dsimp only
    rw [Xmit.serve]
    split
    · exact ⟨fun j hj => hsub j (List.mem_cons_of_mem k hj), (List.nodup_cons.mp hnodup).2,
        h.touch (hsub k List.mem_cons_self), (hcopy nofun _).trans (List.append_nil _).symm⟩
    · exact ⟨nofun, List.nodup_nil, h.touched, (hopen nofun).trans (List.append_nil _).symm⟩
  | multicast =>
    rw [hphase] at hend
    exact ⟨nofun, List.nodup_nil, h.touched, hend nofun _⟩

theorem Ready.step (h : Ready s) (he : Kept s e) : Ready (s.step src e) := by
  cases e with
  | leave k => exact h.leave he
  | join k a => exact h.join k a
  | link k => exact ⟨h.sub, h.nodup, h.touched, h.fates⟩
  | enter up converts => exact h.enter up converts
  | proceed copied sent => exact h.proceed copied sent

end Step

/-! ## A station that stays -/

section Station

variable {src : MacAddr} {s : Xmit} {e : Event} {j : ℕ} {a : MacAddr}

theorem enter_sta (s : Xmit) (up converts : Bool) : (s.enter up converts).sta = s.sta := by
  rw [Xmit.enter]
  split_ifs <;> rfl

theorem proceed_sta (s : Xmit) (copied sent : Bool) : (s.proceed src copied sent).sta = s.sta := by
  rw [Xmit.proceed]
  cases s.phase with
  | entered => rfl
  | done => rfl
  | multicast => rfl
  | visiting rest =>
    cases rest with
    | nil => rfl
    | cons k rest =>
      dsimp only
      split <;> rfl
  | copying k rest =>
    dsimp only
    rw [Xmit.serve]
    split <;> rfl

structure Stays (j : ℕ) (a : MacAddr) (s : Xmit) : Prop where
  list : j ∈ s.sta.asocList
  addr : s.sta.addr j = a

theorem Stays.step (h : Stays j a s) (he : e ≠ .leave j) : Stays j a (s.step src e) := by
  cases e with
  | leave k =>
    have hne : j ≠ k := fun hjk => he (congrArg Event.leave hjk.symm)
    exact ⟨(s.sta.nodup.mem_erase_iff).mpr ⟨hne, h.list⟩, h.addr⟩
  | join k b =>
    rw [Xmit.step]
    split
    · next hfree =>
      have hne : j ≠ k := fun hjk => hfree.1 (hjk ▸ s.sta.inUse j h.list)
      exact ⟨List.mem_append_left _ h.list, (Function.update_of_ne hne _ _).trans h.addr⟩
    · exact h
  | link k => exact ⟨h.list, h.addr⟩
  | enter up converts =>
    rw [Xmit.step]
    exact ⟨(enter_sta s up converts).symm ▸ h.list, (enter_sta s up converts).symm ▸ h.addr⟩
  | proceed copied sent =>
    rw [Xmit.step]
    exact ⟨(proceed_sta s copied sent).symm ▸ h.list, (proceed_sta s copied sent).symm ▸ h.addr⟩

theorem linked_step (h : Stays j a s) (hlinked : s.sta.linked j = true) (he : e ≠ .leave j) :
    (s.step src e).sta.linked j = true := by
  cases e with
  | leave k =>
    have hne : j ≠ k := fun hjk => he (congrArg Event.leave hjk.symm)
    exact (Function.update_of_ne hne _ _).trans hlinked
  | join k b =>
    rw [Xmit.step]
    split
    · next hfree =>
      have hne : j ≠ k := fun hjk => hfree.1 (hjk ▸ s.sta.inUse j h.list)
      exact (Function.update_of_ne hne _ _).trans hlinked
    · exact hlinked
  | link k =>
    by_cases hjk : j = k
    · have huse : k ∈ s.sta.used := hjk ▸ s.sta.inUse j h.list
      rw [hjk]
      exact (Function.update_self ..).trans (decide_eq_true huse)
    · exact (Function.update_of_ne hjk _ _).trans hlinked
  | enter up converts =>
    rw [Xmit.step, enter_sta]
    exact hlinked
  | proceed copied sent =>
    rw [Xmit.step, proceed_sta]
    exact hlinked

theorem count_sent_other (xs : List Receiver) (accepted : Bool) {r x : Receiver} (h : r ≠ x) :
    (xs ++ if accepted then [r] else []).count x = xs.count x := by
  cases accepted with
  | false => rw [if_neg Bool.false_ne_true, List.append_nil]
  | true => rw [if_pos rfl, List.count_append, List.count_singleton, if_neg (by simpa using h)]; rfl

theorem count_sent_same (xs : List Receiver) (accepted : Bool) (x : Receiver) :
    (xs ++ if accepted then [x] else []).count x = xs.count x + if accepted then 1 else 0 := by
  cases accepted with
  | false =>
    rw [if_neg Bool.false_ne_true, List.append_nil]
    rfl
  | true => rw [if_pos rfl, List.count_append, List.count_singleton_self, if_pos rfl]

/-- What the station has been sent, as far as the handling has come. -/
structure AtMost (j : ℕ) (a : MacAddr) (s : Xmit) : Prop where
  alone : s.phase ≠ .done → s.sent.count .all = 0
  pending : j ∈ s.phase.remaining ∨ s.phase = .entered ∨ s.phase = .multicast →
    s.sent.count (.station a) = 0
  once : s.served a ≤ 1

theorem AtMost.keep {s' : Xmit} (h : AtMost j a s) (hsent : s'.sent = s.sent)
    (hphase : s'.phase = s.phase) : AtMost j a s' := by
  obtain ⟨halone, hpending, honce⟩ := h
  rw [← hphase] at halone hpending
  rw [Xmit.served, ← hsent] at honce
  rw [← hsent] at halone hpending
  exact ⟨halone, hpending, honce⟩

theorem AtMost.enter (h : AtMost j a s) (up converts : Bool) :
    AtMost j a (s.enter up converts) := by
  rw [Xmit.enter]
  split
  · next hphase =>
    have halone := h.alone (by rw [hphase]; exact nofun)
    have hpending := h.pending (.inr (.inl hphase))
    split
    · exact ⟨fun hd => absurd rfl hd, fun _ => hpending, h.once⟩
    · split
      · exact ⟨fun _ => halone, fun _ => hpending, h.once⟩
      · exact ⟨fun _ => halone, fun _ => hpending, h.once⟩
  · exact h

theorem AtMost.serve (hr : Ready s) (hj : Stays j a s) (h : AtMost j a s) {k : ℕ} {rest : List ℕ}
    (hphase : s.phase = .copying k rest) {copied sent : Bool} (he : Kept s (.proceed copied sent)) :
    AtMost j a (s.serve k rest copied sent) := by
  have halone := h.alone (by rw [hphase]; exact nofun)
  have hpending := h.pending
  have hnodup := hr.nodup
  have hsub := hr.sub
  have honce := h.once
  rw [Xmit.served, halone] at honce
  rw [hphase] at hpending hnodup hsub
  rw [Xmit.serve]
  cases copied with
  | true =>
    rw [if_pos rfl]
    have hall : (s.sent ++ if sent then [Receiver.station (s.sta.addr k)] else []).count
        Receiver.all = 0 :=
      (count_sent_other s.sent sent (nofun : Receiver.station _ ≠ .all)).trans halone
    have hother : j ≠ k →
        (s.sent ++ if sent then [Receiver.station (s.sta.addr k)] else []).count (.station a) =
          s.sent.count (.station a) := by
      intro hne
      refine count_sent_other s.sent sent fun haddr => hne ?_
      have huse := s.sta.inUse k (hsub k List.mem_cons_self)
      exact s.sta.distinct j (s.sta.inUse j hj.list) k huse
        (hj.addr.trans (Receiver.station.inj haddr).symm)
    refine ⟨fun _ => hall, fun hin => ?_, ?_⟩
    · have hmem : j ∈ rest := by
        rcases hin with hin | hin | hin
        · exact hin
        · exact nomatch hin
        · exact nomatch hin
      have hne : j ≠ k := fun hjk => (List.nodup_cons.mp hnodup).1 (hjk ▸ hmem)
      exact (hother hne).trans (hpending (.inl (List.mem_cons_of_mem k hmem)))
    · change List.count _ (s.sent ++ _) + List.count _ (s.sent ++ _) ≤ 1
      rw [hall]
      by_cases hjk : j = k
      · have haddr : s.sta.addr k = a := hjk ▸ hj.addr
        rw [haddr, count_sent_same, hpending (.inl (hjk ▸ List.mem_cons_self))]
        split <;> omega
      · rw [hother hjk]
        exact honce
  | false =>
    have hnone := he (by rw [hphase]; rfl) rfl j hj.list
    rw [hj.addr] at hnone
    rw [if_neg Bool.false_ne_true]
    exact ⟨fun _ => halone, fun _ => List.count_eq_zero.mpr hnone, h.once⟩

theorem AtMost.proceed (hr : Ready s) (hj : Stays j a s) (h : AtMost j a s) {copied sent : Bool}
    (he : Kept s (.proceed copied sent)) : AtMost j a (s.proceed src copied sent) := by
  rw [Xmit.proceed]
  have halone := h.alone
  have hpending := h.pending
  cases hphase : s.phase with
  | entered => exact h
  | done => exact h
  | copying k rest => exact h.serve hr hj hphase he
  | visiting rest =>
    rw [hphase] at halone hpending
    cases rest with
    | nil => exact ⟨fun hd => absurd rfl hd, nofun, h.once⟩
    | cons k rest =>
      dsimp only
      split
      · refine ⟨fun _ => halone nofun, fun hin => hpending (.inl ?_), h.once⟩
        rcases hin with hin | hin | hin
        · exact hin
        · exact nomatch hin
        · exact nomatch hin
      · refine ⟨fun _ => halone nofun, fun hin => hpending (.inl ?_), h.once⟩
        rcases hin with hin | hin | hin
        · exact List.mem_cons_of_mem k hin
        · exact nomatch hin
        · exact nomatch hin
  | multicast =>
    rw [hphase] at halone hpending
    refine ⟨fun hd => absurd rfl hd, fun hin => ?_, ?_⟩
    · rcases hin with hin | hin | hin
      · exact nomatch hin
      · exact nomatch hin
      · exact nomatch hin
    · change List.count _ (s.sent ++ _) + List.count _ (s.sent ++ _) ≤ 1
      rw [count_sent_same, count_sent_other s.sent sent (nofun : Receiver.all ≠ .station a),
        halone nofun, hpending (.inr (.inr rfl))]
      split <;> omega

theorem AtMost.step (hr : Ready s) (hj : Stays j a s) (h : AtMost j a s) (he : Kept s e) :
    AtMost j a (s.step src e) := by
  cases e with
  | leave k => exact h.keep rfl rfl
  | join k b =>
    rw [Xmit.step]
    split
    · exact h.keep rfl rfl
    · exact h
  | link k => exact h.keep rfl rfl
  | enter up converts => exact h.enter up converts
  | proceed copied sent => exact h.proceed hr hj he

def Phase.isWalk : Phase → Bool
  | .visiting _ => true
  | .copying _ _ => true
  | _ => false

structure Exactly (j : ℕ) (a : MacAddr) (s : Xmit) : Prop where
  linked : s.sta.linked j = true
  visited : s.phase.isWalk = true → j ∉ s.phase.remaining → s.sent.count (.station a) = 1
  done : s.phase = .done → s.served a = 1

theorem Exactly.keep {s' : Xmit} (h : Exactly j a s) (hlinked : s'.sta.linked j = true)
    (hsent : s'.sent = s.sent) (hphase : s'.phase = s.phase) : Exactly j a s' := by
  obtain ⟨-, hvisited, hdone⟩ := h
  rw [Xmit.served, ← hsent, ← hphase] at hdone
  rw [← hsent, ← hphase] at hvisited
  exact ⟨hlinked, hvisited, hdone⟩

theorem Exactly.enter (hj : Stays j a s) (h : Exactly j a s) {up : Bool} (hup : up = true)
    (converts : Bool) : Exactly j a (s.enter up converts) := by
  rw [Xmit.enter]
  split
  · rw [if_neg (by rw [hup]; decide)]
    split
    · exact ⟨h.linked, fun _ hnot => absurd hj.list hnot, nofun⟩
    · exact ⟨h.linked, nofun, nofun⟩
  · exact h

theorem Exactly.proceed (hsrc : a ≠ src) (hr : Ready s) (hj : Stays j a s) (hm : AtMost j a s)
    (h : Exactly j a s) : Exactly j a (s.proceed src true true) := by
  rw [Xmit.proceed]
  have halone := hm.alone
  have hpending := hm.pending
  have hvisited := h.visited
  have hsub := hr.sub
  cases hphase : s.phase with
  | entered => exact h
  | done => exact h
  | visiting rest =>
    rw [hphase] at halone hpending hvisited
    cases rest with
    | nil =>
      refine ⟨h.linked, nofun, fun _ => ?_⟩
      change List.count _ s.sent + List.count _ s.sent = 1
      rw [halone nofun, hvisited rfl List.not_mem_nil]
    | cons k rest =>
      dsimp only
      split
      · exact ⟨h.linked, fun _ => hvisited rfl, nofun⟩
      · next hunwanted =>
        refine ⟨h.linked, fun _ hnot => hvisited rfl fun hmem => ?_, nofun⟩
        rcases List.mem_cons.mp hmem with hjk | hrest
        · have hwanted : Wanted src s j :=
            ⟨h.linked, hj.addr ▸ hsrc, s.sta.single j hj.list⟩
          exact hunwanted (hjk ▸ hwanted)
        · exact hnot hrest
  | copying k rest =>
    rw [hphase] at halone hpending hvisited hsub
    dsimp only
    rw [Xmit.serve, if_pos rfl]
    refine ⟨h.linked, fun _ hnot => ?_, nofun⟩
    change List.count _ (s.sent ++ [Receiver.station (s.sta.addr k)]) = 1
    by_cases hjk : j = k
    · have haddr : s.sta.addr k = a := hjk ▸ hj.addr
      rw [haddr, List.count_append, List.count_singleton_self,
        hpending (.inl (hjk ▸ List.mem_cons_self))]
    · have hother : Receiver.station (s.sta.addr k) ≠ .station a := by
        intro haddr
        have huse := s.sta.inUse k (hsub k List.mem_cons_self)
        exact hjk (s.sta.distinct j (s.sta.inUse j hj.list) k huse
          (hj.addr.trans (Receiver.station.inj haddr).symm))
      have hcount := count_sent_other s.sent true hother
      rw [if_pos rfl] at hcount
      rw [hcount]
      exact hvisited rfl fun hmem => (List.mem_cons.mp hmem).elim hjk hnot
  | multicast =>
    rw [hphase] at halone hpending
    refine ⟨h.linked, nofun, fun _ => ?_⟩
    have hcount := count_sent_other s.sent true (nofun : Receiver.all ≠ .station a)
    rw [if_pos rfl] at hcount
    change List.count _ (s.sent ++ [Receiver.all]) + List.count _ (s.sent ++ [Receiver.all]) = 1
    rw [hcount, hpending (.inr (.inr rfl)), List.count_append, halone nofun,
      List.count_singleton_self]

theorem Exactly.step (hsrc : a ≠ src) (hr : Ready s) (hj : Stays j a s) (hm : AtMost j a s)
    (h : Exactly j a s) (hne : e ≠ .leave j) (hgood : e.Good) : Exactly j a (s.step src e) := by
  have hlinked := @linked_step src s e j a hj h.linked hne
  cases e with
  | leave k => exact h.keep hlinked rfl rfl
  | join k b =>
    rw [Xmit.step] at hlinked ⊢
    split
    · next hfree =>
      rw [dif_pos hfree] at hlinked
      exact h.keep hlinked rfl rfl
    · exact h
  | link k => exact h.keep hlinked rfl rfl
  | enter up converts => exact h.enter hj hgood converts
  | proceed copied sent =>
    obtain ⟨rfl, rfl⟩ := hgood
    exact h.proceed hsrc hr hj hm

end Station

/-! ## Delivery -/

/-- Each station that stays, and is not the source, is sent the frame once at most, and once if
nothing fails. Each frame is freed or owned once, and what is touched is allocated. -/
structure Delivered (src : MacAddr) (b : StaPriv) (es : List Event) (s : Xmit) : Prop where
  once : ∀ j ∈ b.asocList, .leave j ∉ es → b.addr j ≠ src → s.served (b.addr j) ≤ 1
  exactly : s.phase = .done → (∀ e ∈ es, e.Good) → ∀ j ∈ b.asocList, b.linked j = true →
    .leave j ∉ es → b.addr j ≠ src → s.served (b.addr j) = 1
  nodup : (s.fates.map Prod.fst).Nodup
  fates : s.phase = .done → (s.fates.map Prod.fst).Perm (List.range (s.copies + 1))
  touched : ∀ t ∈ s.touched, t = true

section Delivery

variable (src : MacAddr) (b : StaPriv) {es : List Event}

theorem ready_start : Ready (Xmit.start b) := ⟨nofun, List.nodup_nil, nofun, rfl⟩

theorem atMost_start (j : ℕ) (a : MacAddr) : AtMost j a (Xmit.start b) :=
  ⟨fun _ => rfl, fun _ => rfl, Nat.zero_le 1⟩

variable {src b}

theorem atMost_run {j : ℕ} (hj : j ∈ b.asocList)
    (hes : Along (Xmit.step src) Kept (Xmit.start b) es) (hstay : .leave j ∉ es) :
    AtMost j (b.addr j) (run (Xmit.step src) (Xmit.start b) es) := by
  have hcond := hes.and_of_forall fun e he => (fun heq => hstay (heq ▸ he) : e ≠ .leave j)
  refine (run_spec _ (fun s => Ready s ∧ Stays j (b.addr j) s ∧ AtMost j (b.addr j) s)
    ?_ ⟨ready_start b, ⟨hj, rfl⟩, atMost_start b j _⟩ hcond).2.2
  rintro s e ⟨hr, hs, hm⟩ ⟨hne, he⟩
  exact ⟨hr.step he, hs.step hne, hm.step hr hs he⟩

theorem exactly_run {j : ℕ} (hj : j ∈ b.asocList) (hlinked : b.linked j = true)
    (hsrc : b.addr j ≠ src) (hes : Along (Xmit.step src) Kept (Xmit.start b) es)
    (hgood : ∀ e ∈ es, e.Good) (hstay : .leave j ∉ es) :
    Exactly j (b.addr j) (run (Xmit.step src) (Xmit.start b) es) := by
  have hcond := hes.and_of_forall fun e he =>
    (⟨fun heq => hstay (heq ▸ he), hgood e he⟩ : e ≠ .leave j ∧ e.Good)
  refine (run_spec _ (fun s => Ready s ∧ Stays j (b.addr j) s ∧ AtMost j (b.addr j) s ∧
    Exactly j (b.addr j) s) ?_
    ⟨ready_start b, ⟨hj, rfl⟩, atMost_start b j _, hlinked, nofun, nofun⟩ hcond).2.2.2
  rintro s e ⟨hr, hs, hm, hx⟩ ⟨⟨hne, hg⟩, he⟩
  exact ⟨hr.step he, hs.step hne, hm.step hr hs he, hx.step hsrc hr hs hm hne hg⟩

theorem range'_concat_perm (n : ℕ) : (List.range' 1 n ++ [0]).Perm (List.range (n + 1)) := by
  rw [List.range_eq_range', List.range'_succ]
  exact List.perm_append_singleton 0 _

theorem Ready.nodup_fates {s : Xmit} (h : Ready s) : (s.fates.map Prod.fst).Nodup := by
  by_cases hd : s.phase = .done
  · rw [h.fates, hd]
    exact (range'_concat_perm s.copies).nodup_iff.mpr List.nodup_range
  · rw [h.fates_open hd]
    exact List.nodup_range'

/-- As long as no station leaves between the listing and its visit, and no copy fails after a
station has been sent the frame, each station is sent it once at most, and each frame is freed or
owned once. -/
theorem mcast_delivered (hes : Along (Xmit.step src) Kept (Xmit.start b) es) :
    Delivered src b es (run (Xmit.step src) (Xmit.start b) es) := by
  have hready := run_spec Kept Ready (fun s e hr he => hr.step he) (ready_start b) hes
  refine ⟨fun j hj hstay _ => (atMost_run hj hes hstay).once, ?_, hready.nodup_fates, ?_,
    hready.touched⟩
  · intro hdone hgood j hj hlinked hstay hsrc
    exact (exactly_run hj hlinked hsrc hes hgood hstay).done hdone
  · intro hdone
    rw [hready.fates, hdone]
    exact range'_concat_perm _

end Delivery

/-! ## Two runs -/

def staAddr (n : UInt8) : MacAddr := macOf 2 0 0 0 0 n

def twoStations : StaPriv where
  addr := fun k => staAddr (UInt8.ofNat (k + 1))
  used := [0, 1]
  linked := fun _ => true
  asocList := [0, 1]
  nodup := by decide
  inUse := by decide
  distinct := by decide
  single := by decide

def bothCopied : List Event :=
  [.enter true true, .proceed true true, .proceed true true, .proceed true true, .proceed true true,
    .proceed true true]

theorem mcast_delivered_both : Delivered (staAddr 9) twoStations bothCopied
    (run (Xmit.step (staAddr 9)) (Xmit.start twoStations) bothCopied) :=
  mcast_delivered (by decide +kernel)

/-- The second copy fails, and the frame goes to all: station 1 is sent it twice. A station that
leaves behind the listing is touched all the same. -/
theorem mcast_twice :
    (run (Xmit.step (staAddr 9)) (Xmit.start twoStations)
        [.enter true true, .proceed true true, .proceed true true, .proceed true true,
          .proceed false true, .proceed true true]).served (staAddr 1) = 2 ∧
      (run (Xmit.step (staAddr 9)) (Xmit.start twoStations)
        [.enter true true, .leave 0, .proceed true true]).touched = [false] := by
  constructor <;> decide +kernel

end Rtl8189.McastUnicast
