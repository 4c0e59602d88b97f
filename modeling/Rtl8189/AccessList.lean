import Mathlib.Data.Fintype.Card
import Mathlib.Data.List.FinRange
import Rtl8189.EventRun
import Rtl8189.RecvFrame

/-!
# The access lists

A pool keeps its addresses in an array of nodes. The nodes in use are marked, counted and
threaded on a queue; what the three say together is a finite set of addresses.
-/
namespace Rtl8189.AccessList

open EventRun

def numAcl : ℕ := 16

def aclPeriodNum : ℕ := 2

def modeDisabled : ℤ := 0

def modeAcceptUnlessListed : ℤ := 1

def modeDenyUnlessListed : ℤ := 2

structure AclNode where
  addr : MacAddr
  valid : Bool

structure AclPool where
  mode : ℤ
  num : ℤ
  aclnode : Fin numAcl → AclNode
  aclNodeQ : List (Fin numAcl)

/-- `acl_list` of the station private data. -/
abbrev StaPriv := Fin aclPeriodNum → AclPool

namespace AclPool

def holds (acl : AclPool) (addr : MacAddr) (i : Fin numAcl) : Bool :=
  (acl.aclnode i).addr = addr ∧ (acl.aclnode i).valid

def init (acl : AclPool) : AclPool where
  mode := modeDisabled
  num := 0
  aclnode i := { acl.aclnode i with valid := false }
  aclNodeQ := []

def push (acl : AclPool) (addr : MacAddr) (i : Fin numAcl) : AclPool :=
  { acl with
    num := acl.num + 1
    aclnode := Function.update acl.aclnode i { addr, valid := true }
    aclNodeQ := acl.aclNodeQ ++ [i] }

def drop (acl : AclPool) (i : Fin numAcl) : AclPool :=
  { acl with
    num := acl.num - 1
    aclnode := Function.update acl.aclnode i { acl.aclnode i with valid := false }
    aclNodeQ := acl.aclNodeQ.erase i }

/-- The walk over the queue that takes off what `p` selects. The next node is read before. -/
def dropFrom (p : MacAddr → Bool) : List (Fin numAcl) → AclPool → AclPool
  | [], acl => acl
  | i :: l, acl =>
    dropFrom p l (if p (acl.aclnode i).addr ∧ (acl.aclnode i).valid then acl.drop i else acl)

end AclPool

def rtwMacaddrAclClear (acl : AclPool) : AclPool :=
  { acl.dropFrom (fun _ => true) acl.aclNodeQ with mode := modeDisabled }

def rtwSetMacaddrAcl (acl : AclPool) (mode : ℤ) : AclPool := { acl with mode }

def rtwAclAddSta (acl : AclPool) (addr : MacAddr) : AclPool × ℤ :=
  if acl.aclNodeQ.any (acl.holds addr) then (acl, 0)
  else if numAcl ≤ acl.num then (acl, -1)
  else
    match (List.finRange numAcl).find? fun i => !(acl.aclnode i).valid with
    | none => (acl, -1)
    | some i => (acl.push addr i, 0)

def broadcast : MacAddr := macOf 0xff 0xff 0xff 0xff 0xff 0xff

/-- `rtw_acl_remove_sta`. The broadcast address stands for all. -/
def rtwAclRemoveSta (acl : AclPool) (addr : MacAddr) : AclPool :=
  acl.dropFrom (fun a => addr = broadcast ∨ a = addr) acl.aclNodeQ

def accessCtrlOf (acl : AclPool) (macAddr : MacAddr) : Bool :=
  if acl.mode ≠ modeAcceptUnlessListed ∧ acl.mode ≠ modeDenyUnlessListed then true
  else
    let found := acl.aclNodeQ.any (acl.holds macAddr)
    if acl.mode = modeAcceptUnlessListed then !found else found

def rtwAccessCtrl (s : StaPriv) (macAddr : MacAddr) : Bool :=
  (List.finRange aclPeriodNum).all fun period => accessCtrlOf (s period) macAddr

/-- A call with the period that it names, which need not be one. -/
inductive Call where
  | add (period : ℕ) (addr : MacAddr)
  | remove (period : ℕ) (addr : MacAddr)
  | clear (period : ℕ)
  | setMode (period : ℕ) (mode : ℤ)

def Call.period : Call → ℕ
  | .add period _ => period
  | .remove period _ => period
  | .clear period => period
  | .setMode period _ => period

def Call.apply : Call → AclPool → AclPool
  | .add _ addr, acl => (rtwAclAddSta acl addr).1
  | .remove _ addr, acl => rtwAclRemoveSta acl addr
  | .clear _, acl => rtwMacaddrAclClear acl
  | .setMode _ mode, acl => rtwSetMacaddrAcl acl mode

def step (s : StaPriv) (c : Call) : StaPriv :=
  if h : c.period < aclPeriodNum then Function.update s ⟨c.period, h⟩ (c.apply (s ⟨c.period, h⟩))
  else s

/-! ## The sets -/

/-- What an access list is for: a bounded set of addresses, and how it is read. -/
structure Listing where
  mode : ℤ := modeDisabled
  addrs : Finset MacAddr := ∅

def Listing.apply (t : Listing) : Call → Listing
  | .add _ addr =>
    if addr ∈ t.addrs ∨ t.addrs.card < numAcl then { t with addrs := insert addr t.addrs } else t
  | .remove _ addr =>
    { t with addrs := if addr = broadcast then ∅ else t.addrs.erase addr }
  | .clear _ => {}
  | .setMode _ mode => { t with mode }

def Listing.allows (t : Listing) (addr : MacAddr) : Prop :=
  (t.mode = modeAcceptUnlessListed → addr ∉ t.addrs) ∧
    (t.mode = modeDenyUnlessListed → addr ∈ t.addrs)

def listStep (t : Fin aclPeriodNum → Listing) (c : Call) : Fin aclPeriodNum → Listing :=
  if h : c.period < aclPeriodNum then Function.update t ⟨c.period, h⟩ ((t ⟨c.period, h⟩).apply c)
  else t

/-- The nodes on the queue are those in use, each once and with an address of its own. -/
structure Sound (acl : AclPool) : Prop where
  nodup : acl.aclNodeQ.Nodup
  valid : ∀ i, i ∈ acl.aclNodeQ ↔ (acl.aclnode i).valid = true
  distinct : (acl.aclNodeQ.map fun i => (acl.aclnode i).addr).Nodup
  num : acl.num = acl.aclNodeQ.length

def members (acl : AclPool) : Finset MacAddr :=
  (acl.aclNodeQ.map fun i => (acl.aclnode i).addr).toFinset

/-- The pool is the set: the queue, the marks and the count say the same. -/
structure Refines (acl : AclPool) (t : Listing) : Prop where
  sound : Sound acl
  addrs : members acl = t.addrs
  mode : acl.mode = t.mode

variable {acl : AclPool} {addr : MacAddr}

theorem mem_members : addr ∈ members acl ↔ ∃ i ∈ acl.aclNodeQ, (acl.aclnode i).addr = addr := by
  rw [members, List.mem_toFinset, List.mem_map]

theorem Sound.holds_iff (h : Sound acl) :
    acl.aclNodeQ.any (acl.holds addr) = true ↔ addr ∈ members acl := by
  rw [List.any_eq_true, mem_members]
  refine exists_congr fun i => and_congr_right fun hi => ?_
  rw [AclPool.holds, decide_eq_true_iff]
  exact and_iff_left ((h.valid i).mp hi)

theorem Sound.card (h : Sound acl) : (members acl).card = acl.aclNodeQ.length := by
  rw [members, List.toFinset_card_of_nodup h.distinct, List.length_map]

theorem Sound.inUse (h : Sound acl) :
    (Finset.univ.filter fun i => (acl.aclnode i).valid = true).card = acl.aclNodeQ.length := by
  have hset : (Finset.univ.filter fun i => (acl.aclnode i).valid = true) = acl.aclNodeQ.toFinset := by
    ext i
    rw [Finset.mem_filter, List.mem_toFinset, h.valid i]
    exact and_iff_right (Finset.mem_univ i)
  rw [hset, List.toFinset_card_of_nodup h.nodup]

theorem Sound.card_le (h : Sound acl) : (members acl).card ≤ numAcl := by
  rw [h.card, ← h.inUse]
  exact (Finset.card_le_univ _).trans (Nat.le_of_eq (Fintype.card_fin numAcl))

theorem Sound.free_iff (h : Sound acl) :
    (∃ i, (acl.aclnode i).valid = false) ↔ (members acl).card < numAcl := by
  constructor
  · rintro ⟨i, hi⟩
    rw [h.card, ← h.inUse]
    have hlt := Finset.card_lt_univ_of_notMem (s := Finset.univ.filter
      fun i => (acl.aclnode i).valid = true) (x := i) (by simp [hi])
    rwa [Fintype.card_fin] at hlt
  · intro hlt
    by_contra hnone
    have hall : ∀ i, (acl.aclnode i).valid = true := fun i => by
      by_contra hi
      exact hnone ⟨i, eq_false_of_ne_true hi⟩
    rw [h.card, ← h.inUse, Finset.filter_true_of_mem fun i _ => hall i, Finset.card_univ,
      Fintype.card_fin] at hlt
    exact Nat.lt_irrefl _ hlt

/-! ## Taking off -/

theorem drop_addr (acl : AclPool) (i j : Fin numAcl) :
    ((acl.drop i).aclnode j).addr = (acl.aclnode j).addr := by
  by_cases hj : j = i
  · subst hj
    simp [AclPool.drop]
  · simp [AclPool.drop, hj]

theorem Sound.drop (h : Sound acl) {i : Fin numAcl} (hi : i ∈ acl.aclNodeQ) :
    Sound (acl.drop i) := by
  refine ⟨h.nodup.erase i, ?_, ?_, ?_⟩
  · intro j
    by_cases hj : j = i
    · subst hj
      simp [AclPool.drop, h.nodup.mem_erase_iff]
    · simp [AclPool.drop, hj, h.nodup.mem_erase_iff, h.valid j]
  · simp only [drop_addr]
    exact h.distinct.sublist (List.Sublist.map _ List.erase_sublist)
  · have hpos := List.length_pos_of_mem hi
    change acl.num - 1 = ((acl.aclNodeQ.erase i).length : ℤ)
    rw [List.length_erase_of_mem hi, h.num]
    omega

structure Dropped (p : MacAddr → Bool) (l : List (Fin numAcl)) (acl out : AclPool) : Prop where
  sound : Sound out
  mode : out.mode = acl.mode
  addr : ∀ i, (out.aclnode i).addr = (acl.aclnode i).addr
  queue : ∀ i, i ∈ out.aclNodeQ ↔ i ∈ acl.aclNodeQ ∧ ¬ (i ∈ l ∧ p (acl.aclnode i).addr = true)

theorem dropFrom_dropped (p : MacAddr → Bool) {l : List (Fin numAcl)} (h : Sound acl)
    (hl : l.Nodup) (hsub : ∀ i ∈ l, i ∈ acl.aclNodeQ) : Dropped p l acl (acl.dropFrom p l) := by
  induction l generalizing acl with
  | nil => exact ⟨h, rfl, fun _ => rfl, by simp [AclPool.dropFrom]⟩
  | cons i l ih =>
    obtain ⟨hil, hl⟩ := List.nodup_cons.mp hl
    obtain ⟨hi, hsub⟩ := List.forall_mem_cons.mp hsub
    have hvalid := (h.valid i).mp hi
    rw [AclPool.dropFrom]
    by_cases hp : p (acl.aclnode i).addr = true
    · rw [if_pos ⟨hp, hvalid⟩]
      have hmem : ∀ j ∈ l, j ∈ (acl.drop i).aclNodeQ := fun j hj =>
        h.nodup.mem_erase_iff.mpr ⟨fun heq => hil (heq ▸ hj), hsub j hj⟩
      obtain ⟨hsound, hmode, haddr, hqueue⟩ := ih (h.drop hi) hl hmem
      refine ⟨hsound, hmode, fun j => (haddr j).trans (drop_addr acl i j), fun j => ?_⟩
      rw [hqueue, drop_addr]
      change j ∈ acl.aclNodeQ.erase i ∧ _ ↔ _
      rw [h.nodup.mem_erase_iff, List.mem_cons]
      by_cases hj : j = i
      · subst hj
        simp [hp]
      · simp [hj]
    · rw [if_neg fun hand => hp hand.1]
      obtain ⟨hsound, hmode, haddr, hqueue⟩ := ih h hl hsub
      refine ⟨hsound, hmode, haddr, fun j => ?_⟩
      rw [hqueue, List.mem_cons]
      by_cases hj : j = i
      · subst hj
        simp [hp]
      · simp [hj]

theorem Dropped.members {p : MacAddr → Bool} {out : AclPool}
    (h : Dropped p acl.aclNodeQ acl out) :
    members out = (members acl).filter fun a => ¬ p a = true := by
  ext a
  rw [Finset.mem_filter, mem_members, mem_members]
  constructor
  · rintro ⟨i, hi, rfl⟩
    rw [h.addr]
    obtain ⟨hold, hnot⟩ := (h.queue i).mp hi
    exact ⟨⟨i, hold, rfl⟩, fun hp => hnot ⟨hold, hp⟩⟩
  · rintro ⟨⟨i, hi, rfl⟩, hp⟩
    exact ⟨i, (h.queue i).mpr ⟨hi, fun hand => hp hand.2⟩, h.addr i⟩

/-! ## Adding -/

theorem push_addrs {i : Fin numAcl} (h : i ∉ acl.aclNodeQ) :
    ((acl.push addr i).aclNodeQ.map fun j => ((acl.push addr i).aclnode j).addr) =
      (acl.aclNodeQ.map fun j => (acl.aclnode j).addr) ++ [addr] := by
  have hold : ∀ j ∈ acl.aclNodeQ,
      ((acl.push addr i).aclnode j).addr = (acl.aclnode j).addr := by
    intro j hj
    have hne : j ≠ i := fun heq => h (heq ▸ hj)
    simp [AclPool.push, hne]
  have hnew : ((acl.push addr i).aclnode i).addr = addr := by simp [AclPool.push]
  change (acl.aclNodeQ ++ [i]).map _ = _
  rw [List.map_append, List.map_congr_left hold, List.map_singleton, hnew]

theorem push_members {i : Fin numAcl} (h : i ∉ acl.aclNodeQ) :
    members (acl.push addr i) = insert addr (members acl) := by
  rw [members, push_addrs h, members, List.toFinset_append]
  ext a
  simp

theorem Sound.push (h : Sound acl) {i : Fin numAcl} (hi : (acl.aclnode i).valid = false)
    (hnew : addr ∉ members acl) : Sound (acl.push addr i) := by
  have hnot : i ∉ acl.aclNodeQ := fun hmem => by
    have hvalid := (h.valid i).mp hmem
    rw [hi] at hvalid
    exact Bool.false_ne_true hvalid
  refine ⟨?_, ?_, ?_, ?_⟩
  · exact h.nodup.append (List.nodup_singleton i)
      (List.disjoint_singleton.mpr hnot)
  · intro j
    by_cases hj : j = i
    · subst hj
      simp [AclPool.push]
    · simp [AclPool.push, hj, h.valid j]
  · rw [push_addrs hnot]
    refine h.distinct.append (List.nodup_singleton addr) (List.disjoint_singleton.mpr ?_)
    rwa [members, List.mem_toFinset] at hnew
  · change acl.num + 1 = ((acl.aclNodeQ ++ [i]).length : ℤ)
    rw [h.num, List.length_append]
    rfl

structure Added (acl : AclPool) (addr : MacAddr) (out : AclPool × ℤ) : Prop where
  sound : Sound out.1
  mode : out.1.mode = acl.mode
  members : members out.1 = if addr ∈ members acl ∨ (members acl).card < numAcl then
    insert addr (members acl) else members acl
  ret : out.2 = 0 ↔ addr ∈ AccessList.members acl ∨ ∃ i, (acl.aclnode i).valid = false

theorem rtwAclAddSta_added (h : Sound acl) (addr : MacAddr) :
    Added acl addr (rtwAclAddSta acl addr) := by
  have hnum : acl.num = (members acl).card := by rw [h.num, h.card]
  rw [rtwAclAddSta]
  by_cases hmem : addr ∈ members acl
  · rw [if_pos (h.holds_iff.mpr hmem)]
    refine ⟨h, rfl, ?_, iff_of_true rfl (.inl hmem)⟩
    rw [if_pos (.inl hmem), Finset.insert_eq_of_mem hmem]
  · rw [if_neg fun hany => hmem (h.holds_iff.mp hany)]
    by_cases hfull : numAcl ≤ (members acl).card
    · have hnone : ¬ (addr ∈ members acl ∨ (members acl).card < numAcl) := by
        rintro (hin | hlt)
        · exact hmem hin
        · exact absurd hlt (Nat.not_lt_of_le hfull)
      rw [if_pos (by rw [hnum]; exact_mod_cast hfull)]
      have hret : (-1 : ℤ) ≠ 0 := by decide
      refine ⟨h, rfl, (if_neg hnone).symm, iff_of_false hret ?_⟩
      rw [h.free_iff]
      exact hnone
    · have hroom : (members acl).card < numAcl := Nat.lt_of_not_le hfull
      rw [if_neg (by rw [hnum]; exact_mod_cast hfull)]
      cases hfind : (List.finRange numAcl).find? fun i => !(acl.aclnode i).valid with
      | none =>
        obtain ⟨i, hi⟩ := h.free_iff.mpr hroom
        have hused := List.find?_eq_none.mp hfind i (List.mem_finRange i)
        rw [hi] at hused
        exact absurd rfl hused
      | some i =>
        have hfree := List.find?_some hfind
        have hi : (acl.aclnode i).valid = false := by simpa using hfree
        have hnot : i ∉ acl.aclNodeQ := fun hin => by
          rw [(h.valid i).mp hin] at hi
          exact Bool.false_ne_true hi.symm
        refine ⟨h.push hi hmem, rfl, ?_, iff_of_true rfl (.inr ⟨i, hi⟩)⟩
        rw [if_pos (.inr hroom)]
        exact push_members hnot

/-! ## Every call -/

theorem apply_refines {t : Listing} (h : Refines acl t) (c : Call) :
    Refines (c.apply acl) (t.apply c) := by
  obtain ⟨hsound, haddrs, hmode⟩ := h
  cases c with
  | add period addr =>
    obtain ⟨hs, hm, hmem, -⟩ := rtwAclAddSta_added hsound addr
    rw [haddrs] at hmem
    refine ⟨hs, ?_, ?_⟩
    · change members (rtwAclAddSta acl addr).1 = _
      rw [hmem, Listing.apply]
      split_ifs <;> rfl
    · change (rtwAclAddSta acl addr).1.mode = _
      rw [hm, hmode, Listing.apply]
      split_ifs <;> rfl
  | remove period addr =>
    have hdrop := dropFrom_dropped (fun a => addr = broadcast ∨ a = addr) hsound hsound.nodup
      fun _ hi => hi
    refine ⟨hdrop.sound, ?_, hdrop.mode.trans hmode⟩
    refine hdrop.members.trans ?_
    rw [haddrs, Listing.apply]
    by_cases hbroad : addr = broadcast
    · simp [hbroad]
    · simp only [hbroad, false_or, if_false]
      ext a
      simp [and_comm]
  | clear period =>
    have hdrop := dropFrom_dropped (fun _ => true) hsound hsound.nodup fun _ hi => hi
    refine ⟨⟨hdrop.sound.nodup, hdrop.sound.valid, hdrop.sound.distinct, hdrop.sound.num⟩, ?_, rfl⟩
    refine hdrop.members.trans ?_
    simp [Listing.apply]
  | setMode period mode =>
    exact ⟨⟨hsound.nodup, hsound.valid, hsound.distinct, hsound.num⟩, haddrs, rfl⟩

theorem step_refines {s : StaPriv} {t : Fin aclPeriodNum → Listing}
    (h : ∀ period, Refines (s period) (t period)) (c : Call) (period : Fin aclPeriodNum) :
    Refines (step s c period) (listStep t c period) := by
  rw [step, listStep]
  by_cases hc : c.period < aclPeriodNum
  · rw [dif_pos hc, dif_pos hc]
    by_cases hp : period = ⟨c.period, hc⟩
    · subst hp
      rw [Function.update_self, Function.update_self]
      exact apply_refines (h _) c
    · rw [Function.update_of_ne hp, Function.update_of_ne hp]
      exact h period
  · rw [dif_neg hc, dif_neg hc]
    exact h period

theorem init_refines (acl : AclPool) : Refines acl.init {} where
  sound := ⟨List.nodup_nil, fun _ => iff_of_false List.not_mem_nil Bool.false_ne_true,
    List.nodup_nil, rfl⟩
  addrs := rfl
  mode := rfl

theorem run_refines {s : StaPriv} {t : Fin aclPeriodNum → Listing}
    (h : ∀ period, Refines (s period) (t period)) (calls : List Call) (period : Fin aclPeriodNum) :
    Refines (run step s calls period) (run listStep t calls period) := by
  induction calls generalizing s t with
  | nil => exact h period
  | cons c calls ih => exact ih (step_refines h c)

theorem accessCtrlOf_iff {t : Listing} (h : Refines acl t) (addr : MacAddr) :
    accessCtrlOf acl addr = true ↔ t.allows addr := by
  have hany : acl.aclNodeQ.any (acl.holds addr) = true ↔ addr ∈ t.addrs := by
    rw [h.sound.holds_iff, h.addrs]
  rw [accessCtrlOf, Listing.allows, ← h.mode]
  by_cases haccept : acl.mode = modeAcceptUnlessListed
  · have hdeny : acl.mode ≠ modeDenyUnlessListed := by
      rw [haccept]
      decide
    rw [if_neg fun hother => hother.1 haccept]
    dsimp only
    rw [if_pos haccept, Bool.not_eq_true', ← Bool.not_eq_true, hany]
    exact ⟨fun hout => ⟨fun _ => hout, fun hmode => absurd hmode hdeny⟩, fun hand => hand.1 haccept⟩
  · by_cases hdeny : acl.mode = modeDenyUnlessListed
    · rw [if_neg fun hother => hother.2 hdeny]
      dsimp only
      rw [if_neg haccept, hany]
      exact ⟨fun hin => ⟨fun hmode => absurd hmode haccept, fun _ => hin⟩, fun hand => hand.2 hdeny⟩
    · rw [if_pos ⟨haccept, hdeny⟩]
      exact iff_of_true rfl ⟨fun hmode => absurd hmode haccept, fun hmode => absurd hmode hdeny⟩

theorem rtwAccessCtrl_iff {s : StaPriv} {t : Fin aclPeriodNum → Listing}
    (h : ∀ period, Refines (s period) (t period)) (addr : MacAddr) :
    rtwAccessCtrl s addr = true ↔ ∀ period, (t period).allows addr := by
  rw [rtwAccessCtrl, List.all_eq_true]
  constructor
  · intro hall period
    exact (accessCtrlOf_iff (h period) addr).mp (hall period (List.mem_finRange period))
  · intro hall period _
    exact (accessCtrlOf_iff (h period) addr).mpr (hall period)

/-- After any calls each list is its set, of at most `NUM_ACL` addresses; an add succeeds when
the address is in it or a node is free, and access is decided by the sets and their modes. -/
theorem access_list_is_set (start : StaPriv) (calls : List Call) :
    let s := run step (fun period => (start period).init) calls
    let t := run listStep (fun _ => {}) calls
    (∀ period, Refines (s period) (t period) ∧ (t period).addrs.card ≤ numAcl ∧
      (s period).num = (Finset.univ.filter fun i => ((s period).aclnode i).valid = true).card) ∧
    (∀ period addr, (rtwAclAddSta (s period) addr).2 = 0 ↔
      addr ∈ (t period).addrs ∨ ∃ i, ((s period).aclnode i).valid = false) ∧
    ∀ addr, rtwAccessCtrl s addr = true ↔ ∀ period, (t period).allows addr := by
  intro s t
  have h : ∀ period, Refines (s period) (t period) :=
    run_refines (fun period => init_refines (start period)) calls
  refine ⟨fun period => ⟨h period, ?_, ?_⟩, fun period addr => ?_, rtwAccessCtrl_iff h⟩
  · rw [← (h period).addrs]
    exact (h period).sound.card_le
  · rw [(h period).sound.inUse, (h period).sound.num]
  · rw [(rtwAclAddSta_added (h period).sound addr).ret, (h period).addrs]

end Rtl8189.AccessList
