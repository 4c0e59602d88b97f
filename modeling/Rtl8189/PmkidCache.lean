import Mathlib.Data.List.FinRange
import Rtl8189.EventRun
import Rtl8189.RecvFrame

/-!
# The PMKSA cache

Sixteen entries and a running index. An entry is in use just when its BSSID is not zero, and
no two entries in use share a BSSID; a look-up therefore sees the cache as a partial map
from BSSIDs to PMKIDs. The index is set to one past an entry that is rewritten and is
wrapped only when it is advanced.
-/
namespace Rtl8189.PmkidCache

open EventRun

def numPmkidCache : ℕ := 16

abbrev Pmkid := Vector UInt8 16

structure RtPmkidList where
  bUsed : Bool
  bssid : MacAddr
  pmkid : Pmkid
deriving DecidableEq

structure SecurityPriv where
  pmkidList : Fin numPmkidCache → RtPmkidList
  pmkidIndex : UInt8

def strZeroMacAddress : MacAddr := Vector.replicate 6 0

def cleared : RtPmkidList := ⟨false, strZeroMacAddress, Vector.replicate 16 0⟩

def first (p : RtPmkidList → Bool) (list : Fin numPmkidCache → RtPmkidList) :
    Option (Fin numPmkidCache) :=
  (List.finRange numPmkidCache).find? fun i => p (list i)

def walked : Option (Fin numPmkidCache) → List ℕ
  | some i => List.range (i + 1)
  | none => List.range numPmkidCache

def holds (bssid : MacAddr) (e : RtPmkidList) : Bool := e.bssid = bssid

def serves (bssid : MacAddr) (e : RtPmkidList) : Bool := e.bUsed ∧ e.bssid = bssid

namespace SecurityPriv

def secIsInPmkidList (c : SecurityPriv) (bssid : MacAddr) : Option (Fin numPmkidCache) :=
  first (serves bssid) c.pmkidList

def lookUp (c : SecurityPriv) (bssid : MacAddr) : Option Pmkid :=
  (c.secIsInPmkidList bssid).map fun i => (c.pmkidList i).pmkid

/-- A store at the index that stands in the driver; one outside the list changes nothing here. -/
def store (list : Fin numPmkidCache → RtPmkidList) (i : ℕ) (e : RtPmkidList) :
    Fin numPmkidCache → RtPmkidList :=
  if h : i < numPmkidCache then Function.update list ⟨i, h⟩ e else list

def setAt (c : SecurityPriv) (bssid : MacAddr) (pmkid : Pmkid) :
    Option (Fin numPmkidCache) → SecurityPriv
  | some i =>
    { pmkidList := Function.update c.pmkidList i { c.pmkidList i with pmkid, bUsed := true }
      pmkidIndex := UInt8.ofNat (i + 1) }
  | none =>
    { pmkidList := store c.pmkidList c.pmkidIndex.toNat ⟨true, bssid, pmkid⟩
      pmkidIndex := if c.pmkidIndex + 1 = 16 then 0 else c.pmkidIndex + 1 }

/-- `_rtw_set_pmksa`. -/
def setPmksa (c : SecurityPriv) (bssid : MacAddr) (pmkid : Pmkid) : SecurityPriv :=
  c.setAt bssid pmkid (first (holds bssid) c.pmkidList)

def delAt (c : SecurityPriv) : Option (Fin numPmkidCache) → SecurityPriv × ℤ
  | some i => ({ c with pmkidList := Function.update c.pmkidList i cleared }, 0)
  | none => (c, -22)

def cfg80211RtwDelPmksa (c : SecurityPriv) (bssid : MacAddr) : SecurityPriv × ℤ :=
  c.delAt (first (holds bssid) c.pmkidList)

def cfg80211RtwSetPmksa (c : SecurityPriv) (linked saeAuth : Bool) (bssid : MacAddr)
    (pmkid : Pmkid) : SecurityPriv × ℤ :=
  if bssid = strZeroMacAddress then (c, -22)
  else if linked = false ∧ saeAuth = false then (c, -22)
  else (c.setPmksa bssid pmkid, 0)

end SecurityPriv

open SecurityPriv

def cfg80211RtwFlushPmksa : SecurityPriv := ⟨fun _ => cleared, 0⟩

/-- A request, with the state of the link and of the authentication at its time. -/
inductive Request where
  | setPmksa (linked saeAuth : Bool) (bssid : MacAddr) (pmkid : Pmkid)
  | delPmksa (bssid : MacAddr)
  | flushPmksa
deriving DecidableEq

def serve (c : SecurityPriv) : Request → SecurityPriv × ℤ
  | .setPmksa linked saeAuth bssid pmkid => c.cfg80211RtwSetPmksa linked saeAuth bssid pmkid
  | .delPmksa bssid => c.cfg80211RtwDelPmksa bssid
  | .flushPmksa => (cfg80211RtwFlushPmksa, 0)

def step (c : SecurityPriv) (r : Request) : SecurityPriv := (serve c r).1

def accesses (c : SecurityPriv) : Request → List ℕ
  | .setPmksa linked saeAuth bssid _ =>
    if bssid = strZeroMacAddress ∨ linked = false ∧ saeAuth = false then []
    else
      match first (holds bssid) c.pmkidList with
      | some i => walked (some i)
      | none => walked none ++ [c.pmkidIndex.toNat]
  | .delPmksa bssid => walked (first (holds bssid) c.pmkidList)
  | .flushPmksa => walked none

/-- What a look-up of `b` is to find after the request, from what it is to find before. A set
for another BSSID displaces `b` where a look-up no longer finds it. -/
def afterwards (c : SecurityPriv) (b : MacAddr) (found : Option Pmkid) :
    Request → Option Pmkid
  | .setPmksa linked saeAuth bssid pmkid =>
    if (serve c (.setPmksa linked saeAuth bssid pmkid)).2 ≠ 0 then found
    else if bssid = b then some pmkid
    else if lookUp (step c (.setPmksa linked saeAuth bssid pmkid)) b = none then none
    else found
  | .delPmksa bssid => if bssid = b then none else found
  | .flushPmksa => none

/-- The PMKID of the latest accepted set for `b`, unless deleted, flushed or displaced since. -/
def latest (b : MacAddr) : SecurityPriv → Option Pmkid → List Request → Option Pmkid
  | _, found, [] => found
  | c, found, r :: rs => latest b (step c r) (afterwards c b found r) rs

def Spares (c : SecurityPriv) : Request → Prop
  | .setPmksa linked saeAuth bssid pmkid =>
    let c' := step c (.setPmksa linked saeAuth bssid pmkid)
    (lookUp c bssid ≠ none → ∀ b ≠ bssid, lookUp c' b = lookUp c b) ∧
      ∃ displaced, ∀ b ≠ bssid, b ≠ displaced → lookUp c' b = lookUp c b
  | .delPmksa bssid => ∀ b ≠ bssid, lookUp (step c (.delPmksa bssid)) b = lookUp c b
  | .flushPmksa => True

structure Kept (rs : List Request) : Prop where
  inside : Along step (fun c r => ∀ i ∈ accesses c r, i < numPmkidCache)
    cfg80211RtwFlushPmksa rs
  single : ∀ i j, ((run step cfg80211RtwFlushPmksa rs).pmkidList i).bUsed →
    ((run step cfg80211RtwFlushPmksa rs).pmkidList j).bUsed →
    ((run step cfg80211RtwFlushPmksa rs).pmkidList i).bssid =
      ((run step cfg80211RtwFlushPmksa rs).pmkidList j).bssid → i = j
  found : ∀ b, lookUp (run step cfg80211RtwFlushPmksa rs) b =
    latest b cfg80211RtwFlushPmksa none rs
  spares : Along step Spares cfg80211RtwFlushPmksa rs

section Loops

variable {p : RtPmkidList → Bool} {list list' : Fin numPmkidCache → RtPmkidList}

theorem first_some {i : Fin numPmkidCache} (h : first p list = some i) : p (list i) := by
  unfold first at h
  have hi := List.find?_some h
  exact hi

theorem first_eq_none_iff : first p list = none ↔ ∀ i, p (list i) = false := by
  unfold first
  simp

theorem first_congr (h : ∀ i, p (list' i) = p (list i)) : first p list' = first p list := by
  unfold first
  simp only [h]

end Loops

/-- An entry in use is one with a BSSID, and has it alone. -/
structure Wf (c : SecurityPriv) : Prop where
  index : c.pmkidIndex.toNat ≤ numPmkidCache
  used : ∀ i, (c.pmkidList i).bUsed = true ↔ (c.pmkidList i).bssid ≠ strZeroMacAddress
  single : ∀ i j, (c.pmkidList i).bUsed → (c.pmkidList j).bUsed →
    (c.pmkidList i).bssid = (c.pmkidList j).bssid → i = j

variable {c : SecurityPriv}

theorem lookUp_eq_none_iff {b : MacAddr} :
    lookUp c b = none ↔ ∀ i, serves b (c.pmkidList i) = false := by
  unfold lookUp secIsInPmkidList
  rw [Option.map_eq_none_iff, first_eq_none_iff]

theorem Wf.lookUp_of_serves (hc : Wf c) {b : MacAddr} {i : Fin numPmkidCache}
    (hi : serves b (c.pmkidList i)) : lookUp c b = some (c.pmkidList i).pmkid := by
  obtain ⟨hiu, hib⟩ := of_decide_eq_true hi
  cases h : c.secIsInPmkidList b with
  | none =>
    have hn := first_eq_none_iff.1 h i
    rw [hi] at hn
    exact absurd hn (by decide)
  | some j =>
    obtain ⟨hju, hjb⟩ := of_decide_eq_true (first_some h)
    have hij : i = j := hc.single i j hiu hju (hib.trans hjb.symm)
    subst hij
    unfold lookUp
    rw [h]
    rfl

theorem lookUp_update {b : MacAddr} {i : Fin numPmkidCache} {e : RtPmkidList} {k : UInt8}
    (hold : serves b (c.pmkidList i) = false) (hnew : serves b e = false) :
    lookUp ⟨Function.update c.pmkidList i e, k⟩ b = lookUp c b := by
  have hsame : ∀ j, serves b (Function.update c.pmkidList i e j) = serves b (c.pmkidList j) := by
    intro j
    by_cases hj : j = i
    · subst hj
      rw [Function.update_self, hold, hnew]
    · rw [Function.update_of_ne hj]
  have hfirst := first_congr hsame
  unfold lookUp secIsInPmkidList
  rw [hfirst]
  cases h : first (serves b) c.pmkidList with
  | none => rfl
  | some j =>
    have hj : j ≠ i := by
      rintro rfl
      have := first_some h
      rw [hold] at this
      exact absurd this (by decide)
    have hsj : Function.update c.pmkidList i e j = c.pmkidList j := by
      rw [Function.update_of_ne hj]
    exact congrArg (fun e : RtPmkidList => some e.pmkid) hsj

theorem serves_false_of_ne {b : MacAddr} {e : RtPmkidList} (h : e.bssid ≠ b) :
    serves b e = false := decide_eq_false fun he => h he.2

theorem serves_cleared (b : MacAddr) : serves b cleared = false :=
  decide_eq_false fun he => absurd he.1 (by decide)

theorem flushed_wf : Wf cfg80211RtwFlushPmksa where
  index := by decide
  used _ := iff_of_false Bool.false_ne_true (not_not_intro rfl)
  single _ _ hi := absurd hi Bool.false_ne_true

theorem lookUp_flushed (b : MacAddr) : lookUp cfg80211RtwFlushPmksa b = none :=
  lookUp_eq_none_iff.2 fun _ => serves_cleared b

theorem Wf.update (hc : Wf c) {i : Fin numPmkidCache} {e : RtPmkidList} {k : UInt8}
    (hk : k.toNat ≤ numPmkidCache) (he : e.bUsed = true ↔ e.bssid ≠ strZeroMacAddress)
    (hother : ∀ j ≠ i, e.bUsed → (c.pmkidList j).bUsed → (c.pmkidList j).bssid ≠ e.bssid) :
    Wf ⟨Function.update c.pmkidList i e, k⟩ where
  index := hk
  used j := by
    by_cases hj : j = i
    · subst hj
      simpa only [Function.update_self] using he
    · simpa only [Function.update_of_ne hj] using hc.used j
  single j l hj hl hjl := by
    by_cases hji : j = i <;> by_cases hli : l = i
    · rw [hji, hli]
    · subst hji
      simp only [Function.update_self, Function.update_of_ne hli] at hj hl hjl
      exact absurd hjl.symm (hother l hli hj hl)
    · subst hli
      simp only [Function.update_self, Function.update_of_ne hji] at hj hl hjl
      exact absurd hjl (hother j hji hl hj)
    · simp only [Function.update_of_ne hji, Function.update_of_ne hli] at hj hl hjl
      exact hc.single j l hj hl hjl

/-- The request is a set that is carried out for a BSSID not in the list, with the index one
past the list. -/
def PastEnd (c : SecurityPriv) : Request → Prop
  | .setPmksa linked saeAuth bssid _ =>
    bssid ≠ strZeroMacAddress ∧ ¬ (linked = false ∧ saeAuth = false) ∧
      first (holds bssid) c.pmkidList = none ∧ c.pmkidIndex.toNat = numPmkidCache
  | _ => False

theorem walked_lt (o : Option (Fin numPmkidCache)) : ∀ i ∈ walked o, i < numPmkidCache := by
  intro i hi
  cases o with
  | none => exact List.mem_range.1 hi
  | some j =>
    have h := List.mem_range.1 hi
    have hj := j.isLt
    omega

/-- The entry that a set of `bssid` writes, of a list that does not hold `bssid` yet. -/
theorem setAt_none (hk : c.pmkidIndex.toNat < numPmkidCache) (bssid : MacAddr) (pmkid : Pmkid) :
    c.setAt bssid pmkid none =
      ⟨Function.update c.pmkidList ⟨c.pmkidIndex.toNat, hk⟩ ⟨true, bssid, pmkid⟩,
        if c.pmkidIndex + 1 = 16 then 0 else c.pmkidIndex + 1⟩ := by
  simp only [setAt, store, dif_pos hk]

theorem next_le {k : UInt8} (hk : k.toNat < numPmkidCache) :
    (if k + 1 = 16 then 0 else k + 1 : UInt8).toNat ≤ numPmkidCache := by
  unfold numPmkidCache at hk ⊢
  split_ifs
  · decide
  · rw [UInt8.toNat_add]
    have : (1 : UInt8).toNat = 1 := rfl
    omega

theorem past_le (i : Fin numPmkidCache) : (UInt8.ofNat (i + 1)).toNat ≤ numPmkidCache := by
  have hi := i.isLt
  unfold numPmkidCache at hi ⊢
  rw [UInt8.toNat_ofNat']
  omega

section Set

variable {bssid : MacAddr}

/-- What one set does, where it stays inside the list: a rewrite of the entry that has the
BSSID, or the store of a new one over the entry at the index. -/
theorem Wf.setPmksa_cases (hc : Wf c) (pmkid : Pmkid) (hb : bssid ≠ strZeroMacAddress)
    (hend : ¬ (first (holds bssid) c.pmkidList = none ∧ c.pmkidIndex.toNat = numPmkidCache)) :
    ∃ i k, c.setPmksa bssid pmkid = ⟨Function.update c.pmkidList i ⟨true, bssid, pmkid⟩, k⟩ ∧
      k.toNat ≤ numPmkidCache ∧
      (lookUp c bssid ≠ none → (c.pmkidList i).bssid = bssid) ∧
      ∀ j ≠ i, (c.pmkidList j).bUsed → (c.pmkidList j).bssid ≠ bssid := by
  cases h : first (holds bssid) c.pmkidList with
  | some i =>
    have hi : (c.pmkidList i).bssid = bssid := of_decide_eq_true (first_some h)
    have hiu : (c.pmkidList i).bUsed := (hc.used i).2 (hi ▸ hb)
    refine ⟨i, UInt8.ofNat (i + 1), ?_, past_le i, fun _ => hi, ?_⟩
    · unfold setPmksa
      rw [h]
      simp only [setAt, hi]
    · intro j hj hju hjb
      exact hj (hc.single j i hju hiu (hjb.trans hi.symm))
  | none =>
    have hk : c.pmkidIndex.toNat < numPmkidCache :=
      lt_of_le_of_ne hc.index fun hk => hend ⟨h, hk⟩
    have hnone : ∀ j, (c.pmkidList j).bssid ≠ bssid :=
      fun j => of_decide_eq_false (first_eq_none_iff.1 h j)
    refine ⟨⟨c.pmkidIndex.toNat, hk⟩, _, ?_, next_le hk, ?_, fun j _ _ => hnone j⟩
    · unfold setPmksa
      rw [h, setAt_none hk]
    · intro hfound
      exact absurd (lookUp_eq_none_iff.2 fun j => serves_false_of_ne (hnone j)) hfound

end Set

section Step

variable {bssid b : MacAddr} {pmkid : Pmkid} {linked saeAuth : Bool}

theorem serve_set_refused (h : bssid = strZeroMacAddress ∨ linked = false ∧ saeAuth = false) :
    serve c (.setPmksa linked saeAuth bssid pmkid) = (c, -22) := by
  simp only [serve, cfg80211RtwSetPmksa]
  obtain h | h := h
  · rw [if_pos h]
  · rw [if_pos h, ite_self]

theorem serve_set (h : ¬ (bssid = strZeroMacAddress ∨ linked = false ∧ saeAuth = false)) :
    serve c (.setPmksa linked saeAuth bssid pmkid) = (c.setPmksa bssid pmkid, 0) := by
  obtain ⟨hb, hl⟩ := not_or.1 h
  simp only [serve, cfg80211RtwSetPmksa, if_neg hb, if_neg hl]

/-- A set that is carried out inside the list, for the BSSIDs other than its own. -/
theorem Wf.set_other (hc : Wf c) (pmkid : Pmkid) (hb : bssid ≠ strZeroMacAddress)
    (hend : ¬ (first (holds bssid) c.pmkidList = none ∧ c.pmkidIndex.toNat = numPmkidCache)) :
    ∃ i : Fin numPmkidCache, (lookUp c bssid ≠ none → (c.pmkidList i).bssid = bssid) ∧
      ∀ b ≠ bssid, (b ≠ (c.pmkidList i).bssid →
          lookUp (c.setPmksa bssid pmkid) b = lookUp c b) ∧
        (lookUp (c.setPmksa bssid pmkid) b = none ∨
          lookUp (c.setPmksa bssid pmkid) b = lookUp c b) := by
  obtain ⟨i, k, hset, -, hpres, hother⟩ := hc.setPmksa_cases pmkid hb hend
  refine ⟨i, hpres, fun b hbb => ?_⟩
  have hnew : serves b ⟨true, bssid, pmkid⟩ = false := serves_false_of_ne (Ne.symm hbb)
  have hkeep : b ≠ (c.pmkidList i).bssid →
      lookUp (c.setPmksa bssid pmkid) b = lookUp c b := by
    intro hbi
    rw [hset]
    exact lookUp_update (serves_false_of_ne (Ne.symm hbi)) hnew
  refine ⟨hkeep, ?_⟩
  by_cases hbi : b = (c.pmkidList i).bssid
  · cases hold : serves b (c.pmkidList i) with
    | false =>
      refine Or.inr ?_
      rw [hset]
      exact lookUp_update hold hnew
    | true =>
      refine Or.inl (lookUp_eq_none_iff.2 fun j => ?_)
      rw [hset]
      obtain ⟨hiu, hib⟩ := of_decide_eq_true hold
      by_cases hj : j = i
      · subst hj
        simpa only [Function.update_self] using hnew
      · simp only [Function.update_of_ne hj]
        refine decide_eq_false fun hser => hj ?_
        exact hc.single j i hser.1 hiu (hser.2.trans hib.symm)
  · exact Or.inr (hkeep hbi)

theorem Wf.setPmksa (hc : Wf c) (hb : bssid ≠ strZeroMacAddress)
    (hend : ¬ (first (holds bssid) c.pmkidList = none ∧ c.pmkidIndex.toNat = numPmkidCache)) :
    Wf (c.setPmksa bssid pmkid) ∧ lookUp (c.setPmksa bssid pmkid) bssid = some pmkid := by
  obtain ⟨i, k, hset, hk, -, hother⟩ := hc.setPmksa_cases pmkid hb hend
  have hwf : Wf (c.setPmksa bssid pmkid) := by
    rw [hset]
    exact hc.update hk (iff_of_true rfl hb) fun j hj _ => hother j hj
  refine ⟨hwf, ?_⟩
  have hi : (c.setPmksa bssid pmkid).pmkidList i = ⟨true, bssid, pmkid⟩ := by
    rw [hset]
    exact Function.update_self ..
  have hserves : serves bssid ((c.setPmksa bssid pmkid).pmkidList i) := by
    rw [hi]
    exact decide_eq_true ⟨rfl, rfl⟩
  rw [hwf.lookUp_of_serves hserves, hi]

theorem Wf.del (hc : Wf c) (bssid : MacAddr) :
    Wf (c.cfg80211RtwDelPmksa bssid).1 ∧
      ∀ b, lookUp (c.cfg80211RtwDelPmksa bssid).1 b =
        if bssid = b then none else lookUp c b := by
  unfold cfg80211RtwDelPmksa
  cases h : first (holds bssid) c.pmkidList with
  | none =>
    have hnone := first_eq_none_iff.1 h
    refine ⟨hc, fun b => ?_⟩
    split_ifs with hb
    · subst hb
      exact lookUp_eq_none_iff.2 fun j => serves_false_of_ne (of_decide_eq_false (hnone j))
    · rfl
  | some i =>
    have hi : (c.pmkidList i).bssid = bssid := of_decide_eq_true (first_some h)
    refine ⟨hc.update hc.index (by decide) fun _ _ he => absurd he (by decide), fun b => ?_⟩
    split_ifs with hb
    · subst hb
      refine lookUp_eq_none_iff.2 fun j => ?_
      by_cases hj : j = i
      · subst hj
        simpa only [delAt, Function.update_self] using serves_cleared bssid
      · simp only [delAt, Function.update_of_ne hj]
        refine decide_eq_false fun hser => hj ?_
        have hne : (c.pmkidList i).bssid ≠ strZeroMacAddress := by
          rw [hi, ← hser.2]
          exact (hc.used j).1 hser.1
        exact hc.single j i hser.1 ((hc.used i).2 hne) (hser.2.trans hi.symm)
    · refine lookUp_update (serves_false_of_ne ?_) (serves_cleared b)
      rw [hi]
      exact hb

theorem Wf.after (hc : Wf c) {r : Request} (hr : ¬ PastEnd c r) : Wf (step c r) := by
  cases r with
  | setPmksa linked saeAuth bssid pmkid =>
    unfold step
    by_cases h : bssid = strZeroMacAddress ∨ linked = false ∧ saeAuth = false
    · rw [serve_set_refused h]
      exact hc
    · rw [serve_set h]
      obtain ⟨hb, hl⟩ := not_or.1 h
      exact (hc.setPmksa hb fun hend => hr ⟨hb, hl, hend⟩).1
  | delPmksa bssid => exact (hc.del bssid).1
  | flushPmksa => exact flushed_wf

theorem Wf.lookUp_step (hc : Wf c) {r : Request} (hr : ¬ PastEnd c r) (b : MacAddr) :
    lookUp (step c r) b = afterwards c b (lookUp c b) r := by
  cases r with
  | setPmksa linked saeAuth bssid pmkid =>
    by_cases h : bssid = strZeroMacAddress ∨ linked = false ∧ saeAuth = false
    · simp [afterwards, step, serve_set_refused h]
    · obtain ⟨hb, hl⟩ := not_or.1 h
      have hend := fun hend => hr ⟨hb, hl, hend⟩
      simp only [afterwards, step, serve_set h, ne_eq, not_true_eq_false, if_false]
      split_ifs with hbb hlost
      · subst hbb
        exact (hc.setPmksa hb hend).2
      · exact hlost
      · obtain ⟨i, -, hother⟩ := hc.set_other pmkid hb hend
        exact (hother b (Ne.symm hbb)).2.resolve_left hlost
  | delPmksa bssid => exact (hc.del bssid).2 b
  | flushPmksa => exact lookUp_flushed b

theorem Wf.spares (hc : Wf c) {r : Request} (hr : ¬ PastEnd c r) : Spares c r := by
  cases r with
  | setPmksa linked saeAuth bssid pmkid =>
    by_cases h : bssid = strZeroMacAddress ∨ linked = false ∧ saeAuth = false
    · simp [Spares, step, serve_set_refused h]
    · obtain ⟨hb, hl⟩ := not_or.1 h
      obtain ⟨i, hpres, hother⟩ :=
        hc.set_other pmkid hb fun hend => hr ⟨hb, hl, hend⟩
      simp only [Spares, step, serve_set h]
      refine ⟨fun hfound b hbb => (hother b hbb).1 ?_, (c.pmkidList i).bssid, ?_⟩
      · rw [hpres hfound]
        exact hbb
      · intro b hbb hbi
        exact (hother b hbb).1 hbi
  | delPmksa bssid =>
    intro b hbb
    change lookUp (c.cfg80211RtwDelPmksa bssid).1 b = _
    rw [(hc.del bssid).2 b, if_neg (Ne.symm hbb)]
  | flushPmksa => trivial

theorem Wf.accesses_iff (hc : Wf c) (r : Request) :
    (∀ i ∈ accesses c r, i < numPmkidCache) ↔ ¬ PastEnd c r := by
  cases r with
  | setPmksa linked saeAuth bssid pmkid =>
    by_cases h : bssid = strZeroMacAddress ∨ linked = false ∧ saeAuth = false
    · refine iff_of_true ?_ fun hp => h.elim hp.1 hp.2.1
      simp [accesses, if_pos h]
    · obtain ⟨hb, hl⟩ := not_or.1 h
      simp only [accesses, if_neg h, PastEnd]
      cases hf : first (holds bssid) c.pmkidList with
      | some i => exact iff_of_true (walked_lt _) (by simp)
      | none =>
        have hle := hc.index
        constructor
        · rintro hin ⟨-, -, -, hk⟩
          have := hin c.pmkidIndex.toNat (List.mem_append_right _ List.mem_cons_self)
          omega
        · intro hp i hi
          obtain hi | hi := List.mem_append.1 hi
          · exact walked_lt none i hi
          · rw [List.mem_singleton.1 hi]
            exact lt_of_le_of_ne hle fun hk => hp ⟨hb, hl, rfl, hk⟩
  | delPmksa bssid => exact iff_of_true (walked_lt _) id
  | flushPmksa => exact iff_of_true (walked_lt none) id

end Step

theorem Wf.after_run (hc : Wf c) {rs : List Request}
    (hrs : Along step (fun c r => ¬ PastEnd c r) c rs) : Wf (run step c rs) :=
  run_spec (fun c r => ¬ PastEnd c r) Wf (fun _ _ hc hr => hc.after hr) hc hrs

theorem Wf.lookUp_run (hc : Wf c) {rs : List Request}
    (hrs : Along step (fun c r => ¬ PastEnd c r) c rs) (b : MacAddr) :
    lookUp (run step c rs) b = latest b c (lookUp c b) rs := by
  induction rs generalizing c with
  | nil => rfl
  | cons r rs ih =>
    rw [run_cons, ih (hc.after hrs.1) hrs.2, hc.lookUp_step hrs.1]
    rfl

theorem kept_of_along {rs : List Request}
    (hrs : Along step (fun c r => ¬ PastEnd c r) cfg80211RtwFlushPmksa rs) : Kept rs where
  inside := hrs.of_invariant Wf (fun _ _ hc hr => hc.after hr)
    (fun _ r hc hr => (hc.accesses_iff r).2 hr) flushed_wf
  single := (flushed_wf.after_run hrs).single
  found b := by
    rw [flushed_wf.lookUp_run hrs, lookUp_flushed]
  spares := hrs.of_invariant Wf (fun _ _ hc hr => hc.after hr)
    (fun _ _ hc hr => hc.spares hr) flushed_wf

/-- The cache does what it is for along a run from the flushed list just when no set for a
new BSSID is carried out with the index one past the list. -/
theorem cache_kept_iff (rs : List Request) :
    (∀ n, Kept (rs.take n)) ↔
      Along step (fun c r => ¬ PastEnd c r) cfg80211RtwFlushPmksa rs := by
  constructor
  · intro h
    have hall := (h rs.length).inside
    rw [List.take_length] at hall
    exact hall.of_invariant Wf (fun _ r hc hr => hc.after ((hc.accesses_iff r).1 hr))
      (fun _ r hc hr => (hc.accesses_iff r).1 hr) flushed_wf
  · intro h n
    exact kept_of_along (h.take n)

def ap (n : UInt8) : MacAddr := macOf 2 0 0 0 0 n

/-- Sixteen access points, the last of them again, and one more. -/
def overrunRequests : List Request :=
  ((List.range 16).map fun n =>
      .setPmksa true false (ap (UInt8.ofNat n)) (Vector.replicate 16 1)) ++
    [.setPmksa true false (ap 15) (Vector.replicate 16 2),
      .setPmksa true false (ap 16) (Vector.replicate 16 3)]

theorem overrun_not_kept : ¬ ∀ n, Kept (overrunRequests.take n) := by
  intro h
  have hin := (h 18).inside
  revert hin
  decide +kernel

end Rtl8189.PmkidCache
